/-
# Damaged tags are found where they are

A stream that decodes is damaged in one word: in the tag that opens a signature, or in the tag that
opens the definition of a generic instance.  The counts in front of the word are what they were, and
so is the number of tokens, so the decoder reaches the word as it did before and fails there.

The failure of a part of a signature is that of the whole (`TypeSig.failsOn_set`), by induction on
where the part stands, and so up to the record (`MemberRecord.failsOn_read_set`) and the stream
(`decodeRun_set`).  `decodeWith_set_tag` names the two kinds of damage.
-/

import MemberCatalog.Proofs.Decode.Failure
import MemberCatalog.Proofs.Decode.Run
import MemberCatalog.Proofs.Member.Position
import MemberCatalog.Proofs.Reader.Damage
import MemberCatalog.Proofs.Text.Wording

namespace MemberCatalog

open Reader

/-! ### Signatures -/

namespace TypeSig

variable {limit budget k j : Nat} {s t : TypeSig} {v : Token} {e : Nat → Error}

/-- A word that is no tag fails where a signature is to open. -/
theorem failsOn_unknownTag (hv : ∀ tag : Tag, tag.token ≠ v) (hb : 0 < budget) (ts : List Token) :
    (readWith count limit budget).FailsOn (v :: ts) fun p => .unknownTag v p := by
  obtain ⟨budget, rfl⟩ := Nat.exists_eq_succ_of_ne_zero (Nat.ne_of_gt hb)
  intro c h
  obtain ⟨m, hm, -⟩ := Cursor.exists_passes_of_cons_prefix h
  have hposition : position c = .ok c.pos c := position_eq_ok_iff.2 ⟨rfl, rfl⟩
  refine ⟨m, ?_⟩
  rw [readWith, bind_of_eq_ok hposition, bind_of_eq_ok (token_eq_ok_iff.2 hm),
    Tag.ofToken?_eq_none_iff.2 hv]
  rfl

/-- A word that is not the tag of a type handle fails where the definition of a generic instance is
to open, and the failure names the place of the instance. -/
theorem failsOn_definition (hv : v ≠ Tag.typeHandle.token) (hb : 0 < budget) (ts : List Token) :
    (readWith count limit budget).FailsOn (Tag.inst.token :: v :: ts)
      fun p => .malformed (.definitionNotHandle p v) none := by
  obtain ⟨budget, rfl⟩ := Nat.exists_eq_succ_of_ne_zero (Nat.ne_of_gt hb)
  intro c h
  obtain ⟨m, hm, h⟩ := Cursor.exists_passes_of_cons_prefix h
  obtain ⟨m', hm', -⟩ := Cursor.exists_passes_of_cons_prefix h
  refine ⟨m', ?_⟩
  rw [readWith_succ_of_passes hm, readOperands, bind_of_eq_ok (token_eq_ok_iff.2 hm'), if_neg hv]
  rfl

/-- Behind its tag a signature fails as its operands do. -/
theorem failsOn_of_operands (tag : Tag) {ts : List Token}
    (h : ∀ position, (readOperands count limit budget position tag).FailsOn ts e) :
    (readWith count limit (budget + 1)).FailsOn (tag.token :: ts) fun p => e (p + 1) := by
  intro c hc
  obtain ⟨m, hm, hm'⟩ := Cursor.exists_passes_of_cons_prefix hc
  obtain ⟨m', he⟩ := h c.pos m hm'
  exact ⟨m', by rw [readWith_succ_of_passes hm, he, hm.pos_eq]; rfl⟩

/-- Behind the head of a generic instance the failure is the one of its arguments. -/
theorem failsOn_of_args {n : Nat} (d : TypeId) {ts : List Token} (hn : n < UInt16.size)
    (hle : n ≤ ts.length)
    (h : (Reader.repeated n (readWith count limit budget)).FailsOn ts e) :
    (readWith count limit (budget + 1)).FailsOn
      (Tag.inst.token :: Tag.typeHandle.token :: d.toToken :: .ofNat n :: ts)
      fun p => e (p + 4) := by
  refine failsOn_of_operands (e := fun p => e (p + 3)) .inst fun position => ?_
  rw [readOperands]
  refine token_bind_failsOn (e := fun p => e (p + 2)) ?_
  rw [if_pos rfl]
  refine token_bind_failsOn (e := fun p => e (p + 1)) ?_
  exact count_bind_failsOn hn hle (h.bind _)

/-- **A damage to a part is a damage to the whole.**  If a part fails to be read when its token `j`
is replaced, whatever levels of nesting are left for it, then the whole fails when that token is
replaced in it. -/
theorem failsOn_set (h : t.PartAt k s) (hl : t.HasLayout) (hd : t.depth ≤ budget)
    (hj : j < s.tokenLen)
    (hs : ∀ b, 0 < b → (readWith count limit b).FailsOn (s.layout.set j v) e) :
    (readWith count limit budget).FailsOn (t.layout.set (k + j) v) fun p => e (p + k) := by
  induction h generalizing budget with
  | whole t =>
    rw [Nat.zero_add]
    exact hs budget (Nat.lt_of_lt_of_le t.depth_pos hd)
  | @inner m t s k h ih =>
    obtain ⟨budget, rfl⟩ := Nat.exists_eq_succ_of_ne_zero (Nat.ne_zero_of_lt hd)
    have hinner := ih (hasLayout_modified.1 hl) (Nat.le_of_succ_le_succ hd) hj hs
    rw [layout_modified, Nat.add_right_comm, List.set_cons_succ]
    refine FailsOn.congr ?_ fun p => congrArg e (Nat.add_right_comm p 1 k)
    exact failsOn_of_operands (e := fun p => e (p + k)) (.modifier m) fun _ => hinner.bind _
  | @arg d as a s bs k h ih =>
    obtain ⟨budget, rfl⟩ := Nat.exists_eq_succ_of_ne_zero (Nat.ne_zero_of_lt hd)
    obtain ⟨-, hlt, hargs⟩ := hasLayout_inst.1 hl
    have hdepth := depth_inst_le_iff.1 hd
    have hmem : a ∈ as ++ a :: bs := List.mem_append_right _ (List.mem_cons_self ..)
    have hfront (b) (hb : b ∈ as) : b.HasLayout ∧ b.depth ≤ budget :=
      ⟨hargs b (List.mem_append_left _ hb), hdepth b (List.mem_append_left _ hb)⟩
    have hrow := (reads_readWith count_readsCounts limit budget).repeated_failsOn_set bs
      hfront (h.add_lt_length_layout hj) (ih (hargs a hmem) (hdepth a hmem) hj hs)
    have hle : (as ++ a :: bs).length ≤
        (((as ++ a :: bs).flatMap layout).set ((as.flatMap layout).length + (k + j)) v).length := by
      rw [List.length_set]
      exact length_le_length_flatMap_layout _
    rw [layout_inst]
    have hoffset : 4 + tokenLenAll as + k + j = (as.flatMap layout).length + (k + j) + 4 := by
      rw [length_flatMap_layout_eq]
      omega
    rw [hoffset]
    refine (failsOn_of_args d hlt hle hrow).congr fun p => congrArg e ?_
    rw [length_flatMap_layout_eq]
    omega

end TypeSig

/-! ### Shapes and records -/

section

variable {config : DecoderConfig} {i j k limit : Nat} {v : Token} {e : Nat → Error}

/-- A shape fails where one of its types does. -/
theorem MemberShape.failsOn_set {s : MemberShape} {kind? : Option MemberKind} {t : TypeSig}
    {ts us : List TypeSig} (htypes : s.types = ts ++ t :: us) (hl : s.HasLayout)
    (hkind : s.isField = true ↔ kind? = some .field) (hd : ∀ t ∈ s.types, t.depth ≤ limit)
    (hi : i < t.layout.length)
    (ht : (TypeSig.readWith count limit limit).FailsOn (t.layout.set i v) e) :
    (readWith count limit kind?).FailsOn
      (s.layout.set (s.head.length + TypeSig.tokenLenAll ts + i) v)
      fun p => e (p + (s.head.length + TypeSig.tokenLenAll ts)) := by
  have hread := TypeSig.reads_readWith count_readsCounts limit limit
  cases s with
  | field u =>
    obtain ⟨rfl, rfl, -⟩ : ts = [] ∧ u = t ∧ [] = us := by
      cases ts with
      | nil => exact ⟨rfl, List.cons.inj htypes⟩
      | cons => simp [types] at htypes
    rw [readWith, if_pos (hkind.1 rfl)]
    refine FailsOn.bind ?_ _
    simpa [layout, head] using ht
  | invocable u ps =>
    have hne : ¬kind? = some .field := fun h => by simpa [isField] using hkind.2 h
    have hfront (a) (ha : a ∈ ts) : a.HasLayout ∧ a.depth ≤ limit := by
      have hmem : a ∈ (invocable u ps).types := htypes ▸ List.mem_append_left _ ha
      exact ⟨hl.types a hmem, hd a hmem⟩
    -- The return type and the parameters are one row of types.
    have hrow := hread.repeated_failsOn_set us hfront hi ht
    rw [← htypes, TypeSig.length_flatMap_layout_eq] at hrow
    have hle : ps.length ≤ (((u :: ps).flatMap TypeSig.layout).set
        (TypeSig.tokenLenAll ts + i) v).length := by
      rw [List.length_set]
      exact Nat.le_of_succ_le (TypeSig.length_le_length_flatMap_layout (u :: ps))
    have hoffset : (invocable u ps).head.length + TypeSig.tokenLenAll ts + i =
        TypeSig.tokenLenAll ts + i + 1 := by
      simp only [head, List.length_cons, List.length_nil]
      omega
    rw [readWith, if_neg hne, layout, hoffset, List.set_cons_succ]
    refine (count_bind_failsOn hl.parameters_lt hle hrow.of_repeated_succ).congr fun p => ?_
    simp only [head, List.length_cons, List.length_nil, Nat.zero_add, Nat.add_assoc]

/-- A record fails where a part of one of its types does. -/
theorem MemberRecord.failsOn_read_set {r : MemberRecord} {s : TypeSig} (hr : config.Accepts r)
    (h : r.PartAt k s) (hj : j < s.tokenLen)
    (hs : ∀ b, 0 < b →
      (TypeSig.readWith count config.maxNestingDepth b).FailsOn (s.layout.set j v) e) :
    (read config).FailsOn (r.layout.set (k + j) v) fun p => e (p + k) := by
  obtain @⟨ts, t, s, us, k, htypes, hpart⟩ := h
  have hmem : t ∈ r.types := htypes ▸ List.mem_append_right _ (List.mem_cons_self ..)
  have htype := TypeSig.failsOn_set hpart (hr.hasLayout.shape.types t hmem) (hr.depth_le t hmem)
    hj hs
  have hshape := MemberShape.failsOn_set htypes hr.hasLayout.shape hr.shapeMatches hr.depth_le
    (hpart.add_lt_length_layout hj) htype
  have hflags (hw : config.recordValidation = true) : ∃ k, r.flags.validKind = .ok k :=
    exists_validKind_of_checkStructure (hr.structure_ok hw)
  have hoffset : r.head.length + TypeSig.tokenLenAll ts + k + j =
      r.shape.head.length + TypeSig.tokenLenAll ts + (k + j) + 3 := by
    simp only [head, List.length_cons]
    omega
  rw [layout, hoffset]
  simp only [List.set_cons_succ]
  refine FailsOn.congr (token_bind_failsOn (check_bind_failsOn hflags
    (token_bind_failsOn (token_bind_failsOn (hshape.bind _))))) fun p => congrArg e ?_
  simp only [head, List.length_cons]
  omega

/-! ### Streams -/

variable {tokens : List Token} {n : Nat} {rs ps qs : List MemberRecord} {r : MemberRecord}
  {s : TypeSig}

/-- **A damage to a part of a record is found behind the records in front of it.**  These are
decoded as before, and the failure is that of the damaged record. -/
theorem decodeRun_set (hrs : ∀ q ∈ ps ++ r :: qs, config.Accepts q) (hs : r.PartAt k s)
    (hj : j < s.tokenLen)
    (he : ∀ b, 0 < b →
      (TypeSig.readWith count config.maxNestingDepth b).FailsOn (s.layout.set j v) e) :
    ∃ stop, decodeRun config (((ps ++ r :: qs).flatMap MemberRecord.layout).set
        (MemberRecord.tokenLenAll ps + k + j) v) (ps ++ r :: qs).length =
      ⟨entriesFrom 0 ps, some ((e (MemberRecord.tokenLenAll ps + k)).inRecord ps.length),
        stop⟩ := by
  obtain ⟨hps, hr⟩ := List.forall_mem_append.1 hrs
  have htokens := set_flatMap MemberRecord.layout ps r qs (hs.add_lt_length_layout hj) v
  rw [MemberRecord.length_flatMap_layout, ← Nat.add_assoc] at htokens
  obtain ⟨m, hm, hrest⟩ := Cursor.exists_passes (c := .ofTokens _) htokens
  obtain ⟨stop, hstop⟩ := MemberRecord.failsOn_read_set (hr r (List.mem_cons_self ..)) hs hj he m
    ⟨_, hrest.symm⟩
  have hpos : m.pos = MemberRecord.tokenLenAll ps := by
    rw [(Cursor.ofTokens_passes hm).2.1, MemberRecord.length_flatMap_layout]
  have hlt : ps.length < (ps ++ r :: qs).length := by simp
  have hrun := Run.start_of_read_eq_error (MemberRecord.reads_read config) hps hm hstop hlt
  rw [hpos] at hrun
  exact ⟨stop, hrun⟩

/-- **A damaged tag is found where it is.**  Let a stream decode, and let a signature stand in one
of its records, at any depth.  If its tag is replaced by a word that is no tag, decoding fails with
that word, its place and the number of the record.  If it is a generic instance and the tag of its
definition is replaced by another word, decoding fails with the number of the record and a damage
whose message quotes the place of the instance and that word; the message of the error ends in it.
The records in front are decoded as before in either case. -/
theorem decodeWith_set_tag (h : decodeWith config tokens n = .ok rs) (hi : rs[i]? = some r)
    (hs : r.PartAt k s) :
    let position := MemberRecord.tokenLenAll (rs.take i) + k
    (∀ v, (∀ tag : Tag, tag.token ≠ v) →
      decodeWith config (tokens.set position v) n = .error (.record i (.unknownTag v position)) ∧
      (decodeRun config (tokens.set position v) n).records = rs.take i) ∧
    ∀ d args, s = .inst d args → ∀ v, v ≠ Tag.typeHandle.token →
      let damage := Malformation.definitionNotHandle position v
      let error := Error.record i (.malformed damage none)
      decodeWith config (tokens.set (position + 1) v) n = .error error ∧
      damage.Quotes position v ∧ damage.message.toList <:+ error.message.toList ∧
      (decodeRun config (tokens.set (position + 1) v) n).records = rs.take i := by
  obtain ⟨rfl, rfl, hrs⟩ := decodeWith_eq_ok_iff.1 h
  obtain ⟨ps, qs, rfl, rfl⟩ := Checks.exists_split_of_getElem? hi
  rw [List.take_left]
  refine ⟨fun v hv => ?_, ?_⟩
  · have hset : s.layout.set 0 v = v :: s.operands := by rw [s.layout_eq_cons, List.set_cons_zero]
    obtain ⟨stop, hrun⟩ := decodeRun_set hrs hs s.tokenLen_pos fun b hb =>
      hset ▸ TypeSig.failsOn_unknownTag hv hb s.operands
    rw [Nat.add_zero] at hrun
    rw [decodeWith, hrun]
    exact ⟨rfl, map_record_entriesFrom 0 _⟩
  · rintro d args rfl v hv
    have hlen : 1 < (TypeSig.inst d args).tokenLen := by
      rw [TypeSig.tokenLen_inst]
      omega
    obtain ⟨stop, hrun⟩ := decodeRun_set hrs hs hlen fun b hb => by
      rw [TypeSig.layout_inst]
      exact TypeSig.failsOn_definition hv hb _
    rw [decodeWith, hrun]
    exact ⟨rfl, Malformation.quotes_definitionNotHandle _ v, Error.damage_message_suffix rfl,
      map_record_entriesFrom 0 _⟩

/-- Damages to the return type of the generic method, a generic instance: to its tag, to that of its
definition, and to the tag of its last argument. -/
theorem decodeWith_set_tag_sampleStream :
    let method := MemberRecord.genericMethod
    let inst := TypeSig.inst (.wellKnown 7) [.methodParam 0, .direct .self]
    let tokens := MemberRecord.sampleStream
    decodeWith .default tokens 2 = .ok [.staticField, method] ∧
    method.PartAt 4 inst ∧ method.PartAt 10 (.direct .self) ∧
    decodeWith .default (tokens.set 9 0x99) 2 = .error (.record 1 (.unknownTag 0x99 9)) ∧
    (decodeWith .default (tokens.set 10 0x41) 2 =
        .error (.record 1 (.malformed (.definitionNotHandle 9 0x41) none)) ∧
      (Malformation.definitionNotHandle 9 0x41).message =
        "GENERIC_TYPE_INSTANCE at token 9 - definition is not a TYPE_HANDLE - 0x0041") ∧
    decodeWith .default (tokens.set 15 0x99) 2 = .error (.record 1 (.unknownTag 0x99 15)) := by
  intro method inst tokens
  have h : decodeWith .default tokens 2 = .ok [.staticField, method] := rfl
  have hinst : method.PartAt 4 inst := .intro [] _ rfl (.whole inst)
  have hself : method.PartAt 10 (.direct .self) :=
    .intro [] _ rfl (.arg [.methodParam 0] [] (.whole _))
  have hi : [MemberRecord.staticField, method][1]? = some method := rfl
  have hno : ∀ tag : Tag, tag.token ≠ 0x99 := Tag.ofToken?_eq_none_iff.1 rfl
  have hdefinition := (decodeWith_set_tag h hi hinst).2 _ _ rfl 0x41 (by decide)
  have hquotes : (Malformation.definitionNotHandle 9 0x41).Quotes 9 0x41 := hdefinition.2.1
  have hmessage : (Malformation.definitionNotHandle 9 0x41).message =
      "GENERIC_TYPE_INSTANCE at token 9 - definition is not a TYPE_HANDLE - 0x0041" :=
    hquotes.trans (by decide)
  exact ⟨h, hinst, hself, ((decodeWith_set_tag h hi hinst).1 _ hno).1,
    ⟨hdefinition.1, hmessage⟩,
    ((decodeWith_set_tag h hi hself).1 _ hno).1⟩

end

end MemberCatalog
