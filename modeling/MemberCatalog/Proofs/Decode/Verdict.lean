/-
# The verdict on a record

What a decoder makes of a record that is laid out in front of it depends on the record alone.
`DecoderConfig.verdict` is the chain of checks that tells: first the flags, then the nesting of
every type, then what is checked once the record is complete.  Records that are laid out decode to
themselves if the verdict accepts all of them (`decodeWith_layouts_eq_ok`), and otherwise decoding
fails in the first record that it refuses, with the error of the verdict
(`decodeWith_layouts_eq_error`).

A signature that nests too deep is refused where the limit is reached, in the midst of its layout,
whatever stands behind that place.
-/

import MemberCatalog.Proofs.Decode.Failure
import MemberCatalog.Proofs.Decode.Run
import MemberCatalog.Proofs.Reader.Verdict

namespace MemberCatalog

open Reader

namespace TypeSig

/-- Accepts a signature that nests no deeper than the levels left of `limit`. -/
def checkNesting (limit budget : Nat) (t : TypeSig) : Except Error Unit :=
  if t.depth ≤ budget then .ok () else .error (.recursionLimit limit)

variable {readCount : Reader Nat} {limit budget : Nat} {c c' m : Cursor} {t : TypeSig}

theorem checkNesting_of_le (h : t.depth ≤ budget) : t.checkNesting limit budget = .ok () := if_pos h

theorem checkNesting_of_lt (h : budget < t.depth) :
    t.checkNesting limit budget = .error (.recursionLimit limit) := if_neg (Nat.not_le.2 h)

theorem forM_checkNesting_eq_ok {ts : List TypeSig} (h : ∀ t ∈ ts, t.depth ≤ budget) :
    ts.forM (checkNesting limit budget) = .ok () :=
  Checks.forM_eq_ok_iff.2 fun t ht => checkNesting_of_le (h t ht)

theorem forM_checkNesting_eq_error {ts : List TypeSig} (h : ∃ t ∈ ts, budget < t.depth) :
    ts.forM (checkNesting limit budget) = .error (.recursionLimit limit) := by
  cases hts : ts.forM (checkNesting limit budget) with
  | ok _ =>
    obtain ⟨t, ht, hlt⟩ := h
    have hok := Checks.forM_eq_ok_iff.1 hts t ht
    rw [checkNesting_of_lt hlt] at hok
    cases hok
  | error e =>
    obtain ⟨t, -, he⟩ := Checks.exists_of_forM_eq_error hts
    unfold checkNesting at he
    split at he
    · cases he
    · exact he.symm

@[simp]
theorem checkNesting_modified (k : Modifier) (t : TypeSig) :
    (modified k t).checkNesting limit (budget + 1) = t.checkNesting limit budget := by
  simp [checkNesting]

/-- A generic instance nests too deep exactly if one of its arguments does. -/
theorem checkNesting_inst (d : TypeId) (args : List TypeSig) :
    (inst d args).checkNesting limit (budget + 1) = args.forM (checkNesting limit budget) := by
  by_cases h : ∀ a ∈ args, a.depth ≤ budget
  · rw [forM_checkNesting_eq_ok h, checkNesting_of_le (depth_inst_le_iff.2 h)]
  · have hdeep : budget + 1 < (inst d args).depth :=
      Nat.not_le.1 fun hle => h (depth_inst_le_iff.1 hle)
    rw [checkNesting_of_lt hdeep, forM_checkNesting_eq_error (by simpa using h)]

/-- **In front of its layout a signature is read, or refused for its nesting.** -/
theorem obeys_readWith (hc : ReadsCounts readCount) (limit budget : Nat) (hl : t.HasLayout)
    (h : c.Passes t.layout c') :
    Obeys t c' (t.checkNesting limit budget) (readWith readCount limit budget c) := by
  induction budget generalizing t c c' with
  | zero =>
    rw [checkNesting_of_lt t.depth_pos]
    exact .refused _ c
  | succ budget ih =>
    by_cases hd : t.depth ≤ budget + 1
    · rw [checkNesting_of_le hd, (reads_readWith hc limit (budget + 1) c t c').2 ⟨h, hl, hd⟩]
      exact .accepted
    · rw [layout_eq_cons] at h
      obtain ⟨m, hm, hp⟩ := Cursor.passes_cons.1 h
      rw [readWith_succ_of_passes hm]
      -- Only a signature with others inside can nest too deep.
      cases t with
      | direct | typeParam | methodParam => exact absurd (Nat.le_add_left 1 budget) hd
      | modified k inner =>
        rw [checkNesting_modified]
        exact (ih (hasLayout_modified.1 hl) hp).of_bind_left rfl
      | inst d args =>
        obtain ⟨hhandle, hlt, hargs⟩ := hasLayout_inst.1 hl
        rw [operands, layout_inst, List.tail_cons] at hp
        obtain ⟨m₁, h₁, hp⟩ := Cursor.passes_cons.1 hp
        obtain ⟨m₂, h₂, hp⟩ := Cursor.passes_cons.1 hp
        obtain ⟨m₃, h₃, hp⟩ := Cursor.passes_cons.1 hp
        have hn := hc.eq_ok hlt h₃ hp (length_le_length_flatMap_layout args)
        have hall := obeys_repeated (fun a ha {_ _} ha' => ih (hargs a ha) ha') hp
        rw [checkNesting_inst]
        refine .of_bind_right (token_eq_ok_iff.2 h₁) ?_
        rw [if_pos rfl]
        refine .of_bind_right (token_eq_ok_iff.2 h₂) (.of_bind_right hn (hall.of_bind_left ?_))
        rw [TypeId.ofHandle_toToken hhandle]
        rfl

end TypeSig

/-- **In front of its layout a shape is read, or refused for the nesting of a type in it**, by a
reader that goes by its kind. -/
theorem MemberShape.obeys_readWith {readCount : Reader Nat} {kind? : Option MemberKind}
    {c c' : Cursor} {s : MemberShape} (hc : ReadsCounts readCount) (limit : Nat)
    (hl : s.HasLayout) (hkind : s.isField = true ↔ kind? = some .field)
    (h : c.Passes s.layout c') :
    Obeys s c' (s.types.forM (TypeSig.checkNesting limit limit))
      (readWith readCount limit kind? c) := by
  cases s with
  | field t =>
    have ht := TypeSig.obeys_readWith hc limit limit (hasLayout_field.1 hl) h
    rw [readWith, if_pos (hkind.1 rfl)]
    exact ht.bind .accepted
  | invocable t ps =>
    obtain ⟨hlt, ht, hps⟩ := hasLayout_invocable.1 hl
    obtain ⟨m₁, h₁, hp⟩ := Cursor.passes_cons.1 h
    obtain ⟨m₂, h₂, h₃⟩ := Cursor.passes_append.1 hp
    have hle := TypeSig.length_le_length_flatMap_layout ps
    have hn := hc.eq_ok hlt h₁ hp (by rw [List.length_append]; omega)
    have hreturn := TypeSig.obeys_readWith hc limit limit ht h₂
    have hall := obeys_repeated (fun p hmem {_ _} hp' =>
      TypeSig.obeys_readWith hc limit limit (hps p hmem) hp') h₃
    rw [readWith, if_neg fun hk => absurd (hkind.2 hk) Bool.false_ne_true]
    exact .of_bind_right hn (hreturn.bind (hall.of_bind_left rfl))

/-- **What a decoder says of a record** that is laid out in front of it. -/
def DecoderConfig.verdict (config : DecoderConfig) (r : MemberRecord) : Except Error Unit := do
  Checks.demand config.recordValidation r.flags.validKind
  r.types.forM (TypeSig.checkNesting config.maxNestingDepth config.maxNestingDepth)
  Checks.demand config.recordValidation r.checkStructure
  Checks.demand config.arityValidation r.checkArity

section

variable {config : DecoderConfig} {r : MemberRecord} {c c' : Cursor} {e : Error}

/-- **In front of its layout a record is read, or refused by the verdict on it.** -/
theorem MemberRecord.obeys_read (config : DecoderConfig) (hl : r.HasLayout) (hs : r.ShapeMatches)
    (h : c.Passes r.layout c') :
    Obeys r c' (config.verdict r) (MemberRecord.read config c) := by
  obtain ⟨m₁, h₁, hp⟩ := Cursor.passes_cons.1 h
  obtain ⟨m₂, h₂, hp⟩ := Cursor.passes_cons.1 hp
  obtain ⟨m₃, h₃, h₄⟩ := Cursor.passes_cons.1 hp
  have hshape := MemberShape.obeys_readWith count_readsCounts config.maxNestingDepth hl.shape hs h₄
  refine .of_bind_right (token_eq_ok_iff.2 h₁) ((obeys_check _ _).bind ?_)
  refine .of_bind_right (token_eq_ok_iff.2 h₂) (.of_bind_right (token_eq_ok_iff.2 h₃) ?_)
  rw [TypeId.ofHandle_toToken hl.declaringType]
  exact hshape.bind ((obeys_check _ _).bind ((obeys_check _ _).of_bind_left rfl))

namespace DecoderConfig

/-- The verdict accepts exactly the records that are read. -/
theorem verdict_eq_ok_iff (hl : r.HasLayout) (hs : r.ShapeMatches) :
    config.verdict r = .ok () ↔ config.Accepts r := by
  have hrest : (Cursor.ofTokens r.layout).rest = r.layout ++ [] := (List.append_nil _).symm
  obtain ⟨c', h, -⟩ := Cursor.exists_passes hrest
  rw [(MemberRecord.obeys_read config hl hs h).eq_ok_iff, MemberRecord.reads_read config _ r c',
    and_iff_right h]

/-- Flags that are refused come first. -/
theorem verdict_of_validKind_eq_error (hw : config.recordValidation = true)
    (he : r.flags.validKind = .error e) : config.verdict r = .error e := by
  unfold verdict
  rw [hw, he]
  rfl

/-- A type that nests too deep comes next. -/
theorem verdict_of_lt_depth (hk : config.recordValidation = true → ∃ k, r.flags.validKind = .ok k)
    (hd : ∃ t ∈ r.types, config.maxNestingDepth < t.depth) :
    config.verdict r = .error (.recursionLimit config.maxNestingDepth) := by
  unfold verdict
  rw [Checks.demand_eq_ok_iff.2 hk, TypeSig.forM_checkNesting_eq_error hd]
  rfl

/-- Without one, the verdict is that of the checks on the complete record. -/
theorem verdict_of_depth_le (hd : ∀ t ∈ r.types, t.depth ≤ config.maxNestingDepth) :
    config.verdict r = (do
      Checks.demand config.recordValidation r.checkStructure
      Checks.demand config.arityValidation r.checkArity) := by
  unfold verdict
  rw [TypeSig.forM_checkNesting_eq_ok hd]
  cases config.recordValidation with
  | false => rfl
  | true =>
    -- The checks on the complete record check the flags once more.
    cases hk : r.flags.validKind with
    | ok k => rfl
    | error e =>
      rw [MemberRecord.checkStructure, hk]
      rfl

end DecoderConfig

end

/-! ### Records one behind the other -/

variable {config : DecoderConfig} {rs : List MemberRecord} {i : Nat} {e : Error}

theorem decodeWith_layouts_eq_ok (hl : ∀ r ∈ rs, r.HasLayout) (hs : ∀ r ∈ rs, r.ShapeMatches)
    (h : ∀ r ∈ rs, config.verdict r = .ok ()) :
    decodeWith config (rs.flatMap MemberRecord.layout) rs.length = .ok rs :=
  decodeWith_eq_ok_iff.2
    ⟨rfl, rfl, fun r hr => (DecoderConfig.verdict_eq_ok_iff (hl r hr) (hs r hr)).1 (h r hr)⟩

/-- **Decoding fails in the first record that the verdict refuses**, with the error of the
verdict. -/
theorem decodeWith_layouts_eq_error (hl : ∀ r ∈ rs, r.HasLayout) (hs : ∀ r ∈ rs, r.ShapeMatches)
    (h : Checks.FirstFails config.verdict rs i e) :
    decodeWith config (rs.flatMap MemberRecord.layout) rs.length = .error (.record i e) := by
  obtain ⟨ps, r, qs, rfl, rfl, hps, he⟩ := h.exists_split
  have hlayout : (ps ++ r :: qs).flatMap MemberRecord.layout = ps.flatMap MemberRecord.layout ++
      (r.layout ++ qs.flatMap MemberRecord.layout) := by
    rw [List.flatMap_append, List.flatMap_cons]
  have haccepts (p) (hp : p ∈ ps) : config.Accepts p :=
    have hmem := List.mem_append_left _ hp
    (DecoderConfig.verdict_eq_ok_iff (hl p hmem) (hs p hmem)).1 (hps p hp)
  have hr : r ∈ ps ++ r :: qs := List.mem_append_right _ (List.mem_cons_self ..)
  obtain ⟨m, hm, hrest⟩ := Cursor.exists_passes (c := .ofTokens _) hlayout
  obtain ⟨m', hm', -⟩ := Cursor.exists_passes hrest
  have hobeys := MemberRecord.obeys_read config (hl r hr) (hs r hr) hm'
  rw [he] at hobeys
  obtain ⟨_, hread⟩ := hobeys.exists_of_error
  rw [← Error.inRecord_of_isCause (MemberRecord.isCause_of_read_eq_error hread)]
  refine Run.result_start_of_read_eq_error (MemberRecord.reads_read config) haccepts hm hread ?_
  simp

end MemberCatalog
