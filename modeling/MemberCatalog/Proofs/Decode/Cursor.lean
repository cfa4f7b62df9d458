/-
# Where decoding stops

A stream that decodes fixes where each of its records ends, and any other demand on it fails there:

* with tokens behind it, or with fewer records asked for, the tokens left over are reported;
* with more records asked for, the record behind the last one is missing;
* broken off earlier, the record that is cut runs out of tokens, and the records before it are read
  as ever.  Their number is `MemberRecord.countWithin`.

`decodeWith_exact` states these together.
-/

import MemberCatalog.Proofs.Decode.Run
import MemberCatalog.Proofs.Reader.Cut

namespace MemberCatalog

open Reader

/-! ### Readers and cuts -/

/-- A reader of signatures that succeeds reads the same behind a cut, or past the end. -/
theorem TypeSig.survivesCuts_readWith (limit budget : Nat) :
    (TypeSig.readWith count limit budget).SurvivesCuts := by
  induction budget with
  | zero => exact survivesCuts_throw _
  | succ budget ih =>
    refine survivesCuts_position.bind fun position => survivesCuts_token.bind fun word => ?_
    split
    · exact survivesCuts_token.bind fun h => survivesCuts_pure _
    · exact ih.bind fun t => survivesCuts_pure _
    · exact survivesCuts_token.bind fun i => survivesCuts_pure _
    · exact survivesCuts_token.bind fun i => survivesCuts_pure _
    · refine survivesCuts_token.bind fun opening => ?_
      split
      · exact survivesCuts_token.bind fun d => survivesCuts_count.bind fun n =>
          (ih.repeated n).bind fun args => survivesCuts_pure _
      · exact survivesCuts_throw _
    · exact survivesCuts_throw _

theorem MemberShape.survivesCuts_readWith (limit : Nat) (kind? : Option MemberKind) :
    (MemberShape.readWith count limit kind?).SurvivesCuts := by
  have htype := TypeSig.survivesCuts_readWith limit limit
  unfold MemberShape.readWith
  split
  · exact htype.bind fun t => survivesCuts_pure _
  · exact survivesCuts_count.bind fun n => htype.bind fun t =>
      (htype.repeated n).bind fun ps => survivesCuts_pure _

theorem MemberRecord.survivesCuts_read (config : DecoderConfig) :
    (MemberRecord.read config).SurvivesCuts := by
  refine survivesCuts_token.bind fun bits => (survivesCuts_check _ _).bind fun _ => ?_
  refine survivesCuts_token.bind fun h => survivesCuts_token.bind fun arity => ?_
  refine (MemberShape.survivesCuts_readWith _ _).bind fun s => ?_
  exact (survivesCuts_check _ _).bind fun _ => (survivesCuts_check _ _).bind fun _ =>
    survivesCuts_pure _

/-- At the end of a stream no record is read. -/
theorem MemberRecord.read_of_rest_eq_nil (config : DecoderConfig) {c : Cursor} (h : c.rest = []) :
    MemberRecord.read config c = .error (.outOfBounds c.pos c.len) c := by
  obtain ⟨pos, rest, len, hlen⟩ := c
  subst h
  rfl

/-! ### The record that is cut -/

namespace MemberRecord

/-- How many records of a stream end at or before its token `j`. -/
def countWithin (rs : List MemberRecord) (j : Nat) : Nat :=
  (List.range rs.length).countP fun k => tokenLenAll (rs.take (k + 1)) ≤ j

/-- A first record that ends by token `j` counts, and the others count from its end on. -/
theorem countWithin_cons_of_le {r : MemberRecord} {rs : List MemberRecord} {j : Nat}
    (h : r.tokenLen ≤ j) :
    countWithin (r :: rs) j = countWithin rs (j - r.tokenLen) + 1 := by
  unfold countWithin
  rw [List.length_cons, List.range_succ_eq_map, List.countP_cons, List.countP_map]
  have hfirst : tokenLenAll ((r :: rs).take (0 + 1)) ≤ j := by simpa using h
  have hothers (k : Nat) : (tokenLenAll ((r :: rs).take (k.succ + 1)) ≤ j) =
      (tokenLenAll (rs.take (k + 1)) ≤ j - r.tokenLen) := by
    rw [List.take_succ_cons, tokenLenAll_cons, eq_iff_iff]
    omega
  simp only [hfirst, decide_true, if_true, Function.comp_def, hothers]

/-- If the first record ends behind token `j`, no record ends by then. -/
theorem countWithin_cons_of_lt {r : MemberRecord} {rs : List MemberRecord} {j : Nat}
    (h : j < r.tokenLen) : countWithin (r :: rs) j = 0 := by
  unfold countWithin
  rw [List.countP_eq_zero]
  intro k _
  rw [List.take_succ_cons, tokenLenAll_cons, decide_eq_true_eq]
  omega

/-- A token inside a stream lies in one of its records, and those before it are the ones that end
by then. -/
theorem exists_split_of_lt {rs : List MemberRecord} {j : Nat} (h : j < tokenLenAll rs) :
    ∃ ps r qs, rs = ps ++ r :: qs ∧ tokenLenAll ps ≤ j ∧ j < tokenLenAll ps + r.tokenLen ∧
      countWithin rs j = ps.length := by
  induction rs generalizing j with
  | nil => exact absurd h (Nat.not_lt_zero j)
  | cons r rs ih =>
    rw [tokenLenAll_cons] at h
    rcases Nat.lt_or_ge j r.tokenLen with hlt | hle
    · exact ⟨[], r, rs, rfl, Nat.zero_le _, by simpa using hlt, countWithin_cons_of_lt hlt⟩
    · obtain ⟨ps, q, qs, rfl, hps, hq, hcount⟩ := ih (j := j - r.tokenLen) (by omega)
      refine ⟨r :: ps, q, qs, rfl, ?_, ?_, ?_⟩
      · rw [tokenLenAll_cons]
        omega
      · rw [tokenLenAll_cons]
        omega
      · rw [countWithin_cons_of_le hle, hcount, List.length_cons]

/-- Up to a token inside a record lie the records before it and a piece of that record. -/
theorem take_flatMap_layout {ps : List MemberRecord} {r : MemberRecord} {j : Nat}
    (hps : tokenLenAll ps ≤ j) (hr : j ≤ tokenLenAll ps + r.tokenLen) (qs : List MemberRecord) :
    ((ps ++ r :: qs).flatMap layout).take j =
      ps.flatMap layout ++ r.layout.take (j - tokenLenAll ps) := by
  have hlen := length_flatMap_layout ps
  rw [List.flatMap_append, List.flatMap_cons, List.take_append, hlen]
  rw [List.take_of_length_le (by omega), List.take_append_of_le_length]
  rw [r.length_layout]
  omega

end MemberRecord

/-! ### Other demands on a stream that decodes -/

variable {config : DecoderConfig} {tokens ts : List Token} {n : Nat} {ps rs : List MemberRecord}
  {r : MemberRecord}

/-- Tokens behind the records asked for are left over. -/
theorem decodeWith_of_trailing (hall : ∀ r ∈ rs, config.Accepts r) (hts : ts ≠ []) :
    decodeWith config (rs.flatMap MemberRecord.layout ++ ts) rs.length =
      .error (.trailingTokens (MemberRecord.tokenLenAll rs)
        (MemberRecord.tokenLenAll rs + ts.length)) := by
  have hstart : (Cursor.ofTokens (rs.flatMap MemberRecord.layout ++ ts)).rest =
      rs.flatMap MemberRecord.layout ++ ts := rfl
  obtain ⟨m, hm, rfl⟩ := Cursor.exists_passes hstart
  obtain ⟨-, hpos, hlen⟩ := Cursor.ofTokens_passes hm
  have hrun := Run.result_start_of_rest_ne_nil (MemberRecord.reads_read config) hall hm hts
  rw [hpos, hlen, List.length_append, MemberRecord.length_flatMap_layout] at hrun
  exact hrun

/-- A record that breaks off is missed under its number, and so is one that is not there. -/
theorem decodeWith_of_runsOut (hall : ∀ p ∈ ps, config.Accepts p) (hn : ps.length < n)
    (hrun : ∀ m : Cursor, m.rest = ts → (MemberRecord.read config).RunsOut m) :
    ∃ position, MemberRecord.tokenLenAll ps + ts.length ≤ position ∧
      decodeWith config (ps.flatMap MemberRecord.layout ++ ts) n =
        .error (.record ps.length
          (.outOfBounds position (MemberRecord.tokenLenAll ps + ts.length))) := by
  have hstart : (Cursor.ofTokens (ps.flatMap MemberRecord.layout ++ ts)).rest =
      ps.flatMap MemberRecord.layout ++ ts := rfl
  obtain ⟨m, hm, hrest⟩ := Cursor.exists_passes hstart
  obtain ⟨-, -, hlen⟩ := Cursor.ofTokens_passes hm
  rw [List.length_append, MemberRecord.length_flatMap_layout] at hlen
  obtain ⟨position, d, hle, hread⟩ := hrun m hrest
  rw [hlen] at hle hread
  exact ⟨position, hle, Run.result_start_of_read_eq_error (MemberRecord.reads_read config) hall
    hm hread hn⟩

/-- More records than there are: the one behind the last is missing, at the end of the stream. -/
theorem decodeWith_of_length_lt (hall : ∀ r ∈ rs, config.Accepts r) (hn : rs.length < n) :
    decodeWith config (rs.flatMap MemberRecord.layout) n =
      .error (.record rs.length (.outOfBounds (MemberRecord.tokenLenAll rs)
        (MemberRecord.tokenLenAll rs))) := by
  have hstart : (Cursor.ofTokens (rs.flatMap MemberRecord.layout)).rest =
      rs.flatMap MemberRecord.layout ++ [] := (List.append_nil _).symm
  obtain ⟨m, hm, hrest⟩ := Cursor.exists_passes hstart
  obtain ⟨-, hpos, hlen⟩ := Cursor.ofTokens_passes hm
  have hread := MemberRecord.read_of_rest_eq_nil config hrest
  rw [hpos, hlen, MemberRecord.length_flatMap_layout] at hread
  exact Run.result_start_of_read_eq_error (MemberRecord.reads_read config) hall hm hread hn

/-- Fewer records than there are: the tokens of the others are left over. -/
theorem decodeWith_of_lt_length (hall : ∀ r ∈ rs, config.Accepts r) (hn : n < rs.length) :
    decodeWith config (rs.flatMap MemberRecord.layout) n =
      .error (.trailingTokens (MemberRecord.tokenLenAll (rs.take n))
        (MemberRecord.tokenLenAll rs)) := by
  have hne : (rs.drop n).flatMap MemberRecord.layout ≠ [] := by
    rw [List.drop_eq_getElem_cons hn, List.flatMap_cons]
    exact List.append_ne_nil_of_left_ne_nil (MemberRecord.layout_ne_nil _) _
  have hall' (r) (hr : r ∈ rs.take n) : config.Accepts r := hall r (List.mem_of_mem_take hr)
  have hdecode := decodeWith_of_trailing hall' hne
  rw [List.length_take_of_le (Nat.le_of_lt hn), ← List.flatMap_append, List.take_append_drop,
    MemberRecord.length_flatMap_layout, ← MemberRecord.tokenLenAll_append,
    List.take_append_drop] at hdecode
  exact hdecode

/-- A stream broken off at token `j` misses the record that `j` lies in. -/
theorem decodeWith_take (hall : ∀ r ∈ rs, config.Accepts r) {j : Nat}
    (hj : j < MemberRecord.tokenLenAll rs) :
    ∃ position, j ≤ position ∧
      decodeWith config ((rs.flatMap MemberRecord.layout).take j) rs.length =
        .error (.record (MemberRecord.countWithin rs j) (.outOfBounds position j)) := by
  obtain ⟨ps, r, qs, rfl, hps, hr, hcount⟩ := MemberRecord.exists_split_of_lt hj
  obtain ⟨hall, hrest⟩ := List.forall_mem_append.1 hall
  have haccepts := hrest r (List.mem_cons_self ..)
  -- What is left of the stream are the records before the cut and a piece of the one that is cut.
  have htake := MemberRecord.take_flatMap_layout hps (Nat.le_of_lt hr) qs
  have hlen : (r.layout.take (j - MemberRecord.tokenLenAll ps)).length =
      j - MemberRecord.tokenLenAll ps := by
    rw [List.length_take, r.length_layout]
    omega
  have hlt : (r.layout.take (j - MemberRecord.tokenLenAll ps)).length < r.layout.length := by
    rw [hlen, r.length_layout]
    omega
  have hrun (m : Cursor) (hm : m.rest = r.layout.take (j - MemberRecord.tokenLenAll ps)) :
      (MemberRecord.read config).RunsOut m := by
    refine (MemberRecord.survivesCuts_read config).runsOut (MemberRecord.reads_read config)
      haccepts ?_ ?_
    · rw [hm]
      exact List.take_prefix _ _
    · rw [hm]
      exact hlt
  have hn : ps.length < (ps ++ r :: qs).length := by
    rw [List.length_append, List.length_cons]
    omega
  obtain ⟨position, hle, hdecode⟩ := decodeWith_of_runsOut hall hn hrun
  rw [hlen, Nat.add_sub_of_le hps] at hle hdecode
  rw [htake, hcount]
  exact ⟨position, hle, hdecode⟩

/-- **A stream that decodes is read to its last token and no further.**  Tokens behind it and
records not asked for are left over; a record that is cut, and one beyond the last, is missing under
its own number. -/
theorem decodeWith_exact (h : decodeWith config tokens n = .ok rs) :
    (∀ x ≠ [], decodeWith config (tokens ++ x) n =
      .error (.trailingTokens tokens.length (tokens.length + x.length))) ∧
    (∀ j < tokens.length, ∃ position, j ≤ position ∧ decodeWith config (tokens.take j) n =
      .error (.record (MemberRecord.countWithin rs j) (.outOfBounds position j))) ∧
    (∀ m < n, decodeWith config tokens m =
      .error (.trailingTokens (MemberRecord.tokenLenAll (rs.take m)) tokens.length)) ∧
    ∀ m > n, decodeWith config tokens m =
      .error (.record n (.outOfBounds tokens.length tokens.length)) := by
  obtain ⟨rfl, rfl, hall⟩ := decodeWith_eq_ok_iff.1 h
  rw [MemberRecord.length_flatMap_layout]
  refine ⟨fun x hx => ?_, fun j hj => ?_, fun m hm => ?_, fun m hm => ?_⟩
  · exact decodeWith_of_trailing hall hx
  · exact decodeWith_take hall hj
  · exact decodeWith_of_lt_length hall hm
  · exact decodeWith_of_length_lt hall hm

/-- A field and a generic method take 21 tokens.  One more is left over, a cut at 13 tokens leaves
the method with a count of type arguments and none of them, a run of one record leaves 16 tokens,
and a third record is missing. -/
theorem decodeWith_exact_genericMethod :
    decodeWith .default MemberRecord.sampleStream 2 = .ok [.staticField, .genericMethod] ∧
      decodeWith .default (MemberRecord.sampleStream ++ [7]) 2 = .error (.trailingTokens 21 22) ∧
      (∃ position, 13 ≤ position ∧ decodeWith .default (MemberRecord.sampleStream.take 13) 2 =
        .error (.record 1 (.outOfBounds position 13))) ∧
      decodeWith .default MemberRecord.sampleStream 1 = .error (.trailingTokens 5 21) ∧
      decodeWith .default MemberRecord.sampleStream 3 =
        .error (.record 2 (.outOfBounds 21 21)) := by
  have h : decodeWith .default MemberRecord.sampleStream 2 =
    .ok [.staticField, .genericMethod] := rfl
  obtain ⟨hmore, hcut, hfewer, hbeyond⟩ := decodeWith_exact h
  exact ⟨h, hmore [7] (by decide), hcut 13 (by decide), hfewer 1 (by decide), hbeyond 3 (by decide)⟩

end MemberCatalog
