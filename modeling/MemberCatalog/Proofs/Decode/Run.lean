/-
# Runs over laid out records

Let `read` be a reader of records that succeeds exactly on the layouts of the records that satisfy
`P`.  A run over such records, one layout behind the other, reads each of them and then goes on
with whatever is left to read behind them (`Run.extend_append`).  From this one law follow the ways
in which a run can leave such records behind:

* it ends at the end of the stream, and then it answers with the records
  (`Run.result_start_eq_ok_iff`, which says that no other run has an answer);
* it ends before the end of the stream, and reports the tokens left over
  (`Run.result_start_of_rest_ne_nil`);
* it fails in the next record (`Run.result_start_of_read_eq_error`).
-/

import MemberCatalog.Decode.Run
import MemberCatalog.Proofs.Decode.Record

namespace MemberCatalog

namespace Cursor

theorem trailingFault?_eq_none_iff {c : Cursor} : c.trailingFault? = none ↔ c.rest = [] := by
  have := c.hasMore_iff
  unfold trailingFault?
  split <;> simp_all

theorem trailingFault?_of_rest_ne_nil {c : Cursor} (h : c.rest ≠ []) :
    c.trailingFault? = some (.trailingTokens c.pos c.len) :=
  if_pos (c.hasMore_iff.2 h)

/-- The fault at the end of a run names the tokens that the run has left over. -/
theorem trailingFault?_eq_some_iff {c : Cursor} {e : Error} :
    c.trailingFault? = some e ↔ c.pos < c.len ∧ e = .trailingTokens c.pos c.len := by
  simp [trailingFault?, hasMore, eq_comm]

end Cursor

/-- The entries of records that are laid out one behind the other from token `pos` on. -/
def entriesFrom (pos : Nat) : List MemberRecord → List Entry
  | [] => []
  | r :: rs => ⟨r, pos, pos + r.tokenLen⟩ :: entriesFrom (pos + r.tokenLen) rs

theorem map_record_entriesFrom (pos : Nat) (rs : List MemberRecord) :
    (entriesFrom pos rs).map Entry.record = rs := by
  induction rs generalizing pos with
  | nil => rfl
  | cons r rs ih => rw [entriesFrom, List.map_cons, ih]

namespace Run

variable {read : Reader MemberRecord} {P : MemberRecord → Prop} {c c' m : Cursor}
  {n index : Nat} {done : List Entry} {rs : List MemberRecord} {e : Error}

/-- A run without answer has the fault that it answers with. -/
theorem result_eq_error_iff {run : Run} : run.result = .error e ↔ run.fault? = some e := by
  unfold result
  split <;> simp_all

theorem result_extend_zero_of_rest_ne_nil (h : c.rest ≠ []) :
    (extend read 0 index done c).result = .error (.trailingTokens c.pos c.len) := by
  rw [extend, Cursor.trailingFault?_of_rest_ne_nil h]
  rfl

/-- **A run goes on behind the records that it has passed.** -/
theorem extend_append (hread : read.Reads MemberRecord.layout P) (hP : ∀ r ∈ rs, P r)
    (h : c.Passes (rs.flatMap MemberRecord.layout) m) :
    extend read (rs.length + n) index done c =
      extend read n (index + rs.length) ((entriesFrom c.pos rs).reverse ++ done) m := by
  induction rs generalizing c index done with
  | nil =>
    obtain rfl := Cursor.passes_nil.1 h
    rw [List.length_nil, Nat.zero_add]
    rfl
  | cons r rs ih =>
    obtain ⟨hr, hrs⟩ := List.forall_mem_cons.1 hP
    obtain ⟨m₁, h₁, h₂⟩ := Cursor.passes_append.1 h
    have hok := (hread c r m₁).2 ⟨h₁, hr⟩
    have hpos : m₁.pos = c.pos + r.tokenLen := by rw [h₁.pos_eq, r.length_layout]
    have hlen : (r :: rs).length + n = rs.length + n + 1 := by
      rw [List.length_cons]
      omega
    rw [hlen, extend, hok]
    simp only
    rw [ih hrs h₂, hpos, entriesFrom, List.reverse_cons, List.append_assoc, List.length_cons,
      Nat.add_assoc, Nat.add_comm 1]
    rfl

/-- Behind the records passed a run stands where it may end, if no more of them are asked for. -/
theorem start_append (hread : read.Reads MemberRecord.layout P) (hP : ∀ r ∈ rs, P r)
    (h : c.Passes (rs.flatMap MemberRecord.layout) m) (n : Nat) :
    start read (rs.length + n) c =
      extend read n rs.length (entriesFrom c.pos rs).reverse m := by
  rw [start, extend_append hread hP h, Nat.zero_add, List.append_nil]

/-- Tokens behind the last record are reported. -/
theorem result_start_of_rest_ne_nil (hread : read.Reads MemberRecord.layout P)
    (hP : ∀ r ∈ rs, P r) (h : c.Passes (rs.flatMap MemberRecord.layout) m) (hm : m.rest ≠ []) :
    (start read rs.length c).result = .error (.trailingTokens m.pos m.len) := by
  rw [← Nat.add_zero rs.length, start_append hread hP h]
  exact result_extend_zero_of_rest_ne_nil hm

/-- A failure behind some records is a failure of the record whose number is how many they are, and
the run keeps the records in front. -/
theorem start_of_read_eq_error (hread : read.Reads MemberRecord.layout P)
    (hP : ∀ r ∈ rs, P r) (h : c.Passes (rs.flatMap MemberRecord.layout) m)
    (hm : read m = .error e c') (hn : rs.length < n) :
    start read n c = ⟨entriesFrom c.pos rs, some (e.inRecord rs.length), c'⟩ := by
  obtain ⟨k, rfl⟩ := Nat.exists_eq_add_of_lt hn
  rw [Nat.add_assoc, start_append hread hP h, extend, hm]
  simp only [List.reverse_reverse]

theorem result_start_of_read_eq_error (hread : read.Reads MemberRecord.layout P)
    (hP : ∀ r ∈ rs, P r) (h : c.Passes (rs.flatMap MemberRecord.layout) m)
    (hm : read m = .error e c') (hn : rs.length < n) :
    (start read n c).result = .error (e.inRecord rs.length) := by
  rw [start_of_read_eq_error hread hP h hm hn]
  rfl

/-- **A run passes laid out records**, as many as were asked for or all in front of one that
fails. -/
theorem extend_cases (hread : read.Reads MemberRecord.layout P) (n index : Nat) (done : List Entry)
    (c : Cursor) :
    ∃ (rs : List MemberRecord) (m : Cursor), (∀ r ∈ rs, P r) ∧
      c.Passes (rs.flatMap MemberRecord.layout) m ∧
      (rs.length = n ∧ extend read n index done c =
          ⟨done.reverse ++ entriesFrom c.pos rs, m.trailingFault?, m⟩ ∨
        rs.length < n ∧ ∃ e c', read m = .error e c' ∧ extend read n index done c =
          ⟨done.reverse ++ entriesFrom c.pos rs, some (e.inRecord (index + rs.length)), c'⟩) := by
  induction n generalizing index done c with
  | zero => exact ⟨[], c, nofun, Cursor.passes_nil.2 rfl, .inl ⟨rfl, by simp [extend, entriesFrom]⟩⟩
  | succ n ih =>
    cases hr : read c with
    | error e c' =>
      refine ⟨[], c, nofun, Cursor.passes_nil.2 rfl, .inr ⟨Nat.succ_pos n, e, c', hr, ?_⟩⟩
      simp [extend, hr, entriesFrom]
    | ok r m₁ =>
      obtain ⟨hp₁, hr'⟩ := (hread c r m₁).1 hr
      obtain ⟨rs, m, hrs, hp, h⟩ := ih (index + 1) (⟨r, c.pos, m₁.pos⟩ :: done) m₁
      have hpos : m₁.pos = c.pos + r.tokenLen := by rw [hp₁.pos_eq, r.length_layout]
      refine ⟨r :: rs, m, List.forall_mem_cons.2 ⟨hr', hrs⟩, hp₁.trans hp, ?_⟩
      simp only [extend, hr, List.length_cons, entriesFrom, ← hpos]
      rcases h with ⟨hlen, h⟩ | ⟨hlen, e, c', hm, h⟩
      · exact .inl ⟨by rw [hlen], by simpa using h⟩
      · refine .inr ⟨Nat.succ_lt_succ hlen, e, c', hm, ?_⟩
        have hindex : index + 1 + rs.length = index + (rs.length + 1) := by omega
        rw [hindex] at h
        simpa using h

theorem start_cases (hread : read.Reads MemberRecord.layout P) (n : Nat) (c : Cursor) :
    ∃ (rs : List MemberRecord) (m : Cursor), (∀ r ∈ rs, P r) ∧
      c.Passes (rs.flatMap MemberRecord.layout) m ∧
      (rs.length = n ∧ start read n c = ⟨entriesFrom c.pos rs, m.trailingFault?, m⟩ ∨
        rs.length < n ∧ ∃ e c', read m = .error e c' ∧
          start read n c = ⟨entriesFrom c.pos rs, some (e.inRecord rs.length), c'⟩) := by
  have h := extend_cases hread n 0 [] c
  simp only [List.reverse_nil, List.nil_append, Nat.zero_add] at h
  exact h

/-- A run without fault has passed laid out records to the end of the stream. -/
theorem exists_of_fault?_eq_none (hread : read.Reads MemberRecord.layout P)
    (h : (start read n c).fault? = none) :
    ∃ rs : List MemberRecord, rs.length = n ∧ c.rest = rs.flatMap MemberRecord.layout ∧
      ∀ r ∈ rs, P r := by
  obtain ⟨rs, m, hP, hm, ⟨hlen, hrun⟩ | ⟨-, e, c', -, hrun⟩⟩ := start_cases hread n c
  · rw [hrun, Cursor.trailingFault?_eq_none_iff] at h
    have hrest := hm.rest_eq
    rw [h, List.append_nil] at hrest
    exact ⟨rs, hlen, hrest, hP⟩
  · rw [hrun] at h
    cases h

/-- **A run answers exactly with laid out records that take all of the stream.** -/
theorem result_start_eq_ok_iff (hread : read.Reads MemberRecord.layout P) :
    (start read n c).result = .ok rs ↔
      rs.length = n ∧ c.rest = rs.flatMap MemberRecord.layout ∧ ∀ r ∈ rs, P r := by
  have hok {rs : List MemberRecord} (hrest : c.rest = rs.flatMap MemberRecord.layout)
      (hP : ∀ r ∈ rs, P r) : (start read rs.length c).result = .ok rs := by
    obtain ⟨m, hm, hnil⟩ := Cursor.exists_passes (hrest.trans (List.append_nil _).symm)
    rw [← Nat.add_zero rs.length, start_append hread hP hm, extend,
      Cursor.trailingFault?_eq_none_iff.2 hnil]
    simp only [result, records, List.reverse_reverse, map_record_entriesFrom]
  constructor
  · intro h
    have hfault : (start read n c).fault? = none := by
      unfold result at h
      split at h
      · assumption
      · cases h
    obtain ⟨qs, rfl, hrest, hP⟩ := exists_of_fault?_eq_none hread hfault
    rw [hok hrest hP] at h
    cases h
    exact ⟨rfl, hrest, hP⟩
  · rintro ⟨rfl, hrest, hP⟩
    exact hok hrest hP

end Run

/-- **Decoding answers exactly with accepted records whose layouts are the stream.** -/
theorem decodeWith_eq_ok_iff {config : DecoderConfig} {tokens : List Token} {n : Nat}
    {rs : List MemberRecord} :
    decodeWith config tokens n = .ok rs ↔
      rs.length = n ∧ tokens = rs.flatMap MemberRecord.layout ∧ ∀ r ∈ rs, config.Accepts r :=
  Run.result_start_eq_ok_iff (MemberRecord.reads_read config)

/-- **Without checks the decoder is the grammar.**  It answers exactly with the records whose
layouts, one behind the other, are the stream: as many of them as asked for, each with a layout
that stands for it, with the shape of a field exactly when the kind bits are those of a field
alone, and with no type that nests deeper than the limit. -/
theorem decodeWith_unchecked_eq_ok_iff {tokens : List Token} {n limit : Nat}
    {rs : List MemberRecord} :
    decodeWith { maxNestingDepth := limit, arityValidation := false, recordValidation := false }
        tokens n = .ok rs ↔
      rs.length = n ∧ tokens = rs.flatMap MemberRecord.layout ∧
        ∀ r ∈ rs, r.HasLayout ∧
          (r.shape.isField = true ↔ r.flags.bits &&& MemberFlags.kindMask = Flag.field.bit) ∧
          ∀ t ∈ r.types, t.depth ≤ limit := by
  rw [decodeWith_eq_ok_iff]
  refine and_congr_right fun _ => and_congr_right fun _ => forall₂_congr fun r _ => ?_
  have hkind : r.kind? = some .field ↔ r.flags.bits &&& MemberFlags.kindMask = Flag.field.bit :=
    MemberFlags.kind?_eq_some_iff
  rw [← hkind]
  constructor
  · intro h
    exact ⟨h.hasLayout, h.shapeMatches, h.depth_le⟩
  · rintro ⟨hl, hs, hd⟩
    exact ⟨hl, hs, hd, nofun, nofun⟩

end MemberCatalog
