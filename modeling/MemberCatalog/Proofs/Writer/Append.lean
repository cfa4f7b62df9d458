/-
# What a writer leaves in a buffer

A writer does not look at the tokens that stand in its buffer.  It answers the same for every buffer
and puts the same tokens behind what it finds, whether it succeeds or fails in the midst of them.
`x.Appends answer ts` names the answer and the tokens, `x.Answers answer` the answer alone, and
`x.AppendsOnly` says that there are such.  Of a writer that is to write a certain layout,
`x.Proceeds answer layout` says that it appends the first tokens of this layout, all of them if it
succeeds and not all if it fails.  Writers in a row answer as checks in a row do, and proceed
through layouts in a row (`Proceeds.seq`, `Proceeds.forM`).

A writer of this kind is undone by a return to the length that the buffer had before
(`Appends.atomic_of_error`), so that a failure leaves nothing behind, however late it comes.
-/

import MemberCatalog.Proofs.Writer.Success
import Mathlib.Data.List.Forall2

namespace MemberCatalog

namespace Buffer

/-- The buffer with more tokens behind those written so far. -/
def append (b : Buffer) (ts : List Token) : Buffer := ⟨ts.reverse ++ b.reversed⟩

variable (b : Buffer) (ts us : List Token)

@[simp]
theorem toList_append : (b.append ts).toList = b.toList ++ ts := by
  simp [toList, append]

@[simp]
theorem append_nil : b.append [] = b := rfl

theorem append_append : (b.append ts).append us = b.append (ts ++ us) := by
  rw [← toList_inj]
  simp

/-- The length of a buffer is the place to return to. -/
theorem truncate_append : (b.append ts).truncate b.size = b := by
  rw [← toList_inj, toList_truncate, toList_append, ← length_toList, List.take_left]

end Buffer

namespace Writer

variable {x y : Writer Unit} {b b' : Buffer} {answer answer' : Except Error Unit}
  {e : Error} {ts us : List Token} {P : Prop}

theorem outcome_eq_ok_iff : x.outcome b = (.ok (), b') ↔ x b = .ok () b' := by
  unfold outcome
  cases x b with
  | ok u m => simp
  | error e m => simp

theorem outcome_eq_error_iff : x.outcome b = (.error e, b') ↔ x b = .error e b' := by
  unfold outcome
  cases x b with
  | ok u m => simp
  | error e m => simp

/-- **What `x` does to a buffer**: it answers `answer`, and `ts` is what it has appended by then. -/
def Appends (x : Writer Unit) (answer : Except Error Unit) (ts : List Token) : Prop :=
  ∀ b, x.outcome b = (answer, b.append ts)

/-- **The writer does the same to every buffer**, and nothing but append to it. -/
def AppendsOnly (x : Writer Unit) : Prop := ∃ answer ts, x.Appends answer ts

theorem Appends.eq_ok (hx : x.Appends (.ok ()) ts) (b : Buffer) : x b = .ok () (b.append ts) :=
  outcome_eq_ok_iff.1 (hx b)

theorem Appends.eq_error (hx : x.Appends (.error e) ts) (b : Buffer) :
    x b = .error e (b.append ts) :=
  outcome_eq_error_iff.1 (hx b)

theorem appends_throw (e : Error) : Appends (throw e) (.error e) [] := fun _ => rfl

/-- **What `x` answers**, whatever stands in the buffer and whatever has been appended by then. -/
def Answers (x : Writer Unit) (answer : Except Error Unit) : Prop := ∃ ts, x.Appends answer ts

theorem answers_throw (e : Error) : Answers (throw e) (.error e) := ⟨[], appends_throw e⟩

/-- Behind a writer that succeeds a second one appends behind what the first has appended. -/
theorem Appends.seq_ok (hx : x.Appends (.ok ()) ts) (hy : y.Appends answer us) :
    (x >>= fun _ => y).Appends answer (ts ++ us) := by
  intro b
  have hstep : (x >>= fun _ => y).outcome b = y.outcome (b.append ts) := by
    simp only [outcome, bind, EStateM.bind, hx.eq_ok b]
  rw [hstep, hy, Buffer.append_append]

/-- Behind a writer that fails nothing is written any more. -/
theorem Appends.seq_error (hx : x.Appends (.error e) ts) :
    (x >>= fun _ => y).Appends (.error e) ts := by
  intro b
  simp only [outcome, bind, EStateM.bind, hx.eq_error b]

/-- **A failure is taken back whole**, whatever was written before it. -/
theorem Appends.atomic_of_error (hx : x.Appends (.error e) ts) :
    (atomic x).Appends (.error e) [] := by
  intro b
  rw [outcome_eq_error_iff, atomic, hx.eq_error b, Buffer.append_nil]
  simp only [Buffer.truncate_append]

/-- Taking back what was written changes no answer. -/
theorem Answers.atomic (hx : x.Answers answer) : (atomic x).Answers answer := by
  obtain ⟨ts, hx⟩ := hx
  cases answer with
  | error e => exact ⟨[], hx.atomic_of_error⟩
  | ok =>
    refine ⟨ts, fun b => ?_⟩
    rw [outcome_eq_ok_iff, Writer.atomic, hx.eq_ok b]

/-- A writer that succeeds appends all that it writes. -/
theorem Writes.appends (hx : x.Writes ts P) (hP : P) : x.Appends (.ok ()) ts := by
  intro b
  rw [outcome_eq_ok_iff, hx b]
  exact ⟨b.toList_append ts, hP⟩

/-- A writer that does not succeed fails with one error, and has appended one list of tokens by
then. -/
theorem Writes.exists_appends_error (hx : x.Writes ts P) (ha : x.AppendsOnly) (hP : ¬ P) :
    ∃ e us, x.Appends (.error e) us := by
  obtain ⟨answer, us, ha⟩ := ha
  cases answer with
  | ok => exact absurd ((hx _ _).1 (ha.eq_ok .empty)).2 hP
  | error e => exact ⟨e, us, ha⟩

/-! ### How far a writer gets -/

/-- A writer has one answer and appends one list of tokens. -/
theorem Appends.eq_of_appends (hx : x.Appends answer ts) (hx' : x.Appends answer us) : ts = us := by
  have h := congrArg Prod.snd ((hx .empty).symm.trans (hx' .empty))
  simpa [← Buffer.toList_inj] using h

/-- **How far `x` gets through a layout**: it gets to the end if it succeeds, and stops before the
end if it fails. -/
def Proceeds (x : Writer Unit) (answer : Except Error Unit) (layout : List Token) : Prop :=
  ∃ ts, x.Appends answer ts ∧ ts <+: layout ∧ (answer = .ok () ↔ ts = layout)

theorem Proceeds.answers (hx : x.Proceeds answer ts) : x.Answers answer := by
  obtain ⟨us, hx, -⟩ := hx
  exact ⟨us, hx⟩

theorem proceeds_pure : Proceeds (pure ()) (.ok ()) [] :=
  ⟨[], fun _ => rfl, List.prefix_rfl, by simp⟩

theorem proceeds_token (t : Token) : (token t).Proceeds (.ok ()) [t] :=
  ⟨[t], fun _ => rfl, List.prefix_rfl, by simp⟩

/-- A failure stops in front of any token. -/
theorem proceeds_throw (e : Error) (t : Token) : Proceeds (throw e) (.error e) [t] :=
  ⟨[], appends_throw e, List.nil_prefix, by simp⟩

/-- Writers in a row proceed through layouts in a row. -/
theorem Proceeds.seq (hx : x.Proceeds answer ts) (hy : y.Proceeds answer' us) :
    (x >>= fun _ => y).Proceeds (answer >>= fun _ => answer') (ts ++ us) := by
  obtain ⟨ts', hx, hts, hend⟩ := hx
  cases answer with
  | ok =>
    obtain rfl := hend.1 rfl
    obtain ⟨us', hy, hus, hend'⟩ := hy
    refine ⟨ts' ++ us', hx.seq_ok hy, (List.prefix_append_right_inj ts').2 hus, ?_⟩
    rw [List.append_right_inj]
    exact hend'
  | error e =>
    refine ⟨ts', hx.seq_error, hts.trans (List.prefix_append ts us), nofun, fun h => ?_⟩
    -- to stop at the very end of both is to have come to the end of the first
    have hle : ts.length ≤ ts'.length := by
      rw [h, List.length_append]
      exact Nat.le_add_right _ _
    cases hend.2 (hts.eq_of_length_le hle)

theorem Proceeds.forM {α β : Type} {write : α → Writer Unit} {check : α → Except Error Unit}
    {layout : β → List Token} {as : List α} {bs : List β}
    (h : List.Forall₂ (fun a b => (write a).Proceeds (check a) (layout b)) as bs) :
    (ForM.forM as write).Proceeds (ForM.forM as check) (bs.flatMap layout) := by
  induction h with
  | nil => exact proceeds_pure
  | cons hab _ ih =>
    rw [List.forM_cons, List.forM_cons, List.flatMap_cons]
    exact hab.seq ih

end Writer

end MemberCatalog
