/-
# Readers that go by a verdict

In front of the layout of a value a reader answers with the value or refuses it.  Which of the two,
and with which error, can often be told from the value alone, by a check that knows nothing of
tokens.  The outcome of the reader then goes by the verdict of that check (`Reader.Obeys`).

The verdict on values in a row is the one on the first that is refused, as the errors of a reader
and of a chain of checks come about in the same way (`Obeys.bind`, `obeys_repeated`).
-/

import MemberCatalog.Proofs.Checks
import MemberCatalog.Proofs.Reader.Success

namespace MemberCatalog

namespace Reader

variable {α β : Type} {c c' m : Cursor} {a : α} {b : β} {v w : Except Error Unit}

/-- **The outcome of a reader goes by a verdict.**  If the verdict accepts, the reader answers with
`a` and stops at `c'`, and otherwise it fails with the error of the verdict. -/
inductive Obeys (a : α) (c' : Cursor) :
    Except Error Unit → EStateM.Result Error Cursor α → Prop
  | accepted : Obeys a c' (.ok ()) (.ok a c')
  | refused (e : Error) (m : Cursor) : Obeys a c' (.error e) (.error e m)

theorem Obeys.eq_ok_iff {outcome : EStateM.Result Error Cursor α} (h : Obeys a c' v outcome) :
    v = .ok () ↔ outcome = .ok a c' := by
  cases h <;> simp

theorem Obeys.exists_of_error {outcome : EStateM.Result Error Cursor α} {e : Error}
    (h : Obeys a c' (.error e) outcome) : ∃ m, outcome = .error e m := by
  cases h with
  | refused _ m => exact ⟨m, rfl⟩

/-- Two readers in a row go by their verdicts in a row. -/
theorem Obeys.bind {x : Reader α} {f : α → Reader β} (hx : Obeys a m v (x c))
    (hf : Obeys b c' w (f a m)) : Obeys b c' (v >>= fun _ => w) ((x >>= f) c) := by
  generalize hxc : x c = outcome at hx
  cases hx with
  | accepted =>
    rw [bind_of_eq_ok hxc]
    exact hf
  | refused e m =>
    rw [bind_of_eq_error hxc]
    exact .refused e m

/-- What is read before without fail has no part in the verdict. -/
theorem Obeys.of_bind_right {x : Reader α} {f : α → Reader β} (hx : x c = .ok a m)
    (hf : Obeys b c' v (f a m)) : Obeys b c' v ((x >>= f) c) := by
  rw [bind_of_eq_ok hx]
  exact hf

/-- What is done behind without fail has no part in the verdict. -/
theorem Obeys.of_bind_left {x : Reader α} {f : α → Reader β} (hx : Obeys a m v (x c))
    (hf : f a m = .ok b c') : Obeys b c' v ((x >>= f) c) := by
  generalize hxc : x c = outcome at hx
  cases hx with
  | accepted =>
    rw [bind_of_eq_ok hxc, hf]
    exact .accepted
  | refused e m =>
    rw [bind_of_eq_error hxc]
    exact .refused e m

theorem obeys_check (wanted : Bool) (x : Except Error α) :
    Obeys () c (Checks.demand wanted x) (check wanted x c) := by
  cases wanted with
  | false => exact .accepted
  | true =>
    cases x with
    | ok a => exact .accepted
    | error e => exact .refused e c

/-- Values in a row are read by the verdict on the first of them that is refused. -/
theorem obeys_repeated {x : Reader α} {layout : α → List Token} {verdict : α → Except Error Unit}
    {as : List α}
    (hx : ∀ a ∈ as, ∀ {c c'}, c.Passes (layout a) c' → Obeys a c' (verdict a) (x c))
    (h : c.Passes (as.flatMap layout) c') :
    Obeys as c' (as.forM verdict) (repeated as.length x c) := by
  induction as generalizing c with
  | nil =>
    obtain rfl := Cursor.passes_nil.1 h
    exact .accepted
  | cons a as ih =>
    obtain ⟨ha, has⟩ := List.forall_mem_cons.1 hx
    obtain ⟨m, hm, h⟩ := Cursor.passes_append.1 h
    rw [List.length_cons, repeated_succ]
    exact (ha hm).bind ((ih has h).of_bind_left rfl)

end Reader

end MemberCatalog
