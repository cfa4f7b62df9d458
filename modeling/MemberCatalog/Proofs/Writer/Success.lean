/-
# When a writer succeeds

`x.Writes ts P` says of a writer all that matters of its success: it succeeds exactly under the
condition `P`, and then has appended the tokens `ts`.  Writers in a row append their tokens in a row
and succeed under both conditions (`Writes.seq`, `Writes.forM`).
-/

import MemberCatalog.Proofs.TypeId.Handle
import MemberCatalog.Writer.Basic

namespace MemberCatalog

/-- Any tokens may have been written. -/
theorem Buffer.exists_toList_eq (ts : List Token) : ∃ b : Buffer, b.toList = ts :=
  ⟨⟨ts.reverse⟩, List.reverse_reverse ts⟩

namespace Writer

variable {x y : Writer Unit} {b b' : Buffer} {ts us : List Token} {P Q : Prop}

/-- Two writers in a row succeed exactly when both do. -/
theorem seq_eq_ok_iff :
    (x >>= fun _ => y) b = .ok () b' ↔ ∃ m, x b = .ok () m ∧ y m = .ok () b' := by
  simp only [bind, EStateM.bind]
  cases x b with
  | ok _ m => simp
  | error e m => simp

/-- **What `x` writes.**  It succeeds exactly under the condition `P`, and then appends `ts`. -/
def Writes (x : Writer Unit) (ts : List Token) (P : Prop) : Prop :=
  ∀ b b', x b = .ok () b' ↔ b'.toList = b.toList ++ ts ∧ P

theorem writes_pure : Writes (pure ()) [] True := by
  intro b b'
  simp [pure, EStateM.pure, Buffer.toList_inj, eq_comm]

theorem writes_token (t : Token) : Writes (token t) [t] True := by
  intro b b'
  have h : token t b = .ok () (b.push t) := rfl
  rw [h, ← b.toList_push t, Buffer.toList_inj]
  simp [eq_comm]

theorem writes_throw (e : Error) (ts : List Token) : Writes (throw e) ts False :=
  fun _ _ => ⟨nofun, fun h => h.2.elim⟩

theorem writes_handle (id : TypeId) : Writes (handle id) [id.toToken] id.HasHandle := by
  unfold handle
  split
  · rename_i h hid
    obtain ⟨hhas, rfl⟩ := TypeId.handle_eq_ok_iff.1 hid
    simpa [hhas] using writes_token id.toToken
  · rename_i e hid
    have hhas : ¬ id.HasHandle := by
      intro h
      rw [TypeId.handle_eq_ok h] at hid
      cases hid
    simpa [hhas] using writes_throw e [id.toToken]

theorem writes_count (n : Nat) (counted : Counted) :
    Writes (count n counted) [.ofNat n] (n < UInt16.size) := by
  unfold count
  split
  · rename_i hn
    simpa [hn] using writes_token (.ofNat n)
  · rename_i hn
    simpa [hn] using writes_throw (.invalidRecord (.countTooLarge n counted)) [.ofNat n]

/-- **Writers in a row append their tokens in a row.** -/
theorem Writes.seq (hx : x.Writes ts P) (hy : y.Writes us Q) :
    (x >>= fun _ => y).Writes (ts ++ us) (P ∧ Q) := by
  intro b b'
  rw [seq_eq_ok_iff]
  constructor
  · rintro ⟨m, hm, hb⟩
    obtain ⟨hm, hP⟩ := (hx b m).1 hm
    obtain ⟨hb, hQ⟩ := (hy m b').1 hb
    exact ⟨by rw [hb, hm, List.append_assoc], hP, hQ⟩
  · rintro ⟨hb, hP, hQ⟩
    obtain ⟨m, hm⟩ := Buffer.exists_toList_eq (b.toList ++ ts)
    refine ⟨m, (hx b m).2 ⟨hm, hP⟩, (hy m b').2 ⟨?_, hQ⟩⟩
    rw [hb, hm, List.append_assoc]

theorem Writes.forM {α : Type} {write : α → Writer Unit} {layout : α → List Token} {p : α → Prop}
    {as : List α} (h : ∀ a ∈ as, (write a).Writes (layout a) (p a)) :
    (ForM.forM as write).Writes (as.flatMap layout) (∀ a ∈ as, p a) := by
  induction as with
  | nil => simpa using writes_pure
  | cons a as ih =>
    obtain ⟨ha, has⟩ := List.forall_mem_cons.1 h
    rw [List.forM_cons, List.flatMap_cons, List.forall_mem_cons]
    exact ha.seq (ih has)

/-- A writer that leaves nothing behind on failure succeeds as before. -/
theorem Writes.atomic (hx : x.Writes ts P) : (atomic x).Writes ts P := by
  intro b b'
  rw [← hx b b', Writer.atomic]
  cases x b with
  | ok _ m => simp
  | error e m => simp

/-- Another name for a failure changes no success. -/
theorem Writes.adaptExcept (hx : x.Writes ts P) (f : Error → Error) :
    Writes (EStateM.adaptExcept f x) ts P := by
  intro b b'
  rw [← hx b b', EStateM.adaptExcept]
  cases x b with
  | ok _ m => simp
  | error e m => simp

end Writer

end MemberCatalog
