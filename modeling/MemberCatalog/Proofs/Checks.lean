/-
# Checks in a row

A chain of checks accepts exactly what each of them accepts, and a check of every entry of a list
exactly the lists all of whose entries it accepts (`Checks.forM_eq_ok_iff`).  A check that may be
switched off accepts everything unless it is wanted (`Checks.demand`), and of several errors found
in order the first is the answer (`Checks.first`).

Of a list with an entry that is refused the first such entry matters: `Checks.FirstFails` names its
number and its error, and `Checks.forall_ok_or_exists_split` finds it.
-/

import MemberCatalog.Error

namespace MemberCatalog

namespace Checks

variable {α β : Type}

theorem bind_eq_ok_iff {x : Except Error α} {f : α → Except Error β} {b : β} :
    (x >>= f) = .ok b ↔ ∃ a, x = .ok a ∧ f a = .ok b := by
  cases x with
  | ok a => simp [bind, Except.bind]
  | error e => simp [bind, Except.bind]

theorem bind_eq_error_iff {x : Except Error α} {f : α → Except Error β} {e : Error} :
    (x >>= f) = .error e ↔ x = .error e ∨ ∃ a, x = .ok a ∧ f a = .error e := by
  cases x with
  | ok a => simp [bind, Except.bind]
  | error e => simp [bind, Except.bind]

/-- Two checks in a row accept exactly what both accept. -/
theorem seq_eq_ok_iff {x : Except Error Unit} {y : Except Error β} {b : β} :
    (x >>= fun _ => y) = .ok b ↔ x = .ok () ∧ y = .ok b := by
  rw [bind_eq_ok_iff]
  constructor
  · rintro ⟨⟨⟩, h⟩
    exact h
  · intro h
    exact ⟨(), h⟩

theorem seq_eq_error_iff {x : Except Error Unit} {y : Except Error β} {e : Error} :
    (x >>= fun _ => y) = .error e ↔ x = .error e ∨ x = .ok () ∧ y = .error e := by
  rw [bind_eq_error_iff]
  refine or_congr_right ⟨?_, fun h => ⟨(), h⟩⟩
  rintro ⟨⟨⟩, h⟩
  exact h

/-- A check of every entry of a list accepts the list exactly when it accepts each entry. -/
theorem forM_eq_ok_iff {check : α → Except Error Unit} {as : List α} :
    forM as check = .ok () ↔ ∀ a ∈ as, check a = .ok () := by
  induction as with
  | nil => simp [pure, Except.pure]
  | cons a as ih => rw [List.forM_cons, seq_eq_ok_iff, ih, List.forall_mem_cons]

/-- The error of a check of every entry is the error for one of them. -/
theorem exists_of_forM_eq_error {check : α → Except Error Unit} {as : List α} {e : Error}
    (h : forM as check = .error e) : ∃ a ∈ as, check a = .error e := by
  induction as with
  | nil => simp [pure, Except.pure] at h
  | cons a as ih =>
    rw [List.forM_cons, bind_eq_error_iff] at h
    rcases h with h | ⟨_, _, h⟩
    · exact ⟨a, List.mem_cons_self .., h⟩
    · obtain ⟨b, hb, he⟩ := ih h
      exact ⟨b, List.mem_cons_of_mem _ hb, he⟩

/-- The first entry that a check refuses decides on the list. -/
theorem forM_append_cons_eq_error {check : α → Except Error Unit} {as bs : List α} {a : α}
    {e : Error} (has : ∀ b ∈ as, check b = .ok ()) (ha : check a = .error e) :
    forM (as ++ a :: bs) check = .error e := by
  rw [List.forM_append, forM_eq_ok_iff.2 has, List.forM_cons, ha]
  rfl

/-! ### Checks that may be switched off -/

/-- The verdict of a check that counts only if it is wanted. -/
def demand (wanted : Bool) (x : Except Error α) : Except Error Unit :=
  if wanted then x.map fun _ => () else .ok ()

section

variable {wanted : Bool} {x : Except Error α} {e : Error}

@[simp]
theorem demand_false : demand false x = .ok () := rfl

@[simp]
theorem demand_true (x : Except Error Unit) : demand true x = x := by
  cases x <;> rfl

theorem demand_eq_ok_iff : demand wanted x = .ok () ↔ (wanted = true → ∃ a, x = .ok a) := by
  cases wanted with
  | false => simp
  | true => cases x <;> simp [demand, Except.map]

theorem demand_unit_eq_ok_iff {x : Except Error Unit} :
    demand wanted x = .ok () ↔ (wanted = true → x = .ok ()) := by
  cases wanted <;> simp

theorem demand_eq_error_iff : demand wanted x = .error e ↔ wanted = true ∧ x = .error e := by
  cases wanted with
  | false => simp
  | true => cases x <;> simp [demand, Except.map]

end

/-! ### The first of several errors -/

/-- The answer if there are these errors in order: the first of them, if there is one. -/
def first : List Error → Except Error Unit
  | [] => .ok ()
  | e :: _ => .error e

section

variable {es fs : List Error} {e : Error}

theorem first_append : first (es ++ fs) = first es >>= fun _ => first fs := by
  cases es <;> rfl

theorem first_flatMap {f : α → List Error} {as : List α} :
    first (as.flatMap f) = forM as fun a => first (f a) := by
  induction as with
  | nil => rfl
  | cons a as ih => rw [List.flatMap_cons, first_append, ih, List.forM_cons]

theorem first_eq_ok_iff : first es = .ok () ↔ es = [] := by
  cases es <;> simp [first]

theorem first_eq_error_iff : first es = .error e ↔ es.head? = some e := by
  cases es <;> simp [first]

end

/-! ### The first entry that is refused -/

/-- **The first entry that a check refuses** is the one with number `i`, and its error is `e`. -/
def FirstFails (check : α → Except Error Unit) (as : List α) (i : Nat) (e : Error) : Prop :=
  ∃ a, as[i]? = some a ∧ check a = .error e ∧ ∀ b ∈ as.take i, check b = .ok ()

/-- The entry that a check refuses first stands behind entries that it accepts. -/
theorem firstFails_append {check : α → Except Error Unit} {as bs : List α} {b : α} {e : Error}
    (has : ∀ a ∈ as, check a = .ok ()) (hb : check b = .error e) :
    FirstFails check (as ++ b :: bs) as.length e := by
  refine ⟨b, ?_, hb, ?_⟩
  · rw [List.getElem?_append_right (Nat.le_refl _), Nat.sub_self, List.getElem?_cons_zero]
  · rwa [List.take_left]

/-- A check accepts every entry of a list, or it refuses one behind entries that it accepts. -/
theorem forall_ok_or_exists_split (check : α → Except Error Unit) (as : List α) :
    (∀ a ∈ as, check a = .ok ()) ∨ ∃ bs a cs e, as = bs ++ a :: cs ∧
      (∀ b ∈ bs, check b = .ok ()) ∧ check a = .error e := by
  induction as with
  | nil => exact .inl nofun
  | cons a as ih =>
    cases ha : check a with
    | error e => exact .inr ⟨[], a, as, e, rfl, nofun, ha⟩
    | ok _ =>
      rcases ih with has | ⟨bs, b, cs, e, rfl, hbs, hb⟩
      · exact .inl (List.forall_mem_cons.2 ⟨ha, has⟩)
      · exact .inr ⟨a :: bs, b, cs, e, rfl, List.forall_mem_cons.2 ⟨ha, hbs⟩, hb⟩

/-- An entry of a list stands behind as many others as its number says. -/
theorem exists_split_of_getElem? {as : List α} {i : Nat} {a : α} (h : as[i]? = some a) :
    ∃ bs cs, as = bs ++ a :: cs ∧ bs.length = i := by
  obtain ⟨hi, rfl⟩ := List.getElem?_eq_some_iff.1 h
  refine ⟨as.take i, as.drop (i + 1), ?_, List.length_take_of_le (Nat.le_of_lt hi)⟩
  rw [List.getElem_cons_drop, List.take_append_drop]

/-- The first entry that a check refuses divides the list. -/
theorem FirstFails.exists_split {check : α → Except Error Unit} {as : List α} {i : Nat} {e : Error}
    (h : FirstFails check as i e) : ∃ bs a cs, as = bs ++ a :: cs ∧ bs.length = i ∧
      (∀ b ∈ bs, check b = .ok ()) ∧ check a = .error e := by
  obtain ⟨a, ha, he, hbefore⟩ := h
  obtain ⟨bs, cs, rfl, rfl⟩ := exists_split_of_getElem? ha
  rw [List.take_left] at hbefore
  exact ⟨bs, a, cs, rfl, rfl, hbefore, he⟩

/-- A check accepts every entry of a list, or one of them is the first that it refuses. -/
theorem forall_ok_or_firstFails (check : α → Except Error Unit) (as : List α) :
    (∀ a ∈ as, check a = .ok ()) ∨ ∃ i e, FirstFails check as i e := by
  rcases forall_ok_or_exists_split check as with h | ⟨bs, a, cs, e, rfl, hbs, ha⟩
  · exact .inl h
  · exact .inr ⟨bs.length, e, firstFails_append hbs ha⟩

end Checks

end MemberCatalog
