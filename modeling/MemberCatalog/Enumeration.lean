/-
# Closed enumerations

Type numbers and member numbers are positions in closed lists of names.  `Enumeration` keeps
such a list with the two facts that make positions and values interchangeable, and
`ofIndex?_eq_some_iff` states the exchange: the value at position `n` is `a` exactly when the
position of `a` is `n`.
-/

namespace MemberCatalog

/-- A type whose values are listed once each, in a fixed order, under fixed labels. -/
class Enumeration (α : Type) [DecidableEq α] where
  /-- Every value, in order. -/
  all : List α
  /-- The label of a value. -/
  label : α → String
  /-- No value is missing from the list. -/
  complete : ∀ a, a ∈ all
  /-- No value is listed twice. -/
  nodup : all.Nodup

namespace Enumeration

variable {α : Type} [DecidableEq α] [Enumeration α]

/-- How many values there are. -/
def count (α : Type) [DecidableEq α] [Enumeration α] : Nat := (all : List α).length

/-- The position of a value in the list, counted from `0`. -/
def index (a : α) : Nat := (all : List α).idxOf a

/-- The value at position `n`, if the list reaches that far. -/
def ofIndex? (α : Type) [DecidableEq α] [Enumeration α] (n : Nat) : Option α := (all : List α)[n]?

theorem index_lt (a : α) : index a < count α :=
  List.idxOf_lt_length_of_mem (complete a)

@[simp]
theorem ofIndex?_index (a : α) : ofIndex? α (index a) = some a := by
  have h := index_lt a
  rw [ofIndex?, List.getElem?_eq_getElem h]
  exact congrArg some (List.getElem_idxOf h)

/-- **Positions and values determine each other.** -/
theorem ofIndex?_eq_some_iff {n : Nat} {a : α} : ofIndex? α n = some a ↔ index a = n := by
  refine ⟨fun h => ?_, fun h => h ▸ ofIndex?_index a⟩
  obtain ⟨hn, rfl⟩ := List.getElem?_eq_some_iff.1 h
  exact nodup.idxOf_getElem n hn

end Enumeration

end MemberCatalog
