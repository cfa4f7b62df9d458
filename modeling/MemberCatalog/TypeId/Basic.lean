/-
# Type ids

One 16-bit handle addresses three disjoint ranges:

| handle | type id |
| --- | --- |
| below `0x0200` | a special type, by its handle |
| `0x0200` up to `0xFFFE` | a framework type, by its distance from `0x0200` |
| `0xFFFF` | the self type: the declaring type's own generic definition |

Every handle resolves (`ofHandle`).  A type id may hold a number outside its range and then has
no handle (`HasHandle`, `handle`); neither direction asks whether the enumerations know the type.
-/

import MemberCatalog.Error
import MemberCatalog.TypeId.SpecialType
import MemberCatalog.TypeId.WellKnownType

namespace MemberCatalog

/-- A reference to a type. -/
inductive TypeId where
  /-- The fundamental type with the given handle. -/
  | special (number : Token)
  /-- The framework type with the given number. -/
  | wellKnown (number : Token)
  /-- The declaring type's own generic definition. -/
  | self
  deriving DecidableEq, Repr

namespace TypeId

/-- The first handle of the framework types. -/
def wellKnownBase : Token := 0x0200

/-- The handle of the self type. -/
def selfHandle : Token := 0xFFFF

/-- The type id that a handle addresses. -/
def ofHandle (h : Token) : TypeId :=
  if h = selfHandle then self
  else if wellKnownBase ≤ h then wellKnown (h - wellKnownBase)
  else special h

/-- The number of the id lies in its range, so that a handle addresses it. -/
def HasHandle : TypeId → Prop
  | special n => n < wellKnownBase
  | wellKnown n => n < selfHandle - wellKnownBase
  | self => True

instance : (id : TypeId) → Decidable id.HasHandle
  | special n => inferInstanceAs (Decidable (n < wellKnownBase))
  | wellKnown n => inferInstanceAs (Decidable (n < selfHandle - wellKnownBase))
  | self => inferInstanceAs (Decidable True)

/-- The word that stands for the id in a token table.  It addresses the id only if the id has a
handle. -/
def toToken : TypeId → Token
  | special n => n
  | wellKnown n => wellKnownBase + n
  | self => selfHandle

/-- The handle that addresses the id, or the number that lies outside its range. -/
def handle : TypeId → Except Error Token
  | special n => if n < wellKnownBase then .ok n else .error (.typeIdOutOfRange n)
  | wellKnown n =>
    if n < selfHandle - wellKnownBase then .ok (wellKnownBase + n)
    else .error (.typeIdOutOfRange n)
  | self => .ok selfHandle

theorem handle_eq_ok {id : TypeId} (h : id.HasHandle) : id.handle = .ok id.toToken := by
  cases id <;> simp_all [HasHandle, handle, toToken]

/-- **Every handle is the handle of the id that it addresses.** -/
theorem handle_ofHandle (h : Token) : (ofHandle h).handle = .ok h := by
  unfold ofHandle
  split
  · simp_all [handle]
  · split
    · rename_i h₁ h₂
      have hlt : h - wellKnownBase < selfHandle - wellKnownBase := by
        simp only [wellKnownBase, selfHandle, UInt16.lt_iff_toNat_lt, UInt16.le_iff_toNat_le,
          ← UInt16.toNat_inj, UInt16.toNat_sub, UInt16.reduceToNat] at *
        have := h.toNat_lt
        omega
      simp [handle, hlt, UInt16.add_comm wellKnownBase]
    · rename_i h₁ h₂
      simp [handle, UInt16.not_le.1 h₂]

/-- **The handle of an id addresses that id.** -/
theorem ofHandle_toToken {id : TypeId} (h : id.HasHandle) : ofHandle id.toToken = id := by
  cases id with
  | self => rfl
  | special n =>
    have hlt : n.toNat < 512 := UInt16.lt_iff_toNat_lt.1 h
    have hself : n ≠ selfHandle := fun e => by
      rw [e] at hlt
      exact absurd hlt (by decide)
    rw [toToken, ofHandle, if_neg hself, if_neg (UInt16.not_le.2 h)]
  | wellKnown n =>
    have hlt : n.toNat < 65023 := UInt16.lt_iff_toNat_lt.1 h
    have hsum : (wellKnownBase + n).toNat = 512 + n.toNat := by
      rw [UInt16.toNat_add, Nat.mod_eq_of_lt]
      · rfl
      · simp only [wellKnownBase, UInt16.reduceToNat]
        omega
    have hself : wellKnownBase + n ≠ selfHandle := fun e => by
      rw [e] at hsum
      simp only [selfHandle, UInt16.reduceToNat] at hsum
      omega
    have hbase : wellKnownBase ≤ wellKnownBase + n := by
      rw [UInt16.le_iff_toNat_le, hsum]
      exact Nat.le_add_right _ _
    rw [toToken, ofHandle, if_neg hself, if_pos hbase, UInt16.add_comm, UInt16.add_sub_cancel]

/-! ### Order -/

/-- The place of an id among all ids: special types first, then framework types, then the self
type, each group by number. -/
def rank : TypeId → Nat
  | special n => n.toNat
  | wellKnown n => UInt16.size + n.toNat
  | self => UInt16.size + UInt16.size

instance : Ord TypeId := ⟨fun a b => compare a.rank b.rank⟩

instance : LT TypeId := ⟨fun a b => a.rank < b.rank⟩

instance : LE TypeId := ⟨fun a b => a.rank ≤ b.rank⟩

instance (a b : TypeId) : Decidable (a < b) := inferInstanceAs (Decidable (a.rank < b.rank))

instance (a b : TypeId) : Decidable (a ≤ b) := inferInstanceAs (Decidable (a.rank ≤ b.rank))

theorem rank_inj {a b : TypeId} (h : a.rank = b.rank) : a = b := by
  cases a <;> cases b <;> grind [rank, UInt16.toNat_lt, UInt16.toNat_inj]

/-- The ids in ascending order. -/
def sort (ids : List TypeId) : List TypeId := ids.mergeSort fun a b => a ≤ b

/-! ### Names -/

/-- The special type that the id names, if the enumeration knows it. -/
def asSpecial? : TypeId → Option SpecialType
  | special n => SpecialType.ofHandle? n
  | _ => none

/-- The framework type that the id names, if the enumeration knows it. -/
def asWellKnown? : TypeId → Option WellKnownType
  | wellKnown n => WellKnownType.ofNumber? n
  | _ => none

/-- Whether the id belongs to the special types, known or not. -/
def isSpecial : TypeId → Bool
  | special _ => true
  | _ => false

/-- Whether the id belongs to the framework types, known or not. -/
def isWellKnown : TypeId → Bool
  | wellKnown _ => true
  | _ => false

/-- The fully qualified metadata name, for the ids that the enumerations know. -/
def metadataName? (id : TypeId) : Option String :=
  (id.asSpecial?.map SpecialType.metadataName).or (id.asWellKnown?.map WellKnownType.metadataName)

/-- The id by its number, for the ids that have no name. -/
def numbered : TypeId → String
  | special n => "special#" ++ toString n
  | wellKnown n => "wellknown#" ++ toString n
  | self => "<self>"

/-- The id as a signature writes it: by keyword, else by metadata name, else by number. -/
def display (id : TypeId) : String :=
  ((id.asSpecial?.bind SpecialType.keyword?).or id.metadataName?).getD id.numbered

/-- The id as the owner of a member: by metadata name, else by number. -/
def displayQualified (id : TypeId) : String :=
  id.metadataName?.getD id.numbered

end TypeId

/-- The id of a special type. -/
def SpecialType.typeId (t : SpecialType) : TypeId := .special t.handle

/-- The id of a framework type. -/
def WellKnownType.typeId (t : WellKnownType) : TypeId := .wellKnown t.number

end MemberCatalog
