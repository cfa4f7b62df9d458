/-
# Records with a layout

A record has a layout that stands for it if its types have one, its declaring type has a handle
and its parameters can be counted by one token (`MemberRecord.HasLayout`).  The layout says nothing
of the shape it has; a reader learns the shape from the flags alone, so a record can be read back
only if its shape goes with its flags (`MemberRecord.ShapeMatches`).

The lengths of the layouts in a stream place each record (`MemberRecord.tokenLenAll`).
-/

import MemberCatalog.Layout
import MemberCatalog.Proofs.TypeSig.Parts

namespace MemberCatalog

namespace TypeSig

theorem length_flatMap_layout_eq (ts : List TypeSig) :
    (ts.flatMap layout).length = tokenLenAll ts :=
  length_flatMap_layout fun t _ => t.length_layout

theorem length_le_length_flatMap_layout (ts : List TypeSig) :
    ts.length ≤ (ts.flatMap layout).length := by
  rw [length_flatMap_layout_eq]
  exact length_le_tokenLenAll ts

end TypeSig

namespace MemberShape

/-- The layout of the shape stands for it: its parameters can be counted by one token, and the
layout of each type stands for the type. -/
structure HasLayout (s : MemberShape) : Prop where
  parameters_lt : s.parameters.length < UInt16.size
  types : ∀ t ∈ s.types, t.HasLayout

theorem hasLayout_iff {s : MemberShape} :
    s.HasLayout ↔ s.parameters.length < UInt16.size ∧ ∀ t ∈ s.types, t.HasLayout :=
  ⟨fun h => ⟨h.parameters_lt, h.types⟩, fun ⟨hlt, ht⟩ => ⟨hlt, ht⟩⟩

instance (s : MemberShape) : Decidable s.HasLayout := decidable_of_iff _ hasLayout_iff.symm

theorem hasLayout_field {t : TypeSig} : (field t).HasLayout ↔ t.HasLayout := by
  constructor
  · intro h
    exact h.types t (List.mem_singleton_self t)
  · intro h
    exact ⟨Nat.zero_lt_succ _, fun u hu => List.mem_singleton.1 hu ▸ h⟩

theorem hasLayout_invocable {t : TypeSig} {ps : List TypeSig} :
    (invocable t ps).HasLayout ↔
      ps.length < UInt16.size ∧ t.HasLayout ∧ ∀ p ∈ ps, p.HasLayout := by
  constructor
  · intro h
    exact ⟨h.parameters_lt, List.forall_mem_cons.1 h.types⟩
  · rintro ⟨hlt, h⟩
    exact ⟨hlt, List.forall_mem_cons.2 h⟩

theorem two_le_tokenLen (s : MemberShape) : 2 ≤ s.tokenLen := by
  cases s with
  | field t => exact t.two_le_tokenLen
  | invocable t ps =>
    have h := t.two_le_tokenLen
    rw [tokenLen]
    omega

end MemberShape

namespace MemberRecord

/-- **The layout of the record stands for it**: every type id in it has a handle, and its
parameters and all type arguments can be counted by one token. -/
structure HasLayout (r : MemberRecord) : Prop where
  declaringType : r.declaringType.HasHandle
  shape : r.shape.HasLayout

theorem hasLayout_iff {r : MemberRecord} :
    r.HasLayout ↔ r.declaringType.HasHandle ∧ r.shape.HasLayout :=
  ⟨fun h => ⟨h.declaringType, h.shape⟩, fun ⟨hd, hs⟩ => ⟨hd, hs⟩⟩

instance (r : MemberRecord) : Decidable r.HasLayout := decidable_of_iff _ hasLayout_iff.symm

/-- The record is shaped like a field exactly when its kind bits are those of a field alone. -/
def ShapeMatches (r : MemberRecord) : Prop := r.shape.isField = true ↔ r.kind? = some .field

instance (r : MemberRecord) : Decidable r.ShapeMatches :=
  inferInstanceAs (Decidable (_ ↔ _))

/-- How many tokens a list of records takes. -/
def tokenLenAll : List MemberRecord → Nat
  | [] => 0
  | r :: rs => r.tokenLen + tokenLenAll rs

@[simp]
theorem tokenLenAll_nil : tokenLenAll [] = 0 := rfl

@[simp]
theorem tokenLenAll_cons (r : MemberRecord) (rs : List MemberRecord) :
    tokenLenAll (r :: rs) = r.tokenLen + tokenLenAll rs := rfl

theorem tokenLenAll_append (rs qs : List MemberRecord) :
    tokenLenAll (rs ++ qs) = tokenLenAll rs + tokenLenAll qs := by
  induction rs with
  | nil => simp
  | cons r rs ih => rw [List.cons_append, tokenLenAll_cons, ih, tokenLenAll_cons, Nat.add_assoc]

theorem length_flatMap_layout (rs : List MemberRecord) :
    (rs.flatMap layout).length = tokenLenAll rs := by
  induction rs with
  | nil => rfl
  | cons r rs ih =>
    rw [List.flatMap_cons, List.length_append, r.length_layout, ih, tokenLenAll_cons]

/-- **No record takes less than five tokens**: its flags, its declaring type, its arity, and a
type. -/
theorem five_le_tokenLen (r : MemberRecord) : 5 ≤ r.tokenLen := by
  have h := r.shape.two_le_tokenLen
  rw [tokenLen]
  omega

theorem five_mul_length_le_tokenLenAll (rs : List MemberRecord) :
    5 * rs.length ≤ tokenLenAll rs := by
  induction rs with
  | nil => exact Nat.le_refl 0
  | cons r rs ih =>
    have hr := r.five_le_tokenLen
    rw [List.length_cons, tokenLenAll_cons]
    omega

theorem layout_ne_nil (r : MemberRecord) : r.layout ≠ [] := List.cons_ne_nil _ _

/-! ### Some records -/

/-- A static field of the type that declares it. -/
def staticField : MemberRecord where
  flags := ⟨0x0042⟩
  declaringType := .special 20
  arity := 0
  shape := .field (.direct (.special 20))

/-- A generic method: its return type applies a definition to the method's own parameter and to the
self type, and its parameter is a by-reference array. -/
def genericMethod : MemberRecord where
  flags := ⟨0x0041⟩
  declaringType := .wellKnown 5
  arity := 1
  shape := .invocable (.inst (.wellKnown 7) [.methodParam 0, .direct .self])
    [.modified .byRef (.modified .array (.typeParam 0))]

/-- A stream of a field and a generic method. -/
def sampleStream : List Token :=
  [0x42, 20, 0, 0x40, 20,
    0x41, 0x205, 1, 1, 0x15, 0x40, 0x207, 2, 0x1E, 0, 0x40, 0xFFFF, 0x10, 0x1D, 0x13, 0]

example : [staticField, genericMethod].flatMap layout = sampleStream := rfl

/-- A field with a flag bit that means nothing, which only a decoder without checks lets pass. -/
def unknownFlagField : MemberRecord where
  flags := ⟨0x0102⟩
  declaringType := .self
  arity := 0
  shape := .field (.methodParam 3)

end MemberRecord

end MemberCatalog
