/-
# Sound records

The checks on the structure and on the arity of a record, without their order: a record that has
the shape of its kind passes them exactly if it is sound
(`MemberRecord.checkStructure_eq_ok_iff_isSound`) and its method parameters fit its arity
(`MemberRecord.checkArity_eq_ok_iff_fitsArity`).
-/

import MemberCatalog.Proofs.Member.Validity
import MemberCatalog.Proofs.TypeSig.Check

namespace MemberCatalog

namespace MemberRecord

/-- **A sound record**: its flags and its use of the self type mean something. -/
structure IsSound (r : MemberRecord) : Prop where
  /-- No bit is set beyond those that mean something. -/
  known : r.flags.bits &&& ~~~MemberFlags.knownMask = 0
  /-- Of the kind bits exactly one is set. -/
  kind : ∃ k : MemberKind, r.flags.bits &&& MemberFlags.kindMask = k.flag.bit
  /-- The self type does not declare the member. -/
  declaringType : r.declaringType ≠ .self
  /-- The self type is not the definition of a generic instance, at any depth. -/
  definition : ∀ t ∈ r.types, ∀ s ∈ t.parts, ∀ args, s ≠ .inst .self args

/-- **Every method parameter lies below the arity**, at any depth. -/
def FitsArity (r : MemberRecord) : Prop :=
  ∀ t ∈ r.types, ∀ s ∈ t.parts, ∀ i, s = .methodParam i → i < r.arity

variable {r : MemberRecord}

theorem checkDeclaring_eq_ok_iff {id : TypeId} : id.checkDeclaring = .ok () ↔ id ≠ .self := by
  unfold TypeId.checkDeclaring
  split <;> simp_all

/-- Of records shaped as their kind demands, the structure is checked for soundness. -/
theorem checkStructure_eq_ok_iff_isSound (hs : r.ShapeMatches) :
    r.checkStructure = .ok () ↔ r.IsSound := by
  simp only [checkStructure_eq_ok_iff, MemberFlags.validKind_eq_ok_iff,
    MemberShape.checkKind_eq_ok_iff, checkDeclaring_eq_ok_iff, TypeSig.checkSelf_eq_ok_iff]
  constructor
  · rintro ⟨k, ⟨hknown, hk⟩, -, hd, ht⟩
    exact ⟨hknown, ⟨k, MemberFlags.kind?_eq_some_iff.1 hk⟩, hd, ht⟩
  · rintro ⟨hknown, ⟨k, hk⟩, hd, ht⟩
    have hkind : r.kind? = some k := MemberFlags.kind?_eq_some_iff.2 hk
    rw [ShapeMatches, hkind, Option.some_inj] at hs
    exact ⟨k, ⟨hknown, hkind⟩, hs, hd, ht⟩

theorem checkArity_eq_ok_iff_fitsArity : r.checkArity = .ok () ↔ r.FitsArity := by
  simp only [checkArity, FitsArity, List.forM_eq_forM, Checks.forM_eq_ok_iff,
    TypeSig.checkArity_eq_ok_iff]

end MemberRecord

end MemberCatalog
