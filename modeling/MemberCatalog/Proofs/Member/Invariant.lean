/-
# The invariant of valid records

`MemberRecord.IsValid` states what a valid record is without a walk through its types: what its
flags, its shape and its use of the self type have to be (`MemberRecord.IsCoherent`), which method
parameters may occur in it, and on which levels its types may have parts.
`MemberRecord.validate_cases` says that the checks accept exactly these records, that they report
the three groups of conditions in this order, and that nothing else is ever constructed.
-/

import MemberCatalog.Proofs.Member.Sound
import Mathlib.Logic.ExistsUnique

namespace MemberCatalog

/-! ### Kinds by their flags -/

namespace MemberFlags

variable {f : MemberFlags} {k : MemberKind}

/-- The flag of a kind is one of the kind bits. -/
theorem has_flag (f : MemberFlags) (k : MemberKind) :
    f.has k.flag = (f.bits &&& kindMask &&& k.flag.bit != 0) := by
  have hmask : kindMask &&& k.flag.bit = k.flag.bit := by cases k <;> rfl
  rw [has, UInt16.and_assoc, hmask]

/-- Six bits are those of a kind exactly if its bit is the one bit among them. -/
theorem ofNat_eq_bit_iff : ∀ n < 64, ∀ k ∈ MemberKind.all,
    UInt16.ofNat n = k.flag.bit ↔
      ∀ l ∈ MemberKind.all, (UInt16.ofNat n &&& l.flag.bit != 0) = true ↔ l = k := by
  decide +kernel

/-- **Flags have kind `k` exactly when its flag is set and that of no other kind.** -/
theorem kind?_eq_some_iff_has :
    f.kind? = some k ↔ ∀ l : MemberKind, f.has l.flag = true ↔ l = k := by
  have hlt : (f.bits &&& kindMask).toNat < 64 := by
    rw [UInt16.toNat_and]
    exact Nat.and_lt_two_pow (n := 6) _ (by decide)
  have h := ofNat_eq_bit_iff _ hlt k k.mem_all
  rw [UInt16.ofNat_toNat] at h
  simp only [kind?_eq_some_iff, h, has_flag, MemberKind.mem_all, forall_const]

/-- Exactly one kind flag is set in the flags that name a kind. -/
theorem existsUnique_has_iff :
    (∃! k : MemberKind, f.has k.flag = true) ↔ ∃ k, f.kind? = some k := by
  simp only [kind?_eq_some_iff_has]
  constructor
  · rintro ⟨k, hk, hunique⟩
    exact ⟨k, fun l => ⟨hunique l, fun hl => hl ▸ hk⟩⟩
  · rintro ⟨k, h⟩
    exact ⟨k, (h k).2 rfl, fun l => (h l).1⟩

end MemberFlags

namespace MemberRecord

/-! ### The invariant -/

/-- **The parts of a coherent record go together**: its flags, its shape and its use of the self
type. -/
structure IsCoherent (r : MemberRecord) : Prop where
  /-- No bit is set beyond the eight that mean something. -/
  known : r.flags.bits &&& ~~~0x00FF = 0
  /-- Of the six kind flags exactly one is set. -/
  kind : ∃! k : MemberKind, r.flags.has k.flag = true
  /-- The record is shaped like a field exactly when that flag is the one of a field. -/
  shape : r.shape.isField = true ↔ r.flags.has .field = true
  /-- The self type does not declare the member. -/
  declaringType : r.declaringType ≠ .self
  /-- The self type is not the definition of a generic instance, at any depth. -/
  definition : ∀ t ∈ r.types, ∀ s ∈ t.parts, ∀ args, s ≠ .inst .self args

/-- **No part of a type lies on a deeper level than `limit`.** -/
def NestsWithin (limit : Nat) (r : MemberRecord) : Prop :=
  ∀ t ∈ r.types, ∀ n s, t.LevelAt n s → n ≤ limit

/-- **What a valid record is.** -/
structure IsValid (r : MemberRecord) : Prop where
  isCoherent : r.IsCoherent
  /-- Every method parameter lies below the arity, at any depth. -/
  fitsArity : r.FitsArity
  /-- No type nests deeper than 64 levels. -/
  nestsWithin : r.NestsWithin 64

variable {r : MemberRecord}

/-- Coherence is soundness together with the shape that the flags announce. -/
theorem isCoherent_iff : r.IsCoherent ↔ r.ShapeMatches ∧ r.IsSound := by
  have hfield (k) (hk : r.kind? = some k) : r.flags.has .field = true ↔ k = .field :=
    (MemberFlags.kind?_eq_some_iff_has.1 hk .field).trans eq_comm
  constructor
  · rintro ⟨hknown, hkind, hshape, hd, ht⟩
    obtain ⟨k, hk⟩ := MemberFlags.existsUnique_has_iff.1 hkind
    refine ⟨?_, hknown, ⟨k, MemberFlags.kind?_eq_some_iff.1 hk⟩, hd, ht⟩
    rw [ShapeMatches, hshape, hfield k hk, kind?, hk, Option.some_inj]
  · rintro ⟨hs, hknown, ⟨k, hk⟩, hd, ht⟩
    have hkind : r.kind? = some k := MemberFlags.kind?_eq_some_iff.2 hk
    refine ⟨hknown, MemberFlags.existsUnique_has_iff.2 ⟨k, hkind⟩, ?_, hd, ht⟩
    rw [ShapeMatches, hkind, Option.some_inj] at hs
    rw [hs, hfield k hkind]

/-! ### The checks and the invariant -/

theorem checkStructure_eq_ok_iff_isCoherent : r.checkStructure = .ok () ↔ r.IsCoherent := by
  rw [isCoherent_iff]
  constructor
  · intro h
    have hs := shapeMatches_of_checkStructure h
    exact ⟨hs, (checkStructure_eq_ok_iff_isSound hs).1 h⟩
  · rintro ⟨hs, hsound⟩
    exact (checkStructure_eq_ok_iff_isSound hs).2 hsound

theorem checkDepth_eq_ok_iff_nestsWithin : r.checkDepth = .ok () ↔ r.NestsWithin 64 := by
  simp only [checkDepth_eq_ok_iff, TypeSig.depth_le_iff_forall_levelAt]
  rfl

/-- **The checks accept exactly the records that satisfy the invariant.** -/
theorem validate_eq_ok_iff_isValid : r.validate = .ok () ↔ r.IsValid := by
  rw [validate_eq_ok_iff, checkStructure_eq_ok_iff_isCoherent, checkArity_eq_ok_iff_fitsArity,
    checkDepth_eq_ok_iff_nestsWithin]
  exact ⟨fun ⟨hc, ha, hn⟩ => ⟨hc, ha, hn⟩, fun ⟨hc, ha, hn⟩ => ⟨hc, ha, hn⟩⟩

/-- An incoherent record breaks the record grammar. -/
theorem validate_of_not_isCoherent (h : ¬ r.IsCoherent) :
    ∃ fault : RecordFault, fault.IsStructural ∧ r.validate = .error (.invalidRecord fault) := by
  cases hs : r.checkStructure with
  | ok => exact absurd (checkStructure_eq_ok_iff_isCoherent.1 hs) h
  | error e =>
    obtain ⟨fault, hfault, rfl⟩ := checkStructure_error_form hs
    refine ⟨fault, hfault, ?_⟩
    rw [validate, hs]
    rfl

/-- Of a coherent record a method parameter that does not fit the arity is reported. -/
theorem validate_of_not_fitsArity (hc : r.IsCoherent) (h : ¬ r.FitsArity) :
    ∃ index, r.arity ≤ index ∧ (∃ t ∈ r.types, .methodParam index ∈ t.parts) ∧
      r.validate = .error (.genericParamOutOfRange index r.arity) := by
  cases ha : r.checkArity with
  | ok => exact absurd (checkArity_eq_ok_iff_fitsArity.1 ha) h
  | error e =>
    obtain ⟨t, ht, index, hindex, hle, rfl⟩ := checkArity_error_form ha
    refine ⟨index, hle, ⟨t, ht, TypeSig.methodParam_mem_parts_of_maxMethodParam? hindex⟩, ?_⟩
    rw [validate, checkStructure_eq_ok_iff_isCoherent.2 hc, ha]
    rfl

/-- Of a coherent record whose method parameters fit the nesting is reported. -/
theorem validate_of_not_nestsWithin (hc : r.IsCoherent) (ha : r.FitsArity)
    (h : ¬ r.NestsWithin 64) : r.validate = .error (.recursionLimit 64) := by
  cases hd : r.checkDepth with
  | ok => exact absurd (checkDepth_eq_ok_iff_nestsWithin.1 hd) h
  | error e =>
    obtain rfl := checkDepth_error_form hd
    rw [validate, checkStructure_eq_ok_iff_isCoherent.2 hc, checkArity_eq_ok_iff_fitsArity.2 ha, hd]
    rfl

/-- A record is constructed as it was given, or not at all. -/
theorem validated_eq_ok_iff {q : MemberRecord} : r.validated = .ok q ↔ q.IsValid ∧ q = r := by
  rw [validated, Checks.seq_eq_ok_iff, validate_eq_ok_iff_isValid]
  constructor
  · rintro ⟨hr, ⟨⟩⟩
    exact ⟨hr, rfl⟩
  · rintro ⟨hr, rfl⟩
    exact ⟨hr, rfl⟩

/-- **The checks on a record are its invariant.**  They accept exactly the valid records.  Of any
other record they report a breach of the record grammar if it is incoherent, else a method
parameter in it that its arity does not provide, else the nesting limit.  The constructors answer
with the record that they are given, exactly if it is valid; that of a field adds the field flag
and no generic parameter. -/
theorem validate_cases (r : MemberRecord) :
    (r.validate = .ok () ↔ r.IsValid) ∧
    (¬ r.IsCoherent →
      ∃ fault : RecordFault, fault.IsStructural ∧ r.validate = .error (.invalidRecord fault)) ∧
    (r.IsCoherent → ¬ r.FitsArity →
      ∃ index, r.arity ≤ index ∧ (∃ t ∈ r.types, .methodParam index ∈ t.parts) ∧
        r.validate = .error (.genericParamOutOfRange index r.arity)) ∧
    (r.IsCoherent → r.FitsArity → ¬ r.NestsWithin 64 →
      r.validate = .error (.recursionLimit 64)) ∧
    (∀ q, r.validated = .ok q ↔ q.IsValid ∧ q = r) ∧
    (∀ flags declaringType type q, field flags declaringType type = .ok q ↔
      q.IsValid ∧ q = ⟨⟨flags.bits ||| 0x0002⟩, declaringType, 0, .field type⟩) ∧
    ∀ flags declaringType arity returnType parameters q,
      invocable flags declaringType arity returnType parameters = .ok q ↔
        q.IsValid ∧ q = ⟨flags, declaringType, arity, .invocable returnType parameters⟩ :=
  ⟨validate_eq_ok_iff_isValid, validate_of_not_isCoherent, validate_of_not_fitsArity,
    validate_of_not_nestsWithin, fun _ => validated_eq_ok_iff, fun _ _ _ _ => validated_eq_ok_iff,
    fun _ _ _ _ _ _ => validated_eq_ok_iff⟩

/-- A field of arrays in arrays, whose innermost elements apply a definition to a method
parameter.  The parameter stands two levels below the arrays, and the arity provides one. -/
def nestedField (arrays : Nat) (definition : TypeId) (index : Token) : MemberRecord where
  flags := ⟨0x0002⟩
  declaringType := .special 20
  arity := 1
  shape := .field (Nat.repeat (.modified .array) arrays (.inst definition [.methodParam index]))

/-- Of three faults the self type is reported before the arity, and the arity before the nesting.
Without them the record is valid, up to level 64. -/
theorem validate_cases_nestedField :
    (nestedField 62 (.wellKnown 7) 0).IsValid ∧
    (¬ (nestedField 63 .self 1).IsCoherent ∧ ∃ fault : RecordFault, fault.IsStructural ∧
      (nestedField 63 .self 1).validate = .error (.invalidRecord fault)) ∧
    ((nestedField 63 (.wellKnown 7) 1).IsCoherent ∧ ¬ (nestedField 63 (.wellKnown 7) 1).FitsArity ∧
      ∃ index, 1 ≤ index ∧
        (nestedField 63 (.wellKnown 7) 1).validate = .error (.genericParamOutOfRange index 1)) ∧
    ((nestedField 63 (.wellKnown 7) 0).IsCoherent ∧ (nestedField 63 (.wellKnown 7) 0).FitsArity ∧
      ¬ (nestedField 63 (.wellKnown 7) 0).NestsWithin 64 ∧
      (nestedField 63 (.wellKnown 7) 0).validate = .error (.recursionLimit 64)) := by
  have hself : ¬ (nestedField 63 .self 1).IsCoherent := fun h =>
    nomatch checkStructure_eq_ok_iff_isCoherent.2 h
  have hcoherent₁ : (nestedField 63 (.wellKnown 7) 1).IsCoherent :=
    checkStructure_eq_ok_iff_isCoherent.1 rfl
  have hcoherent : (nestedField 63 (.wellKnown 7) 0).IsCoherent :=
    checkStructure_eq_ok_iff_isCoherent.1 rfl
  have harity : ¬ (nestedField 63 (.wellKnown 7) 1).FitsArity := fun h =>
    nomatch checkArity_eq_ok_iff_fitsArity.2 h
  have hfits : (nestedField 63 (.wellKnown 7) 0).FitsArity := checkArity_eq_ok_iff_fitsArity.1 rfl
  have hdeep : ¬ (nestedField 63 (.wellKnown 7) 0).NestsWithin 64 := fun h =>
    nomatch checkDepth_eq_ok_iff_nestsWithin.2 h
  obtain ⟨index, hle, -, hindex⟩ := (validate_cases _).2.2.1 hcoherent₁ harity
  exact ⟨(validate_cases _).1.1 rfl, ⟨hself, (validate_cases _).2.1 hself⟩,
    ⟨hcoherent₁, harity, index, hle, hindex⟩, hcoherent, hfits, hdeep,
    (validate_cases _).2.2.2.1 hcoherent hfits hdeep⟩

end MemberRecord

end MemberCatalog
