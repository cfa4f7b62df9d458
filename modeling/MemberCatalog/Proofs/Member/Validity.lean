/-
# What the checks on a record accept and answer

A record is valid exactly when the checks of its structure, its arity and its depth accept it
(`MemberRecord.validate_eq_ok_iff`).  The structure settles
the shape: the flags of a record with a sound structure name a kind, and the shape goes with it
(`MemberRecord.shapeMatches_of_checkStructure`).

The error of each check has a form of its own, so that the error of a record that is not valid
tells which check refused it (`MemberRecord.validate_error_form`).
-/

import MemberCatalog.Member.Validity
import MemberCatalog.Proofs.Checks
import MemberCatalog.Proofs.Member.Layout

namespace MemberCatalog

/-! ### What the checks accept -/

theorem MemberFlags.validKind_eq_ok_iff {f : MemberFlags} {k : MemberKind} :
    f.validKind = .ok k ↔ f.IsKnown ∧ f.kind? = some k := by
  unfold validKind
  by_cases hf : f.IsKnown
  · cases f.kind? <;> simp [hf]
  · simp [hf]

theorem MemberShape.checkKind_eq_ok_iff {s : MemberShape} {k : MemberKind} :
    s.checkKind k = .ok () ↔ (s.isField = true ↔ k = .field) := by
  unfold checkKind
  split <;> simp_all

namespace MemberRecord

variable {r : MemberRecord} {e : Error}

theorem checkStructure_eq_ok_iff :
    r.checkStructure = .ok () ↔ ∃ k, r.flags.validKind = .ok k ∧ r.shape.checkKind k = .ok () ∧
      r.declaringType.checkDeclaring = .ok () ∧ ∀ t ∈ r.types, t.checkSelf = .ok () := by
  rw [checkStructure, Checks.bind_eq_ok_iff]
  simp only [Checks.seq_eq_ok_iff, List.forM_eq_forM, Checks.forM_eq_ok_iff]

/-- A sound structure has flags that name a kind. -/
theorem exists_validKind_of_checkStructure (h : r.checkStructure = .ok ()) :
    ∃ k, r.flags.validKind = .ok k := by
  obtain ⟨k, hk, -⟩ := checkStructure_eq_ok_iff.1 h
  exact ⟨k, hk⟩

theorem checkDepth_eq_ok_iff :
    r.checkDepth = .ok () ↔ ∀ t ∈ r.types, t.depth ≤ maxNestingDepth := by
  unfold checkDepth
  split
  · rename_i h
    obtain ⟨t, ht, hlt⟩ := List.any_eq_true.1 h
    refine ⟨nofun, fun hle => ?_⟩
    exact absurd (hle t ht) (Nat.not_le.2 (of_decide_eq_true hlt))
  · rename_i h
    refine ⟨fun _ t ht => Nat.not_lt.1 fun hlt => ?_, fun _ => rfl⟩
    exact h (List.any_eq_true.2 ⟨t, ht, decide_eq_true hlt⟩)

/-- **A record is valid exactly when it passes the three checks.** -/
theorem validate_eq_ok_iff :
    r.validate = .ok () ↔
      r.checkStructure = .ok () ∧ r.checkArity = .ok () ∧ r.checkDepth = .ok () := by
  simp only [validate, Checks.seq_eq_ok_iff]

/-- **A sound structure has the shape that its flags announce.** -/
theorem shapeMatches_of_checkStructure (h : r.checkStructure = .ok ()) : r.ShapeMatches := by
  obtain ⟨k, hk, hs, -⟩ := checkStructure_eq_ok_iff.1 h
  rw [ShapeMatches, kind?, (MemberFlags.validKind_eq_ok_iff.1 hk).2, Option.some_inj]
  exact MemberShape.checkKind_eq_ok_iff.1 hs

end MemberRecord

/-! ### What the checks answer -/

/-- The breaches that the checks on the structure of a record report. -/
def RecordFault.IsStructural : RecordFault → Prop
  | unknownFlagBits _ | kindNotUnique _ | shapeMismatch _ | selfDeclaring | selfDefinition => True
  | countTooLarge _ _ | described _ => False

theorem MemberFlags.validKind_error_form {f : MemberFlags} {e : Error}
    (h : f.validKind = .error e) :
    ∃ fault : RecordFault, fault.IsStructural ∧ e = .invalidRecord fault := by
  unfold validKind at h
  split at h
  · split at h
    · cases h
    · cases h
      exact ⟨.kindNotUnique f, trivial, rfl⟩
  · cases h
    exact ⟨.unknownFlagBits f, trivial, rfl⟩

theorem TypeSig.checkSelf_error_form {t : TypeSig} {e : Error} (h : t.checkSelf = .error e) :
    e = .invalidRecord .selfDefinition := by
  induction t with
  | direct | typeParam | methodParam => cases h
  | modified _ _ ih => exact ih h
  | inst d args ih =>
    rw [checkSelf_inst] at h
    split at h
    · cases h
      rfl
    · obtain ⟨a, ha, he⟩ := Checks.exists_of_forM_eq_error h
      exact ih a ha he

theorem TypeSig.checkArity_error_form {arity : Token} {t : TypeSig} {e : Error}
    (h : t.checkArity arity = .error e) :
    ∃ index, t.maxMethodParam? = some index ∧ arity ≤ index ∧
      e = .genericParamOutOfRange index arity := by
  unfold checkArity at h
  split at h
  · cases h
  · rename_i index hindex
    split at h
    · rename_i hle
      cases h
      exact ⟨index, hindex, hle, rfl⟩
    · cases h

namespace MemberRecord

variable {r : MemberRecord} {e : Error}

theorem checkStructure_error_form (h : r.checkStructure = .error e) :
    ∃ fault : RecordFault, fault.IsStructural ∧ e = .invalidRecord fault := by
  simp only [checkStructure, Checks.bind_eq_error_iff] at h
  rcases h with h | ⟨k, -, h | ⟨-, -, h | ⟨-, -, h⟩⟩⟩
  · exact MemberFlags.validKind_error_form h
  · unfold MemberShape.checkKind at h
    split at h
    · cases h
    · cases h
      exact ⟨.shapeMismatch k, trivial, rfl⟩
  · unfold TypeId.checkDeclaring at h
    split at h
    · cases h
      exact ⟨.selfDeclaring, trivial, rfl⟩
    · cases h
  · obtain ⟨t, -, ht⟩ := Checks.exists_of_forM_eq_error h
    exact ⟨.selfDefinition, trivial, TypeSig.checkSelf_error_form ht⟩

theorem checkArity_error_form (h : r.checkArity = .error e) :
    ∃ t ∈ r.types, ∃ index, t.maxMethodParam? = some index ∧ r.arity ≤ index ∧
      e = .genericParamOutOfRange index r.arity := by
  obtain ⟨t, ht, he⟩ := Checks.exists_of_forM_eq_error h
  exact ⟨t, ht, TypeSig.checkArity_error_form he⟩

theorem checkDepth_error_form (h : r.checkDepth = .error e) :
    e = .recursionLimit maxNestingDepth := by
  unfold checkDepth at h
  split at h
  · cases h
    rfl
  · cases h

/-- **The error of a record tells the check that refused it.** -/
theorem validate_error_form (h : r.validate = .error e) :
    (∃ fault : RecordFault, fault.IsStructural ∧ e = .invalidRecord fault) ∨
      (∃ index, e = .genericParamOutOfRange index r.arity) ∨
      e = .recursionLimit maxNestingDepth := by
  simp only [validate, Checks.bind_eq_error_iff] at h
  rcases h with h | ⟨-, -, h | ⟨-, -, h⟩⟩
  · exact .inl (checkStructure_error_form h)
  · obtain ⟨_, -, index, -, -, he⟩ := checkArity_error_form h
    exact .inr (.inl ⟨index, he⟩)
  · exact .inr (.inr (checkDepth_error_form h))

theorem inRecord_of_validate (h : r.validate = .error e) (i : Nat) :
    e.inRecord i = .record i e := by
  rcases validate_error_form h with ⟨_, -, rfl⟩ | ⟨_, rfl⟩ | rfl <;> rfl

end MemberRecord

end MemberCatalog
