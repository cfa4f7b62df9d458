/-
# What the checks on a signature look for

Each check on a signature looks for one kind of part, at any depth: `TypeSig.checkSelf` for a
generic instance of the self type, `TypeSig.checkArity` for a method parameter beyond the arity.  A
check accepts exactly the signatures without such a part (`TypeSig.checkSelf_eq_ok_iff`,
`TypeSig.checkArity_eq_ok_iff`).
-/

import MemberCatalog.Proofs.Checks
import MemberCatalog.Proofs.TypeSig.Parts
import MemberCatalog.TypeSig.Check

namespace MemberCatalog

namespace Token

instance : Std.LawfulOrderMax Token where
  max_le_iff a b c := by
    show (if a ≤ b then b else a) ≤ c ↔ a ≤ c ∧ b ≤ c
    split <;> grind
  max_eq_or a b := by
    show (if a ≤ b then b else a) = a ∨ (if a ≤ b then b else a) = b
    split <;> simp

/-- The highest of some tokens, if there is one, lies below `n` exactly when all of them do. -/
theorem max?_lt_iff {ts : List Token} {n : Token} :
    (∀ m, ts.max? = some m → m < n) ↔ ∀ t ∈ ts, t < n := by
  cases h : ts.max? with
  | none => simp [List.max?_eq_none_iff.1 h]
  | some m =>
    obtain ⟨hm, hmax⟩ := List.max?_eq_some_iff.1 h
    constructor
    · intro hn t ht
      exact Std.lt_of_le_of_lt (hmax t ht) (hn m rfl)
    · rintro hall _ ⟨rfl⟩
      exact hall m hm

end Token

namespace TypeSig

variable {arity n : Token} {t : TypeSig}

/-- **The self type is nowhere the definition of a generic instance**, exactly if the check accepts
the signature. -/
theorem checkSelf_eq_ok_iff :
    t.checkSelf = .ok () ↔ ∀ s ∈ t.parts, ∀ args, s ≠ .inst .self args := by
  induction t with
  | direct | typeParam | methodParam => simp [parts]
  | modified m inner ih => simp [parts, ih]
  | inst d args ih =>
    rw [forall_parts_inst, checkSelf_inst]
    by_cases hd : d = .self
    · simp [hd]
    · rw [if_neg hd, List.forM_eq_forM, Checks.forM_eq_ok_iff]
      have hhead (as : List TypeSig) : inst d args ≠ inst .self as := by simp [hd]
      exact ⟨fun h => ⟨hhead, fun a ha => (ih a ha).1 (h a ha)⟩,
        fun h a ha => (ih a ha).2 (h.2 a ha)⟩

/-- The highest method parameter of a signature lies below `n` exactly when all of them do. -/
theorem maxMethodParam?_lt_iff : (∀ i, t.maxMethodParam? = some i → i < n) ↔
    ∀ s ∈ t.parts, ∀ i, s = .methodParam i → i < n := by
  induction t with
  | direct | typeParam | methodParam => simp [parts]
  | modified m inner ih => simp [parts, ih]
  | inst d args ih =>
    rw [forall_parts_inst, maxMethodParam?_inst, Token.max?_lt_iff]
    simp only [List.mem_filterMap]
    constructor
    · intro h
      refine ⟨fun i hi => absurd hi (by simp), fun a ha => ?_⟩
      exact (ih a ha).1 fun i hi => h i ⟨a, ha, hi⟩
    · rintro ⟨-, h⟩ i ⟨a, ha, hi⟩
      exact (ih a ha).2 (h a ha) i hi

/-- The highest method parameter of a signature occurs in it. -/
theorem methodParam_mem_parts_of_maxMethodParam? {i : Token} (h : t.maxMethodParam? = some i) :
    .methodParam i ∈ t.parts := by
  induction t with
  | direct | typeParam => cases h
  | methodParam index =>
    cases h
    exact List.mem_singleton_self _
  | modified m inner ih => exact List.mem_cons_of_mem _ (ih h)
  | inst d args ih =>
    rw [maxMethodParam?_inst] at h
    obtain ⟨a, ha, hi⟩ := List.mem_filterMap.1 (List.max?_eq_some_iff.1 h).1
    exact mem_parts_inst ha (ih a ha hi)

/-- **Every method parameter in the signature lies below the arity**, exactly if the check accepts
the signature. -/
theorem checkArity_eq_ok_iff :
    t.checkArity arity = .ok () ↔ ∀ s ∈ t.parts, ∀ i, s = .methodParam i → i < arity := by
  rw [← maxMethodParam?_lt_iff]
  unfold checkArity
  cases t.maxMethodParam? with
  | none => simp
  | some index =>
    simp only [Option.some.injEq, forall_eq']
    split
    · rename_i hle
      exact ⟨nofun, fun hlt => absurd hlt (UInt16.not_lt.2 hle)⟩
    · rename_i hle
      exact ⟨fun _ => UInt16.not_le.1 hle, fun _ => rfl⟩

end TypeSig

end MemberCatalog
