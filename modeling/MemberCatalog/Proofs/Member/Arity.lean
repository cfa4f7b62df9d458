/-
# Which method parameter an arity error names

`TypeSig.methodParams` lists the method parameters of a signature from left to right.  The check of
the arity accepts a signature exactly if all of them lie below the arity, and otherwise names the
highest of them (`TypeSig.checkArity_of_find?`).  That is the first one that does not fit only if no
other one lies higher, and of the types of a record it is the first with a parameter that does not
fit whose highest parameter is named (`MemberRecord.validate_names_highest`).
-/

import MemberCatalog.Proofs.Member.Invariant

namespace MemberCatalog

namespace TypeSig

/-- The position of the method parameter that the signature is, if it is one. -/
def methodParam? : TypeSig → Option Token
  | methodParam i => some i
  | _ => none

/-- **The method parameters in the signature**, at any depth, in pre-order. -/
def methodParams (t : TypeSig) : List Token := t.parts.filterMap methodParam?

variable {t : TypeSig} {arity i : Token}

theorem methodParam?_eq_some_iff : t.methodParam? = some i ↔ t = .methodParam i := by
  cases t <;> simp [methodParam?]

theorem mem_methodParams_iff : i ∈ t.methodParams ↔ .methodParam i ∈ t.parts := by
  simp [methodParams, methodParam?_eq_some_iff]

theorem checkArity_eq_ok_iff_methodParams :
    t.checkArity arity = .ok () ↔ ∀ i ∈ t.methodParams, i < arity := by
  rw [checkArity_eq_ok_iff]
  simp only [mem_methodParams_iff]
  constructor
  · intro h i hi
    exact h _ hi i rfl
  · rintro h _ hs i rfl
    exact h i hs

/-- No method parameter reaches the arity exactly if the check accepts the signature. -/
theorem find?_methodParams_eq_none_iff :
    t.methodParams.find? (arity ≤ ·) = none ↔ t.checkArity arity = .ok () := by
  simp [checkArity_eq_ok_iff_methodParams, List.find?_eq_none]

/-- The highest method parameter is the greatest entry of the list. -/
theorem max?_methodParams : t.methodParams.max? = t.maxMethodParam? := by
  have hbound {n : Token} : (∀ i, t.maxMethodParam? = some i → i < n) ↔
      ∀ i ∈ t.methodParams, i < n := by
    rw [maxMethodParam?_lt_iff, ← checkArity_eq_ok_iff, checkArity_eq_ok_iff_methodParams]
  cases hm : t.maxMethodParam? with
  | none =>
    rw [List.max?_eq_none_iff, List.eq_nil_iff_forall_not_mem]
    intro i hi
    have hlt : i < 0 := hbound.1 (by simp [hm]) i hi
    exact absurd hlt UInt16.not_lt_zero
  | some m =>
    rw [List.max?_eq_some_iff]
    refine ⟨mem_methodParams_iff.2 (methodParam_mem_parts_of_maxMethodParam? hm), fun i hi => ?_⟩
    refine UInt16.not_lt.1 fun hlt => ?_
    have hall := hbound.1 fun j hj => by
      obtain rfl : m = j := Option.some_inj.1 (hm.symm.trans hj)
      exact hlt
    exact UInt16.lt_irrefl i (hall i hi)

/-- **The check names the highest method parameter** of a signature with one that does not fit.  The
first one that does not fit is the one named exactly if no other one lies higher. -/
theorem checkArity_of_find? (h : t.methodParams.find? (arity ≤ ·) = some i) :
    ∃ m, t.methodParams.max? = some m ∧
      t.checkArity arity = .error (.genericParamOutOfRange m arity) ∧
      (t.checkArity arity = .error (.genericParamOutOfRange i arity) ↔
        ∀ j ∈ t.methodParams, j ≤ i) := by
  have hi : i ∈ t.methodParams := List.mem_of_find?_eq_some h
  have hle : arity ≤ i := by simpa using List.find?_some h
  obtain ⟨m, hm⟩ := Option.isSome_iff_exists.1 (List.isSome_max?_of_mem hi)
  obtain ⟨hmem, hmax⟩ := List.max?_eq_some_iff.1 hm
  have herror : t.checkArity arity = .error (.genericParamOutOfRange m arity) := by
    rw [max?_methodParams] at hm
    simp only [checkArity, hm]
    rw [if_pos (UInt16.le_trans hle (hmax i hi))]
  refine ⟨m, hm, herror, ?_⟩
  rw [herror, Except.error.injEq, Error.genericParamOutOfRange.injEq, and_iff_left rfl]
  constructor
  · rintro rfl
    exact hmax
  · intro hall
    exact UInt16.le_antisymm (hall m hmem) (hmax i hi)

end TypeSig

namespace MemberRecord

/-- **The method parameters in the record**: those of the field type, or of the return type and then
of the parameters. -/
def methodParams (r : MemberRecord) : List Token := r.types.flatMap TypeSig.methodParams

variable {r : MemberRecord} {i : Token}

/-- The first method parameter that does not fit belongs to the first type that is refused. -/
theorem exists_split_of_find? (h : r.methodParams.find? (r.arity ≤ ·) = some i) :
    ∃ before t after, r.types = before ++ t :: after ∧
      (∀ s ∈ before, s.checkArity r.arity = .ok ()) ∧
      t.methodParams.find? (r.arity ≤ ·) = some i := by
  have hnone {ts : List TypeSig} (hts : ∀ s ∈ ts, s.checkArity r.arity = .ok ()) :
      (ts.flatMap TypeSig.methodParams).find? (r.arity ≤ ·) = none := by
    rw [List.find?_flatMap, List.findSome?_eq_none_iff]
    exact fun s hs => TypeSig.find?_methodParams_eq_none_iff.2 (hts s hs)
  rcases Checks.forall_ok_or_exists_split (TypeSig.checkArity r.arity) r.types with
    hall | ⟨before, t, after, e, htypes, hbefore, ht⟩
  · rw [methodParams, hnone hall] at h
    cases h
  · refine ⟨before, t, after, htypes, hbefore, ?_⟩
    cases hfind : t.methodParams.find? (r.arity ≤ ·) with
    | none =>
      rw [TypeSig.find?_methodParams_eq_none_iff.1 hfind] at ht
      cases ht
    | some j =>
      rw [methodParams, htypes, List.flatMap_append, List.flatMap_cons, List.find?_append,
        hnone hbefore, List.find?_append, hfind] at h
      exact h

/-- The first type that is refused decides on a coherent record. -/
theorem validate_of_checkArity_eq_error {before after : List TypeSig} {t : TypeSig} {e : Error}
    (hc : r.IsCoherent) (htypes : r.types = before ++ t :: after)
    (hbefore : ∀ s ∈ before, s.checkArity r.arity = .ok ()) (ht : t.checkArity r.arity = .error e) :
    r.validate = .error e := by
  have harity : r.checkArity = .error e := by
    rw [checkArity, List.forM_eq_forM, htypes]
    exact Checks.forM_append_cons_eq_error hbefore ht
  rw [validate, checkStructure_eq_ok_iff_isCoherent.2 hc, harity]
  rfl

/-- **An arity error names the highest method parameter of one type.**  The check of a signature
accepts it exactly if all its method parameters lie below the arity.  Of a signature with one that
does not fit it names the highest, so that it names the first that does not fit exactly if no other
one lies higher.  A coherent record is refused with the answer for the first of its types in which
one does not fit; this is the type of the first one in the record. -/
theorem validate_names_highest (t : TypeSig) (arity : Token) (r : MemberRecord) :
    (t.checkArity arity = .ok () ↔ ∀ i ∈ t.methodParams, i < arity) ∧
    (∀ i, t.methodParams.find? (arity ≤ ·) = some i →
      ∃ m, t.methodParams.max? = some m ∧
        t.checkArity arity = .error (.genericParamOutOfRange m arity) ∧
        (t.checkArity arity = .error (.genericParamOutOfRange i arity) ↔
          ∀ j ∈ t.methodParams, j ≤ i)) ∧
    ∀ i, r.IsCoherent → r.methodParams.find? (r.arity ≤ ·) = some i →
      ∃ before s after m, r.types = before ++ s :: after ∧
        (∀ s' ∈ before, ∀ j ∈ s'.methodParams, j < r.arity) ∧
        s.methodParams.find? (r.arity ≤ ·) = some i ∧ s.methodParams.max? = some m ∧
        r.validate = .error (.genericParamOutOfRange m r.arity) ∧
        (r.validate = .error (.genericParamOutOfRange i r.arity) ↔
          ∀ j ∈ s.methodParams, j ≤ i) := by
  refine ⟨TypeSig.checkArity_eq_ok_iff_methodParams, fun i h => TypeSig.checkArity_of_find? h,
    fun i hc h => ?_⟩
  obtain ⟨before, s, after, htypes, hbefore, hs⟩ := exists_split_of_find? h
  obtain ⟨m, hm, herror, hfirst⟩ := TypeSig.checkArity_of_find? hs
  have hvalidate := validate_of_checkArity_eq_error hc htypes hbefore herror
  refine ⟨before, s, after, m, htypes, fun s' hs' => ?_, hs, hm, hvalidate, ?_⟩
  · exact TypeSig.checkArity_eq_ok_iff_methodParams.1 (hbefore s' hs')
  · rw [hvalidate, ← herror, hfirst]

/-- A pair of the method parameters `i` and `j`. -/
def pairOf (i j : Token) : TypeSig := .inst (.wellKnown 11) [.methodParam i, .methodParam j]

/-- A method with one generic parameter that returns such a pair, and takes a value of the type of
its fourth generic parameter. -/
def pairMethod (i j : Token) : MemberRecord where
  flags := ⟨0x0041⟩
  declaringType := .special 20
  arity := 1
  shape := .invocable (pairOf i j) [.methodParam 3]

/-- Neither parameter of the pair fits, and the higher one is named whichever comes first. -/
theorem validate_names_highest_pairMethod :
    (pairOf 2 1).checkArity 1 = .error (.genericParamOutOfRange 2 1) ∧
    (pairOf 1 2).checkArity 1 ≠ .error (.genericParamOutOfRange 1 1) ∧
    (pairMethod 1 2).IsCoherent ∧ (pairMethod 1 2).methodParams.find? (1 ≤ ·) = some 1 ∧
      ∃ m, (pairMethod 1 2).validate = .error (.genericParamOutOfRange m 1) := by
  obtain ⟨-, hdown, -⟩ := validate_names_highest (pairOf 2 1) 1 (pairMethod 1 2)
  obtain ⟨-, hup, hrecord⟩ := validate_names_highest (pairOf 1 2) 1 (pairMethod 1 2)
  obtain ⟨-, -, -, hhighest⟩ := hdown 2 rfl
  obtain ⟨-, -, -, hlowest⟩ := hup 1 rfl
  have hcoherent : (pairMethod 1 2).IsCoherent := checkStructure_eq_ok_iff_isCoherent.1 rfl
  obtain ⟨-, -, -, m, -, -, -, -, hvalidate, -⟩ := hrecord 1 hcoherent rfl
  have hparams (i j : Token) : (pairOf i j).methodParams = [i, j] := rfl
  rw [hparams] at hhighest hlowest
  refine ⟨hhighest.2 (by simp), fun h => ?_, hcoherent, rfl, m, hvalidate⟩
  exact absurd (hlowest.1 h 2 (by simp)) (by decide)

/-- **The first method parameter that does not fit is not always the one named**, neither by the
check of a signature nor for a record in which nothing else is wrong: of the pair of the parameters
`1` and `2` it is the second, where only parameter `0` fits. -/
theorem not_names_first :
    (¬ ∀ (t : TypeSig) (arity i : Token), t.methodParams.find? (arity ≤ ·) = some i →
      t.checkArity arity = .error (.genericParamOutOfRange i arity)) ∧
    ¬ ∀ (r : MemberRecord) (i : Token), r.IsCoherent → r.NestsWithin 64 →
      r.methodParams.find? (r.arity ≤ ·) = some i →
        r.validate = .error (.genericParamOutOfRange i r.arity) := by
  have hne : Except.error (.genericParamOutOfRange 2 1) ≠
      (Except.error (.genericParamOutOfRange 1 1) : Except Error Unit) :=
    fun h => absurd (Except.error.inj h) (by decide)
  refine ⟨fun h => hne ?_, fun h => hne ?_⟩
  · exact h (pairOf 1 2) 1 1 rfl
  · have hcoherent : (pairMethod 1 2).IsCoherent := checkStructure_eq_ok_iff_isCoherent.1 rfl
    have hnests : (pairMethod 1 2).NestsWithin 64 := checkDepth_eq_ok_iff_nestsWithin.1 rfl
    exact h (pairMethod 1 2) 1 hcoherent hnests rfl

end MemberRecord

end MemberCatalog
