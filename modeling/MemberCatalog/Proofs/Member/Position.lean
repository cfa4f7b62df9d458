/-
# Where the types of a record stand

A stream holds no mark where a signature begins; the place is known only from what lies before it.
`t.PartAt k s` says that the signature `s` is a part of `t` and stands at token `k` of its layout,
and `r.PartAt k s` says the same of a record `r`.  Both follow the layout from its start: into the
type behind a modifier, past the arguments in front, past the head of the record.

Every part stands somewhere (`MemberRecord.exists_partAt_iff`), and where it stands its own layout
begins (`MemberRecord.PartAt.layout_eq`).
-/

import MemberCatalog.Proofs.Member.Layout

namespace MemberCatalog

namespace TypeSig

/-- **`s` stands at token `k` of `t`**: it is `t` itself or a signature inside it, and `k` tokens of
the layout of `t` lie before its own. -/
inductive PartAt : TypeSig → Nat → TypeSig → Prop
  | whole (t : TypeSig) : PartAt t 0 t
  | inner {m : Modifier} {t s : TypeSig} {k : Nat} (h : PartAt t k s) :
    PartAt (.modified m t) (k + 1) s
  | arg {d : TypeId} (as : List TypeSig) {a s : TypeSig} (bs : List TypeSig) {k : Nat}
    (h : PartAt a k s) : PartAt (.inst d (as ++ a :: bs)) (4 + tokenLenAll as + k) s

variable {s t : TypeSig} {k : Nat}

/-- Every part of a signature stands somewhere in it, and nothing else does. -/
theorem exists_partAt_iff : (∃ k, t.PartAt k s) ↔ s ∈ t.parts := by
  constructor
  · rintro ⟨k, h⟩
    induction h with
    | whole t => cases t <;> exact List.mem_cons_self ..
    | inner _ ih => exact List.mem_cons_of_mem _ ih
    | arg as bs _ ih =>
      rw [parts, partsAll_eq_flatMap, List.flatMap_append, List.flatMap_cons]
      exact List.mem_cons_of_mem _ (List.mem_append_right _ (List.mem_append_left _ ih))
  · intro h
    induction t with
    | direct | typeParam | methodParam =>
      obtain rfl := List.mem_singleton.1 h
      exact ⟨0, .whole _⟩
    | modified m inner ih =>
      rcases List.mem_cons.1 h with rfl | h
      · exact ⟨0, .whole _⟩
      · obtain ⟨k, hk⟩ := ih h
        exact ⟨k + 1, .inner hk⟩
    | inst d args ih =>
      rw [parts, partsAll_eq_flatMap] at h
      rcases List.mem_cons.1 h with rfl | h
      · exact ⟨0, .whole _⟩
      · obtain ⟨a, ha, hs⟩ := List.mem_flatMap.1 h
        obtain ⟨k, hk⟩ := ih a ha hs
        obtain ⟨as, bs, rfl⟩ := List.append_of_mem ha
        exact ⟨_, .arg as bs hk⟩

/-- **Where a part stands its layout begins.** -/
theorem PartAt.layout_eq (h : t.PartAt k s) :
    ∃ us vs, t.layout = us ++ (s.layout ++ vs) ∧ us.length = k := by
  induction h with
  | whole t => exact ⟨[], [], (List.append_nil _).symm, rfl⟩
  | @inner m _ _ _ _ ih =>
    obtain ⟨us, vs, heq, rfl⟩ := ih
    exact ⟨(Tag.modifier m).token :: us, vs, by rw [layout_modified, heq, List.cons_append], rfl⟩
  | @arg d as a _ bs _ _ ih =>
    obtain ⟨us, vs, heq, rfl⟩ := ih
    refine ⟨Tag.inst.token :: Tag.typeHandle.token :: d.toToken ::
      .ofNat (as ++ a :: bs).length :: (as.flatMap layout ++ us), vs ++ bs.flatMap layout, ?_, ?_⟩
    · rw [layout_inst, List.flatMap_append, List.flatMap_cons, heq]
      simp only [List.cons_append, List.append_assoc]
    · simp only [List.length_cons, List.length_append, length_flatMap_layout_eq]
      omega

/-- The tokens of a part are tokens of the whole. -/
theorem PartAt.add_lt_length_layout (h : t.PartAt k s) {j : Nat} (hj : j < s.tokenLen) :
    k + j < t.layout.length := by
  obtain ⟨us, vs, heq, rfl⟩ := h.layout_eq
  rw [heq, List.length_append, List.length_append, s.length_layout]
  omega

end TypeSig

/-- The tokens of a shape in front of its types: the number of parameters, unless it is the shape of
a field. -/
def MemberShape.head : MemberShape → List Token
  | field _ => []
  | invocable _ ps => [.ofNat ps.length]

theorem MemberShape.layout_eq_head_append (s : MemberShape) :
    s.layout = s.head ++ s.types.flatMap TypeSig.layout := by
  cases s with
  | field t => exact (List.append_nil _).symm
  | invocable t ps => rfl

namespace MemberRecord

/-- The tokens of a record in front of its types: flags, declaring type and arity, and the number of
parameters if there may be any. -/
def head (r : MemberRecord) : List Token :=
  r.flags.bits :: r.declaringType.toToken :: r.arity :: r.shape.head

theorem layout_eq_head_append (r : MemberRecord) :
    r.layout = r.head ++ r.types.flatMap TypeSig.layout := by
  simp only [layout, head, r.shape.layout_eq_head_append, types, List.cons_append]

/-- **`s` stands at token `k` of the record**: it is a part of one of its types, and `k` tokens of
the layout of the record lie before its own. -/
inductive PartAt (r : MemberRecord) : Nat → TypeSig → Prop
  | intro (ts : List TypeSig) {t s : TypeSig} (us : List TypeSig) {k : Nat}
    (hr : r.types = ts ++ t :: us) (h : t.PartAt k s) :
    PartAt r (r.head.length + TypeSig.tokenLenAll ts + k) s

variable {r : MemberRecord} {s : TypeSig} {k : Nat}

/-- Every part of a type of the record stands somewhere in it, and nothing else does. -/
theorem exists_partAt_iff : (∃ k, r.PartAt k s) ↔ ∃ t ∈ r.types, s ∈ t.parts := by
  constructor
  · rintro ⟨_, @⟨ts, t, s, us, k, hr, h⟩⟩
    have hmem : t ∈ r.types := hr ▸ List.mem_append_right _ (List.mem_cons_self ..)
    exact ⟨t, hmem, TypeSig.exists_partAt_iff.1 ⟨k, h⟩⟩
  · rintro ⟨t, ht, hs⟩
    obtain ⟨k, hk⟩ := TypeSig.exists_partAt_iff.2 hs
    obtain ⟨ts, us, hr⟩ := List.append_of_mem ht
    exact ⟨_, .intro ts us hr hk⟩

/-- **Where a part stands its layout begins.** -/
theorem PartAt.layout_eq (h : r.PartAt k s) :
    ∃ us vs, r.layout = us ++ (s.layout ++ vs) ∧ us.length = k := by
  obtain @⟨ts, t, s, qs, k, hr, h⟩ := h
  obtain ⟨us, vs, heq, rfl⟩ := h.layout_eq
  refine ⟨r.head ++ (ts.flatMap TypeSig.layout ++ us), vs ++ qs.flatMap TypeSig.layout, ?_, ?_⟩
  · rw [r.layout_eq_head_append, hr, List.flatMap_append, List.flatMap_cons, heq]
    simp only [List.append_assoc]
  · rw [List.length_append, List.length_append, TypeSig.length_flatMap_layout_eq, Nat.add_assoc]

/-- The tokens of a part are tokens of the record. -/
theorem PartAt.add_lt_length_layout (h : r.PartAt k s) {j : Nat} (hj : j < s.tokenLen) :
    k + j < r.layout.length := by
  obtain ⟨us, vs, heq, rfl⟩ := h.layout_eq
  rw [heq, List.length_append, List.length_append, s.length_layout]
  omega

end MemberRecord

end MemberCatalog
