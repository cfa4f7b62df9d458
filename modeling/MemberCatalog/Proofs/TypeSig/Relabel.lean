/-
# Signatures with other ids

`t.Relabels R t'` says that `t'` is `t` with other type ids in it: in the place of each id stands
one that is `R`-related to it, at every place one of its own.  To repair the ids
(`TypeId.RepairsTo`) is to put an id with a handle in the place of each that has none.  A
signature whose ids are repaired has a layout, unless there are more arguments in it than a count
can hold (`TypeSig.Relabels.hasLayout`).
-/

import MemberCatalog.Proofs.TypeSig.Parts
import Mathlib.Data.List.Forall2

namespace MemberCatalog

namespace TypeId

/-- An id gives way to another one only if it has no handle. -/
def YieldsTo (id id' : TypeId) : Prop := id.HasHandle → id' = id

/-- **An id is repaired by any id that has a handle**, unless it has one and stays as it is. -/
structure RepairsTo (id id' : TypeId) : Prop where
  hasHandle : id'.HasHandle
  yieldsTo : id.YieldsTo id'

end TypeId

namespace TypeSig

/-- **The same signature with other ids**, each of them `R`-related to the one it takes the place
of. -/
inductive Relabels (R : TypeId → TypeId → Prop) : TypeSig → TypeSig → Prop
  | direct {id id' : TypeId} (h : R id id') : Relabels R (.direct id) (.direct id')
  | modified (m : Modifier) {t t' : TypeSig} (h : Relabels R t t') :
    Relabels R (.modified m t) (.modified m t')
  | typeParam (i : Token) : Relabels R (.typeParam i) (.typeParam i)
  | methodParam (i : Token) : Relabels R (.methodParam i) (.methodParam i)
  | inst {d d' : TypeId} {args args' : List TypeSig} (hd : R d d')
    (hargs : List.Forall₂ (Relabels R) args args') : Relabels R (.inst d args) (.inst d' args')

variable {R : TypeId → TypeId → Prop}

theorem Relabels.refl (hR : ∀ id, R id id) (t : TypeSig) : t.Relabels R t := by
  induction t with
  | direct id => exact .direct (hR id)
  | modified m inner ih => exact .modified m ih
  | typeParam i => exact .typeParam i
  | methodParam i => exact .methodParam i
  | inst d args ih => exact .inst (hR d) (List.forall₂_same.2 ih)

/-- What holds of each argument and the one in its place holds along the lists of arguments. -/
theorem forall₂_args {P : TypeSig → TypeSig → Prop} {args args' : List TypeSig}
    (h : ∀ a ∈ args, ∀ a', a.Relabels R a' → P a a')
    (hargs : List.Forall₂ (Relabels R) args args') : List.Forall₂ P args args' :=
  ((List.forall₂_and_left args args').2 ⟨h, hargs⟩).imp fun _ a' ⟨ha, har⟩ => ha a' har

/-- What holds of each stand-in along two lists holds of all of the second list. -/
theorem forall_mem_of_forall₂ {p : TypeSig → Prop} {args args' : List TypeSig}
    (h : List.Forall₂ (fun _ a' => p a') args args') : ∀ a' ∈ args', p a' :=
  ((List.forall₂_and_left (R := fun _ _ => True) args' args).1
    (h.flip.imp fun _ _ ha' => ⟨ha', trivial⟩)).1

/-- **Ids with handles are all that a signature needs for a layout**, if its arguments can be
counted. -/
theorem Relabels.hasLayout {t t' : TypeSig} (h : t.Relabels R t')
    (hR : ∀ id id', R id id' → id'.HasHandle)
    (hcount : ∀ d args, .inst d args ∈ t.parts → args.length < UInt16.size) : t'.HasLayout := by
  induction t generalizing t' with
  | direct id =>
    cases h with
    | direct h => exact hasLayout_direct.2 (hR _ _ h)
  | modified m inner ih =>
    cases h with
    | modified _ h =>
      refine hasLayout_modified.2 (ih h fun d args hmem => ?_)
      exact hcount d args (List.mem_cons_of_mem _ hmem)
  | typeParam i =>
    cases h
    exact hasLayout_typeParam
  | methodParam i =>
    cases h
    exact hasLayout_methodParam
  | inst d args ih =>
    cases h with
    | inst hd hargs =>
      refine hasLayout_inst.2 ⟨hR _ _ hd, ?_, ?_⟩
      · rw [← hargs.length_eq]
        exact hcount d args (by simp [parts])
      · refine forall_mem_of_forall₂ (forall₂_args (fun a ha a' h => ih a ha h ?_) hargs)
        exact fun d' bs hmem => hcount d' bs (mem_parts_inst ha hmem)

end TypeSig

end MemberCatalog
