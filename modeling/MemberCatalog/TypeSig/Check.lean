/-
# Checks on one signature

A signature inside a member may refer to the generic parameters of the member, and to the type
that declares it.  `checkArity` bounds the first by the arity of the member, `checkSelf` keeps
the second out of the place of a generic definition.
-/

import MemberCatalog.TypeSig.Basic

namespace MemberCatalog

namespace TypeSig

/-- Accepts a signature whose method parameters all lie below `arity`, and otherwise reports the
highest one. -/
def checkArity (arity : Token) (t : TypeSig) : Except Error Unit :=
  match t.maxMethodParam? with
  | none => .ok ()
  | some index => if arity ≤ index then .error (.genericParamOutOfRange index arity) else .ok ()

/-- Accepts a signature in which the self type is nowhere the definition of a generic
instance. -/
def checkSelf : TypeSig → Except Error Unit :=
  fold {
    direct _ := .ok ()
    modified _ inner := inner
    typeParam _ := .ok ()
    methodParam _ := .ok ()
    inst d args :=
      if d = .self then .error (.invalidRecord .selfDefinition) else args.forM id }

@[simp]
theorem checkSelf_direct (id : TypeId) : (direct id).checkSelf = .ok () := rfl

@[simp]
theorem checkSelf_modified (m : Modifier) (t : TypeSig) :
    (modified m t).checkSelf = t.checkSelf := rfl

@[simp]
theorem checkSelf_typeParam (i : Token) : (typeParam i).checkSelf = .ok () := rfl

@[simp]
theorem checkSelf_methodParam (i : Token) : (methodParam i).checkSelf = .ok () := rfl

@[simp]
theorem checkSelf_inst (d : TypeId) (args : List TypeSig) :
    (inst d args).checkSelf =
      if d = .self then .error (.invalidRecord .selfDefinition) else args.forM checkSelf := by
  refine (fold_inst _ d args).trans ?_
  simp [checkSelf]

end TypeSig

end MemberCatalog
