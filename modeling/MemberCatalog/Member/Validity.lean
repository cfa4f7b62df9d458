/-
# Valid records

A record is valid if

* its flags set no bit that means nothing and the kind bits of exactly one kind,
* its shape is that of a field exactly when its kind is,
* the self type neither declares it nor is the definition of a generic instance in it,
* every method parameter in it lies below its arity, and
* no type in it nests deeper than `maxNestingDepth`.

`MemberRecord.validate` checks these in this order and reports the first that fails.
-/

import MemberCatalog.Member.Basic
import MemberCatalog.TypeSig.Check

namespace MemberCatalog

/-- The deepest nesting that a valid record may hold. -/
def maxNestingDepth : Nat := 64

namespace MemberFlags

/-- The kind that the flags name, given that no other bit is set than those that mean something. -/
def validKind (f : MemberFlags) : Except Error MemberKind :=
  if f.IsKnown then
    match f.kind? with
    | some kind => .ok kind
    | none => .error (.invalidRecord (.kindNotUnique f))
  else .error (.invalidRecord (.unknownFlagBits f))

end MemberFlags

namespace MemberShape

/-- Accepts a field shape for a field and an invocable shape for every other kind. -/
def checkKind (shape : MemberShape) (kind : MemberKind) : Except Error Unit :=
  if shape.isField ↔ kind = .field then .ok ()
  else .error (.invalidRecord (.shapeMismatch kind))

end MemberShape

namespace TypeId

/-- Accepts any type but the self type as the owner of a member. -/
def checkDeclaring (id : TypeId) : Except Error Unit :=
  if id = self then .error (.invalidRecord .selfDeclaring) else .ok ()

end TypeId

namespace MemberRecord

/-- The checks on flags, shape and self type. -/
def checkStructure (r : MemberRecord) : Except Error Unit := do
  let kind ← r.flags.validKind
  r.shape.checkKind kind
  r.declaringType.checkDeclaring
  r.types.forM TypeSig.checkSelf

/-- The check of every type in the record against its arity. -/
def checkArity (r : MemberRecord) : Except Error Unit :=
  r.types.forM (TypeSig.checkArity r.arity)

/-- The check of every type in the record against the nesting limit. -/
def checkDepth (r : MemberRecord) : Except Error Unit :=
  if r.types.any fun t => maxNestingDepth < t.depth then .error (.recursionLimit maxNestingDepth)
  else .ok ()

/-- Accepts the valid records and reports the first condition that any other one fails. -/
def validate (r : MemberRecord) : Except Error Unit := do
  r.checkStructure
  r.checkArity
  r.checkDepth

/-- The record itself, if it is valid. -/
def validated (r : MemberRecord) : Except Error MemberRecord := do
  r.validate
  return r

/-- The valid record of a field without generic parameters.  The field flag is set beside the
given ones. -/
def field (flags : MemberFlags) (declaringType : TypeId) (type : TypeSig) :
    Except Error MemberRecord :=
  validated ⟨flags.insert .field, declaringType, 0, .field type⟩

/-- The valid record of an invocable member. -/
def invocable (flags : MemberFlags) (declaringType : TypeId) (arity : Token)
    (returnType : TypeSig) (parameters : List TypeSig) : Except Error MemberRecord :=
  validated ⟨flags, declaringType, arity, .invocable returnType parameters⟩

end MemberRecord

end MemberCatalog
