/-
# Member records

One entry of a catalog: the flag bits, the declaring type, the number of generic parameters that
the member itself has, and the types in its signature.  A record holds whatever it is given; which
records are meaningful is the subject of `MemberCatalog.Member.Validity`.
-/

import MemberCatalog.TypeSig.Basic

namespace MemberCatalog

/-- The types in the signature of a member. -/
inductive MemberShape where
  /-- The type of a field. -/
  | field (type : TypeSig)
  /-- The return type and the parameters of any other member. -/
  | invocable (returnType : TypeSig) (parameters : List TypeSig)
  deriving DecidableEq, Repr

namespace MemberShape

/-- Whether the shape is that of a field. -/
def isField : MemberShape → Bool
  | field _ => true
  | invocable _ _ => false

/-- Every type of the shape in table order: the field type, or the return type and then the
parameters. -/
def types : MemberShape → List TypeSig
  | field type => [type]
  | invocable returnType parameters => returnType :: parameters

/-- The parameters; a field has none. -/
def parameters : MemberShape → List TypeSig
  | field _ => []
  | invocable _ parameters => parameters

/-- The field type of a field. -/
def fieldType? : MemberShape → Option TypeSig
  | field type => some type
  | invocable _ _ => none

/-- The return type of an invocable member. -/
def returnType? : MemberShape → Option TypeSig
  | field _ => none
  | invocable returnType _ => some returnType

/-- How many tokens the shape takes: those of its types, and one for the parameter count of an
invocable member. -/
def tokenLen : MemberShape → Nat
  | field type => type.tokenLen
  | invocable returnType parameters =>
    1 + returnType.tokenLen + TypeSig.tokenLenAll parameters

end MemberShape

/-- One entry of a member catalog. -/
structure MemberRecord where
  /-- Kind and modifier bits. -/
  flags : MemberFlags
  /-- The type that declares the member. -/
  declaringType : TypeId
  /-- How many generic parameters the member itself has. -/
  arity : Token
  /-- The types in its signature. -/
  shape : MemberShape
  deriving DecidableEq, Repr

namespace MemberRecord

/-- The kind of the member, if its flags name exactly one. -/
def kind? (r : MemberRecord) : Option MemberKind := r.flags.kind?

/-- Whether the member is static. -/
def isStatic (r : MemberRecord) : Bool := r.flags.has .static

/-- Whether the member is virtual. -/
def isVirtual (r : MemberRecord) : Bool := r.flags.has .virtual

/-- Every type in the signature, in table order. -/
def types (r : MemberRecord) : List TypeSig := r.shape.types

/-- The highest method parameter that occurs anywhere in the signature. -/
def maxMethodParam? (r : MemberRecord) : Option Token :=
  (r.types.filterMap TypeSig.maxMethodParam?).max?

/-- How many tokens the record takes in a token table: flags, declaring type, arity, and its
shape. -/
def tokenLen (r : MemberRecord) : Nat := 3 + r.shape.tokenLen

end MemberRecord

end MemberCatalog
