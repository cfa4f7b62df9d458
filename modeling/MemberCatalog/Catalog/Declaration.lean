/-
# Declaring members

Words for the records of a catalog, one for each kind of member: `method [.static] string string
[string, string]` is a static method of the string type that takes two strings and returns one.
A type stands for its id and for the signature that names it.
-/

import MemberCatalog.Member.Basic

namespace MemberCatalog

instance : Coe SpecialType TypeId := ⟨SpecialType.typeId⟩

instance : Coe WellKnownType TypeId := ⟨WellKnownType.typeId⟩

instance : Coe SpecialType TypeSig := ⟨fun t => .direct t.typeId⟩

instance : Coe WellKnownType TypeSig := ⟨fun t => .direct t.typeId⟩

namespace Declaration

/-- An array of a type. -/
def arrayOf (t : TypeSig) : TypeSig := .modified .array t

/-- A pointer to a type. -/
def pointerTo (t : TypeSig) : TypeSig := .modified .pointer t

/-- A type by reference. -/
def byRef (t : TypeSig) : TypeSig := .modified .byRef t

/-- The flags of a member of the given kind. -/
def flags (kind : MemberKind) (modifiers : List Flag) : MemberFlags :=
  modifiers.foldl MemberFlags.insert ⟨kind.flag.bit⟩

/-- A field. -/
def field (modifiers : List Flag) (owner : TypeId) (type : TypeSig) : MemberRecord :=
  ⟨flags .field modifiers, owner, 0, .field type⟩

/-- A method with generic parameters of its own. -/
def genericMethod (arity : Token) (modifiers : List Flag) (owner : TypeId) (returnType : TypeSig)
    (parameters : List TypeSig) : MemberRecord :=
  ⟨flags .method modifiers, owner, arity, .invocable returnType parameters⟩

/-- A method. -/
def method (modifiers : List Flag) (owner : TypeId) (returnType : TypeSig)
    (parameters : List TypeSig) : MemberRecord :=
  genericMethod 0 modifiers owner returnType parameters

/-- A constructor. -/
def constructor (owner : TypeId) (parameters : List TypeSig) : MemberRecord :=
  ⟨flags .constructor [], owner, 0, .invocable SpecialType.void parameters⟩

/-- A property, whose parameters are those of its indexer. -/
def property (modifiers : List Flag) (owner : TypeId) (type : TypeSig)
    (parameters : List TypeSig) : MemberRecord :=
  ⟨flags .property modifiers, owner, 0, .invocable type parameters⟩

/-- The getter of a property. -/
def getter (modifiers : List Flag) (owner : TypeId) (type : TypeSig)
    (parameters : List TypeSig) : MemberRecord :=
  ⟨flags .propertyGet modifiers, owner, 0, .invocable type parameters⟩

/-- The setter of a property, whose last parameter is the new value. -/
def setter (modifiers : List Flag) (owner : TypeId) (parameters : List TypeSig) : MemberRecord :=
  ⟨flags .propertySet modifiers, owner, 0, .invocable SpecialType.void parameters⟩

end Declaration

end MemberCatalog
