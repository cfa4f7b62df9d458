/-
# Member flags

A member record opens with one word of flag bits:

| bit | flag |
| ---: | --- |
| `0x0001` | method |
| `0x0002` | field |
| `0x0004` | constructor |
| `0x0008` | property getter |
| `0x0010` | property |
| `0x0020` | property setter |
| `0x0040` | static |
| `0x0080` | virtual |

The low six bits are one-hot: a record has a kind when exactly one of them is set
(`kind?_eq_some_iff`).  The other bits of the word mean nothing and are kept as they were read.
-/

import MemberCatalog.Token

namespace MemberCatalog

/-- A flag that a member may carry. -/
inductive Flag where
  | method
  | field
  | constructor
  | propertyGet
  | property
  | propertySet
  | static
  | virtual
  deriving DecidableEq, Repr

namespace Flag

/-- Every flag, lowest bit first. -/
def all : List Flag :=
  [method, field, constructor, propertyGet, property, propertySet, static, virtual]

/-- The bit of a flag. -/
def bit : Flag → Token
  | method => 0x0001
  | field => 0x0002
  | constructor => 0x0004
  | propertyGet => 0x0008
  | property => 0x0010
  | propertySet => 0x0020
  | static => 0x0040
  | virtual => 0x0080

/-- The name of a flag. -/
def name : Flag → String
  | method => "METHOD"
  | field => "FIELD"
  | constructor => "CONSTRUCTOR"
  | propertyGet => "PROPERTY_GET"
  | property => "PROPERTY"
  | propertySet => "PROPERTY_SET"
  | static => "STATIC"
  | virtual => "VIRTUAL"

end Flag

/-- What a member is. -/
inductive MemberKind where
  | field
  | method
  | constructor
  | property
  | propertyGet
  | propertySet
  deriving DecidableEq, Repr

namespace MemberKind

/-- Every kind. -/
def all : List MemberKind := [field, method, constructor, property, propertyGet, propertySet]

theorem mem_all (k : MemberKind) : k ∈ all := by cases k <;> decide

/-- The flag that marks a kind. -/
def flag : MemberKind → Flag
  | field => .field
  | method => .method
  | constructor => .constructor
  | property => .property
  | propertyGet => .propertyGet
  | propertySet => .propertySet

/-- The name of a kind. -/
def name : MemberKind → String
  | field => "Field"
  | method => "Method"
  | constructor => "Constructor"
  | property => "Property"
  | propertyGet => "PropertyGet"
  | propertySet => "PropertySet"

theorem eq_of_bit_eq {k l : MemberKind} (h : k.flag.bit = l.flag.bit) : k = l := by
  revert h
  cases k <;> cases l <;> decide

end MemberKind

/-- The word of flag bits of a member. -/
structure MemberFlags where
  bits : Token
  deriving DecidableEq, Repr

namespace MemberFlags

/-- The six bits that name a kind. -/
def kindMask : Token := 0x003F

/-- The eight bits that mean something. -/
def knownMask : Token := 0x00FF

/-- Whether a flag is set. -/
def has (f : MemberFlags) (flag : Flag) : Bool := f.bits &&& flag.bit != 0

/-- The same flags with one more set. -/
def insert (f : MemberFlags) (flag : Flag) : MemberFlags := ⟨f.bits ||| flag.bit⟩

/-- The kind named by the kind bits, if they are those of exactly one kind. -/
def kind? (f : MemberFlags) : Option MemberKind :=
  MemberKind.all.find? fun k => k.flag.bit = f.bits &&& kindMask

/-- No bit is set beyond the eight that mean something. -/
def IsKnown (f : MemberFlags) : Prop := f.bits &&& ~~~knownMask = 0

instance (f : MemberFlags) : Decidable f.IsKnown := inferInstanceAs (Decidable (_ = _))

/-- The flags without the bits that mean nothing. -/
def truncate (f : MemberFlags) : MemberFlags := ⟨f.bits &&& knownMask⟩

/-- The flags that are set, lowest bit first. -/
def present (f : MemberFlags) : List Flag := Flag.all.filter f.has

/-- **Flags have kind `k` exactly when the bit of `k` is the one kind bit set.** -/
theorem kind?_eq_some_iff {f : MemberFlags} {k : MemberKind} :
    f.kind? = some k ↔ f.bits &&& kindMask = k.flag.bit := by
  constructor
  · intro h
    have hk := List.find?_some h
    exact (of_decide_eq_true hk).symm
  · intro h
    rw [kind?, h]
    cases k <;> decide

end MemberFlags

end MemberCatalog
