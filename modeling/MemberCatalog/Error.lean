/-
# Errors

Everything that can go wrong when a token table is read, a record is checked or written, or a
catalog is put together.  An error is a cause; `Error.message` words it.  A failure inside one
record of a stream is wrapped once with the number of that record (`inRecord`), and `root` finds
the cause under any number of wrappers.
-/

import MemberCatalog.Member.Flags

namespace MemberCatalog

/-- A damage of the stream that no more specific error covers. -/
inductive Malformation where
  /-- The definition of a generic instance does not open with the tag of a type handle. -/
  | definitionNotHandle (position : Nat) (tag : Token)
  /-- Any other damage, in words. -/
  | described (text : String)
  deriving DecidableEq, Repr

namespace Malformation

/-- The wording of a damage. -/
def message : Malformation → String
  | definitionNotHandle position tag =>
    s!"GENERIC_TYPE_INSTANCE at token {position} - definition is not a TYPE_HANDLE - 0x{tag.hex}"
  | described text => text

end Malformation

/-- The line of a program's text that noticed a damage. -/
structure SourceLocation where
  file : String
  line : Nat
  deriving DecidableEq, Repr

/-- What a 16-bit count stands for. -/
inductive Counted where
  | typeArguments
  | parameters
  deriving DecidableEq, Repr

namespace Counted

/-- The counted things, in words. -/
def name : Counted → String
  | typeArguments => "type arguments"
  | parameters => "parameters"

end Counted

/-- A way in which a record breaks the record grammar. -/
inductive RecordFault where
  /-- A flag bit is set that means nothing. -/
  | unknownFlagBits (flags : MemberFlags)
  /-- The kind bits are not those of exactly one kind. -/
  | kindNotUnique (flags : MemberFlags)
  /-- A field is shaped like an invocable member, or the other way round. -/
  | shapeMismatch (kind : MemberKind)
  /-- The self type declares the member. -/
  | selfDeclaring
  /-- The self type is the definition of a generic instance. -/
  | selfDefinition
  /-- More entries than a 16-bit count can hold. -/
  | countTooLarge (count : Nat) (counted : Counted)
  /-- Any other breach, in words. -/
  | described (text : String)
  deriving DecidableEq, Repr

namespace RecordFault

/-- The wording of a breach. -/
def message : RecordFault → String
  | unknownFlagBits flags => s!"unknown flag bits 0x{flags.bits.hex}"
  | kindNotUnique flags => s!"flags 0x{flags.bits.hex} do not name exactly one member kind"
  | shapeMismatch .field => "Field member with a invocable shape"
  | shapeMismatch kind => s!"{kind.name} member with a field shape"
  | selfDeclaring => "self type used as a declaring type"
  | selfDefinition => "self type used as a generic definition"
  | countTooLarge count counted => s!"{count} {counted.name} exceed the 16-bit count"
  | described text => text

end RecordFault

/-- A failure of the codec or of a catalog. -/
inductive Error where
  /-- The stream is damaged in a way that no other error names.  Who reports it may add the line of
  the program that noticed it. -/
  | malformed (damage : Malformation) (location : Option SourceLocation)
  /-- A read past the end of the stream. -/
  | outOfBounds (position len : Nat)
  /-- A signature opens with a word that is no tag. -/
  | unknownTag (tag : Token) (position : Nat)
  /-- The records asked for end before the stream does. -/
  | trailingTokens (consumed len : Nat)
  /-- Two tables that belong together differ in length. -/
  | countMismatch (expected actual : Nat)
  /-- A record breaks the record grammar. -/
  | invalidRecord (fault : RecordFault)
  /-- A method parameter is referenced that the arity of the record does not provide. -/
  | genericParamOutOfRange (index arity : Token)
  /-- A type id has no handle. -/
  | typeIdOutOfRange (number : Token)
  /-- Signatures are nested deeper than a limit. -/
  | recursionLimit (limit : Nat)
  /-- A failure in the record with the given number. -/
  | record (index : Nat) (source : Error)
  deriving DecidableEq, Repr

namespace Error

/-- The wording of an error. -/
def message : Error → String
  | malformed damage none => s!"Malformed - {damage.message}"
  | malformed damage (some location) =>
    s!"Malformed - {location.file}:{location.line}: {damage.message}"
  | outOfBounds position len => s!"Out of bound read at token {position} of {len}"
  | unknownTag tag position => s!"Unknown signature tag 0x{tag.hex} at token {position}"
  | trailingTokens consumed len =>
    s!"Decoded records consumed {consumed} tokens, stream holds {len}"
  | countMismatch expected actual => s!"Expected {expected} entries, found {actual}"
  | invalidRecord fault => s!"Invalid member record - {fault.message}"
  | genericParamOutOfRange index arity =>
    s!"Generic method parameter !!{index} used in a member of arity {arity}"
  | typeIdOutOfRange number => s!"Type id {number} has no raw handle encoding"
  | recursionLimit limit => s!"Reach the maximum recursion level allowed - {limit}"
  | record index source => s!"Record {index}: {source.message}"

/-- The error as a failure of record `index`.  An error that names a record already stays as it
is, so the innermost record wins. -/
def inRecord (index : Nat) : Error → Error
  | record i source => record i source
  | e => record index e

/-- The cause under every record wrapper. -/
def root : Error → Error
  | record _ source => source.root
  | e => e

theorem inRecord_inRecord (i j : Nat) (e : Error) :
    (e.inRecord i).inRecord j = e.inRecord i := by
  cases e <;> rfl

theorem root_inRecord (i : Nat) (e : Error) : (e.inRecord i).root = e.root := by
  cases e <;> rfl

end Error

end MemberCatalog
