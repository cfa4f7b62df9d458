/-
# Reading member records

A record is laid out as its flags, the handle of its declaring type and its arity, followed by the
type of a field, or by a parameter count, the return type and the parameters of any other member.
The kind bits decide which: only a record whose kind is exactly that of a field has the shape of
one.  Flags are checked as soon as they are read and the rest once the record is complete, each
only if the configuration asks for it.
-/

import MemberCatalog.Decode.Config
import MemberCatalog.Decode.TypeSig

namespace MemberCatalog

namespace MemberShape

/-- Reads the shape that goes with a kind. -/
def readWith (readCount : Reader Nat) (limit : Nat) (kind? : Option MemberKind) :
    Reader MemberShape :=
  let readType := TypeSig.readWith readCount limit limit
  if kind? = some .field then return .field (← readType)
  else do
    let n ← readCount
    let returnType ← readType
    let parameters ← Reader.repeated n readType
    return .invocable returnType parameters

end MemberShape

namespace MemberRecord

/-- Reads one record, with counts by `readCount`. -/
def readWith (readCount : Reader Nat) (config : DecoderConfig) : Reader MemberRecord := do
  let flags : MemberFlags := ⟨← Reader.token⟩
  Reader.check config.recordValidation flags.validKind
  let declaringType := TypeId.ofHandle (← Reader.token)
  let arity ← Reader.token
  let shape ← MemberShape.readWith readCount config.maxNestingDepth flags.kind?
  let record : MemberRecord := { flags, declaringType, arity, shape }
  Reader.check config.recordValidation record.checkStructure
  Reader.check config.arityValidation record.checkArity
  return record

/-- Reads one record. -/
def read (config : DecoderConfig) : Reader MemberRecord := readWith Reader.count config

end MemberRecord

end MemberCatalog
