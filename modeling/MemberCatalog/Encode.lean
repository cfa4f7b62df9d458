/-
# Encoding

Signatures and records are written in the layout that `MemberCatalog.Decode` reads.  A signature
that cannot be written leaves the tokens written before the obstacle.  A record is checked first
and written whole or not at all, and a failure inside a list of records names the record.
-/

import MemberCatalog.Member.Validity
import MemberCatalog.TypeSig.Tag
import MemberCatalog.Writer.Basic

namespace MemberCatalog

namespace TypeSig

/-- Writes a signature. -/
def write : TypeSig → Writer Unit :=
  fold {
    direct id := do
      Writer.token Tag.typeHandle.token
      Writer.handle id
    modified m inner := do
      Writer.token (Tag.modifier m).token
      inner
    typeParam i := do
      Writer.token Tag.typeParam.token
      Writer.token i
    methodParam i := do
      Writer.token Tag.methodParam.token
      Writer.token i
    inst d args := do
      Writer.token Tag.inst.token
      Writer.token Tag.typeHandle.token
      Writer.handle d
      Writer.count args.length .typeArguments
      args.forM id }

@[simp]
theorem write_direct (id : TypeId) :
    (direct id).write = (do Writer.token Tag.typeHandle.token; Writer.handle id) := rfl

@[simp]
theorem write_modified (m : Modifier) (t : TypeSig) :
    (modified m t).write = (do Writer.token (Tag.modifier m).token; t.write) := rfl

@[simp]
theorem write_typeParam (i : Token) :
    (typeParam i).write = (do Writer.token Tag.typeParam.token; Writer.token i) := rfl

@[simp]
theorem write_methodParam (i : Token) :
    (methodParam i).write = (do Writer.token Tag.methodParam.token; Writer.token i) := rfl

@[simp]
theorem write_inst (d : TypeId) (args : List TypeSig) :
    (inst d args).write = (do
      Writer.token Tag.inst.token
      Writer.token Tag.typeHandle.token
      Writer.handle d
      Writer.count args.length .typeArguments
      args.forM write) := by
  refine (fold_inst _ d args).trans ?_
  simp [write]

end TypeSig

namespace MemberShape

/-- Writes a shape. -/
def write : MemberShape → Writer Unit
  | field type => type.write
  | invocable returnType parameters => do
    Writer.count parameters.length .parameters
    returnType.write
    parameters.forM TypeSig.write

end MemberShape

namespace MemberRecord

/-- Writes a record, valid or not. -/
def writeUnchecked (r : MemberRecord) : Writer Unit := do
  Writer.token r.flags.bits
  Writer.handle r.declaringType
  Writer.token r.arity
  r.shape.write

/-- Writes a valid record, or nothing. -/
def write (r : MemberRecord) : Writer Unit :=
  match r.validate with
  | .ok _ => Writer.atomic r.writeUnchecked
  | .error e => throw e

/-- Writes records one after another, the first of them having number `index`. -/
def writeAll (index : Nat) : List MemberRecord → Writer Unit
  | [] => return
  | r :: rs => do
    r.write.adaptExcept (Error.inRecord index)
    writeAll (index + 1) rs

end MemberRecord

/-- Encodes records into one token stream. -/
def encode (records : List MemberRecord) : Except Error (List Token) :=
  match MemberRecord.writeAll 0 records Buffer.empty with
  | .ok _ buffer => .ok buffer.toList
  | .error e _ => .error e

end MemberCatalog
