/-
# Decoders

A decoder is a cursor together with a count of the types that are open around it.  The count goes up
when a type opens and down again when the type ends, whether it could be read or not, and at the
limit no further type may open.  Two calls to the same decoder share its count as they share its
cursor: whatever a failed call left of it would weigh on the records behind.

The readers below follow the grammar of `MemberCatalog.Decode.Record`, which hands a budget of
levels down into each type and so has no count to keep.
-/

import MemberCatalog.Decode.Run

namespace MemberCatalog

/-- What a decoder keeps from one call to the next. -/
structure Decoder where
  /-- The place in the stream. -/
  cursor : Cursor
  /-- How many types are open around the place. -/
  depth : Nat
  deriving DecidableEq

/-- A new decoder has no type open. -/
instance : Coe Cursor Decoder := ⟨fun c => ⟨c, 0⟩⟩

/-- A new decoder at the start of a stream. -/
def Decoder.ofTokens (tokens : List Token) : Decoder := Cursor.ofTokens tokens

/-- A computation that moves a decoder on and may fail. -/
abbrev Decoding := EStateM Error Decoder

namespace Decoding

variable {α : Type}

/-- Does what a reader does, and opens no type for it. -/
def lift (x : Reader α) : Decoding α := fun d =>
  match x d.cursor with
  | .ok a c => .ok a { d with cursor := c }
  | .error e c => .error e { d with cursor := c }

instance : MonadLift Reader Decoding := ⟨lift⟩

/-- Opens a type for `x`, unless as many as `limit` are open, and closes it behind `x` in any
case. -/
def nested (limit : Nat) (x : Decoding α) : Decoding α := fun d =>
  if limit ≤ d.depth then .error (.recursionLimit limit) d
  else
    match x { d with depth := d.depth + 1 } with
    | .ok a d' => .ok a { d' with depth := d'.depth - 1 }
    | .error e d' => .error e { d' with depth := d'.depth - 1 }

/-- What `x` reads `n` times in a row. -/
def repeated (n : Nat) (x : Decoding α) : Decoding (List α) :=
  (List.replicate n ()).mapM fun _ => x

@[simp]
theorem repeated_zero (x : Decoding α) : repeated 0 x = pure [] := rfl

@[simp]
theorem repeated_succ (n : Nat) (x : Decoding α) :
    repeated (n + 1) x = do return (← x) :: (← repeated n x) := by
  simp [repeated, List.replicate_succ]

end Decoding

namespace TypeSig

/-- Reads a signature.  It is the count of open types that ends the descent.  `fuel` is one more
than the levels left, so the count always refuses the next type before the fuel is used up; it is
there for the descent to be seen to end. -/
def decode (limit : Nat) : Nat → Decoding TypeSig
  | 0 => throw (.recursionLimit limit)
  | fuel + 1 => Decoding.nested limit do
    let position ← Reader.position
    let word ← Reader.token
    match Tag.ofToken? word with
    | some .typeHandle => return .direct (.ofHandle (← Reader.token))
    | some (.modifier m) => return .modified m (← decode limit fuel)
    | some .typeParam => return .typeParam (← Reader.token)
    | some .methodParam => return .methodParam (← Reader.token)
    | some .inst =>
      let opening ← Reader.token
      if opening = Tag.typeHandle.token then
        let definition ← Reader.token
        let n ← Reader.count
        let args ← Decoding.repeated n (decode limit fuel)
        return .inst (.ofHandle definition) args
      else throw (.malformed (.definitionNotHandle position opening) none)
    | none => throw (.unknownTag word position)

end TypeSig

namespace MemberShape

/-- Reads the shape that goes with a kind. -/
def decode (limit : Nat) (kind? : Option MemberKind) : Decoding MemberShape :=
  let decodeType := TypeSig.decode limit (limit + 1)
  if kind? = some .field then return .field (← decodeType)
  else do
    let n ← Reader.count
    let returnType ← decodeType
    let parameters ← Decoding.repeated n decodeType
    return .invocable returnType parameters

end MemberShape

namespace MemberRecord

/-- Reads one record. -/
def decode (config : DecoderConfig) : Decoding MemberRecord := do
  let flags : MemberFlags := ⟨← Reader.token⟩
  Reader.check config.recordValidation flags.validKind
  let declaringType := TypeId.ofHandle (← Reader.token)
  let arity ← Reader.token
  let shape ← MemberShape.decode config.maxNestingDepth flags.kind?
  let record : MemberRecord := { flags, declaringType, arity, shape }
  Reader.check config.recordValidation record.checkStructure
  Reader.check config.arityValidation record.checkArity
  return record

end MemberRecord

namespace Decoder

/-- Reads `n` more records behind those in `done`, which are held last first, and answers with the
run and the decoder it leaves.  The next record has number `index`. -/
def extend (config : DecoderConfig) : Nat → Nat → List Entry → Decoder → Run × Decoder
  | 0, _, done, d => (⟨done.reverse, d.cursor.trailingFault?, d.cursor⟩, d)
  | n + 1, index, done, d =>
    match MemberRecord.decode config d with
    | .ok record d' =>
      extend config n (index + 1) (⟨record, d.cursor.pos, d'.cursor.pos⟩ :: done) d'
    | .error e d' => (⟨done.reverse, some (e.inRecord index), d'.cursor⟩, d')

/-- Reads `count` records. -/
def run (config : DecoderConfig) (count : Nat) (d : Decoder) : Run × Decoder :=
  extend config count 0 [] d

end Decoder

end MemberCatalog
