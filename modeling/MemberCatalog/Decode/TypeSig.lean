/-
# Reading type signatures

A signature is read by its opening tag (see `MemberCatalog.TypeSig.Tag`).  The reader descends
one level per nested signature and refuses to go deeper than a limit, before it looks at the
next token.

The reader of counts is a parameter: `Reader.count` refuses a count that exceeds the tokens left,
and with `Reader.uncheckedCount` the reader is the grammar alone.

A damage is reported by its place in the stream.  The line of the program that noticed it is left
out of the error: the stream does not determine it, and nothing that a decoder does depends on it.
-/

import MemberCatalog.Reader.Basic
import MemberCatalog.TypeSig.Tag

namespace MemberCatalog

namespace TypeSig

/-- Reads a signature with `budget` levels of nesting left of `limit`, and counts by
`readCount`. -/
def readWith (readCount : Reader Nat) (limit : Nat) : Nat → Reader TypeSig
  | 0 => throw (.recursionLimit limit)
  | budget + 1 => do
    let position ← Reader.position
    let word ← Reader.token
    match Tag.ofToken? word with
    | some .typeHandle => return .direct (.ofHandle (← Reader.token))
    | some (.modifier m) => return .modified m (← readWith readCount limit budget)
    | some .typeParam => return .typeParam (← Reader.token)
    | some .methodParam => return .methodParam (← Reader.token)
    | some .inst =>
      let opening ← Reader.token
      if opening = Tag.typeHandle.token then
        let definition ← Reader.token
        let n ← readCount
        let args ← Reader.repeated n (readWith readCount limit budget)
        return .inst (.ofHandle definition) args
      else throw (.malformed (.definitionNotHandle position opening) none)
    | none => throw (.unknownTag word position)

end TypeSig

end MemberCatalog
