/-
# Decoder configurations

What keeps a decoder in step with the stream belongs to the grammar and is always checked: bounds,
tags, and the end of the stream.  A configuration bounds the nesting and switches the checks on
the meaning of a record.
-/

import MemberCatalog.Member.Validity

namespace MemberCatalog

/-- What a decoder demands beyond the grammar. -/
structure DecoderConfig where
  /-- How deep a type may nest. -/
  maxNestingDepth : Nat := maxNestingDepth
  /-- Whether method parameters are held against the arity of their record. -/
  arityValidation : Bool := true
  /-- Whether flags, shape and self type are checked. -/
  recordValidation : Bool := true
  deriving DecidableEq, Repr

namespace DecoderConfig

/-- The usual demands: nesting as in valid records, and every check. -/
def default : DecoderConfig := {}

/-- Every check. -/
def strict : DecoderConfig := default

/-- The grammar and the usual nesting alone, for a look into a damaged table. -/
def minimal : DecoderConfig := { arityValidation := false, recordValidation := false }

end DecoderConfig

end MemberCatalog
