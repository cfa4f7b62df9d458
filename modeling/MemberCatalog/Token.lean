/-
# Tokens

A token table is a flat sequence of 16-bit words.  Messages quote a word by its four
hexadecimal digits, upper case and zero-padded.
-/

namespace MemberCatalog

/-- One 16-bit word of a token table. -/
abbrev Token := UInt16

namespace Token

/-- The upper-case hexadecimal digit of `t` at the place that is worth `weight`. -/
def hexDigit (t : Token) (weight : Nat) : Char :=
  (Nat.digitChar (t.toNat / weight % 16)).toUpper

/-- The four hexadecimal digits of `t`, highest first. -/
def hex (t : Token) : String :=
  String.ofList ([0x1000, 0x100, 0x10, 0x1].map t.hexDigit)

/-- A small word is padded with zeros on the left, and a large one fills all four places. -/
example : hex 0x99 = "0099" ∧ hex 0xABCD = "ABCD" := by decide

end Token

end MemberCatalog
