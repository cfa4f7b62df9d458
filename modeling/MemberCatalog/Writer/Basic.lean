/-
# Writing tokens

A `Buffer` holds the tokens written so far, and its view is the list of them in writing order.  A
`Writer` appends to a buffer and may fail, and then leaves what it wrote before.  A writer that is
`atomic` goes back to the length that the buffer had, when it fails.
-/

import MemberCatalog.TypeId.Basic

namespace MemberCatalog

/-- The tokens written so far.  They are held last first, so that tokens are written and taken back
at the head of a list. -/
structure Buffer where
  reversed : List Token
  deriving DecidableEq, Repr

namespace Buffer

/-- No tokens. -/
def empty : Buffer := ⟨[]⟩

/-- The tokens in the order in which they were written. -/
def toList (b : Buffer) : List Token := b.reversed.reverse

/-- One more token. -/
def push (b : Buffer) (t : Token) : Buffer := ⟨t :: b.reversed⟩

/-- How many tokens have been written. -/
def size (b : Buffer) : Nat := b.reversed.length

/-- The first `n` tokens, or all if they are fewer. -/
def truncate (b : Buffer) (n : Nat) : Buffer := ⟨b.reversed.drop (b.size - n)⟩

@[simp]
theorem toList_empty : empty.toList = [] := rfl

@[simp]
theorem toList_push (b : Buffer) (t : Token) : (b.push t).toList = b.toList ++ [t] := by
  simp [toList, push]

@[simp]
theorem length_toList (b : Buffer) : b.toList.length = b.size := List.length_reverse

@[simp]
theorem toList_truncate (b : Buffer) (n : Nat) : (b.truncate n).toList = b.toList.take n :=
  List.take_reverse.symm

theorem toList_inj {a b : Buffer} : a.toList = b.toList ↔ a = b := by
  cases a
  cases b
  simp [toList]

end Buffer

/-- A computation that appends tokens to a buffer and may fail. -/
abbrev Writer := EStateM Error Buffer

namespace Writer

/-- Writes one token. -/
def token (t : Token) : Writer Unit := modify fun b => b.push t

/-- Writes the handle of a type. -/
def handle (id : TypeId) : Writer Unit :=
  match id.handle with
  | .ok h => token h
  | .error e => throw e

/-- Writes a number of entries, which has to fit into one token. -/
def count (n : Nat) (counted : Counted) : Writer Unit :=
  if n < UInt16.size then token (.ofNat n)
  else throw (.invalidRecord (.countTooLarge n counted))

/-- Writes all of `x`, or takes back what `x` had written when it failed. -/
def atomic (x : Writer Unit) : Writer Unit := fun b =>
  match x b with
  | .ok _ b' => .ok () b'
  | .error e b' => .error e (b'.truncate b.size)

/-- What a writer makes of a buffer: its error, if it fails, and the buffer it leaves. -/
def outcome (x : Writer Unit) (b : Buffer) : Except Error Unit × Buffer :=
  match x b with
  | .ok _ b' => (.ok (), b')
  | .error e b' => (.error e, b')

end Writer

end MemberCatalog
