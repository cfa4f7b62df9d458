/-
# Reading a token stream

A `Cursor` is a place in a stream of tokens: how many tokens lie before it, which ones follow,
and how long the stream is.  It only ever moves forward.  A `Reader` consumes tokens from a
cursor and either answers or fails; it leaves a cursor in both cases, so that reading can go on
behind a failure.

A count says how many entries follow.  Since every entry takes a token, a count that exceeds the
tokens left is refused before any entry is read (`Reader.count`).
-/

import MemberCatalog.Error

namespace MemberCatalog

/-- A place in a stream of tokens. -/
structure Cursor where
  /-- How many tokens lie before the place. -/
  pos : Nat
  /-- The tokens that follow. -/
  rest : List Token
  /-- How many tokens the whole stream holds. -/
  len : Nat
  len_eq : len = pos + rest.length
  deriving DecidableEq

namespace Cursor

/-- The start of a stream. -/
def ofTokens (tokens : List Token) : Cursor := ⟨0, tokens, tokens.length, (Nat.zero_add _).symm⟩

/-- How many tokens follow. -/
def remaining (c : Cursor) : Nat := c.len - c.pos

/-- Whether a token follows. -/
def hasMore (c : Cursor) : Bool := c.pos < c.len

theorem remaining_eq_length (c : Cursor) : c.remaining = c.rest.length := by
  rw [remaining, c.len_eq, Nat.add_sub_cancel_left]

theorem hasMore_iff (c : Cursor) : c.hasMore ↔ c.rest ≠ [] := by
  simp [hasMore, c.len_eq, List.length_pos_iff]

theorem pos_le_len (c : Cursor) : c.pos ≤ c.len :=
  c.len_eq ▸ Nat.le_add_right _ _

end Cursor

/-- A computation that consumes tokens and may fail. -/
abbrev Reader := EStateM Error Cursor

namespace Reader

/-- The place of the cursor. -/
def position : Reader Nat := return (← get).pos

/-- The next token, which stays unread. -/
def peek : Reader Token
  | c@⟨pos, [], len, _⟩ => .error (.outOfBounds pos len) c
  | c@⟨_, t :: _, _, _⟩ => .ok t c

/-- The next token, which is consumed. -/
def token : Reader Token
  | c@⟨pos, [], len, _⟩ => .error (.outOfBounds pos len) c
  | ⟨pos, t :: rest, len, h⟩ =>
    .ok t ⟨pos + 1, rest, len, by simp only [h, List.length_cons]; omega⟩

/-- The next token as a number of entries, refused if fewer tokens than that follow it. -/
def count : Reader Nat := do
  let n := (← token).toNat
  let c ← get
  if c.remaining < n then throw (.outOfBounds (c.pos + n) c.len) else return n

/-- The next token as a number of entries, whatever follows it. -/
def uncheckedCount : Reader Nat := return (← token).toNat

/-- What `x` reads `n` times in a row. -/
def repeated {α : Type} (n : Nat) (x : Reader α) : Reader (List α) :=
  (List.replicate n ()).mapM fun _ => x

@[simp]
theorem repeated_zero {α : Type} (x : Reader α) : repeated 0 x = pure [] := rfl

@[simp]
theorem repeated_succ {α : Type} (n : Nat) (x : Reader α) :
    repeated (n + 1) x = do return (← x) :: (← repeated n x) := by
  simp [repeated, List.replicate_succ]

/-- Fails with the error of a check, if the check is wanted. -/
def check {α : Type} (wanted : Bool) (x : Except Error α) : Reader Unit :=
  if wanted then
    match x with
    | .ok _ => return
    | .error e => throw e
  else return

end Reader

end MemberCatalog
