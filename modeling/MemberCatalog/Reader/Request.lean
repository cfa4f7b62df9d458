/-
# A conversation with a reader

A caller that walks a stream by hand sends one request after another to the same cursor and gets
one reply for each.  A request that fails leaves the cursor where the reader stopped, and the
conversation goes on from there.  What the caller has at the end is the list of its turns
(`Cursor.turns`).
-/

import MemberCatalog.Reader.Basic

namespace MemberCatalog

/-- What a caller may ask of a cursor. -/
inductive Request where
  /-- The next token, consumed. -/
  | token
  /-- The next token, left unread. -/
  | peek
  /-- The next token as a number of entries. -/
  | count
  /-- The length of the stream. -/
  | len
  /-- Whether the stream holds no token at all. -/
  | isEmpty
  /-- Whether a token follows. -/
  | hasMore
  /-- How many tokens follow. -/
  | remaining
  /-- How many tokens lie before the cursor. -/
  | position
  deriving DecidableEq, Repr

/-- The answer to a request. -/
inductive Reply where
  | number (n : Nat)
  | truth (b : Bool)
  deriving DecidableEq, Repr

namespace Request

/-- Answers one request. -/
def answer : Request → Reader Reply
  | token => return .number (← Reader.token).toNat
  | peek => return .number (← Reader.peek).toNat
  | count => return .number (← Reader.count)
  | len => return .number (← get).len
  | isEmpty => return .truth ((← get).len == 0)
  | hasMore => return .truth (← get).hasMore
  | remaining => return .number (← get).remaining
  | position => return .number (← Reader.position)

/-- The outcome of one request and the cursor it leaves. -/
def step (request : Request) (c : Cursor) : Except Error Reply × Cursor :=
  match request.answer c with
  | .ok reply c' => (.ok reply, c')
  | .error e c' => (.error e, c')

end Request

/-- One request with the outcome that answered it. -/
structure Turn where
  request : Request
  outcome : Except Error Reply
  /-- The cursor that the answer left. -/
  cursor : Cursor

/-- The turn in which the request is put to a cursor. -/
def Request.turn (request : Request) (c : Cursor) : Turn :=
  let (outcome, c') := request.step c
  ⟨request, outcome, c'⟩

namespace Cursor

/-- The turns of a conversation that starts at `c`, in order. -/
def turns (c : Cursor) : List Request → List Turn
  | [] => []
  | request :: requests =>
    let turn := request.turn c
    turn :: turn.cursor.turns requests

/-- The cursor that is left when several requests have been answered, whatever the answers. -/
def after (c : Cursor) (requests : List Request) : Cursor :=
  requests.foldl (fun c request => (request.turn c).cursor) c

end Cursor

end MemberCatalog
