/-
# Records into a shared buffer

A caller may also write records one by one into a buffer of its own, in which other tokens may stand
already.  A record that cannot be written is answered with its error, and the next one is written
all the same, behind whatever the buffer holds by then.
-/

import MemberCatalog.Encode

namespace MemberCatalog

/-- One call to write a record. -/
structure WriteCall where
  record : MemberRecord
  /-- What the call answered. -/
  answer : Except Error Unit
  /-- The buffer that the call was given. -/
  before : Buffer
  /-- The buffer that the call left. -/
  after : Buffer

namespace WriteCall

/-- Writes one record into a buffer. -/
def make (b : Buffer) (r : MemberRecord) : WriteCall :=
  let (answer, after) := Writer.outcome r.write b
  ⟨r, answer, b, after⟩

end WriteCall

/-- What writing records one by one into a buffer comes to. -/
structure WriteSession where
  /-- The calls, in order. -/
  calls : List WriteCall
  /-- The buffer behind the last call. -/
  buffer : Buffer

namespace WriteSession

/-- Writes records one by one, each into the buffer that the call before it left. -/
def start (b : Buffer) : List MemberRecord → WriteSession
  | [] => ⟨[], b⟩
  | r :: rs =>
    let call := WriteCall.make b r
    let session := start call.after rs
    ⟨call :: session.calls, session.buffer⟩

/-- The records of the calls that succeeded, in order. -/
def written (session : WriteSession) : List MemberRecord :=
  (session.calls.filter fun call => call.answer.isOk).map WriteCall.record

end WriteSession

end MemberCatalog
