/-
# A conversation with a decoder

A caller may also decode a stream piece by piece: one record, or a run of several that is to
reach the end of the stream.  A call that fails leaves the decoder where reading stopped, and the
conversation goes on from there.
-/

import MemberCatalog.Decode.Decoder

namespace MemberCatalog

/-- What a caller may ask of a decoder. -/
inductive DecoderCall where
  /-- The next record. -/
  | record
  /-- The given number of records, and then the end of the stream. -/
  | records (count : Nat)
  deriving DecidableEq, Repr

/-- What a call yields. -/
inductive Decoded where
  | record (r : MemberRecord)
  | records (rs : List MemberRecord)
  deriving DecidableEq, Repr

namespace DecoderCall

/-- What a call answers, which events it reports, and the decoder it leaves. -/
structure Outcome where
  answer : Except Error Decoded
  events : List Event
  decoder : Decoder

/-- Where the call leaves the decoder. -/
def Outcome.cursor (out : Outcome) : Cursor := out.decoder.cursor

/-- Makes one call.  Only runs report events. -/
def perform (config : DecoderConfig) (d : Decoder) : DecoderCall → Outcome
  | record =>
    match MemberRecord.decode config d with
    | .ok r d' => ⟨.ok (.record r), [], d'⟩
    | .error e d' => ⟨.error e, [], d'⟩
  | records count =>
    let (run, d') := d.run config count
    ⟨run.result.map .records, run.events, d'⟩

end DecoderCall

/-- The decoder that is left when several calls have been made, whatever they answered. -/
def Decoder.after (config : DecoderConfig) (d : Decoder) (calls : List DecoderCall) : Decoder :=
  calls.foldl (fun d call => (call.perform config d).decoder) d

end MemberCatalog
