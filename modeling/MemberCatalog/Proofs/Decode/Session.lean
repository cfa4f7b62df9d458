/-
# Calls to a decoder leave nothing behind but its place

Whatever calls have been made to a decoder and however they ended, it has no type open and stands
within its stream (`DecoderCall.perform_reaches` for one call, `Decoder.after_reaches` for all of
them).  The next call then does what it would do to a new decoder over the rest of the stream, with
every place moved by what lies before it (`DecoderCall.perform_shift`).  `Decoder.perform_after`
says both: a call that failed, however deep in nested types, neither tightens nor loosens the
nesting limit for the calls behind it.
-/

import MemberCatalog.Proofs.Decode.Composition
import MemberCatalog.Proofs.Decode.Decoder

namespace MemberCatalog

open Reader

variable (config : DecoderConfig) {k : Nat}

/-! ### Calls behind more tokens -/

/-- The event behind `k` more tokens. -/
def Event.shift (k : Nat) : Event → Event
  | recordDecoded index start len => recordDecoded index (k + start) len
  | catalogBuilt idType members tokens => catalogBuilt idType members tokens

theorem Error.behind_zero (e : Error) : e.behind 0 k = e.shift k := by
  cases e with
  | record index source => rw [behind, shift, Nat.zero_add]
  | _ => rfl

theorem Run.events_behind (run : Run) :
    (run.behind [] k).events = run.events.map (Event.shift k) := by
  refine List.ext_getElem? fun i => ?_
  simp only [events, behind, List.nil_append, List.getElem?_mapIdx, List.getElem?_map]
  cases run.entries[i]? with
  | none => rfl
  | some entry =>
    simp only [Option.map_some, Entry.shift, Event.shift, Nat.add_sub_add_left]

/-- A run behind more tokens. -/
theorem Run.start_shift (count : Nat) (c : Cursor) :
    start (MemberRecord.read config) count (c.shift k) =
      (start (MemberRecord.read config) count c).behind [] k := by
  have h := extend_shift (k := k) (MemberRecord.shiftsTo_read config)
    MemberRecord.isCause_of_read_eq_error [] count 0 [] c
  simpa [start] using h

namespace DecoderCall

/-- **The outcome of a call behind `k` more tokens**: every place that its error and its events name
is larger by `k`, and so is the place of the decoder. -/
def Outcome.shift (k : Nat) (out : Outcome) : Outcome where
  answer := out.answer.mapError (Error.shift k)
  events := out.events.map (Event.shift k)
  decoder := { out.decoder with cursor := out.decoder.cursor.shift k }

/-- **A call to a decoder with no type open does the same behind more tokens.** -/
theorem perform_shift (k : Nat) (call : DecoderCall) (c : Cursor) :
    call.perform config (c.shift k) = (call.perform config c).shift k := by
  cases call with
  | record =>
    have hc := MemberRecord.shiftsTo_read (k := k) config c
    rw [perform_record, perform_record, hc]
    cases MemberRecord.read config c with
    | ok r c' => rfl
    | error e c' => rfl
  | records count =>
    rw [perform_records, perform_records, Run.start_shift, Run.events_behind, Run.result_behind]
    cases (Run.start (MemberRecord.read config) count c).result with
    | ok rs => rfl
    | error e => simp only [List.length_nil, Error.behind_zero]; rfl

end DecoderCall

/-! ### Reachable decoders -/

/-- A run only moves forward. -/
theorem Run.extend_reaches (n index : Nat) (done : List Entry) (c : Cursor) :
    c.Reaches (extend (MemberRecord.read config) n index done c).cursor := by
  induction n generalizing index done c with
  | zero => exact c.reaches_refl
  | succ n ih =>
    have hends := MemberRecord.failsOnly_read config c
    rw [extend]
    cases h : MemberRecord.read config c with
    | ok r c' =>
      rw [h] at hends
      exact Cursor.Reaches.trans hends (ih _ _ c')
    | error e c' =>
      rw [h] at hends
      exact Failure.reaches hends

/-- **What one call keeps.**  A decoder with no type open is left with no type open, at the same
place or further on. -/
theorem DecoderCall.perform_reaches (call : DecoderCall) (c : Cursor) :
    ∃ c' : Cursor, (call.perform config c).decoder = ⟨c', 0⟩ ∧ c.Reaches c' := by
  cases call with
  | record =>
    have hends := MemberRecord.failsOnly_read config c
    rw [perform_record]
    cases h : MemberRecord.read config c with
    | ok r c' =>
      rw [h] at hends
      exact ⟨c', rfl, hends⟩
    | error e c' =>
      rw [h] at hends
      exact ⟨c', rfl, Failure.reaches hends⟩
  | records count =>
    rw [perform_records]
    exact ⟨_, rfl, Run.extend_reaches config count 0 [] c⟩

namespace Decoder

/-- **What any number of calls keep**, whatever they answer. -/
theorem after_reaches (calls : List DecoderCall) (c : Cursor) :
    ∃ c' : Cursor, after config c calls = ⟨c', 0⟩ ∧ c.Reaches c' := by
  induction calls generalizing c with
  | nil => exact ⟨c, rfl, c.reaches_refl⟩
  | cons call calls ih =>
    obtain ⟨m, hm, hcm⟩ := call.perform_reaches config c
    obtain ⟨c', hc', hmc'⟩ := ih m
    refine ⟨c', ?_, hcm.trans hmc'⟩
    rw [after, List.foldl_cons, hm]
    exact hc'

/-- After any calls the decoder of a stream stands in this stream, with no type open. -/
theorem ofTokens_after (tokens : List Token) (calls : List DecoderCall) :
    ∃ c : Cursor, (ofTokens tokens).after config calls = ⟨c, 0⟩ ∧
      (Cursor.ofTokens tokens).Reaches c :=
  after_reaches config calls (.ofTokens tokens)

/-- **Calls leave nothing behind but a place.**  After any calls to a decoder, whatever they
answered, it has no type open and stands at a place `c.pos` within the stream.  Every further call
answers, reports and leaves what it would on a new decoder over the tokens from there on, with
`c.pos` added to the places. -/
theorem perform_after (tokens : List Token) (calls : List DecoderCall) :
    ∃ c : Cursor, (ofTokens tokens).after config calls = ⟨c, 0⟩ ∧ c.pos ≤ tokens.length ∧
      ∀ call : DecoderCall, call.perform config ⟨c, 0⟩ =
        (call.perform config (ofTokens (tokens.drop c.pos))).shift c.pos := by
  obtain ⟨c, hc, hreach⟩ := ofTokens_after config tokens calls
  have hrest : c.rest = tokens.drop c.pos := hreach.rest_eq_drop
  have hlen : c.len = tokens.length := hreach.len_eq
  refine ⟨c, hc, hlen ▸ c.pos_le_len, fun call => ?_⟩
  have hshift := call.perform_shift config c.pos (.ofTokens c.rest)
  rw [c.shift_ofTokens_rest, hrest] at hshift
  exact hshift

/-- A first record fails inside two arrays, at the limit.  The second one, which starts there, may
nest up to the limit again. -/
example :
    let config : DecoderConfig :=
      { maxNestingDepth := 2, arityValidation := false, recordValidation := false }
    let d := ofTokens [0x42, 20, 0, 0x1D, 0x1D, 0x1D, 20, 0, 0, 0x1D, 0x40, 20]
    (DecoderCall.record.perform config d).answer = .error (.recursionLimit 2) ∧
      (DecoderCall.record.perform config (d.after config [.record])).answer =
        .ok (.record ⟨⟨0x1D⟩, .special 20, 0,
          .invocable (.modified .array (.direct (.special 20))) []⟩) := ⟨rfl, rfl⟩

end Decoder

end MemberCatalog
