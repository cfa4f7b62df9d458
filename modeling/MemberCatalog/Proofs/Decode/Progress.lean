/-
# Decoding never runs longer than the stream

A caller may ask for any number of records, far more than a stream can hold.  But no record takes
less than five tokens (`MemberRecord.five_le_tokenLen`), and a record that is read moves the
decoder by as many tokens as it takes (`MemberRecord.advances_of_read_eq_ok`).  So a run that is
asked for too many fails in a record that the tokens left cannot hold, and it does so in the same
way whatever number was asked for (`Run.exists_start_eq`).
-/

import MemberCatalog.Proofs.Decode.Session

namespace MemberCatalog

open Reader

variable {config : DecoderConfig}

/-- **A record that is read takes its tokens from the stream**, five of them at least. -/
theorem MemberRecord.advances_of_read_eq_ok {c c' : Cursor} {r : MemberRecord}
    (h : read config c = .ok r c') :
    c'.pos = c.pos + r.tokenLen ∧ 5 ≤ r.tokenLen ∧ c'.pos ≤ c.len := by
  have hp : c.Passes r.layout c' := ((reads_read config c r c').1 h).1
  refine ⟨?_, r.five_le_tokenLen, hp.reaches.len_eq ▸ c'.pos_le_len⟩
  rw [hp.pos_eq, r.length_layout]

/-- Records that lie one behind the other from a cursor on are no more than the tokens left can
hold. -/
theorem Cursor.Passes.five_mul_length_le {c m : Cursor} {rs : List MemberRecord}
    (h : c.Passes (rs.flatMap MemberRecord.layout) m) : 5 * rs.length ≤ c.remaining := by
  have hlen := MemberRecord.five_mul_length_le_tokenLenAll rs
  rw [c.remaining_eq_length, h.rest_eq, List.length_append, MemberRecord.length_flatMap_layout]
  omega

/-- **All runs that ask for more than the tokens left can hold are one run.**  It fails in a record
that starts within the tokens left. -/
theorem Run.exists_start_eq (config : DecoderConfig) (c : Cursor) :
    ∃ (rs : List MemberRecord) (e : Error) (c' : Cursor), 5 * rs.length ≤ c.remaining ∧
      ∀ n, c.remaining < 5 * n →
        start (MemberRecord.read config) n c =
          ⟨entriesFrom c.pos rs, some (.record rs.length e), c'⟩ := by
  have hread := MemberRecord.reads_read config
  obtain ⟨rs, m, hP, hm, ⟨hlen, -⟩ | ⟨-, e, c', he, -⟩⟩ := start_cases hread (c.remaining + 1) c
  all_goals have hle := hm.five_mul_length_le
  · omega
  · refine ⟨rs, e, c', hle, fun n hn => ?_⟩
    have hcause := MemberRecord.isCause_of_read_eq_error he
    rw [start_of_read_eq_error hread hP hm he (by omega), Error.inRecord_of_isCause hcause]

/-- Of a whole stream they ask for more than fits into all of its tokens. -/
theorem exists_decodeRun_eq (config : DecoderConfig) (tokens : List Token) :
    ∃ (rs : List MemberRecord) (e : Error) (c' : Cursor), 5 * rs.length ≤ tokens.length ∧
      ∀ n, tokens.length < 5 * n →
        decodeRun config tokens n = ⟨entriesFrom 0 rs, some (.record rs.length e), c'⟩ :=
  Run.exists_start_eq config (.ofTokens tokens)

namespace DecoderCall

/-- A call for a record moves a decoder by the tokens of the record that it answers with. -/
theorem perform_record_advances {c : Cursor} {r : MemberRecord}
    (h : (record.perform config c).answer = .ok (.record r)) :
    (record.perform config c).cursor.pos = c.pos + r.tokenLen ∧ 5 ≤ r.tokenLen ∧
      (record.perform config c).cursor.pos ≤ c.len := by
  rw [perform_record] at h ⊢
  cases hread : MemberRecord.read config c with
  | error e c' => simp [hread] at h
  | ok q c' =>
    simp only [hread, Except.ok.injEq, Decoded.record.injEq] at h
    exact MemberRecord.advances_of_read_eq_ok (h ▸ hread)

/-- A call for more records than the tokens left can hold fails in one of them, and does the same as
any other such call. -/
theorem perform_records_of_lt {c : Cursor} {n : Nat} (hn : c.len < c.pos + 5 * n) :
    ∃ index < n, ∃ source,
      ((records n).perform config c).answer = .error (.record index source) ∧
      c.pos + 5 * index ≤ c.len ∧ ((records n).perform config c).events.length = index ∧
      ∀ m, c.len < c.pos + 5 * m → (records m).perform config c = (records n).perform config c := by
  obtain ⟨rs, e, c', hle, hrun⟩ := Run.exists_start_eq config c
  have hpos := c.pos_le_len
  rw [Cursor.remaining] at hle hrun
  have hperform {k : Nat} (hk : c.len < c.pos + 5 * k) : (records k).perform config c =
      ⟨.error (.record rs.length e), Run.events ⟨entriesFrom c.pos rs, none, c'⟩, c'⟩ := by
    rw [perform_records, hrun k (by omega)]
    rfl
  refine ⟨rs.length, by omega, e, ?_, by omega, ?_, fun m hm => ?_⟩
  · rw [hperform hn]
  · rw [hperform hn, Run.events, List.length_mapIdx, length_entriesFrom]
  · rw [hperform hm, hperform hn]

end DecoderCall

namespace Decoder

/-- **Decoding makes progress and ends with the stream.**  After any calls a decoder that reads a
record moves on by as many tokens as the record takes, at least five and never past the end.
Asked for more records than the tokens left can hold, it fails in one of them, behind as many as
it has reported and as fit into these tokens; and what it does is the same for all such numbers.
In particular a stream with less than five tokens for each record asked for does not decode,
whatever the number, and what has been done by then is what is done for one record more than the
stream can hold. -/
theorem perform_progress (config : DecoderConfig) (tokens : List Token) :
    (∀ calls r,
      let d := (ofTokens tokens).after config calls
      let out := DecoderCall.record.perform config d
      out.answer = .ok (.record r) →
        out.cursor.pos = d.cursor.pos + r.tokenLen ∧ 5 ≤ r.tokenLen ∧
        out.cursor.pos ≤ tokens.length) ∧
    (∀ calls n,
      let d := (ofTokens tokens).after config calls
      let out := (DecoderCall.records n).perform config d
      tokens.length < d.cursor.pos + 5 * n →
        ∃ index < n, ∃ source, out.answer = .error (.record index source) ∧
          d.cursor.pos + 5 * index ≤ tokens.length ∧ out.events.length = index ∧
          ∀ m, tokens.length < d.cursor.pos + 5 * m →
            (DecoderCall.records m).perform config d = out) ∧
    (∀ n rs, decodeWith config tokens n = .ok rs → 5 * n ≤ tokens.length) ∧
    ∀ n, tokens.length < 5 * n →
      (∃ index < n, ∃ source, decodeWith config tokens n = .error (.record index source) ∧
        5 * index ≤ tokens.length) ∧
      decodeRun config tokens n = decodeRun config tokens (tokens.length / 5 + 1) := by
  refine ⟨fun calls r => ?_, fun calls n => ?_, fun n rs h => ?_, fun n hn => ?_⟩
  · obtain ⟨c, hafter, hreach⟩ := ofTokens_after config tokens calls
    have hlen : c.len = tokens.length := hreach.len_eq
    rw [hafter, ← hlen]
    exact DecoderCall.perform_record_advances
  · obtain ⟨c, hafter, hreach⟩ := ofTokens_after config tokens calls
    have hlen : c.len = tokens.length := hreach.len_eq
    rw [hafter, ← hlen]
    exact DecoderCall.perform_records_of_lt
  · obtain ⟨rfl, rfl, -⟩ := decodeWith_eq_ok_iff.1 h
    rw [MemberRecord.length_flatMap_layout]
    exact MemberRecord.five_mul_length_le_tokenLenAll rs
  · obtain ⟨rs, e, c', hle, hrun⟩ := exists_decodeRun_eq config tokens
    have hmore : tokens.length < 5 * (tokens.length / 5 + 1) := by omega
    refine ⟨⟨rs.length, by omega, e, ?_, hle⟩, ?_⟩
    · rw [decodeWith, hrun n hn]
      rfl
    · rw [hrun n hn, hrun _ hmore]

/-- The second of two fields takes the other five of ten tokens.  As many records as a 64-bit
number can count are asked for in vain: the run ends in the third one, as it does if three are
asked for. -/
theorem perform_progress_twoFields :
    let tokens := [0x42, 20, 0, 0x40, 20, 0x42, 20, 0, 0x40, 20]
    let first := DecoderCall.record.perform .default (ofTokens tokens)
    let second := DecoderCall.record.perform .default first.decoder
    (second.answer = .ok (.record .staticField) ∧ first.cursor.pos = 5 ∧
      second.cursor.pos = first.cursor.pos + MemberRecord.staticField.tokenLen) ∧
    tokens.length < 5 * (UInt64.size - 1) ∧
    decodeRun .default tokens (UInt64.size - 1) = decodeRun .default tokens 3 ∧
    decodeWith .default tokens (UInt64.size - 1) = .error (.record 2 (.outOfBounds 10 10)) := by
  intro tokens first second
  obtain ⟨hrecord, -, -, hrun⟩ := perform_progress .default tokens
  have hsecond : second.answer = .ok (.record .staticField) := rfl
  have hpos := (hrecord [.record] _ hsecond).1
  have hlt : tokens.length < 5 * (UInt64.size - 1) := by decide
  have hthree : tokens.length / 5 + 1 = 3 := by simp [tokens]
  have hsame := (hrun _ hlt).2
  rw [hthree] at hsame
  refine ⟨⟨hsecond, rfl, hpos⟩, hlt, hsame, ?_⟩
  rw [decodeWith, hsame]
  rfl

end Decoder

end MemberCatalog
