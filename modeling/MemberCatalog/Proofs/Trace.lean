/-
# The events of a run tile the stream

A run reports each record that it has read, with the place where it began to read and the number of
tokens it took.  Since it reads laid out records (`Run.start_cases`), these are the places and the
lengths of the layouts: the events of a run are those of its records, one behind the other
(`Run.events_eq_trace`), and their spans lie end to end (`Event.tiles_trace`), however the run
ended.  What is reported of them is one line of the level `trace` for each record
(`Event.map_report_trace`).  `Decoder.perform_tiles` says this of any run of a decoder, and which
events building a catalog adds to those of its run.
-/

import MemberCatalog.Proofs.Catalog.Build
import MemberCatalog.Proofs.Decode.Session
import MemberCatalog.Proofs.Text.Wording

namespace MemberCatalog

open Enumeration (count)

/-! ### Events of laid out records -/

namespace Event

/-- **The events of records that lie one behind the other from token `pos` on**: each with its
number, its first token and its length. -/
def trace (pos : Nat) (rs : List MemberRecord) : List Event :=
  rs.mapIdx fun j r =>
    .recordDecoded j (pos + MemberRecord.tokenLenAll (rs.take j)) r.tokenLen

/-- **What is reported of laid out records** is one line of the level `trace` for each, which names
its number, its first token and its length. -/
theorem map_report_trace (pos : Nat) (rs : List MemberRecord) :
    (trace pos rs).map report = rs.mapIdx fun j r =>
      let start := pos + MemberRecord.tokenLenAll (rs.take j)
      (.trace, s!"decoded record {j} at token {start} ({r.tokenLen} tokens)") := by
  refine (List.mapIdx_eq_iff.2 fun j => ?_).symm
  simp only [trace, List.getElem?_map, List.getElem?_mapIdx, Option.map_map]
  rfl

/-- What is reported of a catalog is one line of the level `debug`. -/
theorem report_catalogBuilt (idType : String) (members tokens : Nat) :
    (catalogBuilt idType members tokens).report =
      (.debug, s!"decoded {idType} catalog: {members} members from {tokens} tokens") := rfl

/-- **The events tile the tokens from `start` up to `stop`**: they name records by consecutive
numbers, the first of them `index`, and each record begins where the one before it ends. -/
def Tiles : Nat → Nat → List Event → Nat → Prop
  | _, start, [], stop => stop = start
  | index, start, e :: es, stop =>
    ∃ len, e = .recordDecoded index start len ∧ Tiles (index + 1) (start + len) es stop

/-- Of laid out records each begins where the one before it ends. -/
theorem tiles_mapIdx (index pos : Nat) (rs : List MemberRecord) :
    Tiles index pos (rs.mapIdx fun j r =>
        .recordDecoded (index + j) (pos + MemberRecord.tokenLenAll (rs.take j)) r.tokenLen)
      (pos + MemberRecord.tokenLenAll rs) := by
  induction rs generalizing index pos with
  | nil => rfl
  | cons r rs ih =>
    have htail := ih (index + 1) (pos + r.tokenLen)
    simp only [List.mapIdx_cons, List.take_zero, List.take_succ_cons, MemberRecord.tokenLenAll_cons,
      MemberRecord.tokenLenAll_nil, Nat.add_zero, Nat.add_assoc, Nat.add_comm 1] at htail ⊢
    exact ⟨r.tokenLen, rfl, htail⟩

theorem tiles_trace (pos : Nat) (rs : List MemberRecord) :
    Tiles 0 pos (trace pos rs) (pos + MemberRecord.tokenLenAll rs) := by
  have h := tiles_mapIdx 0 pos rs
  simpa only [trace, Nat.zero_add] using h

end Event

theorem getElem?_entriesFrom (pos : Nat) (rs : List MemberRecord) (j : Nat) :
    (entriesFrom pos rs)[j]? = rs[j]?.map fun r =>
      ⟨r, pos + MemberRecord.tokenLenAll (rs.take j),
        pos + MemberRecord.tokenLenAll (rs.take j) + r.tokenLen⟩ := by
  induction rs generalizing pos j with
  | nil => rfl
  | cons r rs ih =>
    cases j with
    | zero => rfl
    | succ j =>
      rw [entriesFrom, List.getElem?_cons_succ, ih, List.getElem?_cons_succ, List.take_succ_cons,
        MemberRecord.tokenLenAll_cons, Nat.add_assoc]

/-- **A run reports the records that it has read.** -/
theorem Run.events_eq_trace (pos : Nat) (rs : List MemberRecord) (fault? : Option Error)
    (c : Cursor) : (Run.mk (entriesFrom pos rs) fault? c).events = Event.trace pos rs := by
  refine List.ext_getElem? fun j => ?_
  simp only [events, Event.trace, List.getElem?_mapIdx, getElem?_entriesFrom, Option.map_map]
  congr 1
  funext r
  simp only [Function.comp, Nat.add_sub_cancel_left]

/-! ### Records one at a time -/

namespace Decoder

variable {config : DecoderConfig} {c m : Cursor} {rs : List MemberRecord}

/-- Calls for one record each pass the records that lie in front of a decoder. -/
theorem after_replicate_record (hP : ∀ r ∈ rs, config.Accepts r)
    (h : c.Passes (rs.flatMap MemberRecord.layout) m) :
    after config c (List.replicate rs.length .record) = m := by
  induction rs generalizing c with
  | nil =>
    obtain rfl := Cursor.passes_nil.1 h
    rfl
  | cons r rs ih =>
    obtain ⟨hr, hrs⟩ := List.forall_mem_cons.1 hP
    obtain ⟨m₁, h₁, h₂⟩ := Cursor.passes_append.1 h
    have hread := (MemberRecord.reads_read config c r m₁).2 ⟨h₁, hr⟩
    rw [List.length_cons, List.replicate_succ, after, List.foldl_cons, DecoderCall.perform_record,
      hread]
    exact ih hrs h₂

/-- The records in front of a decoder are those that it reads one at a time. -/
theorem answer_perform_record_after (hP : ∀ r ∈ rs, config.Accepts r)
    (h : c.Passes (rs.flatMap MemberRecord.layout) m) {j : Nat} {r : MemberRecord}
    (hj : rs[j]? = some r) :
    (DecoderCall.record.perform config (after config c (List.replicate j .record))).answer =
      .ok (.record r) := by
  obtain ⟨as, bs, rfl, rfl⟩ := Checks.exists_split_of_getElem? hj
  obtain ⟨has, hrbs⟩ := List.forall_mem_append.1 hP
  obtain ⟨hr, -⟩ := List.forall_mem_cons.1 hrbs
  rw [List.flatMap_append] at h
  obtain ⟨m₁, h₁, h₂⟩ := Cursor.passes_append.1 h
  obtain ⟨m₂, h₂, -⟩ := Cursor.passes_append.1 h₂
  have hread := (MemberRecord.reads_read config m₁ r m₂).2 ⟨h₂, hr⟩
  rw [after_replicate_record has h₁, DecoderCall.perform_record, hread]

end Decoder

/-! ### Runs -/

/-- **What a run reports, by how it ends.**  It has passed the records that it reports: as many as
were asked for, up to the end of the stream or not, or those in front of one that fails. -/
theorem DecoderCall.perform_records_trace (config : DecoderConfig) (n : Nat) (c : Cursor) :
    ∃ rs m, (∀ r ∈ rs, config.Accepts r) ∧ c.Passes (rs.flatMap MemberRecord.layout) m ∧
      ((records n).perform config c).events = Event.trace c.pos rs ∧
      (rs.length = n ∧ ((records n).perform config c).answer = .ok (.records rs) ∧
          m.pos = c.len ∨
        rs.length = n ∧
          ((records n).perform config c).answer = .error (.trailingTokens m.pos c.len) ∧
          m.pos < c.len ∨
        rs.length < n ∧ ∃ source,
          ((records n).perform config c).answer = .error (.record rs.length source)) := by
  obtain ⟨rs, m, hP, hm, hrun⟩ := Run.start_cases (MemberRecord.reads_read config) n c
  refine ⟨rs, m, hP, hm, ?_⟩
  rw [perform_records]
  rcases hrun with ⟨hlen, hrun⟩ | ⟨hlen, e, c', he, hrun⟩
  · rw [hrun]
    refine ⟨Run.events_eq_trace .., ?_⟩
    cases hrest : m.trailingFault? with
    | none =>
      have hend : m.rest = [] := Cursor.trailingFault?_eq_none_iff.1 hrest
      refine .inl ⟨hlen, ?_, ?_⟩
      · simp only [Run.result, Run.records, map_record_entriesFrom]
        rfl
      · rw [← hm.len_eq, m.len_eq, hend, List.length_nil, Nat.add_zero]
    | some e =>
      obtain ⟨hlt, rfl⟩ := Cursor.trailingFault?_eq_some_iff.1 hrest
      rw [hm.len_eq] at hlt ⊢
      exact .inr (.inl ⟨hlen, rfl, hlt⟩)
  · rw [hrun, Error.inRecord_of_isCause (MemberRecord.isCause_of_read_eq_error he)]
    exact ⟨Run.events_eq_trace .., .inr (.inr ⟨hlen, e, rfl⟩)⟩

namespace Catalog

variable {I : Type} [DecidableEq I] [MemberId I] {tokens : List Token} {names : List String}
  {c : Catalog I} {e : Error}

/-- A catalog that is built reports its run, and then itself. -/
theorem events_build_of_eq_ok (h : (build I tokens names).result = .ok c) :
    (build I tokens names).events = (decodeRun .strict tokens (count I)).events ++
      [.catalogBuilt (MemberId.typeName I) (count I) tokens.length] := by
  obtain ⟨hdecode, rfl⟩ := result_build_eq_ok_iff.1 h
  have hrun : (decodeRun .strict tokens (count I)).result = .ok c.records.toList := hdecode
  rw [build, dif_pos c.names.length_toList]
  simp only
  split
  · rename_i records hr
    rw [Run.length_of_result_start hr]
  · rename_i e hr
    rw [hrun] at hr
    cases hr

/-- A table that does not decode leaves the events of its run. -/
theorem events_build_of_eq_error (hn : names.length = count I)
    (h : (build I tokens names).result = .error e) :
    (build I tokens names).events = (decodeRun .strict tokens (count I)).events := by
  rw [build, dif_pos hn] at h ⊢
  simp only at h ⊢
  split at h
  · cases h
  · rfl

theorem events_build_of_length_ne (hn : names.length ≠ count I) :
    (build I tokens names).events = [] := by
  rw [build, dif_neg hn]

end Catalog

/-! ### Tilings -/

/-- **The events tile the stream.**  After any calls to a decoder a run reports the records that it
reads, one event for each: the number of the record, the place behind those before it, and its
length.  These stand in one line of the level `trace` for each record.  The spans lie end to end,
from the place of the decoder on, within the stream.  The records are those that calls for one
record each would read.  They are as many as were asked for if the run ends at the end of the
stream, with the records for an answer, or before it, with tokens left over; and else those in front
of the one that fails.

Building a catalog reports nothing without a name for each id, and with one the run over its table.
Behind that stands one line of the level `debug`, with the number of ids and the length of the
table, exactly if the catalog is built. -/
theorem Decoder.perform_tiles (config : DecoderConfig) (tokens : List Token) :
    (∀ calls n,
      let d := (ofTokens tokens).after config calls
      let out := (DecoderCall.records n).perform config d
      ∃ rs : List MemberRecord,
        let stop := d.cursor.pos + MemberRecord.tokenLenAll rs
        out.events = Event.trace d.cursor.pos rs ∧
        out.events.map Event.report = (rs.mapIdx fun j r =>
          let start := d.cursor.pos + MemberRecord.tokenLenAll (rs.take j)
          (.trace, s!"decoded record {j} at token {start} ({r.tokenLen} tokens)")) ∧
        Event.Tiles 0 d.cursor.pos out.events stop ∧ stop ≤ tokens.length ∧
        (∀ j r, rs[j]? = some r →
          (DecoderCall.record.perform config
            (d.after config (List.replicate j .record))).answer = .ok (.record r)) ∧
        (rs.length = n ∧ out.answer = .ok (.records rs) ∧ stop = tokens.length ∨
          rs.length = n ∧ out.answer = .error (.trailingTokens stop tokens.length) ∧
            stop < tokens.length ∨
          rs.length < n ∧ ∃ source, out.answer = .error (.record rs.length source))) ∧
    ∀ (I : Type) [DecidableEq I] [MemberId I] (names : List String),
      let built := Catalog.build I tokens names
      let run := (DecoderCall.records (count I)).perform .strict (ofTokens tokens)
      let idType := MemberId.typeName I
      (names.length ≠ count I → built.events = []) ∧
      (names.length = count I →
        (∀ c, built.result = .ok c →
          built.events = run.events ++ [.catalogBuilt idType (count I) tokens.length] ∧
          built.events.map Event.report = run.events.map Event.report ++ [(.debug,
            s!"decoded {idType} catalog: {count I} members from {tokens.length} tokens")]) ∧
        ∀ e, built.result = .error e → built.events = run.events) := by
  refine ⟨fun calls n => ?_, fun I _ _ names => ?_⟩
  · obtain ⟨c, hafter, hreach⟩ := ofTokens_after config tokens calls
    have hlen : c.len = tokens.length := hreach.len_eq
    obtain ⟨rs, m, hP, hm, hevents, hend⟩ := DecoderCall.perform_records_trace config n c
    have hpos : m.pos = c.pos + MemberRecord.tokenLenAll rs := by
      rw [hm.pos_eq, MemberRecord.length_flatMap_layout]
    have hle : m.pos ≤ c.len := hm.len_eq ▸ m.pos_le_len
    rw [hpos, hlen] at hend hle
    rw [hafter]
    refine ⟨rs, hevents, hevents ▸ Event.map_report_trace c.pos rs,
      hevents ▸ Event.tiles_trace c.pos rs, hle, fun j r hj => ?_, hend⟩
    exact answer_perform_record_after hP hm hj
  · have hrun : ((DecoderCall.records (count I)).perform .strict (ofTokens tokens)).events =
        (decodeRun .strict tokens (count I)).events :=
      congrArg DecoderCall.Outcome.events (DecoderCall.perform_records (count I) (.ofTokens tokens))
    simp only [hrun]
    refine ⟨Catalog.events_build_of_length_ne, fun hn =>
      ⟨fun c hc => ?_, fun e he => Catalog.events_build_of_eq_error hn he⟩⟩
    have hevents := Catalog.events_build_of_eq_ok hc
    refine ⟨hevents, ?_⟩
    rw [hevents, List.map_append, List.map_singleton, Event.report_catalogBuilt]

/-- A field of five tokens and a generic method of sixteen tile a stream; a third record asked for
is not there and not reported.  The catalog of the special members is reported behind its records,
and nothing is under a single name. -/
theorem Decoder.perform_tiles_sampleStream :
    let tokens := MemberRecord.sampleStream
    let run := (DecoderCall.records 3).perform .default (ofTokens tokens)
    let table := Catalog.shippedTokens SpecialMember
    let built := Catalog.build SpecialMember table (Catalog.shippedNames SpecialMember)
    let idType := MemberId.typeName SpecialMember
    let members := count SpecialMember
    (run.answer = .error (.record 2 (.outOfBounds 21 21)) ∧
      run.events = [.recordDecoded 0 0 5, .recordDecoded 1 5 16] ∧
      run.events.map Event.report = [(.trace, "decoded record 0 at token 0 (5 tokens)"),
        (.trace, "decoded record 1 at token 5 (16 tokens)")] ∧
      ∃ rs, run.events = Event.trace 0 rs ∧ rs.length = 2 ∧ rs[0]? = some .staticField) ∧
    (Catalog.build SpecialMember tokens ["Concat"]).events = [] ∧
    ∃ events c, built.result = .ok c ∧
      built.events = events ++ [.catalogBuilt idType members table.length] ∧
      built.events.map Event.report = events.map Event.report ++
        [(.debug, s!"decoded {idType} catalog: {members} members from {table.length} tokens")] := by
  intro tokens run table built idType members
  obtain ⟨hruns, hnames⟩ := perform_tiles .default tokens
  obtain ⟨-, hbuilt⟩ := perform_tiles .default (Catalog.shippedTokens SpecialMember)
  obtain ⟨rs, hevents, -, -, -, hrecords, hend⟩ := hruns [] 3
  have hanswer : run.answer = .error (.record 2 (.outOfBounds 21 21)) :=
    DecoderCall.answer_perform_records .default tokens 3
  have hlen : rs.length = 2 := by
    rcases hend with ⟨-, h, -⟩ | ⟨-, h, -⟩ | ⟨-, source, h⟩
    · exact nomatch hanswer.symm.trans h
    · exact nomatch hanswer.symm.trans h
    · exact (Error.record.inj (Except.error.inj (hanswer.symm.trans h))).1.symm
  have hfirst : rs[0]? = some .staticField := by
    obtain ⟨r, hr⟩ : ∃ r, rs[0]? = some r := ⟨rs[0], List.getElem?_eq_getElem (by omega)⟩
    have hread : (DecoderCall.record.perform .default (ofTokens tokens)).answer =
        .ok (.record .staticField) :=
      congrArg DecoderCall.Outcome.answer (DecoderCall.perform_record (.ofTokens tokens))
    rw [hr, Decoded.record.inj (Except.ok.inj (hread.symm.trans (hrecords 0 r hr)))]
  have hc := Catalog.build_shipped SpecialMember.validate_record
  have hnone := (hnames SpecialMember ["Concat"]).1 (by decide)
  have hlength : (Catalog.shippedNames SpecialMember).length = count SpecialMember :=
    List.length_map MemberId.name
  have hall := ((hbuilt SpecialMember (Catalog.shippedNames SpecialMember)).2 hlength).1 _ hc
  have hrun : run.events = [.recordDecoded 0 0 5, .recordDecoded 1 5 16] :=
    congrArg DecoderCall.Outcome.events (DecoderCall.perform_records 3 (.ofTokens tokens))
  have hreport : run.events.map Event.report =
      [(.trace, "decoded record 0 at token 0 (5 tokens)"),
        (.trace, "decoded record 1 at token 5 (16 tokens)")] := by
    rw [hrun]
    rfl
  exact ⟨⟨hanswer, hrun, hreport, rs, hevents, hlen, hfirst⟩, hnone, _, _, hc, hall⟩

end MemberCatalog
