/-
# Decoding a stream

A stream carries no separators: the only way to find a record is to read the ones before it.
`Run` is what reading a given number of records from a cursor leaves behind: the records read,
each with the span of tokens it took, the fault that ended the run, and the cursor.  A run ends
early at the first record that fails, whose error then names the record, and it is faulty too if
tokens are left behind the last record.

`decodeWith` answers with the records of a run that has no fault; `length_of_decodeWith` says that
these are as many as were asked for.
-/

import MemberCatalog.Decode.Record
import MemberCatalog.Event

namespace MemberCatalog

/-- A record together with the span of tokens it was read from. -/
structure Entry where
  record : MemberRecord
  /-- The first token of the record. -/
  start : Nat
  /-- The first token behind the record. -/
  stop : Nat
  deriving DecidableEq

/-- What reading a number of records from a stream leaves behind. -/
structure Run where
  /-- The records read, in stream order. -/
  entries : List Entry
  /-- What went wrong, if anything did. -/
  fault? : Option Error
  /-- Where reading stopped. -/
  cursor : Cursor
  deriving DecidableEq

namespace Cursor

/-- The fault of a run that has read all its records and stands at the cursor. -/
def trailingFault? (c : Cursor) : Option Error :=
  if c.hasMore then some (.trailingTokens c.pos c.len) else none

end Cursor

namespace Run

/-- Reads `n` more records behind those in `done`, which are held last first.  The next record
has number `index`. -/
def extend (read : Reader MemberRecord) : Nat → Nat → List Entry → Cursor → Run
  | 0, _, done, c => ⟨done.reverse, c.trailingFault?, c⟩
  | n + 1, index, done, c =>
    match read c with
    | .ok record c' => extend read n (index + 1) (⟨record, c.pos, c'.pos⟩ :: done) c'
    | .error e c' => ⟨done.reverse, some (e.inRecord index), c'⟩

/-- Reads `count` records from a cursor. -/
def start (read : Reader MemberRecord) (count : Nat) (c : Cursor) : Run := extend read count 0 [] c

/-- The records read. -/
def records (run : Run) : List MemberRecord := run.entries.map Entry.record

/-- The records of a run without fault. -/
def result (run : Run) : Except Error (List MemberRecord) :=
  match run.fault? with
  | none => .ok run.records
  | some e => .error e

/-- One event for each record read. -/
def events (run : Run) : List Event :=
  run.entries.mapIdx fun index e => .recordDecoded index e.start (e.stop - e.start)

theorem length_entries_extend {read : Reader MemberRecord} {n index : Nat} {done : List Entry}
    {c : Cursor} (h : (extend read n index done c).fault? = none) :
    (extend read n index done c).entries.length = done.length + n := by
  induction n generalizing index done c with
  | zero => simp [extend]
  | succ n ih =>
    unfold extend at h ⊢
    split
    · rename_i record c' hr
      rw [hr] at h
      rw [ih h, List.length_cons]
      omega
    · rename_i e c' hr
      rw [hr] at h
      cases h

/-- The records of a run without fault are as many as were asked for. -/
theorem length_of_result_start {read : Reader MemberRecord} {count : Nat} {c : Cursor}
    {records : List MemberRecord} (h : (start read count c).result = .ok records) :
    records.length = count := by
  unfold result at h
  split at h
  · rename_i hf
    cases h
    rw [Run.records, List.length_map, start, length_entries_extend hf]
    simp
  · cases h

end Run

/-- The run that decodes `count` records from a stream. -/
def decodeRun (config : DecoderConfig) (tokens : List Token) (count : Nat) : Run :=
  .start (MemberRecord.read config) count (.ofTokens tokens)

/-- Decodes exactly `count` records, which take the whole stream. -/
def decodeWith (config : DecoderConfig) (tokens : List Token) (count : Nat) :
    Except Error (List MemberRecord) :=
  (decodeRun config tokens count).result

/-- Decodes exactly `count` records under the default configuration. -/
def decode (tokens : List Token) (count : Nat) : Except Error (List MemberRecord) :=
  decodeWith .default tokens count

/-- **A stream decodes to as many records as were asked for, or not at all.** -/
theorem length_of_decodeWith {config : DecoderConfig} {tokens : List Token} {count : Nat}
    {records : List MemberRecord} (h : decodeWith config tokens count = .ok records) :
    records.length = count :=
  Run.length_of_result_start h

end MemberCatalog
