/-
# Streams one behind the other

Records do not see what lies in front of them.  A run behind records that have been read is the run
that starts at the stream's remainder, with its own entries behind theirs and with every place and
every record number moved by what lies in front (`Run.extend_shift`).

So a stream may be decoded piece by piece.  If its first piece decodes, the whole of it decodes to
the records of both pieces or fails as the second piece fails, and never in a record of the first
(`decodeWith_append`).
-/

import MemberCatalog.Proofs.Decode.Failure
import MemberCatalog.Proofs.Decode.Run
import MemberCatalog.Proofs.Reader.Shift

namespace MemberCatalog

open Reader

variable {k : Nat}

/-! ### Readers behind more tokens -/

theorem TypeSig.shiftsTo_readWith (limit budget : Nat) :
    ShiftsTo k (TypeSig.readWith count limit budget) (TypeSig.readWith count limit budget) := by
  induction budget with
  | zero => exact shiftsTo_throw _
  | succ budget ih =>
    refine shiftsTo_position_bind fun p => shiftsTo_token.bind fun word => ?_
    cases Tag.ofToken? word with
    | none => exact shiftsTo_throw _
    | some tag =>
      cases tag with
      | typeHandle => exact shiftsTo_token.bind fun h => shiftsTo_pure _
      | modifier m => exact ih.bind fun t => shiftsTo_pure _
      | typeParam | methodParam => exact shiftsTo_token.bind fun i => shiftsTo_pure _
      | inst =>
        refine shiftsTo_token.bind fun opening => ?_
        split
        · exact shiftsTo_token.bind fun d => shiftsTo_count.bind fun n =>
            (ih.repeated n).bind fun args => shiftsTo_pure _
        · exact shiftsTo_throw _

theorem MemberShape.shiftsTo_readWith (limit : Nat) (kind? : Option MemberKind) :
    ShiftsTo k (MemberShape.readWith count limit kind?)
      (MemberShape.readWith count limit kind?) := by
  have htype := TypeSig.shiftsTo_readWith (k := k) limit limit
  unfold MemberShape.readWith
  split
  · exact htype.bind fun t => shiftsTo_pure _
  · exact shiftsTo_count.bind fun n => htype.bind fun t =>
      (htype.repeated n).bind fun ps => shiftsTo_pure _

/-- **A record is read alike behind any number of tokens.**  The checks on it name no place. -/
theorem MemberRecord.shiftsTo_read (config : DecoderConfig) :
    ShiftsTo k (MemberRecord.read config) (MemberRecord.read config) := by
  refine shiftsTo_token.bind fun bits => (shiftsTo_check fun e he => ?_).bind fun _ =>
    shiftsTo_token.bind fun d => shiftsTo_token.bind fun arity =>
    (MemberShape.shiftsTo_readWith _ _).bind fun s =>
    (shiftsTo_check fun e he => ?_).bind fun _ => (shiftsTo_check fun e he => ?_).bind fun _ =>
    shiftsTo_pure _
  · obtain ⟨fault, -, rfl⟩ := MemberFlags.validKind_error_form he
    rfl
  · obtain ⟨fault, -, rfl⟩ := checkStructure_error_form he
    rfl
  · obtain ⟨_, -, index, -, -, rfl⟩ := checkArity_error_form he
    rfl

/-! ### Runs behind more tokens and records -/

/-- The entry behind `k` more tokens. -/
def Entry.shift (k : Nat) (e : Entry) : Entry := ⟨e.record, k + e.start, k + e.stop⟩

/-- **The error behind `n` more records that take `k` tokens.**  Its places in the stream are moved
by the tokens, and the number of the record that it names by the records. -/
def Error.behind (n k : Nat) : Error → Error
  | record index source => record (n + index) (source.shift k)
  | e => e.shift k

/-- The run behind the entries `before`, which take `k` tokens. -/
def Run.behind (before : List Entry) (k : Nat) (run : Run) : Run where
  entries := before ++ run.entries.map (Entry.shift k)
  fault? := run.fault?.map (Error.behind before.length k)
  cursor := run.cursor.shift k

theorem Error.inRecord_shift {e : Error} (h : e.IsCause) (n index : Nat) :
    (e.shift k).inRecord (n + index) = (e.inRecord index).behind n k := by
  rw [inRecord_of_isCause h]
  cases e with
  | record => exact h.elim
  | _ => rfl

theorem Cursor.trailingFault?_shift (c : Cursor) (n : Nat) :
    (c.shift k).trailingFault? = c.trailingFault?.map (Error.behind n k) := by
  unfold trailingFault?
  rw [hasMore_shift]
  split <;> rfl

namespace Run

variable {read : Reader MemberRecord}

/-- **A run behind more tokens and records** differs from the run alone in numbers and places
only. -/
theorem extend_shift (hshift : ShiftsTo k read read)
    (hcause : ∀ {c e c'}, read c = .error e c' → e.IsCause) (before : List Entry)
    (n index : Nat) (done : List Entry) (c : Cursor) :
    extend read n (before.length + index) (done.map (Entry.shift k) ++ before.reverse)
      (c.shift k) = (extend read n index done c).behind before k := by
  induction n generalizing index done c with
  | zero =>
    simp only [extend, behind, List.reverse_append, List.reverse_reverse, List.map_reverse,
      Cursor.trailingFault?_shift c before.length]
  | succ n ih =>
    have hc := hshift c
    cases h : read c with
    | ok r c' =>
      rw [h] at hc
      simp only [extend, h, hc, shiftOutcome]
      exact ih (index + 1) (⟨r, c.pos, c'.pos⟩ :: done) c'
    | error e c' =>
      rw [h] at hc
      simp only [extend, h, hc, shiftOutcome, behind, List.reverse_append, List.reverse_reverse,
        List.map_reverse, Error.inRecord_shift (hcause h), Option.map_some]

/-- What a run behind other records answers. -/
theorem result_behind (before : List Entry) (run : Run) :
    (run.behind before k).result = match run.result with
      | .ok rs => .ok (before.map Entry.record ++ rs)
      | .error e => .error (e.behind before.length k) := by
  unfold result behind
  cases run.fault? with
  | none => simp [records, Function.comp_def, Entry.shift]
  | some e => rfl

end Run

/-! ### Decoding one stream behind another -/

variable {config : DecoderConfig} {t₁ : List Token} {i : Nat} {rs₁ : List MemberRecord}

theorem length_entriesFrom (pos : Nat) (rs : List MemberRecord) :
    (entriesFrom pos rs).length = rs.length := by
  rw [← List.length_map Entry.record, map_record_entriesFrom]

/-- The run over two streams in a row goes on behind the records of the first as the run over the
second. -/
theorem decodeRun_append (h : decodeWith config t₁ i = .ok rs₁) (t₂ : List Token) (m : Nat) :
    decodeRun config (t₁ ++ t₂) (i + m) =
      (decodeRun config t₂ m).behind (entriesFrom 0 rs₁) t₁.length := by
  obtain ⟨rfl, rfl, hall⟩ := decodeWith_eq_ok_iff.1 h
  obtain ⟨c, hc, -⟩ := Cursor.exists_passes
    (c := .ofTokens (rs₁.flatMap MemberRecord.layout ++ t₂)) rfl
  have hrun := Run.start_append (MemberRecord.reads_read config) hall hc m
  have hshift := Run.extend_shift (k := (rs₁.flatMap MemberRecord.layout).length)
    (MemberRecord.shiftsTo_read config) MemberRecord.isCause_of_read_eq_error
    (entriesFrom 0 rs₁) m 0 [] (.ofTokens t₂)
  rw [length_entriesFrom] at hshift
  rw [hc.eq_shift] at hrun
  exact hrun.trans hshift

/-- **Two streams in a row decode one after the other.**  If the first decodes, both decode to their
records in a row, or fail as the second alone, with the records and the tokens of the first added to
every number and place in the error. -/
theorem decodeWith_append (h : decodeWith config t₁ i = .ok rs₁) (t₂ : List Token) (m : Nat) :
    (∀ rs₂, decodeWith config t₂ m = .ok rs₂ →
      decodeWith config (t₁ ++ t₂) (i + m) = .ok (rs₁ ++ rs₂)) ∧
    ∀ e, decodeWith config t₂ m = .error e →
      decodeWith config (t₁ ++ t₂) (i + m) = .error (e.behind i t₁.length) := by
  have happend : decodeWith config (t₁ ++ t₂) (i + m) = match decodeWith config t₂ m with
      | .ok rs => .ok (rs₁ ++ rs)
      | .error e => .error (e.behind i t₁.length) := by
    have hrun := congrArg Run.result (decodeRun_append h t₂ m)
    rw [Run.result_behind, map_record_entriesFrom, length_entriesFrom, length_of_decodeWith h]
      at hrun
    exact hrun
  constructor
  · intro rs₂ h₂
    rw [happend, h₂]
  · intro e he
    rw [happend, he]

/-- One record more behind a stream of two, and a record whose type opens with no tag. -/
theorem decodeWith_append_sampleStream :
    decodeWith .default MemberRecord.sampleStream 2 = .ok [.staticField, .genericMethod] ∧
    (decodeWith .default [0x42, 20, 0, 0x40, 20] 1 = .ok [.staticField] ∧
      decodeWith .default (MemberRecord.sampleStream ++ [0x42, 20, 0, 0x40, 20]) (2 + 1) =
        .ok ([.staticField, .genericMethod] ++ [.staticField])) ∧
    decodeWith .default [0x41, 20, 0, 0, 0x99] 1 = .error (.record 0 (.unknownTag 0x99 4)) ∧
    decodeWith .default (MemberRecord.sampleStream ++ [0x41, 20, 0, 0, 0x99]) (2 + 1) =
      .error (.record 2 (.unknownTag 0x99 25)) := by
  have h : decodeWith .default MemberRecord.sampleStream 2 = .ok [.staticField, .genericMethod] :=
    rfl
  have hok : decodeWith .default [0x42, 20, 0, 0x40, 20] 1 = .ok [.staticField] := rfl
  have herror : decodeWith .default [0x41, 20, 0, 0, 0x99] 1 =
    .error (.record 0 (.unknownTag 0x99 4)) := rfl
  exact ⟨h, ⟨hok, (decodeWith_append h _ 1).1 _ hok⟩, herror, (decodeWith_append h _ 1).2 _ herror⟩

end MemberCatalog
