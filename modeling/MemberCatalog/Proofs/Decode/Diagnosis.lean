/-
# What decoding errors say is so

An error of the decoder is meant for whoever repairs the table.  `Diagnosis` lists what each error
claims about the stream, about the configuration, and about the place where reading stopped.

A record fails in its head, in a type behind the head, or in a check (`MemberRecord.Fails`).  What
its error claims is true of the stream that the record stands in
(`MemberRecord.diagnosis_of_read_eq_error`).  From there it carries over to every call on a decoder
that other calls have been made to, and to whole streams, whose errors name a record besides
(`Decoder.diagnosis_of_error`).
-/

import MemberCatalog.Proofs.Decode.Session
import MemberCatalog.Proofs.Text.Wording

namespace MemberCatalog

open Reader

/-- **The error is true of the stream.**  It comes from a record that starts at token `start`, and
reading has stopped at token `stop`.  No diagnosis names a record. -/
inductive Diagnosis (config : DecoderConfig) (tokens : List Token) (start : Nat) :
    Error → Nat → Prop
  /-- A token behind the end of the stream is missing. -/
  | pastEnd {position stop : Nat} (hle : tokens.length ≤ position) :
    Diagnosis config tokens start (.outOfBounds position tokens.length) stop
  /-- The word at the position opens no signature.  It lies behind the flags, the declaring type and
  the arity, and reading stopped behind it. -/
  | unknownTag {tag : Token} {position : Nat} (hstart : start + 3 ≤ position)
    (hword : tokens[position]? = some tag) (htag : ∀ t : Tag, t.token ≠ tag) :
    Diagnosis config tokens start (.unknownTag tag position) (position + 1)
  /-- A generic instance opens at the position, and the word behind it opens no type handle.  The
  message quotes the position and the word, and reading stopped behind that. -/
  | definition {tag : Token} {position : Nat} (hinst : tokens[position]? = some Tag.inst.token)
    (hword : tokens[position + 1]? = some tag) (htag : tag ≠ Tag.typeHandle.token)
    (hquotes : (Malformation.definitionNotHandle position tag).Quotes position tag) :
    Diagnosis config tokens start (.malformed (.definitionNotHandle position tag) none)
      (position + 2)
  /-- The limit is the one of the configuration. -/
  | nesting {stop : Nat} :
    Diagnosis config tokens start (.recursionLimit config.maxNestingDepth) stop
  /-- The structure of records is checked, and this one is unsound. -/
  | unsound {fault : RecordFault} {stop : Nat} (wanted : config.recordValidation = true)
    (hfault : fault.IsStructural) : Diagnosis config tokens start (.invalidRecord fault) stop
  /-- Method parameters are checked, the arity is that of the record, and the index lies beyond. -/
  | arity {index arity : Token} {stop : Nat} (wanted : config.arityValidation = true)
    (harity : tokens[start + 2]? = some arity) (hle : arity ≤ index) :
    Diagnosis config tokens start (.genericParamOutOfRange index arity) stop

/-- The tokens that follow a place in a stream are those of the stream from there on. -/
theorem Cursor.Passes.getElem?_eq {tokens ts : List Token} {c c' : Cursor} (h : c.Passes ts c')
    (hc : (ofTokens tokens).Reaches c) {i : Nat} (hi : i < ts.length) :
    tokens[c.pos + i]? = ts[i]? := by
  have hrest : c.rest = tokens.drop c.pos := hc.rest_eq_drop
  rw [← List.getElem?_drop, ← hrest, h.rest_eq, List.getElem?_append_left hi]

/-! ### One record -/

namespace MemberRecord

/-- **How a record at `c` fails** to be read. -/
inductive Fails (config : DecoderConfig) (c : Cursor) : Error → Cursor → Prop
  /-- The stream ends within the flags, the declaring type and the arity. -/
  | head {c' : Cursor} (h : c.Reaches c') (hrest : c'.rest = []) :
    Fails config c (.outOfBounds c'.pos c'.len) c'
  /-- What stands behind these three words is not read. -/
  | shape {bits declaringType arity : Token} {e : Error} {m c' : Cursor}
    (hm : c.Passes [bits, declaringType, arity] m)
    (h : Failure (· = .recursionLimit config.maxNestingDepth) m e c') : Fails config c e c'
  /-- The check on the flags or on the structure refuses the record. -/
  | unsound {fault : RecordFault} {c' : Cursor} (h : c.Reaches c')
    (wanted : config.recordValidation = true) (hfault : fault.IsStructural) :
    Fails config c (.invalidRecord fault) c'
  /-- The check on the arity refuses the record. -/
  | arity {bits declaringType index arity : Token} {m c' : Cursor}
    (hm : c.Passes [bits, declaringType, arity] m) (h : m.Reaches c')
    (wanted : config.arityValidation = true) (hle : arity ≤ index) :
    Fails config c (.genericParamOutOfRange index arity) c'

variable {config : DecoderConfig} {tokens : List Token} {c c' : Cursor} {e : Error}

/-- A record fails in no other way than those of `Fails`. -/
theorem fails_of_read_eq_error (h : read config c = .error e c') : Fails config c e c' := by
  simp only [read, readWith, bind_eq_error_iff, token_eq_error_iff, token_eq_ok_iff,
    check_eq_error_iff, check_eq_ok_iff, pure_ne_error] at h
  rcases h with ⟨hrest, rfl, rfl⟩ | ⟨bits, m₁, h₁, ⟨⟨wanted, he⟩, rfl⟩ | ⟨_, _, ⟨-, rfl⟩, h⟩⟩
  · exact .head c'.reaches_refl hrest
  · obtain ⟨fault, hfault, rfl⟩ := MemberFlags.validKind_error_form he
    exact .unsound h₁.reaches wanted hfault
  rcases h with ⟨hrest, rfl, rfl⟩ | ⟨d, m₂, h₂, h⟩
  · exact .head h₁.reaches hrest
  rcases h with ⟨hrest, rfl, rfl⟩ | ⟨arity, m₃, h₃, h⟩
  · exact .head (h₁.trans h₂).reaches hrest
  have hm := (h₁.trans h₂).trans h₃
  have hshape := MemberShape.failsOnly_readWith failsOnly_count config.maxNestingDepth
    (MemberFlags.kind? ⟨bits⟩) m₃
  rcases h with hs | ⟨s, m₄, hs, h⟩
  · rw [hs] at hshape
    exact .shape hm hshape
  rw [hs] at hshape
  rcases h with ⟨⟨wanted, he⟩, rfl⟩ | ⟨_, _, ⟨-, rfl⟩, ⟨⟨wanted, he⟩, rfl⟩ | ⟨_, _, -, ⟨⟩⟩⟩
  · obtain ⟨fault, hfault, rfl⟩ := checkStructure_error_form he
    exact .unsound (hm.reaches.trans hshape) wanted hfault
  · obtain ⟨_, -, index, -, hle, rfl⟩ := checkArity_error_form he
    exact .arity hm hshape wanted hle

namespace Fails

theorem reaches (h : Fails config c e c') : c.Reaches c' := by
  cases h with
  | head h _ => exact h
  | shape hm h => exact hm.reaches.trans h.reaches
  | unsound h _ _ => exact h
  | arity hm h _ _ => exact hm.reaches.trans h

/-- **What the error of a record says is so**, of the stream that the record stands in. -/
theorem diagnosis (hc : (Cursor.ofTokens tokens).Reaches c) (h : Fails config c e c') :
    Diagnosis config tokens c.pos e c'.pos := by
  have hlen {m : Cursor} (hm : c.Reaches m) : m.len = tokens.length := (hc.trans hm).len_eq
  cases h with
  | head h hrest =>
    have hend := c'.len_eq
    rw [hrest] at hend
    rw [hlen h] at hend ⊢
    exact .pastEnd (Nat.le_of_eq hend)
  | @shape bits declaringType arity _ m _ hm h =>
    have hpos : m.pos = c.pos + 3 := hm.pos_eq
    cases h with
    | pastEnd h hle =>
      rw [hlen hm.reaches] at hle ⊢
      exact .pastEnd hle
    | @unknownTag word m' _ h hword htag =>
      obtain ⟨ts, hts⟩ := h
      have hstart : c.pos + 3 ≤ m'.pos := by
        have := hts.pos_eq
        omega
      have hword' : tokens[m'.pos]? = some word :=
        hword.getElem?_eq (i := 0) (hc.trans (hm.reaches.trans hts.reaches)) Nat.one_pos
      rw [hword.pos_eq]
      exact .unknownTag hstart hword' (Tag.ofToken?_eq_none_iff.1 htag)
    | @definition word m' _ h hword htag =>
      have hreach := hc.trans (hm.reaches.trans h)
      rw [hword.pos_eq]
      exact .definition (hword.getElem?_eq (i := 0) hreach Nat.two_pos)
        (hword.getElem?_eq (i := 1) hreach Nat.one_lt_two) htag
        (Malformation.quotes_definitionNotHandle m'.pos word)
    | refused h he =>
      rw [he]
      exact .nesting
  | unsound h wanted hfault => exact .unsound wanted hfault
  | arity hm h wanted hle =>
    exact .arity wanted (hm.getElem?_eq (i := 2) hc (Nat.lt_succ_self 2)) hle

end Fails

/-- **A record fails where it stands or further on**, with a diagnosis of it. -/
theorem diagnosis_of_read_eq_error (hc : (Cursor.ofTokens tokens).Reaches c)
    (h : read config c = .error e c') :
    c.pos ≤ c'.pos ∧ c'.pos ≤ tokens.length ∧ Diagnosis config tokens c.pos e c'.pos := by
  have hfails := fails_of_read_eq_error h
  have hlen : c'.len = tokens.length := (hc.trans hfails.reaches).len_eq
  obtain ⟨ts, hts⟩ := hfails.reaches
  exact ⟨hts.pos_eq ▸ Nat.le_add_right _ _, hlen ▸ c'.pos_le_len, hfails.diagnosis hc⟩

end MemberRecord

/-! ### Calls and streams -/

namespace Decoder

/-- **The errors of a decoder are true of its stream.**  A call for a record, made to a decoder
after any other calls, fails only with a diagnosis of the record where it stands, and leaves the
decoder there or further on in the stream.  A whole stream fails to decode only for tokens behind
its records, or in a record that was asked for, under the number of those in front of it and with a
diagnosis of it. -/
theorem diagnosis_of_error (config : DecoderConfig) (tokens : List Token) :
    (∀ calls e,
      let d := (ofTokens tokens).after config calls
      let out := DecoderCall.record.perform config d
      out.answer = .error e →
        d.cursor.pos ≤ out.cursor.pos ∧ out.cursor.pos ≤ tokens.length ∧
        Diagnosis config tokens d.cursor.pos e out.cursor.pos) ∧
    ∀ n e, decodeWith config tokens n = .error e →
      (∃ consumed < tokens.length, e = .trailingTokens consumed tokens.length) ∨
      ∃ index < n, ∃ source, e = .record index source ∧
        let run := decodeRun config tokens n
        run.records.length = index ∧
        Diagnosis config tokens (MemberRecord.tokenLenAll run.records) source run.cursor.pos := by
  refine ⟨fun calls e => ?_, fun n e he => ?_⟩
  · obtain ⟨c, hafter, hreach⟩ := ofTokens_after config tokens calls
    simp only [hafter, DecoderCall.perform_record]
    cases hread : MemberRecord.read config c with
    | ok r c' => exact nofun
    | error e' c' =>
      rintro ⟨⟩
      exact MemberRecord.diagnosis_of_read_eq_error hreach hread
  · obtain ⟨rs, m, -, hm, h⟩ :=
      Run.start_cases (MemberRecord.reads_read config) n (.ofTokens tokens)
    obtain ⟨-, hpos, hlen⟩ := Cursor.ofTokens_passes hm
    rcases h with ⟨rfl, hrun⟩ | ⟨hlt, e', c', hread, hrun⟩
    · left
      rw [decodeWith, decodeRun, hrun] at he
      obtain ⟨hmore, rfl⟩ := Cursor.trailingFault?_eq_some_iff.1 (Run.result_eq_error_iff.1 he)
      rw [hlen] at hmore ⊢
      exact ⟨m.pos, hmore, rfl⟩
    · right
      have hcause := MemberRecord.isCause_of_read_eq_error hread
      rw [Error.inRecord_of_isCause hcause] at hrun
      obtain ⟨-, -, hdiagnosis⟩ := MemberRecord.diagnosis_of_read_eq_error hm.reaches hread
      rw [hpos, MemberRecord.length_flatMap_layout] at hdiagnosis
      rw [decodeWith, decodeRun, hrun] at he
      cases he
      refine ⟨rs.length, hlt, e', rfl, ?_⟩
      simpa only [decodeRun, hrun, Run.records, map_record_entriesFrom, true_and] using hdiagnosis

/-- A first record ends in a word that is no tag.  The second one starts behind that word, and the
definition of a generic instance in it is no type handle. -/
theorem diagnosis_of_error_twoRecords :
    let tokens := [0x41, 20, 0, 0, 0x99, 0x41, 20, 0, 0, 0x15, 0x41, 7]
    let first := DecoderCall.record.perform .default (ofTokens tokens)
    let second := DecoderCall.record.perform .default first.decoder
    first.answer = .error (.unknownTag 0x99 4) ∧
    Diagnosis .default tokens 0 (.unknownTag 0x99 4) 5 ∧
    second.answer = .error (.malformed (.definitionNotHandle 9 0x41) none) ∧
    Diagnosis .default tokens 5 (.malformed (.definitionNotHandle 9 0x41) none) 11 := by
  intro tokens first second
  have hfirst : first.answer = .error (.unknownTag 0x99 4) := rfl
  have hsecond : second.answer = .error (.malformed (.definitionNotHandle 9 0x41) none) := rfl
  have h := (diagnosis_of_error .default tokens).1
  exact ⟨hfirst, (h [] _ hfirst).2.2, hsecond, (h [.record] _ hsecond).2.2⟩

end Decoder

end MemberCatalog
