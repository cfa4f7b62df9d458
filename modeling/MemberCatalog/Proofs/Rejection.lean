/-
# Encoder and decoder reject alike

A record is checked before it is written and checked again while it is read, each time in an order
of its own.  Over records that have a layout and the shape that their flags announce, both accept
the same lists and otherwise stop at the same record (`encode_decode_agree`).

They also name the same fault, with one exception.  Nesting is checked last before a record is
written, but while it is read the limit is met before the record is complete, and only the flags
have been checked by then (`MemberRecord.OutrunsChecks`).
-/

import MemberCatalog.Proofs.Decode.Verdict
import MemberCatalog.Proofs.RoundTrip

namespace MemberCatalog

namespace MemberRecord

variable {r : MemberRecord} {e e' : Error}

/-- A reader meets the nesting limit in the record before any check on it fails: its flags are
accepted, and a type in it nests deeper than valid records may. -/
def OutrunsChecks (r : MemberRecord) : Prop :=
  (∃ k, r.flags.validKind = .ok k) ∧ ∃ t ∈ r.types, 64 < t.depth

/-- The usual verdict accepts exactly the valid records. -/
theorem verdict_default_eq_ok_iff (hl : r.HasLayout) (hs : r.ShapeMatches) :
    DecoderConfig.default.verdict r = .ok () ↔ r.validate = .ok () := by
  rw [DecoderConfig.verdict_eq_ok_iff hl hs]
  constructor
  · intro h
    exact h.validate rfl rfl (Nat.le_refl _)
  · intro h
    exact DecoderConfig.accepts_of_validate h hl (Nat.le_refl _)

/-- The fault that the usual verdict names is the nesting where the limit is met first. -/
theorem verdict_default_of_outrunsChecks (h : r.OutrunsChecks) :
    DecoderConfig.default.verdict r = .error (.recursionLimit 64) :=
  DecoderConfig.verdict_of_lt_depth (fun _ => h.1) h.2

/-- And otherwise it is the one for which the record is not valid. -/
theorem verdict_default_of_not_outrunsChecks (h : ¬ r.OutrunsChecks) (he : r.validate = .error e) :
    DecoderConfig.default.verdict r = .error e := by
  cases hk : r.flags.validKind with
  | error e' =>
    have hvalidate : r.validate = .error e' := by
      rw [validate, checkStructure, hk]
      rfl
    rw [DecoderConfig.verdict_of_validKind_eq_error rfl hk, ← hvalidate, he]
  | ok k =>
    have hd (t) (ht : t ∈ r.types) : t.depth ≤ 64 :=
      Nat.not_lt.1 fun hlt => h ⟨⟨k, hk⟩, t, ht, hlt⟩
    -- Nothing is left for the check on the nesting to refuse.
    rw [validate, checkDepth_eq_ok_iff.2 hd] at he
    rw [DecoderConfig.verdict_of_depth_le hd, ← he]
    simp only [DecoderConfig.default, Checks.demand_true]
    cases r.checkStructure <;> cases r.checkArity <;> rfl

end MemberRecord

variable {rs : List MemberRecord} {i : Nat} {e : Error}

/-- Encoding names the first record that is not valid. -/
theorem encode_eq_error_of_firstFails (hl : ∀ r ∈ rs, r.HasLayout)
    (h : Checks.FirstFails MemberRecord.validate rs i e) : encode rs = .error (.record i e) := by
  obtain ⟨ps, r, qs, rfl, rfl, hps, he⟩ := h.exists_split
  rw [← MemberRecord.inRecord_of_validate he]
  exact encode_eq_error_of_validate (fun p hp => ⟨hps p hp, hl p (List.mem_append_left _ hp)⟩) he

/-- **Encoder and decoder reject the same record for the same reason.**  Records with layouts that
stand for them are encoded in their layouts and decoded from these if all of them are valid, and
otherwise both fail in the first that is not.  The error is the same too, unless the nesting of the
record is met before anything else that is wrong with it. -/
theorem encode_decode_agree (hl : ∀ r ∈ rs, r.HasLayout) (hs : ∀ r ∈ rs, r.ShapeMatches) :
    ((∀ r ∈ rs, r.validate = .ok ()) ∧ encode rs = .ok (rs.flatMap MemberRecord.layout) ∧
      decode (rs.flatMap MemberRecord.layout) rs.length = .ok rs) ∨
    ∃ i r e e', rs[i]? = some r ∧ r.validate = .error e ∧
      (∀ q ∈ rs.take i, q.validate = .ok ()) ∧ encode rs = .error (.record i e) ∧
      decode (rs.flatMap MemberRecord.layout) rs.length = .error (.record i e') ∧
      (r.OutrunsChecks → e' = .recursionLimit 64) ∧ (¬ r.OutrunsChecks → e' = e) := by
  have hverdict (r) (hr : r ∈ rs) :
      DecoderConfig.default.verdict r = .ok () ↔ r.validate = .ok () :=
    MemberRecord.verdict_default_eq_ok_iff (hl r hr) (hs r hr)
  rcases Checks.forall_ok_or_firstFails MemberRecord.validate rs with hv | ⟨i, e, hfirst⟩
  · refine .inl ⟨hv, encode_eq_ok_iff.2 ⟨rfl, fun r hr => ⟨hv r hr, hl r hr⟩⟩, ?_⟩
    exact decodeWith_layouts_eq_ok hl hs fun r hr => (hverdict r hr).2 (hv r hr)
  · have hencode := encode_eq_error_of_firstFails hl hfirst
    obtain ⟨r, hi, he, hbefore⟩ := hfirst
    have hdecode {e'} (he' : DecoderConfig.default.verdict r = .error e') :
        decode (rs.flatMap MemberRecord.layout) rs.length = .error (.record i e') :=
      decodeWith_layouts_eq_error hl hs ⟨r, hi, he',
        fun q hq => (hverdict q (List.mem_of_mem_take hq)).2 (hbefore q hq)⟩
    by_cases h : r.OutrunsChecks
    · have he' := hdecode (MemberRecord.verdict_default_of_outrunsChecks h)
      exact .inr ⟨i, r, e, _, hi, he, hbefore, hencode, he', fun _ => rfl, fun hn => absurd h hn⟩
    · have he' := hdecode (MemberRecord.verdict_default_of_not_outrunsChecks h he)
      exact .inr ⟨i, r, e, e, hi, he, hbefore, hencode, he', fun ho => absurd ho h, fun _ => rfl⟩

/-- A field whose type holds a method parameter inside more arrays than a valid record may hold. -/
def MemberRecord.deepField : MemberRecord where
  flags := ⟨0x0002⟩
  declaringType := .special 20
  arity := 0
  shape := .field (Nat.repeat (.modified .array) 64 (.methodParam 0))

/-- The deep field has two faults, and each side names the one it meets first. -/
theorem encode_decode_agree_deepField :
    ((∀ r ∈ [MemberRecord.staticField, .deepField], r.HasLayout) ∧
      ∀ r ∈ [MemberRecord.staticField, .deepField], r.ShapeMatches) ∧
    encode [.staticField, .deepField] = .error (.record 1 (.genericParamOutOfRange 0 0)) ∧
    decode ([MemberRecord.staticField, .deepField].flatMap MemberRecord.layout) 2 =
      .error (.record 1 (.recursionLimit 64)) := by
  have hl : ∀ r ∈ [MemberRecord.staticField, .deepField], r.HasLayout := by decide
  have hs : ∀ r ∈ [MemberRecord.staticField, .deepField], r.ShapeMatches := by decide
  have hencode : encode [.staticField, .deepField] =
    .error (.record 1 (.genericParamOutOfRange 0 0)) := rfl
  refine ⟨⟨hl, hs⟩, hencode, ?_⟩
  rcases encode_decode_agree hl hs with ⟨-, hok, -⟩ | ⟨i, r, e, e', hi, -, -, he, hdecode, hdeep, -⟩
  · rw [hencode] at hok
    cases hok
  · rw [hencode] at he
    cases he
    obtain rfl : MemberRecord.deepField = r := Option.some.inj hi
    have houtruns : MemberRecord.OutrunsChecks .deepField :=
      ⟨⟨.field, rfl⟩, _, List.mem_singleton_self _, by decide⟩
    rw [hdeep houtruns] at hdecode
    exact hdecode

end MemberCatalog
