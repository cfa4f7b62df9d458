/-
# Round trips between records and tokens

Under every check and the usual nesting limit the decoder accepts a record exactly if the encoder
writes it: the record is valid and has a layout.  What is encoded therefore decodes to the same
records (`decode_encode`), and what is decoded encodes to the same tokens, or to the error of the
first record that only a laxer configuration let pass (`encode_decodeWith`).
-/

import MemberCatalog.Proofs.Decode.Run
import MemberCatalog.Proofs.Encode

namespace MemberCatalog

/-! ### Accepted records and valid records -/

namespace DecoderConfig

variable {config : DecoderConfig} {r : MemberRecord}

/-- A valid record with a layout is accepted, whichever checks are asked for, if the limit does not
fall below the one of valid records. -/
theorem accepts_of_validate (hv : r.validate = .ok ()) (hl : r.HasLayout)
    (hlimit : MemberCatalog.maxNestingDepth ≤ config.maxNestingDepth) : config.Accepts r := by
  obtain ⟨hstruct, harity, hdepth⟩ := MemberRecord.validate_eq_ok_iff.1 hv
  have hdepth := MemberRecord.checkDepth_eq_ok_iff.1 hdepth
  exact ⟨hl, MemberRecord.shapeMatches_of_checkStructure hstruct,
    fun t ht => Nat.le_trans (hdepth t ht) hlimit, fun _ => hstruct, fun _ => harity⟩

/-- A record accepted under every check is valid, if the limit does not rise above the one of valid
records. -/
theorem Accepts.validate (h : config.Accepts r) (hstruct : config.recordValidation = true)
    (harity : config.arityValidation = true)
    (hlimit : config.maxNestingDepth ≤ MemberCatalog.maxNestingDepth) : r.validate = .ok () := by
  have hdepth : r.checkDepth = .ok () :=
    MemberRecord.checkDepth_eq_ok_iff.2 fun t ht => Nat.le_trans (h.depth_le t ht) hlimit
  exact MemberRecord.validate_eq_ok_iff.2 ⟨h.structure_ok hstruct, h.arity_ok harity, hdepth⟩

/-- **Under every check and the usual limit** the valid records with a layout are accepted. -/
theorem accepts_default_iff : default.Accepts r ↔ r.validate = .ok () ∧ r.HasLayout := by
  constructor
  · intro h
    exact ⟨h.validate rfl rfl (Nat.le_refl _), h.hasLayout⟩
  · rintro ⟨hv, hl⟩
    exact accepts_of_validate hv hl (Nat.le_refl _)

end DecoderConfig

/-- **Decoding and encoding are inverse to each other**: a stream decodes to the records that are
encoded in it, and to nothing else. -/
theorem decode_eq_ok_iff {tokens : List Token} {n : Nat} {rs : List MemberRecord} :
    decode tokens n = .ok rs ↔ rs.length = n ∧ encode rs = .ok tokens := by
  rw [decode, decodeWith_eq_ok_iff, encode_eq_ok_iff]
  simp only [DecoderConfig.accepts_default_iff]

/-! ### Round trips -/

variable {config : DecoderConfig} {tokens : List Token} {n : Nat} {rs : List MemberRecord}

/-- **What is encoded decodes to the same records**, and takes as many tokens as they say. -/
theorem decode_encode (h : encode rs = .ok tokens) :
    decode tokens rs.length = .ok rs ∧ tokens.length = MemberRecord.tokenLenAll rs := by
  obtain ⟨rfl, hall⟩ := encode_eq_ok_iff.1 h
  refine ⟨decodeWith_eq_ok_iff.2 ⟨rfl, rfl, fun r hr => ?_⟩, ?_⟩
  · obtain ⟨hv, hl⟩ := hall r hr
    exact DecoderConfig.accepts_of_validate hv hl (Nat.le_refl _)
  · exact MemberRecord.length_flatMap_layout rs

/-- The round trip of a field and a generic method, in 21 tokens. -/
theorem decode_encode_genericMethod :
    encode [.staticField, .genericMethod] = .ok MemberRecord.sampleStream ∧
      decode MemberRecord.sampleStream 2 = .ok [.staticField, .genericMethod] ∧
      MemberRecord.sampleStream.length = 21 := by
  have h : encode [.staticField, .genericMethod] = .ok MemberRecord.sampleStream := rfl
  exact ⟨h, decode_encode h⟩

/-- **What is decoded encodes to the same tokens** if all its records are valid, and otherwise to
the error of the first that is not.  Under every check and a limit that valid records keep too, all
of them are valid. -/
theorem encode_decodeWith (h : decodeWith config tokens n = .ok rs) :
    ((∀ r ∈ rs, r.validate = .ok ()) → encode rs = .ok tokens) ∧
    ((∃ r ∈ rs, r.validate ≠ .ok ()) → ∃ i e,
      Checks.FirstFails MemberRecord.validate rs i e ∧ encode rs = .error (.record i e) ∧
      (∀ number, e ≠ .typeIdOutOfRange number) ∧
      ∀ count counted, e ≠ .invalidRecord (.countTooLarge count counted)) ∧
    (config.recordValidation = true → config.arityValidation = true →
      config.maxNestingDepth ≤ 64 →
      (∀ r ∈ rs, r.validate = .ok ()) ∧ encode rs = .ok tokens) := by
  obtain ⟨-, rfl, hall⟩ := decodeWith_eq_ok_iff.1 h
  have hencode (hv : ∀ r ∈ rs, r.validate = .ok ()) :
      encode rs = .ok (rs.flatMap MemberRecord.layout) :=
    encode_eq_ok_iff.2 ⟨rfl, fun r hr => ⟨hv r hr, (hall r hr).hasLayout⟩⟩
  refine ⟨hencode, ?_, ?_⟩
  · rintro ⟨r, hr, hinvalid⟩
    rcases Checks.forall_ok_or_exists_split MemberRecord.validate rs with
      hv | ⟨ps, q, qs, e, rfl, hps, hq⟩
    · exact absurd (hv r hr) hinvalid
    · refine ⟨ps.length, e, Checks.firstFails_append hps hq, ?_, ?_⟩
      · rw [← MemberRecord.inRecord_of_validate hq]
        refine encode_eq_error_of_validate (fun p hp => ⟨hps p hp, ?_⟩) hq
        exact (hall p (List.mem_append_left _ hp)).hasLayout
      · rcases MemberRecord.validate_error_form hq with ⟨fault, hfault, rfl⟩ | ⟨_, rfl⟩ | rfl
        · refine ⟨nofun, fun count counted heq => ?_⟩
          cases heq
          exact hfault
        · exact ⟨nofun, nofun⟩
        · exact ⟨nofun, nofun⟩
  · intro hstruct harity hlimit
    have hv (r) (hr : r ∈ rs) : r.validate = .ok () := (hall r hr).validate hstruct harity hlimit
    exact ⟨hv, hencode hv⟩

/-- A stream of valid records encodes back under every check.  The second record of the other stream
passes only a decoder without checks, and encoding names it. -/
theorem encode_decodeWith_unknownFlagField :
    (decodeWith .default [0x42, 20, 0, 0x40, 20] 1 = .ok [.staticField] ∧
      encode [.staticField] = .ok [0x42, 20, 0, 0x40, 20]) ∧
    (decodeWith .minimal [0x42, 20, 0, 0x40, 20, 0x102, 0xFFFF, 0, 0x1E, 3] 2 =
        .ok [.staticField, .unknownFlagField] ∧
      ∃ i e, Checks.FirstFails MemberRecord.validate [.staticField, .unknownFlagField] i e ∧
        encode [.staticField, .unknownFlagField] = .error (.record i e)) := by
  have hstrict : decodeWith .default [0x42, 20, 0, 0x40, 20] 1 = .ok [.staticField] := rfl
  have hminimal : decodeWith .minimal [0x42, 20, 0, 0x40, 20, 0x102, 0xFFFF, 0, 0x1E, 3] 2 =
    .ok [.staticField, .unknownFlagField] := rfl
  have hinvalid : MemberRecord.validate .unknownFlagField ≠ .ok () := nofun
  have hmem : .unknownFlagField ∈ [MemberRecord.staticField, .unknownFlagField] :=
    List.mem_cons_of_mem _ (List.mem_singleton_self _)
  obtain ⟨i, e, hfirst, hencode, -⟩ := (encode_decodeWith hminimal).2.1 ⟨_, hmem, hinvalid⟩
  exact ⟨⟨hstrict, ((encode_decodeWith hstrict).2.2 rfl rfl (Nat.le_refl 64)).2⟩, hminimal, i, e,
    hfirst, hencode⟩

end MemberCatalog
