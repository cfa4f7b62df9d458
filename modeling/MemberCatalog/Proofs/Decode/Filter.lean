/-
# Checks as filters

The checks that a configuration switches on change nothing about how a stream is read.  A stream is
decoded as if there were none of them, and then each record is held against them.  If all records
pass, they are the answer, and otherwise the first that does not pass is reported
(`decodeWith_eq_filter`).
-/

import MemberCatalog.Proofs.Decode.Verdict
import MemberCatalog.Proofs.Member.Sound

namespace MemberCatalog

namespace DecoderConfig

/-- The same limit without any check. -/
def unchecked (config : DecoderConfig) : DecoderConfig :=
  { config with arityValidation := false, recordValidation := false }

/-- What the checks that are switched on demand of a record. -/
structure Demands (config : DecoderConfig) (r : MemberRecord) : Prop where
  isSound : config.recordValidation = true → r.IsSound
  fitsArity : config.arityValidation = true → r.FitsArity

variable {config : DecoderConfig} {r : MemberRecord} {e : Error}

theorem Accepts.unchecked (h : config.Accepts r) : config.unchecked.Accepts r :=
  ⟨h.hasLayout, h.shapeMatches, h.depth_le, nofun, nofun⟩

/-- The verdict accepts the records that the grammar allows exactly if they meet the demands. -/
theorem verdict_eq_ok_iff_demands (h : config.unchecked.Accepts r) :
    config.verdict r = .ok () ↔ config.Demands r := by
  rw [verdict_eq_ok_iff h.hasLayout h.shapeMatches]
  have hsound := MemberRecord.checkStructure_eq_ok_iff_isSound h.shapeMatches
  have harity := MemberRecord.checkArity_eq_ok_iff_fitsArity (r := r)
  constructor
  · intro ha
    exact ⟨fun hw => hsound.1 (ha.structure_ok hw), fun hw => harity.1 (ha.arity_ok hw)⟩
  · rintro ⟨hs, hf⟩
    exact ⟨h.hasLayout, h.shapeMatches, h.depth_le, fun hw => hsound.2 (hs hw),
      fun hw => harity.2 (hf hw)⟩

/-- The error of the verdict is that of the structure, and only else that of the arity. -/
theorem verdict_eq_error_iff (h : config.unchecked.Accepts r) :
    config.verdict r = .error e ↔
      (config.recordValidation = true ∧ r.checkStructure = .error e) ∨
      ((config.recordValidation = true → r.checkStructure = .ok ()) ∧
        config.arityValidation = true ∧ r.checkArity = .error e) := by
  have hd : ∀ t ∈ r.types, t.depth ≤ config.maxNestingDepth := h.depth_le
  rw [verdict_of_depth_le hd, Checks.seq_eq_error_iff, Checks.demand_eq_error_iff,
    Checks.demand_eq_error_iff, Checks.demand_unit_eq_ok_iff]

end DecoderConfig

/-- **The checks are a filter on what is decoded without them.**  If a stream decodes without
checks, then with them it decodes to the same records, or it fails in the first record that a check
refuses: with the error of the structure, if that is checked and refused, and with the error of the
arity else.  A stream that fails without checks fails with them. -/
theorem decodeWith_eq_filter {config : DecoderConfig} {tokens : List Token} {n : Nat} :
    (∀ rs, decodeWith config.unchecked tokens n = .ok rs →
      ((∀ r ∈ rs, config.Demands r) → decodeWith config tokens n = .ok rs) ∧
      (¬ (∀ r ∈ rs, config.Demands r) → ∃ i r e,
        rs[i]? = some r ∧ ¬ config.Demands r ∧ (∀ q ∈ rs.take i, config.Demands q) ∧
        decodeWith config tokens n = .error (.record i e) ∧
        ((config.recordValidation = true ∧ r.checkStructure = .error e) ∨
          ((config.recordValidation = true → r.checkStructure = .ok ()) ∧
            config.arityValidation = true ∧ r.checkArity = .error e)))) ∧
    ∀ e, decodeWith config.unchecked tokens n = .error e →
      ∃ e', decodeWith config tokens n = .error e' := by
  refine ⟨fun rs h => ?_, fun e h => ?_⟩
  · obtain ⟨rfl, rfl, hall⟩ := decodeWith_eq_ok_iff.1 h
    have hl (r) (hr : r ∈ rs) : r.HasLayout := (hall r hr).hasLayout
    have hs (r) (hr : r ∈ rs) : r.ShapeMatches := (hall r hr).shapeMatches
    have hdemands (r) (hr : r ∈ rs) : config.verdict r = .ok () ↔ config.Demands r :=
      DecoderConfig.verdict_eq_ok_iff_demands (hall r hr)
    refine ⟨fun hd => decodeWith_layouts_eq_ok hl hs fun r hr => (hdemands r hr).2 (hd r hr), ?_⟩
    intro hd
    rcases Checks.forall_ok_or_firstFails config.verdict rs with hok | ⟨i, e, hfirst⟩
    · exact absurd (fun r hr => (hdemands r hr).1 (hok r hr)) hd
    · have hdecode := decodeWith_layouts_eq_error hl hs hfirst
      obtain ⟨r, hi, he, hbefore⟩ := hfirst
      have hr : r ∈ rs := List.mem_of_getElem? hi
      refine ⟨i, r, e, hi, fun hr' => ?_, fun q hq => ?_, hdecode, ?_⟩
      · rw [(hdemands r hr).2 hr'] at he
        cases he
      · exact (hdemands q (List.mem_of_mem_take hq)).1 (hbefore q hq)
      · exact (DecoderConfig.verdict_eq_error_iff (hall r hr)).1 he
  · cases hrs : decodeWith config tokens n with
    | error e' => exact ⟨e', rfl⟩
    | ok rs =>
      obtain ⟨hlen, htokens, hall⟩ := decodeWith_eq_ok_iff.1 hrs
      have hok : decodeWith config.unchecked tokens n = .ok rs :=
        decodeWith_eq_ok_iff.2 ⟨hlen, htokens, fun r hr => (hall r hr).unchecked⟩
      rw [hok] at h
      cases h

/-- Without checks two records are decoded, of which the second has an unknown flag bit. -/
theorem decodeWith_eq_filter_unknownFlagField :
    decodeWith (DecoderConfig.default.unchecked)
        [0x42, 20, 0, 0x40, 20, 0x102, 0xFFFF, 0, 0x1E, 3] 2 =
      .ok [.staticField, .unknownFlagField] ∧
    ¬ DecoderConfig.default.Demands .unknownFlagField ∧
    ∃ i e, decodeWith .default [0x42, 20, 0, 0x40, 20, 0x102, 0xFFFF, 0, 0x1E, 3] 2 =
      .error (.record i e) := by
  have hok : decodeWith (DecoderConfig.default.unchecked)
    [0x42, 20, 0, 0x40, 20, 0x102, 0xFFFF, 0, 0x1E, 3] 2 =
      .ok [.staticField, .unknownFlagField] := rfl
  have hfault : ¬ DecoderConfig.default.Demands .unknownFlagField :=
    fun h => absurd (h.isSound rfl).known (by decide)
  obtain ⟨i, r, e, -, -, -, he, -⟩ := (decodeWith_eq_filter.1 _ hok).2 fun h =>
    hfault (h _ (List.mem_cons_of_mem _ (List.mem_singleton_self _)))
  exact ⟨hok, hfault, i, e, he⟩

end MemberCatalog
