/-
# The nesting limit is a threshold

A decoder counts the types that it has open, and the count says nothing of the types before or
beside the open ones.  So of a record that is accepted within one limit only the depths of its types
matter for another limit: the record is accepted within that one too, or refused for its nesting
(`DecoderConfig.Accepts.verdict_eq_ok_iff_depth_le`,
`DecoderConfig.Accepts.eq_recursionLimit_of_verdict`).

`decodeWith_threshold` says this of whole streams.  If a stream decodes within some limit, then
within any other limit it decodes to the same records or fails in the first of them that nests
deeper.
-/

import MemberCatalog.Proofs.Decode.Decoder
import MemberCatalog.Proofs.Decode.Verdict

namespace MemberCatalog

/-- A decoder that counts open types answers as the readers do that hand down the levels left. -/
theorem Decoder.result_run (config : DecoderConfig) (tokens : List Token) (n : Nat) :
    ((ofTokens tokens).run config n).1.result = decodeWith config tokens n :=
  congrArg (fun out => out.1.result) (run_eq n (.ofTokens tokens))

namespace DecoderConfig

variable {config : DecoderConfig} {r : MemberRecord} {limit : Nat} {e : Error}

/-- A record that is accepted within one limit is accepted within another if it keeps that too. -/
theorem Accepts.verdict_eq_ok_iff_depth_le (h : config.Accepts r) :
    verdict { config with maxNestingDepth := limit } r = .ok () ↔
      ∀ t ∈ r.types, t.depth ≤ limit := by
  rw [verdict_eq_ok_iff h.hasLayout h.shapeMatches]
  constructor
  · intro h'
    exact h'.depth_le
  · intro hd
    exact ⟨h.hasLayout, h.shapeMatches, hd, h.structure_ok, h.arity_ok⟩

/-- And otherwise it is refused for its nesting and nothing else. -/
theorem Accepts.eq_recursionLimit_of_verdict (h : config.Accepts r)
    (he : verdict { config with maxNestingDepth := limit } r = .error e) :
    e = .recursionLimit limit ∧ ∃ t ∈ r.types, limit < t.depth := by
  by_cases hd : ∀ t ∈ r.types, t.depth ≤ limit
  · rw [h.verdict_eq_ok_iff_depth_le.2 hd] at he
    cases he
  · have hdeep : ∃ t ∈ r.types, limit < t.depth := by simpa using hd
    have hflags (hw : config.recordValidation = true) : ∃ k, r.flags.validKind = .ok k := by
      obtain ⟨k, hk, -⟩ := MemberRecord.checkStructure_eq_ok_iff.1 (h.structure_ok hw)
      exact ⟨k, hk⟩
    have hverdict : verdict { config with maxNestingDepth := limit } r =
      .error (.recursionLimit limit) := verdict_of_lt_depth hflags hdeep
    rw [hverdict] at he
    exact ⟨(Except.error.inj he).symm, hdeep⟩

end DecoderConfig

/-- **The nesting limit is a threshold.**  A stream that decodes holds no signature deeper than the
limit.  Within any other limit a decoder that counts open types answers with the same records if
all their types keep that limit, and otherwise with the limit itself, as an error of the first
record that does not keep it; and decoding the stream answers what this decoder answers. -/
theorem decodeWith_threshold {config : DecoderConfig} {tokens : List Token} {n : Nat}
    {rs : List MemberRecord} (h : decodeWith config tokens n = .ok rs) :
    (∀ r ∈ rs, ∀ t ∈ r.types, ∀ s ∈ t.parts, s.depth ≤ config.maxNestingDepth) ∧
    ∀ limit,
      let config' := { config with maxNestingDepth := limit }
      let answer := ((Decoder.ofTokens tokens).run config' n).1.result
      answer = decodeWith config' tokens n ∧
      ((∀ r ∈ rs, ∀ t ∈ r.types, t.depth ≤ limit) → answer = .ok rs) ∧
      ((∃ r ∈ rs, ∃ t ∈ r.types, limit < t.depth) → ∃ i r,
        rs[i]? = some r ∧ (∃ t ∈ r.types, limit < t.depth) ∧
        (∀ q ∈ rs.take i, ∀ t ∈ q.types, t.depth ≤ limit) ∧
        answer = .error (.record i (.recursionLimit limit))) := by
  obtain ⟨rfl, rfl, hall⟩ := decodeWith_eq_ok_iff.1 h
  have hl (r) (hr : r ∈ rs) : r.HasLayout := (hall r hr).hasLayout
  have hs (r) (hr : r ∈ rs) : r.ShapeMatches := (hall r hr).shapeMatches
  refine ⟨fun r hr t ht s hmem => ?_, fun limit => ?_⟩
  · exact Nat.le_trans (TypeSig.depth_le_of_mem_parts hmem) ((hall r hr).depth_le t ht)
  have hrun := Decoder.result_run { config with maxNestingDepth := limit }
    (rs.flatMap MemberRecord.layout) rs.length
  refine ⟨hrun, fun hd => hrun.trans ?_, ?_⟩
  · exact decodeWith_layouts_eq_ok hl hs fun r hr =>
      (hall r hr).verdict_eq_ok_iff_depth_le.2 (hd r hr)
  · rintro ⟨r, hr, t, ht, hlt⟩
    rcases Checks.forall_ok_or_firstFails
      (DecoderConfig.verdict { config with maxNestingDepth := limit }) rs with hok | ⟨i, e, hfirst⟩
    · have hle := (hall r hr).verdict_eq_ok_iff_depth_le.1 (hok r hr) t ht
      omega
    · have hdecode := decodeWith_layouts_eq_error hl hs hfirst
      obtain ⟨q, hi, he, hbefore⟩ := hfirst
      obtain ⟨rfl, hdeep⟩ := (hall q (List.mem_of_getElem? hi)).eq_recursionLimit_of_verdict he
      exact ⟨i, q, hi, hdeep, fun p hp =>
        (hall p (List.mem_of_mem_take hp)).verdict_eq_ok_iff_depth_le.1 (hbefore p hp),
        hrun.trans hdecode⟩

/-- The method of the sample stream takes a by-reference array, which nests three levels deep. -/
theorem decodeWith_threshold_sampleStream :
    let tokens := MemberRecord.sampleStream
    let answer (limit : Nat) := ((Decoder.ofTokens tokens).run
      { DecoderConfig.default with maxNestingDepth := limit } 2).1.result
    decodeWith .default tokens 2 = .ok [.staticField, .genericMethod] ∧
    answer 3 = .ok [.staticField, .genericMethod] ∧
    (∃ t ∈ MemberRecord.genericMethod.types, 2 < t.depth) ∧
    ∃ i, answer 2 = .error (.record i (.recursionLimit 2)) := by
  intro tokens answer
  have h : decodeWith .default tokens 2 = .ok [.staticField, .genericMethod] := rfl
  have hle : ∀ r ∈ [MemberRecord.staticField, .genericMethod], ∀ t ∈ r.types, t.depth ≤ 3 := by
    decide
  have hdeep : ∃ t ∈ MemberRecord.genericMethod.types, 2 < t.depth := by decide
  obtain ⟨-, hlimit⟩ := decodeWith_threshold h
  obtain ⟨i, -, -, -, -, herror⟩ := (hlimit 2).2.2 ⟨.genericMethod, by decide, hdeep⟩
  exact ⟨h, (hlimit 3).2.1 hle, hdeep, i, herror⟩

end MemberCatalog
