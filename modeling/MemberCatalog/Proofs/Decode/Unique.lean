/-
# Streams have one reading

A stream carries no separators and does not say how many records it holds.  It is read in one way
all the same.  What a decoder accepts is also accepted under a larger limit and without checks
(`DecoderConfig.Accepts.of_le`), so the records of two decoders with different configurations are
all read by a third one, and its readings of one stream agree record by record
(`MemberRecord.isPrefix_of_layouts`).

`decodeWith_unique` draws the conclusion: the stream alone determines its records and their number.
-/

import MemberCatalog.Proofs.Decode.Run

namespace MemberCatalog

variable {config config' : DecoderConfig}

/-- What is accepted within a limit is accepted within a larger one without checks. -/
theorem DecoderConfig.Accepts.of_le {r : MemberRecord} {limit : Nat} (h : config.Accepts r)
    (hle : config.maxNestingDepth ≤ limit) :
    Accepts { maxNestingDepth := limit, arityValidation := false, recordValidation := false } r :=
  ⟨h.hasLayout, h.shapeMatches, fun t ht => Nat.le_trans (h.depth_le t ht) hle, nofun, nofun⟩

/-- **Records in a row are told apart by their layouts**, whichever decoders accept them. -/
theorem MemberRecord.isPrefix_of_layouts {rs qs : List MemberRecord}
    (hrs : ∀ r ∈ rs, config.Accepts r) (hqs : ∀ q ∈ qs, config'.Accepts q)
    (h : rs.flatMap layout <+: qs.flatMap layout) : rs <+: qs := by
  have hle := Nat.le_max_left config.maxNestingDepth config'.maxNestingDepth
  have hle' := Nat.le_max_right config.maxNestingDepth config'.maxNestingDepth
  exact (reads_read _).isPrefix_of_flatMap layout_ne_nil
    (fun r hr => (hrs r hr).of_le hle) (fun q hq => (hqs q hq).of_le hle') h

/-- **A stream has one reading.**  Whichever configurations and numbers of records it decodes under,
it decodes to the same records, and so to the same number of them. -/
theorem decodeWith_unique {tokens : List Token} {n m : Nat} {rs qs : List MemberRecord}
    (h : decodeWith config tokens n = .ok rs) (h' : decodeWith config' tokens m = .ok qs) :
    n = m ∧ rs = qs := by
  obtain ⟨rfl, rfl, hrs⟩ := decodeWith_eq_ok_iff.1 h
  obtain ⟨rfl, heq, hqs⟩ := decodeWith_eq_ok_iff.1 h'
  have hpre : rs <+: qs := MemberRecord.isPrefix_of_layouts hrs hqs (heq ▸ List.prefix_rfl)
  have hpre' : qs <+: rs := MemberRecord.isPrefix_of_layouts hqs hrs (heq ▸ List.prefix_rfl)
  have hrecords : rs = qs := hpre.eq_of_length_le hpre'.length_le
  exact ⟨congrArg List.length hrecords, hrecords⟩

/-- A field and a generic method under every check, and without checks within a limit of three. -/
theorem decodeWith_unique_sampleStream :
    decodeWith .default MemberRecord.sampleStream 2 = .ok [.staticField, .genericMethod] ∧
    decodeWith { maxNestingDepth := 3, arityValidation := false, recordValidation := false }
      MemberRecord.sampleStream 2 = .ok [.staticField, .genericMethod] ∧
    2 = 2 ∧ [MemberRecord.staticField, .genericMethod] = [.staticField, .genericMethod] := by
  have h : decodeWith .default MemberRecord.sampleStream 2 = .ok [.staticField, .genericMethod] :=
    rfl
  have h' : decodeWith { maxNestingDepth := 3, arityValidation := false, recordValidation := false }
    MemberRecord.sampleStream 2 = .ok [.staticField, .genericMethod] := rfl
  exact ⟨h, h', decodeWith_unique h h'⟩

end MemberCatalog
