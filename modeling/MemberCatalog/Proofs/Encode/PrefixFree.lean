/-
# Codes without separators

The tokens of a signature, of a record or of a list of records are followed by others in a stream,
and nothing marks where they end.  Nothing has to: no code is the beginning of another one
(`encode_prefixFree`).  For signatures this holds at any depth and wherever the self type stands,
since every signature with a layout is read by some reader, one with a limit that is large enough.
-/

import MemberCatalog.Proofs.Decode.Unique
import MemberCatalog.Proofs.RoundTrip

namespace MemberCatalog

open Reader Writer

/-- What a writer leaves in an empty buffer are the tokens that it writes. -/
theorem Writer.Writes.of_empty {w : Writer Unit} {ts : List Token} {P : Prop} {b : Buffer}
    (hw : w.Writes ts P) (h : w .empty = .ok () b) : b.toList = ts ∧ P :=
  (hw .empty b).1 h

/-- **A stream opens with the layout of one signature at most.** -/
theorem TypeSig.eq_of_layout_append_eq {s t : TypeSig} {x y : List Token} (hs : s.HasLayout)
    (ht : t.HasLayout) (h : s.layout ++ x = t.layout ++ y) : s = t ∧ x = y := by
  have hreads := reads_readWith count_readsCounts (max s.depth t.depth) (max s.depth t.depth)
  have hle : s.depth ≤ max s.depth t.depth := Nat.le_max_left ..
  have hle' : t.depth ≤ max s.depth t.depth := Nat.le_max_right ..
  exact hreads.eq_of_append_eq ⟨hs, hle⟩ ⟨ht, hle'⟩ h

/-- Records whose encoding opens another one are the first of the records encoded there. -/
theorem isPrefix_of_encode {rs qs : List MemberRecord} {ts us : List Token}
    (hr : encode rs = .ok ts) (hq : encode qs = .ok us) (h : ts <+: us) : rs <+: qs := by
  obtain ⟨rfl, hrs⟩ := encode_eq_ok_iff.1 hr
  obtain ⟨rfl, hqs⟩ := encode_eq_ok_iff.1 hq
  have haccepts (r) (hr : r ∈ rs) := DecoderConfig.accepts_default_iff.2 (hrs r hr)
  have haccepts' (q) (hq : q ∈ qs) := DecoderConfig.accepts_default_iff.2 (hqs q hq)
  exact MemberRecord.isPrefix_of_layouts haccepts haccepts' h

/-- **Codes are told apart without separators.**  If what two signatures are encoded as begins the
same stream, then they are the same signature, and the same tokens follow it.  So it is with two
records, and with lists of records: one whose encoding begins the encoding of another is the
beginning of that list, and lists with the same encoding are the same. -/
theorem encode_prefixFree :
    (∀ (s t : TypeSig) (b c : Buffer) (x y : List Token), s.write .empty = .ok () b →
      t.write .empty = .ok () c → b.toList ++ x = c.toList ++ y → s = t ∧ x = y) ∧
    (∀ (r q : MemberRecord) (b c : Buffer) (x y : List Token), r.write .empty = .ok () b →
      q.write .empty = .ok () c → b.toList ++ x = c.toList ++ y → r = q ∧ x = y) ∧
    ∀ (rs qs : List MemberRecord) (ts us : List Token), encode rs = .ok ts → encode qs = .ok us →
      (ts <+: us → rs <+: qs) ∧ (ts = us → rs = qs) := by
  refine ⟨fun s t b c x y hs ht h => ?_, fun r q b c x y hr hq h => ?_, fun rs qs ts us hr hq => ?_⟩
  · obtain ⟨hb, hs⟩ := s.writes_write.of_empty hs
    obtain ⟨hc, ht⟩ := t.writes_write.of_empty ht
    rw [hb, hc] at h
    exact TypeSig.eq_of_layout_append_eq hs ht h
  · obtain ⟨hb, hr⟩ := r.writes_write.of_empty hr
    obtain ⟨hc, hq⟩ := q.writes_write.of_empty hq
    rw [hb, hc] at h
    exact (MemberRecord.reads_read .default).eq_of_append_eq
      (DecoderConfig.accepts_default_iff.2 hr) (DecoderConfig.accepts_default_iff.2 hq) h
  · refine ⟨isPrefix_of_encode hr hq, ?_⟩
    rintro rfl
    have hpre : rs <+: qs := isPrefix_of_encode hr hq List.prefix_rfl
    have hpre' : qs <+: rs := isPrefix_of_encode hq hr List.prefix_rfl
    exact hpre.eq_of_length_le hpre'.length_le

/-- More arrays than a valid record may hold, of a generic instance of the self type. -/
def TypeSig.deepSelfInstance : TypeSig :=
  Nat.repeat (.modified .array) 70 (.inst .self [.direct (.wellKnown 5), .methodParam 1])

/-- The type of no valid record, a field in front of another token, and two streams of records of
which one begins the other. -/
theorem encode_prefixFree_sampleStream :
    (∃ b, TypeSig.deepSelfInstance.write .empty = .ok () b ∧
      b.toList ++ [7] = b.toList ++ [7] ∧
      TypeSig.deepSelfInstance = .deepSelfInstance ∧ [7] = ([7] : List Token)) ∧
    (∃ b, MemberRecord.staticField.write .empty = .ok () b ∧
      b.toList ++ [7] = [0x42, 20, 0, 0x40, 20] ++ [7] ∧
      MemberRecord.staticField = .staticField ∧ [7] = ([7] : List Token)) ∧
    encode [.staticField] = .ok [0x42, 20, 0, 0x40, 20] ∧
    encode [.staticField, .genericMethod] = .ok MemberRecord.sampleStream ∧
    [0x42, 20, 0, 0x40, 20] <+: MemberRecord.sampleStream ∧
    [MemberRecord.staticField] <+: [.staticField, .genericMethod] := by
  obtain ⟨htypes, hrecords, hlists⟩ := encode_prefixFree
  obtain ⟨b, hlayout⟩ := Buffer.exists_toList_eq TypeSig.deepSelfInstance.layout
  have hb : TypeSig.deepSelfInstance.write .empty = .ok () b :=
    (TypeSig.deepSelfInstance.writes_write .empty b).2 ⟨hlayout, by decide⟩
  obtain ⟨c, hc, htokens⟩ : ∃ c, MemberRecord.staticField.write .empty = .ok () c ∧
    c.toList ++ [7] = [0x42, 20, 0, 0x40, 20] ++ [7] := ⟨_, rfl, rfl⟩
  have hone : encode [.staticField] = .ok [0x42, 20, 0, 0x40, 20] := rfl
  have htwo : encode [.staticField, .genericMethod] = .ok MemberRecord.sampleStream := rfl
  have hpre : [0x42, 20, 0, 0x40, 20] <+: MemberRecord.sampleStream := ⟨_, rfl⟩
  exact ⟨⟨b, hb, rfl, htypes _ _ b b [7] [7] hb hb rfl⟩,
    ⟨c, hc, htokens, hrecords _ _ c c [7] [7] hc hc rfl⟩, hone, htwo, hpre,
    (hlists _ _ _ _ hone htwo).1 hpre⟩

end MemberCatalog
