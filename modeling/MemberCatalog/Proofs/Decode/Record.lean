/-
# Records are read from their layouts

What a reader of signatures succeeds on carries over to shapes (`MemberShape.reads_readWith`) and
records (`MemberRecord.reads_readWith`).  A shape is read by the kind that goes before it, so a
record is read only with a shape that goes with its flags, and beyond that the checks that the
configuration asks for must accept it.  `DecoderConfig.Accepts` lists these conditions.
-/

import MemberCatalog.Decode.Record
import MemberCatalog.Proofs.Decode.TypeSig
import MemberCatalog.Proofs.Member.Validity

namespace MemberCatalog

open Reader

variable {readCount : Reader Nat}

namespace MemberShape

variable {limit : Nat} {kind? : Option MemberKind} {c c' : Cursor} {s : MemberShape}

/-- Behind the kind of a field stands one type. -/
theorem readWith_eq_ok_iff_of_field (hc : ReadsCounts readCount) (hkind : kind? = some .field) :
    readWith readCount limit kind? c = .ok s c' ↔
      ∃ t, s = .field t ∧ c.Passes t.layout c' ∧ t.HasLayout ∧ t.depth ≤ limit := by
  have htype := TypeSig.reads_readWith hc limit limit
  simp only [readWith, if_pos hkind, bind_eq_ok_iff, pure_eq_ok_iff, htype _ _ _]
  constructor
  · rintro ⟨t, _, ⟨hp, hl, hd⟩, rfl, rfl⟩
    exact ⟨t, rfl, hp, hl, hd⟩
  · rintro ⟨t, rfl, hp, hl, hd⟩
    exact ⟨t, c', ⟨hp, hl, hd⟩, rfl, rfl⟩

/-- Behind any other kind stand the number of parameters, the return type and as many parameters. -/
theorem readWith_eq_ok_iff_of_ne_field (hc : ReadsCounts readCount)
    (hkind : kind? ≠ some .field) :
    readWith readCount limit kind? c = .ok s c' ↔
      ∃ t ps, s = .invocable t ps ∧ c.Passes (invocable t ps).layout c' ∧
        (invocable t ps).HasLayout ∧ t.depth ≤ limit ∧ ∀ p ∈ ps, p.depth ≤ limit := by
  have htype := TypeSig.reads_readWith hc limit limit
  simp only [readWith, if_neg hkind, bind_eq_ok_iff, pure_eq_ok_iff, htype _ _ _,
    htype.repeated _ _ _ _, hasLayout_invocable]
  constructor
  · rintro ⟨n, m₁, hn, t, m₂, ⟨ht, hl, hd⟩, ps, _, ⟨hps, rfl, hall⟩, rfl, rfl⟩
    obtain ⟨hlt, h₁⟩ := hc.of_eq_ok hn
    exact ⟨t, ps, rfl, h₁.trans (ht.trans hps), ⟨hlt, hl, fun p hp => (hall p hp).1⟩, hd,
      fun p hp => (hall p hp).2⟩
  · rintro ⟨t, ps, rfl, hp, ⟨hlt, hl, hall⟩, hd, hdepth⟩
    obtain ⟨m₁, h₁, hp⟩ := Cursor.passes_cons.1 hp
    obtain ⟨m₂, ht, hps⟩ := Cursor.passes_append.1 hp
    -- Every parameter takes a token at least, so the count is not larger than what follows it.
    have hle : ps.length ≤ (t.layout ++ ps.flatMap TypeSig.layout).length := by
      have := TypeSig.length_le_length_flatMap_layout ps
      rw [List.length_append]
      omega
    have hn := hc.eq_ok hlt h₁ hp hle
    exact ⟨_, m₁, hn, t, m₂, ⟨ht, hl, hd⟩, ps, c',
      ⟨hps, rfl, fun p hp => ⟨hall p hp, hdepth p hp⟩⟩, rfl, rfl⟩

/-- **A shape is read exactly from its layout**, if it has one, goes with the kind and nests no
deeper than the limit. -/
theorem reads_readWith (hc : ReadsCounts readCount) (limit : Nat) (kind? : Option MemberKind) :
    (readWith readCount limit kind?).Reads layout fun s =>
      s.HasLayout ∧ (s.isField = true ↔ kind? = some .field) ∧ ∀ t ∈ s.types, t.depth ≤ limit := by
  intro c s c'
  by_cases hkind : kind? = some .field
  · rw [readWith_eq_ok_iff_of_field hc hkind]
    constructor
    · rintro ⟨t, rfl, hp, hl, hd⟩
      refine ⟨hp, hasLayout_field.2 hl, ⟨fun _ => hkind, fun _ => rfl⟩, fun u hu => ?_⟩
      exact List.mem_singleton.1 hu ▸ hd
    · rintro ⟨hp, hl, hs, hd⟩
      cases s with
      | field t => exact ⟨t, rfl, hp, hasLayout_field.1 hl, hd t (List.mem_singleton_self t)⟩
      | invocable t ps => exact absurd (hs.2 hkind) (by simp [isField])
  · rw [readWith_eq_ok_iff_of_ne_field hc hkind]
    constructor
    · rintro ⟨t, ps, rfl, hp, hl, hd⟩
      exact ⟨hp, hl, ⟨nofun, fun hk => absurd hk hkind⟩, List.forall_mem_cons.2 hd⟩
    · rintro ⟨hp, hl, hs, hd⟩
      cases s with
      | field t => exact absurd (hs.1 rfl) hkind
      | invocable t ps => exact ⟨t, ps, rfl, hp, hl, List.forall_mem_cons.1 hd⟩

end MemberShape

/-- What a decoder demands of a record beyond its layout: that the layout stands for it, that the
shape goes with the flags and nests within the limit, and that the checks asked for accept it. -/
structure DecoderConfig.Accepts (config : DecoderConfig) (r : MemberRecord) : Prop where
  hasLayout : r.HasLayout
  shapeMatches : r.ShapeMatches
  depth_le : ∀ t ∈ r.types, t.depth ≤ config.maxNestingDepth
  structure_ok : config.recordValidation = true → r.checkStructure = .ok ()
  arity_ok : config.arityValidation = true → r.checkArity = .ok ()

/-- **A record is read exactly from its layout**, if the configuration accepts it. -/
theorem MemberRecord.reads_readWith (hc : ReadsCounts readCount) (config : DecoderConfig) :
    (MemberRecord.readWith readCount config).Reads MemberRecord.layout config.Accepts := by
  intro c r c'
  have hshape := MemberShape.reads_readWith hc config.maxNestingDepth
  simp only [readWith, bind_eq_ok_iff, token_eq_ok_iff, check_eq_ok_iff, pure_eq_ok_iff,
    hshape _ _ _ _]
  constructor
  · rintro ⟨bits, m₁, h₁, _, _, ⟨-, rfl⟩, d, m₂, h₂, arity, m₃, h₃, s, m₄, ⟨hs, hl, hk, hd⟩,
      _, _, ⟨hstruct, rfl⟩, _, _, ⟨harity, rfl⟩, rfl, rfl⟩
    have hp := ((h₁.trans h₂).trans h₃).trans hs
    refine ⟨?_, ⟨TypeId.hasHandle_ofHandle d, hl⟩, hk, hd, fun hw => ?_, fun hw => ?_⟩
    · simpa [layout, TypeId.toToken_ofHandle] using hp
    · exact (hstruct hw).choose_spec
    · exact (harity hw).choose_spec
  · rintro ⟨hp, ⟨hd, hl⟩, hk, hdepth, hstruct, harity⟩
    obtain ⟨m₁, h₁, hp⟩ := Cursor.passes_cons.1 hp
    obtain ⟨m₂, h₂, hp⟩ := Cursor.passes_cons.1 hp
    obtain ⟨m₃, h₃, hs⟩ := Cursor.passes_cons.1 hp
    have hflags (hw : config.recordValidation = true) : ∃ k, r.flags.validKind = .ok k :=
      exists_validKind_of_checkStructure (hstruct hw)
    refine ⟨_, m₁, h₁, (), m₁, ⟨hflags, rfl⟩, _, m₂, h₂, _, m₃, h₃, r.shape, c',
      ⟨hs, hl, hk, hdepth⟩, (), c', ⟨fun hw => ⟨(), ?_⟩, rfl⟩, (), c',
      ⟨fun hw => ⟨(), ?_⟩, rfl⟩, ?_, rfl⟩
    · rw [TypeId.ofHandle_toToken hd]
      exact hstruct hw
    · rw [TypeId.ofHandle_toToken hd]
      exact harity hw
    · rw [TypeId.ofHandle_toToken hd]

theorem MemberRecord.reads_read (config : DecoderConfig) :
    (MemberRecord.read config).Reads MemberRecord.layout config.Accepts :=
  reads_readWith count_readsCounts config

end MemberCatalog
