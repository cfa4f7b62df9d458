/-
# Catalogs are what their tables say

Building a catalog checks the number of names, decodes the token table under every check, and adds
nothing of its own: it succeeds exactly if there is a name for each id and the table decodes to as
many records as there are ids, and the catalog holds these records and names
(`Catalog.result_build_eq_ok_iff`).  Decoding under every check is the inverse of encoding, so a
table that is accepted can be had back from the records, and each table has records of its own
(`Catalog.build_faithful`).

The catalogs that come with the ids are built from their own tables and names
(`Catalog.build_shipped`).
-/

import MemberCatalog.Catalog.SpecialMember
import MemberCatalog.Catalog.WellKnownMember
import MemberCatalog.Proofs.RoundTrip

namespace MemberCatalog

/-- Every member that a special type declares has a valid record. -/
theorem SpecialMember.validate_record (id : SpecialMember) :
    (MemberId.record id).validate = .ok () ∧ (MemberId.record id).HasLayout := by
  cases id <;> exact ⟨rfl, by decide⟩

/-- Every member of a framework type has a valid record. -/
theorem WellKnownMember.validate_record (id : WellKnownMember) :
    (MemberId.record id).validate = .ok () ∧ (MemberId.record id).HasLayout := by
  cases id <;> exact ⟨rfl, by decide⟩

namespace Catalog

variable {I : Type} [DecidableEq I] [MemberId I] {tokens : List Token} {names : List String}
  {c d : Catalog I} {e : Error}

open Enumeration (count)

/-- A catalog is its records and its names. -/
theorem eq_of_toList_eq (hrecords : c.records.toList = d.records.toList)
    (hnames : c.names.toList = d.names.toList) : c = d := by
  obtain ⟨records, names⟩ := c
  obtain ⟨records', names'⟩ := d
  obtain rfl : records = records' := Vector.toList_inj.1 hrecords
  obtain rfl : names = names' := Vector.toList_inj.1 hnames
  rfl

theorem result_build_of_length_ne (h : names.length ≠ count I) :
    (build I tokens names).result = .error (.countMismatch (count I) names.length) := by
  rw [build, dif_neg h]

/-- With a name for each id it depends on the table alone whether a catalog is built. -/
theorem result_build_of_decode_eq_error (hn : names.length = count I)
    (h : decode tokens (count I) = .error e) : (build I tokens names).result = .error e := by
  have hrun : (decodeRun .strict tokens (count I)).result = .error e := h
  rw [build, dif_pos hn]
  simp only
  split
  · rename_i records hr
    rw [hrun] at hr
    cases hr
  · rename_i e' hr
    rw [hrun] at hr
    cases hr
    rfl

theorem exists_result_build_of_decode_eq_ok {rs : List MemberRecord} (hn : names.length = count I)
    (h : decode tokens (count I) = .ok rs) : ∃ c, (build I tokens names).result = .ok c ∧
      c.records.toList = rs ∧ c.names.toList = names := by
  have hrun : (decodeRun .strict tokens (count I)).result = .ok rs := h
  rw [build, dif_pos hn]
  simp only
  split
  · rename_i records hr
    rw [hrun] at hr
    cases hr
    exact ⟨_, rfl, rfl, rfl⟩
  · rename_i e hr
    rw [hrun] at hr
    cases hr

/-- **Building answers exactly with the records of the table and the names.** -/
theorem result_build_eq_ok_iff :
    (build I tokens names).result = .ok c ↔
      decode tokens (count I) = .ok c.records.toList ∧ c.names.toList = names := by
  have hok {rs} (hn : names.length = count I) (h : decode tokens (count I) = .ok rs) :
      (build I tokens names).result = .ok c ↔ c.records.toList = rs ∧ c.names.toList = names := by
    obtain ⟨d, hd, hrecords, hnames⟩ := exists_result_build_of_decode_eq_ok hn h
    rw [hd, Except.ok.injEq]
    constructor
    · rintro rfl
      exact ⟨hrecords, hnames⟩
    · rintro ⟨hc, hc'⟩
      exact eq_of_toList_eq (hrecords.trans hc.symm) (hnames.trans hc'.symm)
  constructor
  · intro h
    by_cases hn : names.length = count I
    · cases hdecode : decode tokens (count I) with
      | ok rs =>
        obtain ⟨rfl, hnames⟩ := (hok hn hdecode).1 h
        exact ⟨rfl, hnames⟩
      | error e =>
        rw [result_build_of_decode_eq_error hn hdecode] at h
        cases h
    · rw [result_build_of_length_ne hn] at h
      cases h
  · rintro ⟨hdecode, rfl⟩
    have hn : c.names.toList.length = count I := by simp
    exact (hok hn hdecode).2 ⟨rfl, rfl⟩

/-! ### The catalogs that come with the ids -/

/-- The table of valid records decodes to them. -/
theorem decode_shippedTokens
    (h : ∀ id : I, (MemberId.record id).validate = .ok () ∧ (MemberId.record id).HasLayout) :
    decode (shippedTokens I) (count I) = .ok ((Enumeration.all : List I).map MemberId.record) := by
  rw [decode_eq_ok_iff, encode_eq_ok_iff]
  refine ⟨by simp [count], ?_, fun r hr => ?_⟩
  · rw [shippedTokens, List.flatMap_map]
  · obtain ⟨id, -, rfl⟩ := List.mem_map.1 hr
    exact h id

/-- **A catalog of valid records is built from its own table and names.** -/
theorem build_shipped
    (h : ∀ id : I, (MemberId.record id).validate = .ok () ∧ (MemberId.record id).HasLayout) :
    (build I (shippedTokens I) (shippedNames I)).result = .ok shipped :=
  result_build_eq_ok_iff.2 ⟨decode_shippedTokens h, rfl⟩

/-- Neither of the two catalogs can fail to build from its table. -/
theorem build_shipped_members :
    (build SpecialMember (shippedTokens SpecialMember) (shippedNames SpecialMember)).result =
      .ok shipped ∧
    (build WellKnownMember (shippedTokens WellKnownMember) (shippedNames WellKnownMember)).result =
      .ok shipped :=
  ⟨build_shipped SpecialMember.validate_record, build_shipped WellKnownMember.validate_record⟩

/-! ### All or nothing -/

/-- **A catalog is built whole or not at all, and is faithful to its table.**  Without a name for
each id the number of names is refused, whatever the table.  With one for each, building fails
exactly as the table fails to decode, and succeeds if it decodes.  A catalog that is built has a
valid record for each id, and they encode to the table.  So two catalogs over the same ids have the
same records exactly if they were built from the same table, under whichever names. -/
theorem build_faithful (I : Type) [DecidableEq I] [MemberId I] (tokens : List Token)
    (names : List String) :
    (names.length ≠ count I →
      (build I tokens names).result = .error (.countMismatch (count I) names.length)) ∧
    (names.length = count I →
      ((∃ c, (build I tokens names).result = .ok c) ↔ ∃ rs, decode tokens (count I) = .ok rs) ∧
      ∀ e, (build I tokens names).result = .error e ↔ decode tokens (count I) = .error e) ∧
    ∀ c, (build I tokens names).result = .ok c →
      c.records.toList.length = count I ∧ (∀ r ∈ c.records.toList, r.validate = .ok ()) ∧
      encode c.records.toList = .ok tokens ∧
      ∀ tokens' names' c', (build I tokens' names').result = .ok c' →
        (c.records = c'.records ↔ tokens = tokens') := by
  refine ⟨result_build_of_length_ne, fun hn => ?_, fun c hc => ?_⟩
  · cases hdecode : decode tokens (count I) with
    | ok rs =>
      obtain ⟨c, hc, -⟩ := exists_result_build_of_decode_eq_ok hn hdecode
      rw [hc]
      exact ⟨⟨fun _ => ⟨rs, rfl⟩, fun _ => ⟨c, rfl⟩⟩, fun e => ⟨nofun, nofun⟩⟩
    | error e =>
      rw [result_build_of_decode_eq_error hn hdecode]
      refine ⟨⟨?_, ?_⟩, fun e' => by rw [Except.error.injEq, Except.error.injEq]⟩
      · rintro ⟨_, h⟩
        cases h
      · rintro ⟨_, h⟩
        cases h
  · have hdecode := (result_build_eq_ok_iff.1 hc).1
    obtain ⟨hlen, hencode⟩ := decode_eq_ok_iff.1 hdecode
    have hvalid (r) (hr : r ∈ c.records.toList) := ((encode_eq_ok_iff.1 hencode).2 r hr).1
    refine ⟨hlen, hvalid, hencode, fun tokens' names' c' hc' => ?_⟩
    have hdecode' := (result_build_eq_ok_iff.1 hc').1
    have hencode' := (decode_eq_ok_iff.1 hdecode').2
    constructor
    · intro heq
      rw [heq, hencode'] at hencode
      exact (Except.ok.inj hencode).symm
    · rintro rfl
      rw [hdecode] at hdecode'
      exact Vector.toList_inj.1 (Except.ok.inj hdecode')

/-- The table of the special members builds a catalog under the names of its own and under any other
ones, with the same records.  One name alone is refused, whatever the table. -/
theorem build_faithful_specialMember :
    (build SpecialMember [] ["Concat"]).result = .error (.countMismatch 38 1) ∧
    ∃ c c', (build SpecialMember (shippedTokens SpecialMember)
        (shippedNames SpecialMember)).result = .ok c ∧
      (build SpecialMember (shippedTokens SpecialMember) (List.replicate 38 "")).result = .ok c' ∧
      encode c.records.toList = .ok (shippedTokens SpecialMember) ∧ c.records = c'.records := by
  have hdecode : ∃ rs, decode (shippedTokens SpecialMember) (count SpecialMember) = .ok rs :=
    ⟨_, decode_shippedTokens SpecialMember.validate_record⟩
  obtain ⟨-, hbuild, hfaithful⟩ :=
    build_faithful SpecialMember (shippedTokens SpecialMember) (shippedNames SpecialMember)
  obtain ⟨-, hbuild', -⟩ :=
    build_faithful SpecialMember (shippedTokens SpecialMember) (List.replicate 38 "")
  obtain ⟨c, hc⟩ := (hbuild rfl).1.2 hdecode
  obtain ⟨c', hc'⟩ := (hbuild' rfl).1.2 hdecode
  obtain ⟨-, -, hencode, hrecords⟩ := hfaithful c hc
  exact ⟨(build_faithful SpecialMember [] ["Concat"]).1 (by decide), c, c', hc, hc', hencode,
    (hrecords _ _ c' hc').2 rfl⟩

end Catalog

end MemberCatalog
