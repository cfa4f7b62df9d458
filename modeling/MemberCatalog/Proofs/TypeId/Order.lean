/-
# The order of type ids and of their handles

Type ids are ordered by group, then by number (`TypeId.lt_iff_precedes`), and handles are ordered as
numbers.  The two orders agree, since the ranges of the groups follow each other: resolving handles
is strictly increasing (`TypeId.ofHandle_lt_ofHandle_iff`).  So it does not matter whether a list is
sorted before its ids are turned into handles or afterwards (`TypeId.sort_map_ofHandle`).

`TypeId.handle_orderIso` states this of the handles that ids answer with.
-/

import MemberCatalog.Proofs.Checks
import MemberCatalog.Proofs.TypeId.Handle
import Mathlib.Tactic.SplitIfs

namespace MemberCatalog

namespace TypeId

variable {id a b : TypeId} {h k : Token}

/-! ### The order of ids -/

/-- **The order of type ids**: special types come before framework types and these before the self
type, and within a group the smaller number comes first. -/
inductive Precedes : TypeId → TypeId → Prop
  | special {m n : Token} (h : m < n) : Precedes (special m) (special n)
  | specialWellKnown (m n : Token) : Precedes (special m) (wellKnown n)
  | specialSelf (m : Token) : Precedes (special m) self
  | wellKnown {m n : Token} (h : m < n) : Precedes (wellKnown m) (wellKnown n)
  | wellKnownSelf (m : Token) : Precedes (wellKnown m) self

theorem Precedes.lt (h : a.Precedes b) : a < b := by
  show a.rank < b.rank
  cases h with
  | special h => exact UInt16.lt_iff_toNat_lt.1 h
  | specialWellKnown m n => exact Nat.lt_add_right _ m.toNat_lt
  | specialSelf m => exact Nat.lt_add_right _ m.toNat_lt
  | wellKnown h => exact Nat.add_lt_add_left (UInt16.lt_iff_toNat_lt.1 h) _
  | wellKnownSelf m => exact Nat.add_lt_add_left m.toNat_lt _

/-- Of two ids that differ one precedes the other. -/
theorem precedes_trichotomy (a b : TypeId) : a.Precedes b ∨ a = b ∨ b.Precedes a := by
  cases a with
  | special m =>
    cases b with
    | special n => exact (Std.lt_trichotomy m n).imp .special (.imp (congrArg _) .special)
    | wellKnown n => exact .inl (.specialWellKnown m n)
    | self => exact .inl (.specialSelf m)
  | wellKnown m =>
    cases b with
    | special n => exact .inr (.inr (.specialWellKnown n m))
    | wellKnown n => exact (Std.lt_trichotomy m n).imp .wellKnown (.imp (congrArg _) .wellKnown)
    | self => exact .inl (.wellKnownSelf m)
  | self =>
    cases b with
    | special n => exact .inr (.inr (.specialSelf n))
    | wellKnown n => exact .inr (.inr (.wellKnownSelf n))
    | self => exact .inr (.inl rfl)

theorem lt_iff_precedes : a < b ↔ a.Precedes b := by
  refine ⟨fun hlt => ?_, Precedes.lt⟩
  rcases precedes_trichotomy a b with h | rfl | h
  · exact h
  · exact absurd hlt (Nat.lt_irrefl _)
  · exact absurd hlt (Nat.lt_asymm h.lt)

/-! ### The order of handles -/

/-- The place of the id that a handle addresses. -/
theorem rank_ofHandle (h : Token) : (ofHandle h).rank =
    if h.toNat < 0x200 then h.toNat
    else if h.toNat < 0xFFFF then 0x10000 + (h.toNat - 0x200) else 0x20000 := by
  have hword : h.toNat < 0x10000 := h.toNat_lt
  by_cases hself : h = selfHandle
  · subst hself
    rfl
  · have hne : h.toNat ≠ 0xFFFF := fun e => hself (UInt16.toNat_inj.1 e)
    rw [ofHandle, if_neg hself]
    by_cases hbase : wellKnownBase ≤ h
    · have hle : 0x200 ≤ h.toNat := UInt16.le_iff_toNat_le.1 hbase
      rw [if_pos hbase, if_neg (by omega), if_pos (by omega), rank,
        UInt16.toNat_sub_of_le _ _ hbase]
      rfl
    · have hlt : h.toNat < 0x200 := UInt16.lt_iff_toNat_lt.1 (UInt16.not_le.1 hbase)
      rw [if_neg hbase, if_pos hlt, rank]

/-- **Resolving handles is strictly increasing**, across the borders of the ranges as well. -/
theorem ofHandle_lt_ofHandle_iff : ofHandle h < ofHandle k ↔ h < k := by
  have hh : h.toNat < 0x10000 := h.toNat_lt
  have hk : k.toNat < 0x10000 := k.toNat_lt
  show (ofHandle h).rank < (ofHandle k).rank ↔ h < k
  rw [rank_ofHandle, rank_ofHandle, UInt16.lt_iff_toNat_lt]
  split_ifs <;> omega

theorem ofHandle_le_ofHandle_iff : ofHandle h ≤ ofHandle k ↔ h ≤ k := by
  rw [← UInt16.not_lt, ← ofHandle_lt_ofHandle_iff]
  exact Nat.not_lt.symm

/-! ### Lists of ids -/

/-- A list of ids answers with the handles that address its ids, one for each. -/
theorem mapM_handle_eq_ok_iff {ids : List TypeId} {hs : List Token} :
    ids.mapM handle = .ok hs ↔ hs.map ofHandle = ids := by
  induction ids generalizing hs with
  | nil => simp [pure, Except.pure, eq_comm]
  | cons id ids ih =>
    simp only [List.mapM_cons, Checks.bind_eq_ok_iff, ih, handle_eq_ok_iff_ofHandle_eq]
    constructor
    · rintro ⟨h, hid, ks, hids, hhs⟩
      cases hhs
      rw [List.map_cons, hid, hids]
    · intro hmap
      obtain ⟨h, ks, rfl, hid, hids⟩ := List.map_eq_cons_iff.1 hmap
      exact ⟨h, hid, ks, hids, rfl⟩

/-- **Handles may be sorted before they are resolved or afterwards.** -/
theorem sort_map_ofHandle (hs : List Token) :
    sort (hs.map ofHandle) = (hs.mergeSort fun h k => h ≤ k).map ofHandle := by
  refine (List.map_mergeSort fun h _ k _ => ?_).symm
  exact decide_eq_decide.2 ofHandle_le_ofHandle_iff.symm

/-- **Ids and their handles stand in the same order.**  An id answers with a handle exactly if this
handle addresses it, so it fails exactly if no handle does.  Ids are ordered by group and number,
and of two ids with handles the smaller one has the smaller handle.  So sorting ids and taking their
handles gives what taking the handles and sorting these as numbers gives. -/
theorem handle_orderIso :
    (∀ (id : TypeId) (h : Token), id.handle = .ok h ↔ ofHandle h = id) ∧
    (∀ id : TypeId, (∃ e, id.handle = .error e) ↔ ∀ h, ofHandle h ≠ id) ∧
    (∀ a b : TypeId, a < b ↔ a.Precedes b) ∧
    (∀ (a b : TypeId) (h k : Token), a.handle = .ok h → b.handle = .ok k → (a < b ↔ h < k)) ∧
    ∀ ids : List TypeId, (∀ id ∈ ids, ∃ h, id.handle = .ok h) →
      ∃ hs, ids.mapM handle = .ok hs ∧
        (sort ids).mapM handle = .ok (hs.mergeSort fun h k => h ≤ k) := by
  refine ⟨fun id h => handle_eq_ok_iff_ofHandle_eq, fun id => ?_, fun a b => lt_iff_precedes,
    fun a b h k ha hb => ?_, fun ids hids => ?_⟩
  · have hfails : (∃ e, id.handle = .error e) ↔ ∀ h, id.handle ≠ .ok h := by
      cases id.handle <;> simp
    simpa only [ne_eq, handle_eq_ok_iff_ofHandle_eq] using hfails
  · rw [handle_eq_ok_iff_ofHandle_eq] at ha hb
    rw [← ha, ← hb]
    exact ofHandle_lt_ofHandle_iff
  · -- ids that have handles are what these handles address, as a list as well
    have hid (id) (hmem : id ∈ ids) : ofHandle id.toToken = id := by
      obtain ⟨h, hh⟩ := hids id hmem
      exact ofHandle_toToken (handle_eq_ok_iff.1 hh).1
    have hmap : (ids.map toToken).map ofHandle = ids := by
      rw [List.map_map]
      exact (List.map_congr_left hid).trans (List.map_id ids)
    refine ⟨ids.map toToken, mapM_handle_eq_ok_iff.2 hmap, ?_⟩
    rw [mapM_handle_eq_ok_iff, ← sort_map_ofHandle, hmap]

/-- The borders of the ranges, out of order: the last special type beside the first framework type,
and the last framework type beside the self type. -/
theorem handle_orderIso_borders :
    let ids := [self, wellKnown 0, special 20, wellKnown 0xFDFE, special 0x1FF]
    ((special 0x1FF).handle = .ok 0x1FF ∧ (wellKnown 0).handle = .ok 0x200 ∧
      special 0x1FF < wellKnown 0) ∧
    (∀ id ∈ ids, ∃ h, id.handle = .ok h) ∧
    (sort ids).mapM handle = .ok [20, 0x1FF, 0x200, 0xFFFE, 0xFFFF] := by
  intro ids
  obtain ⟨-, -, -, hlt, hsort⟩ := handle_orderIso
  have hids : ∀ id ∈ ids, ∃ h, id.handle = .ok h := by
    simp only [ids, List.forall_mem_cons]
    exact ⟨⟨_, rfl⟩, ⟨_, rfl⟩, ⟨_, rfl⟩, ⟨_, rfl⟩, ⟨_, rfl⟩, nofun⟩
  obtain ⟨hs, hhandles, hsorted⟩ := hsort ids hids
  obtain rfl : [0xFFFF, 0x200, 20, 0xFFFE, 0x1FF] = hs := Except.ok.inj hhandles
  refine ⟨⟨rfl, rfl, (hlt _ _ 0x1FF 0x200 rfl rfl).2 (by decide)⟩, hids, ?_⟩
  rw [hsorted]
  simp [List.mergeSort]

end TypeId

end MemberCatalog
