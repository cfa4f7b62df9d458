/-
# Looking up members

The members of a catalog are the members of its ids, in the order of the ids (`Catalog.members_eq`):
walking the table and looking up each id come to the same.  To find a name is to keep the members
of that name in their order, so the finds of different names have no member in common, and those of
all names together have every member (`Catalog.perm_flatMap_find`).  `Catalog.lookups_agree` says
this of every catalog that is built, whatever its names, with the table it is built from.
-/

import MemberCatalog.Proofs.Catalog.Build
import Mathlib.Data.List.Dedup

namespace MemberCatalog

namespace Enumeration

variable {α : Type} [DecidableEq α] [Enumeration α]

theorem index_getElem_all {n : Nat} (hn : n < count α) : index ((all : List α)[n]) = n :=
  nodup.idxOf_getElem n hn

/-- The values are listed in the order of their positions. -/
theorem pairwise_index_all : (all : List α).Pairwise fun a b => index a < index b := by
  rw [List.pairwise_iff_getElem]
  intro i j hi hj hij
  rw [index_getElem_all hi, index_getElem_all hj]
  exact hij

end Enumeration

open Enumeration (count index)

/-- **The members stand in the order of their ids**, each id at most once. -/
def NamedMember.Ascending {I : Type} [DecidableEq I] [Enumeration I] (ms : List (NamedMember I)) :
    Prop :=
  ms.Pairwise fun m m' => index m.id < index m'.id

theorem NamedMember.Ascending.nodup {I : Type} [DecidableEq I] [Enumeration I]
    {ms : List (NamedMember I)} (h : Ascending ms) : ms.Nodup := by
  refine List.Pairwise.imp ?_ h
  rintro m _ hlt rfl
  exact Nat.lt_irrefl _ hlt

namespace Catalog

variable {I : Type} [DecidableEq I] [MemberId I] {tokens : List Token} {names : List String}
  {c : Catalog I} {id : I} {m : NamedMember I} {s : String}

/-! ### Looking up a position -/

theorem getElem?_names (c : Catalog I) (id : I) :
    c.names.toList[index id]? = some (c.name id) :=
  List.getElem?_eq_some_iff.2 ⟨c.names.length_toList.symm ▸ Enumeration.index_lt id, rfl⟩

theorem getElem?_records (c : Catalog I) (id : I) :
    c.records.toList[index id]? = some (c.get id) :=
  List.getElem?_eq_some_iff.2 ⟨c.records.length_toList.symm ▸ Enumeration.index_lt id, rfl⟩

theorem getByIndex?_eq_getElem? (c : Catalog I) (n : Nat) :
    c.getByIndex? n = c.records.toList[n]? :=
  Vector.getElem?_toList.symm

/-- A position is refused exactly if it lies behind the last member. -/
theorem getByIndex?_eq_none_iff {n : Nat} : c.getByIndex? n = none ↔ c.size ≤ n := by
  rw [getByIndex?_eq_getElem?, List.getElem?_eq_none_iff, Vector.length_toList]
  rfl

/-! ### Walking the table -/

/-- **The members are the members of the ids**, in the order of the ids. -/
theorem members_eq (c : Catalog I) : c.members = (Enumeration.all : List I).map c.member := by
  refine List.ext_getElem ?_ fun n hn hn' => ?_
  · have hnames : c.names.toList.length = count I := c.names.length_toList
    have hrecords : c.records.toList.length = count I := c.records.length_toList
    rw [members, List.length_map, List.length_zip, List.length_zip, hnames, hrecords,
      List.length_map, Nat.min_self, count, Nat.min_self]
  · have hlt : n < (Enumeration.all : List I).length := by simpa using hn'
    have hid : index (Enumeration.all : List I)[n] = n := Enumeration.index_getElem_all hlt
    simp only [members, member, name, get, hid, List.getElem_map, List.getElem_zip,
      NamedMember.mk.injEq, true_and]
    exact ⟨rfl, rfl⟩

theorem map_id_members (c : Catalog I) : c.members.map NamedMember.id = Enumeration.all := by
  rw [members_eq, List.map_map]
  exact List.map_id _

theorem ascending_members (c : Catalog I) : NamedMember.Ascending c.members := by
  rw [NamedMember.Ascending, members_eq, List.pairwise_map]
  exact Enumeration.pairwise_index_all

theorem mem_members_iff : m ∈ c.members ↔ m = c.member m.id := by
  rw [members_eq, List.mem_map]
  constructor
  · rintro ⟨id, -, rfl⟩
    rfl
  · intro h
    exact ⟨m.id, Enumeration.complete m.id, h.symm⟩

theorem member_mem_members (c : Catalog I) (id : I) : c.member id ∈ c.members :=
  mem_members_iff.2 rfl

theorem getElem?_members (c : Catalog I) (id : I) : c.members[index id]? = some (c.member id) := by
  have hid : (Enumeration.all : List I)[index id]? = some id := Enumeration.ofIndex?_index id
  rw [members_eq, List.getElem?_map, hid]
  rfl

/-! ### Finding a name -/

theorem mem_find_iff : m ∈ c.find s ↔ m ∈ c.members ∧ m.name = s := by
  simp [find]

theorem ascending_find (c : Catalog I) (s : String) : NamedMember.Ascending (c.find s) :=
  c.ascending_members.filter _

/-- An id is found under its own name alone. -/
theorem mem_map_id_find_iff : id ∈ (c.find s).map NamedMember.id ↔ s = c.name id := by
  rw [List.mem_map]
  constructor
  · rintro ⟨m, hm, rfl⟩
    obtain ⟨hmem, hname⟩ := mem_find_iff.1 hm
    rw [mem_members_iff.1 hmem] at hname
    exact hname.symm
  · rintro rfl
    exact ⟨c.member id, mem_find_iff.2 ⟨c.member_mem_members id, rfl⟩, rfl⟩

/-- **The finds of the different names divide the members**, if no name is missing and none is
counted twice. -/
theorem perm_flatMap_find {ss : List String} (hss : ss.Nodup) (h : ∀ id, c.name id ∈ ss) :
    (ss.flatMap c.find).Perm c.members := by
  rw [List.perm_ext_iff_of_nodup _ c.ascending_members.nodup]
  · intro m
    simp only [List.mem_flatMap, mem_find_iff]
    constructor
    · rintro ⟨-, -, hm, -⟩
      exact hm
    · intro hm
      refine ⟨m.name, ?_, hm, rfl⟩
      rw [mem_members_iff.1 hm]
      exact h m.id
  · rw [List.nodup_flatMap]
    refine ⟨fun s _ => (c.ascending_find s).nodup, hss.imp fun hne m hm hm' => hne ?_⟩
    rw [← (mem_find_iff.1 hm).2, ← (mem_find_iff.1 hm').2]

/-! ### Catalogs that are built -/

/-- **All ways of looking up a member agree.**  A catalog that is built has as many members as there
are ids, each id once and in the order of the ids.  The member of an id has the name and the decoded
record at the position of the id, and it is what walking the table meets there.  Finding a name
yields the members that are so called, in the order of their ids; so an id is found under its own
name and under no other, and the finds of the different names divide the members.  Only a position
behind the last member has no record. -/
theorem lookups_agree (h : (build I tokens names).result = .ok c) :
    (c.size = count I ∧ c.members.length = count I ∧
      (∀ id : I, (c.members.map NamedMember.id).count id = 1) ∧
      NamedMember.Ascending c.members) ∧
    (∃ records, decode tokens (count I) = .ok records ∧ ∀ id : I,
      names[index id]? = some (c.name id) ∧ records[index id]? = some (c.get id) ∧
      c.member id = ⟨id, c.name id, c.get id⟩ ∧ c.members[index id]? = some (c.member id) ∧
      c.getByIndex? (index id) = some (c.get id)) ∧
    (∀ s m, m ∈ c.find s ↔ m ∈ c.members ∧ m.name = s) ∧
    (∀ s, NamedMember.Ascending (c.find s)) ∧
    (∀ s id, id ∈ (c.find s).map NamedMember.id ↔ s = c.name id) ∧
    (names.dedup.flatMap c.find).Perm c.members ∧
    ∀ n, c.getByIndex? n = none ↔ c.size ≤ n := by
  obtain ⟨hdecode, rfl⟩ := result_build_eq_ok_iff.1 h
  refine ⟨⟨rfl, ?_, fun id => ?_, c.ascending_members⟩,
    ⟨_, hdecode, fun id =>
      ⟨c.getElem?_names id, c.getElem?_records id, rfl, c.getElem?_members id, ?_⟩⟩,
    fun s m => mem_find_iff, c.ascending_find, fun s id => mem_map_id_find_iff, ?_,
    fun n => getByIndex?_eq_none_iff⟩
  · rw [members_eq, List.length_map]
    rfl
  · rw [map_id_members]
    exact List.count_eq_one_of_mem Enumeration.nodup (Enumeration.complete id)
  · rw [getByIndex?_eq_getElem?, c.getElem?_records id]
  · refine perm_flatMap_find (List.nodup_dedup _) fun id => ?_
    exact List.mem_dedup.2 (List.mem_of_getElem? (c.getElem?_names id))

/-- The table of the special members under two names for all of them, one of which is empty. -/
theorem lookups_agree_twoNames :
    let names := List.replicate 20 "" ++ List.replicate 18 "Concat"
    ∃ c, (build SpecialMember (shippedTokens SpecialMember) names).result = .ok c ∧
      c.size = 38 ∧ c.members[6]? = some (c.member .stringEmpty) ∧
      (c.find "" ++ c.find "Concat").Perm c.members ∧ c.getByIndex? 38 = none := by
  intro names
  have hdecode := decode_shippedTokens SpecialMember.validate_record
  have hnames : names.length = count SpecialMember := rfl
  obtain ⟨c, hc, -⟩ := exists_result_build_of_decode_eq_ok hnames hdecode
  obtain ⟨⟨hsize, -⟩, ⟨records, -, hid⟩, -, -, -, hperm, hnone⟩ := lookups_agree hc
  have hdedup : names.dedup = ["", "Concat"] := by decide
  rw [hdedup] at hperm
  refine ⟨c, hc, hsize, (hid .stringEmpty).2.2.2.1, by simpa using hperm, (hnone 38).2 ?_⟩
  exact Nat.le_of_eq hsize

end Catalog

end MemberCatalog
