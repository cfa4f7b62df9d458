/-
# Signatures are read from their layouts

The tag of a signature decides what is read behind it, its operands.  `readOperands` is that second
half of the reader.  What it yields opens with the tag (`passes_operands_of_readOperands`), and the
operands of every signature are read behind its tag (`readOperands_eq_ok`).  From these follows, by
induction on the levels of nesting left, what the whole reader succeeds on: the layouts of the
signatures that have one and nest no deeper than that (`reads_readWith`).

Counts may be read in any way that accepts a count where as many tokens follow: each argument
takes a token at least, so a count in front of that many arguments is never refused.
-/

import MemberCatalog.Decode.TypeSig
import MemberCatalog.Proofs.Member.Layout
import MemberCatalog.Proofs.Reader.Success
import MemberCatalog.Proofs.TypeId.Handle

namespace MemberCatalog

namespace TypeSig

open Reader

/-! ### Tags and operands -/

/-- The tokens of a signature behind its tag. -/
def operands (t : TypeSig) : List Token := t.layout.tail

theorem layout_eq_cons (t : TypeSig) : t.layout = t.tag.token :: t.operands := by
  cases t <;> simp [operands, tag]

/-- Reads what a tag at `position` announces, with `budget` levels of nesting left for it. -/
def readOperands (readCount : Reader Nat) (limit budget position : Nat) : Tag → Reader TypeSig
  | .typeHandle => return .direct (.ofHandle (← token))
  | .modifier m => return .modified m (← readWith readCount limit budget)
  | .typeParam => return .typeParam (← token)
  | .methodParam => return .methodParam (← token)
  | .inst => do
    let opening ← token
    if opening = Tag.typeHandle.token then
      let definition ← token
      let n ← readCount
      let args ← repeated n (readWith readCount limit budget)
      return .inst (.ofHandle definition) args
    else throw (.malformed (.definitionNotHandle position opening) none)

variable {readCount : Reader Nat} {limit budget position : Nat} {c c' m : Cursor} {t : TypeSig}

/-- A signature is read by its tag and then its operands. -/
theorem readWith_succ_eq_ok_iff :
    readWith readCount limit (budget + 1) c = .ok t c' ↔
      ∃ tag m, c.Passes [Tag.token tag] m ∧
        readOperands readCount limit budget c.pos tag m = .ok t c' := by
  simp only [readWith, bind_eq_ok_iff, position_eq_ok_iff, token_eq_ok_iff]
  constructor
  · rintro ⟨_, _, ⟨rfl, rfl⟩, w, m, hw, h⟩
    cases htag : Tag.ofToken? w with
    | none =>
      rw [htag] at h
      exact absurd h throw_ne_ok
    | some tag =>
      obtain rfl := Tag.ofToken?_eq_some_iff.1 htag
      refine ⟨tag, m, hw, ?_⟩
      rw [htag] at h
      cases tag <;> exact h
  · rintro ⟨tag, m, hm, h⟩
    refine ⟨c.pos, c, ⟨rfl, rfl⟩, tag.token, m, hm, ?_⟩
    rw [Tag.ofToken?_token]
    cases tag <;> exact h

/-- Behind a tag its operands are read. -/
theorem readWith_succ_of_passes {tag : Tag} (h : c.Passes [tag.token] m) :
    readWith readCount limit (budget + 1) c = readOperands readCount limit budget c.pos tag m := by
  have hposition : position c = .ok c.pos c := position_eq_ok_iff.2 ⟨rfl, rfl⟩
  rw [readWith, bind_of_eq_ok hposition, bind_of_eq_ok (token_eq_ok_iff.2 h)]
  simp only [Tag.ofToken?_token]
  cases tag <;> rfl

/-- What is read behind a tag opens with that tag, provided that what the tag announces is read from
layouts. -/
theorem passes_operands_of_readOperands (hc : ReadsCounts readCount) {tag : Tag}
    (hread : (readWith readCount limit budget).Reads layout fun t =>
      t.HasLayout ∧ t.depth ≤ budget)
    (h : readOperands readCount limit budget position tag m = .ok t c') :
    tag = t.tag ∧ m.Passes t.operands c' ∧ t.HasLayout ∧ t.depth ≤ budget + 1 := by
  cases tag with
  | typeHandle =>
    simp only [readOperands, bind_eq_ok_iff, token_eq_ok_iff, pure_eq_ok_iff] at h
    obtain ⟨h, _, hp, rfl, rfl⟩ := h
    refine ⟨rfl, ?_, hasLayout_direct.2 (TypeId.hasHandle_ofHandle h), Nat.succ_pos _⟩
    simpa [operands, TypeId.toToken_ofHandle] using hp
  | modifier k =>
    simp only [readOperands, bind_eq_ok_iff, pure_eq_ok_iff, hread _ _ _] at h
    obtain ⟨inner, _, ⟨hp, hl, hd⟩, rfl, rfl⟩ := h
    exact ⟨rfl, hp, hasLayout_modified.2 hl, Nat.succ_le_succ hd⟩
  | typeParam =>
    simp only [readOperands, bind_eq_ok_iff, token_eq_ok_iff, pure_eq_ok_iff] at h
    obtain ⟨i, _, hp, rfl, rfl⟩ := h
    exact ⟨rfl, hp, hasLayout_typeParam, Nat.succ_pos _⟩
  | methodParam =>
    simp only [readOperands, bind_eq_ok_iff, token_eq_ok_iff, pure_eq_ok_iff] at h
    obtain ⟨i, _, hp, rfl, rfl⟩ := h
    exact ⟨rfl, hp, hasLayout_methodParam, Nat.succ_pos _⟩
  | inst =>
    simp only [readOperands, bind_eq_ok_iff, token_eq_ok_iff] at h
    obtain ⟨opening, m₁, h₁, h⟩ := h
    split at h
    · rename_i hopening
      subst hopening
      simp only [bind_eq_ok_iff, token_eq_ok_iff, pure_eq_ok_iff, hread.repeated _ _ _ _] at h
      obtain ⟨d, m₂, h₂, n, m₃, hn, args, _, ⟨hargs, rfl, hall⟩, rfl, rfl⟩ := h
      obtain ⟨hlt, h₃⟩ := hc.of_eq_ok hn
      have hl (a) (ha : a ∈ args) : a.HasLayout := (hall a ha).1
      have hd (a) (ha : a ∈ args) : a.depth ≤ budget := (hall a ha).2
      have hp := ((h₁.trans h₂).trans h₃).trans hargs
      refine ⟨rfl, ?_, hasLayout_inst.2 ⟨TypeId.hasHandle_ofHandle d, hlt, hl⟩,
        depth_inst_le_iff.2 hd⟩
      simpa [operands, TypeId.toToken_ofHandle] using hp
    · exact absurd h throw_ne_ok

/-- The operands of a signature are read behind its tag, provided that what the tag announces is
read from layouts. -/
theorem readOperands_eq_ok (hc : ReadsCounts readCount)
    (hread : (readWith readCount limit budget).Reads layout fun t =>
      t.HasLayout ∧ t.depth ≤ budget)
    (hp : m.Passes t.operands c') (hl : t.HasLayout) (hd : t.depth ≤ budget + 1) :
    readOperands readCount limit budget position t.tag m = .ok t c' := by
  cases t with
  | direct id =>
    simp only [tag, readOperands, bind_eq_ok_iff, token_eq_ok_iff, pure_eq_ok_iff]
    refine ⟨id.toToken, c', hp, ?_, rfl⟩
    rw [TypeId.ofHandle_toToken (hasLayout_direct.1 hl)]
  | modified k inner =>
    simp only [tag, readOperands, bind_eq_ok_iff, pure_eq_ok_iff, hread _ _ _]
    exact ⟨inner, c', ⟨hp, hasLayout_modified.1 hl, Nat.le_of_succ_le_succ hd⟩, rfl, rfl⟩
  | typeParam i | methodParam i =>
    simp only [tag, readOperands, bind_eq_ok_iff, token_eq_ok_iff, pure_eq_ok_iff]
    exact ⟨i, c', hp, rfl, rfl⟩
  | inst d args =>
    obtain ⟨hhandle, hlt, hargs⟩ := hasLayout_inst.1 hl
    have hdepth := depth_inst_le_iff.1 hd
    rw [operands, layout_inst, List.tail_cons] at hp
    obtain ⟨m₁, h₁, hp⟩ := Cursor.passes_cons.1 hp
    obtain ⟨m₂, h₂, hp⟩ := Cursor.passes_cons.1 hp
    obtain ⟨m₃, h₃, hp⟩ := Cursor.passes_cons.1 hp
    -- The count is accepted because each argument takes a token at least.
    have hn := hc.eq_ok hlt h₃ hp (length_le_length_flatMap_layout args)
    have hall (a) (ha : a ∈ args) : a.HasLayout ∧ a.depth ≤ budget := ⟨hargs a ha, hdepth a ha⟩
    simp only [tag, readOperands, bind_eq_ok_iff, token_eq_ok_iff]
    refine ⟨_, m₁, h₁, ?_⟩
    rw [if_pos rfl]
    simp only [bind_eq_ok_iff, token_eq_ok_iff, pure_eq_ok_iff, hread.repeated _ _ _ _]
    refine ⟨_, m₂, h₂, _, m₃, hn, args, c', ⟨hp, rfl, hall⟩, ?_, rfl⟩
    rw [TypeId.ofHandle_toToken hhandle]

/-- **A signature is read exactly from its layout**, if it has one and nests no deeper than the
levels left. -/
theorem reads_readWith (hc : ReadsCounts readCount) (limit budget : Nat) :
    (readWith readCount limit budget).Reads layout fun t => t.HasLayout ∧ t.depth ≤ budget := by
  intro c t c'
  induction budget generalizing c t c' with
  | zero =>
    refine ⟨fun h => absurd h throw_ne_ok, fun ⟨_, _, h⟩ => ?_⟩
    exact absurd t.depth_pos (Nat.not_lt.2 h)
  | succ budget ih =>
    rw [readWith_succ_eq_ok_iff, layout_eq_cons, Cursor.passes_cons]
    constructor
    · rintro ⟨tag, m, hm, h⟩
      obtain ⟨rfl, hp, hl⟩ := passes_operands_of_readOperands hc ih h
      exact ⟨⟨m, hm, hp⟩, hl⟩
    · rintro ⟨⟨m, hm, hp⟩, hl, hd⟩
      exact ⟨t.tag, m, hm, readOperands_eq_ok hc ih hp hl hd⟩

end TypeSig

end MemberCatalog
