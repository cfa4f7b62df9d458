/-
# The parts of a signature

`TypeSig.parts` lists a signature and every signature inside it, each before the ones it is made
of.  A property of a signature "at any depth" is a property of all its parts.

`TypeSig.HasLayout` is one of these: each type id has a handle and each number of type arguments
fits into a token.  The layout of a signature then stands for it.  The nesting limits bound the
depth of a signature through the depths of its arguments (`depth_inst_le_iff`), and with it the
level on which any of its parts stands (`depth_le_iff_forall_levelAt`).
-/

import MemberCatalog.TypeSig.Basic

namespace MemberCatalog

namespace TypeSig

mutual

/-- The signature itself and every signature inside it, in pre-order. -/
def parts : TypeSig → List TypeSig
  | .direct id => [.direct id]
  | .modified m inner => .modified m inner :: parts inner
  | .typeParam i => [.typeParam i]
  | .methodParam i => [.methodParam i]
  | .inst d args => .inst d args :: partsAll args

/-- The parts of each signature of a list, one list after the other. -/
def partsAll : List TypeSig → List TypeSig
  | [] => []
  | a :: as => parts a ++ partsAll as

end

theorem partsAll_eq_flatMap (args : List TypeSig) : partsAll args = args.flatMap parts := by
  induction args with
  | nil => rfl
  | cons a as ih => rw [partsAll, ih, List.flatMap_cons]

/-- A part of an argument is a part of the generic instance. -/
theorem mem_parts_inst {d : TypeId} {args : List TypeSig} {a s : TypeSig} (ha : a ∈ args)
    (hs : s ∈ a.parts) : s ∈ (inst d args).parts := by
  rw [parts, partsAll_eq_flatMap]
  exact List.mem_cons_of_mem _ (List.mem_flatMap.2 ⟨a, ha, hs⟩)

theorem forall_parts_inst {p : TypeSig → Prop} {d : TypeId} {args : List TypeSig} :
    (∀ s ∈ (inst d args).parts, p s) ↔ p (.inst d args) ∧ ∀ a ∈ args, ∀ s ∈ a.parts, p s := by
  rw [parts, List.forall_mem_cons, partsAll_eq_flatMap]
  simp only [List.mem_flatMap]
  constructor
  · rintro ⟨h, hargs⟩
    exact ⟨h, fun a ha s hs => hargs s ⟨a, ha, hs⟩⟩
  · rintro ⟨h, hargs⟩
    exact ⟨h, fun s ⟨a, ha, hs⟩ => hargs a ha s hs⟩

/-! ### Signatures with a layout -/

/-- The id and the number of arguments at the head of a signature have tokens to stand for
them. -/
def HeadFits : TypeSig → Prop
  | direct id => id.HasHandle
  | inst d args => d.HasHandle ∧ args.length < UInt16.size
  | _ => True

instance : (t : TypeSig) → Decidable t.HeadFits
  | direct id => inferInstanceAs (Decidable id.HasHandle)
  | inst d args => inferInstanceAs (Decidable (d.HasHandle ∧ args.length < UInt16.size))
  | modified _ _ | typeParam _ | methodParam _ => inferInstanceAs (Decidable True)

/-- **The layout of the signature stands for it**: at any depth, every type id has a handle and
every number of type arguments fits into a token. -/
def HasLayout (t : TypeSig) : Prop := ∀ s ∈ t.parts, s.HeadFits

instance (t : TypeSig) : Decidable t.HasLayout :=
  inferInstanceAs (Decidable (∀ s ∈ t.parts, s.HeadFits))

@[simp]
theorem hasLayout_direct {id : TypeId} : (direct id).HasLayout ↔ id.HasHandle := by
  simp [HasLayout, parts, HeadFits]

@[simp]
theorem hasLayout_modified {m : Modifier} {t : TypeSig} :
    (modified m t).HasLayout ↔ t.HasLayout := by
  simp [HasLayout, parts, HeadFits]

@[simp]
theorem hasLayout_typeParam {i : Token} : (typeParam i).HasLayout := by
  simp [HasLayout, parts, HeadFits]

@[simp]
theorem hasLayout_methodParam {i : Token} : (methodParam i).HasLayout := by
  simp [HasLayout, parts, HeadFits]

@[simp]
theorem hasLayout_inst {d : TypeId} {args : List TypeSig} :
    (inst d args).HasLayout ↔
      d.HasHandle ∧ args.length < UInt16.size ∧ ∀ a ∈ args, a.HasLayout := by
  rw [HasLayout, forall_parts_inst, HeadFits, and_assoc]
  rfl

/-! ### Depth -/

theorem depth_pos (t : TypeSig) : 0 < t.depth := by
  cases t <;> simp

theorem foldl_max_le_iff {ns : List Nat} {m n : Nat} :
    ns.foldl max m ≤ n ↔ m ≤ n ∧ ∀ k ∈ ns, k ≤ n := by
  induction ns generalizing m with
  | nil => simp
  | cons k ns ih => rw [List.foldl_cons, ih, List.forall_mem_cons, Nat.max_le, and_assoc]

/-- A generic instance nests one level deeper than its deepest argument. -/
theorem depth_inst_le_iff {d : TypeId} {args : List TypeSig} {n : Nat} :
    (inst d args).depth ≤ n + 1 ↔ ∀ a ∈ args, a.depth ≤ n := by
  rw [depth_inst, Nat.add_le_add_iff_right, foldl_max_le_iff]
  simp

/-- An argument nests less deep than the generic instance that it belongs to. -/
theorem depth_lt_of_mem_args {d : TypeId} {args : List TypeSig} {a : TypeSig} (ha : a ∈ args) :
    a.depth < (inst d args).depth := by
  have hle : (inst d args).depth ≤ (args.map depth).foldl max 0 + 1 :=
    Nat.le_of_eq (depth_inst d args)
  have harg := depth_inst_le_iff.1 hle a ha
  rw [depth_inst]
  omega

/-- **No part nests deeper than the whole.** -/
theorem depth_le_of_mem_parts {s t : TypeSig} (h : s ∈ t.parts) : s.depth ≤ t.depth := by
  induction t with
  | direct | typeParam | methodParam =>
    obtain rfl := List.mem_singleton.1 h
    exact Nat.le_refl _
  | modified m inner ih =>
    rcases List.mem_cons.1 h with rfl | h
    · exact Nat.le_refl _
    · have hinner := ih h
      rw [depth_modified]
      omega
  | inst d args ih =>
    rw [parts, partsAll_eq_flatMap] at h
    rcases List.mem_cons.1 h with rfl | h
    · exact Nat.le_refl _
    · obtain ⟨a, ha, hs⟩ := List.mem_flatMap.1 h
      have hpart := ih a ha hs
      have harg := depth_lt_of_mem_args (d := d) ha
      omega

/-! ### Levels -/

/-- **`s` stands on level `n` of `t`**: `n - 1` other signatures lie around it in `t`. -/
inductive LevelAt : TypeSig → Nat → TypeSig → Prop
  | whole (t : TypeSig) : LevelAt t 1 t
  | inner {m : Modifier} {t s : TypeSig} {n : Nat} (h : LevelAt t n s) :
    LevelAt (.modified m t) (n + 1) s
  | arg {d : TypeId} {args : List TypeSig} {a s : TypeSig} {n : Nat} (ha : a ∈ args)
    (h : LevelAt a n s) : LevelAt (.inst d args) (n + 1) s

/-- No part stands deeper than the signature nests. -/
theorem LevelAt.le_depth {s t : TypeSig} {n : Nat} (h : t.LevelAt n s) : n ≤ t.depth := by
  induction h with
  | whole t => exact t.depth_pos
  | inner _ ih => exact Nat.succ_le_succ ih
  | arg ha _ ih => exact Nat.lt_of_le_of_lt ih (depth_lt_of_mem_args ha)

/-- A signature whose parts all stand within `n` levels nests no deeper. -/
theorem depth_le_of_forall_levelAt {t : TypeSig} {n : Nat} (h : ∀ k s, t.LevelAt k s → k ≤ n) :
    t.depth ≤ n := by
  induction t generalizing n with
  | direct | typeParam | methodParam => exact h 1 _ (.whole _)
  | modified m inner ih =>
    obtain ⟨n, rfl⟩ := Nat.exists_eq_add_one.2 (h 1 _ (.whole _))
    exact Nat.succ_le_succ (ih fun k s hs => Nat.le_of_succ_le_succ (h _ s (.inner hs)))
  | inst d args ih =>
    obtain ⟨n, rfl⟩ := Nat.exists_eq_add_one.2 (h 1 _ (.whole _))
    refine depth_inst_le_iff.2 fun a ha => ih a ha fun k s hs => ?_
    exact Nat.le_of_succ_le_succ (h _ s (.arg ha hs))

/-- **The depth of a signature is the level of its deepest part.** -/
theorem depth_le_iff_forall_levelAt {t : TypeSig} {n : Nat} :
    t.depth ≤ n ↔ ∀ k s, t.LevelAt k s → k ≤ n :=
  ⟨fun h _ _ hs => Nat.le_trans hs.le_depth h, depth_le_of_forall_levelAt⟩

/-! ### Length -/

/-- **No signature takes less than a tag and one more token.** -/
theorem two_le_tokenLen (t : TypeSig) : 2 ≤ t.tokenLen := by
  induction t with
  | direct | typeParam | methodParam => exact Nat.le_refl 2
  | modified _ inner ih => exact Nat.le_succ_of_le ih
  | inst d args =>
    rw [tokenLen_inst]
    omega

theorem tokenLen_pos (t : TypeSig) : 0 < t.tokenLen :=
  Nat.lt_of_lt_of_le Nat.two_pos t.two_le_tokenLen

/-- Every signature of a list takes a token at least. -/
theorem length_le_tokenLenAll (ts : List TypeSig) : ts.length ≤ tokenLenAll ts := by
  induction ts with
  | nil => simp
  | cons t ts ih =>
    have := t.tokenLen_pos
    rw [List.length_cons, tokenLenAll_cons]
    omega

end TypeSig

end MemberCatalog
