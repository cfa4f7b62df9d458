/-
# Lists inside angle brackets

A text that writes a list separates its entries by `, `, and an entry may hold a list of its own
between angle brackets.  `Text.split` takes the text apart at the separators outside all brackets.
That gives back the entries if each of them is balanced and has no comma outside its brackets
(`Text.split_displayList`); put between brackets, the whole list is such an entry again
(`Text.IsBalanced.bracketed`).  Where such a list ends a text, the text says where it begins
(`Text.IsBalanced.eq_of_append_eq`).
-/

import MemberCatalog.TypeSig.Display

namespace MemberCatalog

namespace Text

variable {cs ds front front' : List Char}

/-- How many angle brackets the text opens beyond those that it closes. -/
def depth (cs : List Char) : Int := cs.count '<' - cs.count '>'

@[simp]
theorem depth_append (cs ds : List Char) : depth (cs ++ ds) = depth cs + depth ds := by
  simp only [depth, List.count_append]
  omega

@[simp]
theorem depth_open_cons (cs : List Char) : depth ('<' :: cs) = 1 + depth cs :=
  depth_append ['<'] cs

@[simp]
theorem depth_reverse (cs : List Char) : depth cs.reverse = depth cs := by
  simp [depth]

theorem depth_of_not_mem (hopen : '<' ∉ cs) (hclose : '>' ∉ cs) : depth cs = 0 := by
  rw [depth, List.count_eq_zero_of_not_mem hopen, List.count_eq_zero_of_not_mem hclose]
  rfl

/-! ### Balanced text -/

/-- **The brackets of the text are balanced**: it closes none that is not open, and leaves none
open. -/
structure IsBalanced (cs : List Char) : Prop where
  nonneg : ∀ front, front <+: cs → 0 ≤ depth front
  closed : depth cs = 0

theorem IsBalanced.append (hc : IsBalanced cs) (hd : IsBalanced ds) : IsBalanced (cs ++ ds) where
  nonneg front h := by
    obtain ⟨back, heq⟩ := h
    rcases List.append_eq_append_iff.1 heq with ⟨mid, rfl, -⟩ | ⟨mid, rfl, rfl⟩
    · exact hc.nonneg front (List.prefix_append _ _)
    · rw [depth_append, hc.closed, Int.zero_add]
      exact hd.nonneg mid (List.prefix_append _ _)
  closed := by rw [depth_append, hc.closed, hd.closed]; rfl

theorem isBalanced_of_not_mem (hopen : '<' ∉ cs) (hclose : '>' ∉ cs) : IsBalanced cs where
  nonneg front hfront := by
    have hsub := hfront.subset
    exact Int.le_of_eq (depth_of_not_mem (mt (hsub ·) hopen) (mt (hsub ·) hclose)).symm
  closed := depth_of_not_mem hopen hclose

/-- A balanced text does not end another one behind an opening bracket: that one would leave it
open. -/
theorem IsBalanced.not_suffix (hc : IsBalanced cs) (hd : IsBalanced ds) :
    ¬ '<' :: ds <:+ cs := by
  rintro ⟨mid, rfl⟩
  have hnonneg := hc.nonneg mid (List.prefix_append _ _)
  have hclosed := hc.closed
  rw [depth_append, depth_open_cons, hd.closed] at hclosed
  omega

/-- Of two ends of one text that begin behind the same character, one holds the other. -/
theorem eq_or_suffix_of_append_eq {c : Char} (heq : front ++ c :: cs = front' ++ c :: ds) :
    cs = ds ∨ c :: ds <:+ cs ∨ c :: cs <:+ ds := by
  have hends : c :: ds <:+ c :: cs ∨ c :: cs <:+ c :: ds :=
    List.suffix_or_suffix_of_suffix (heq ▸ List.suffix_append front' _) (List.suffix_append front _)
  rcases hends with h | h <;> rcases List.suffix_cons_iff.1 h with hcons | hsuffix
  · exact .inl (List.cons.inj hcons).2.symm
  · exact .inr (.inl hsuffix)
  · exact .inl (List.cons.inj hcons).2
  · exact .inr (.inr hsuffix)

/-- **The last closing bracket of a text determines what it closes.** -/
theorem IsBalanced.eq_of_append_eq (hc : IsBalanced cs) (hd : IsBalanced ds)
    (heq : front ++ '<' :: cs = front' ++ '<' :: ds) : cs = ds := by
  rcases eq_or_suffix_of_append_eq heq with h | h | h
  · exact h
  · exact absurd h (hc.not_suffix hd)
  · exact absurd h (hd.not_suffix hc)

/-! ### Entries -/

/-- **An entry of a list**: a balanced text that has no comma outside its brackets. -/
structure IsEntry (cs : List Char) : Prop extends IsBalanced cs where
  covered : ∀ front back, cs = front ++ ',' :: back → depth front ≠ 0

theorem IsEntry.append (hc : IsEntry cs) (hd : IsEntry ds) : IsEntry (cs ++ ds) where
  toIsBalanced := hc.toIsBalanced.append hd.toIsBalanced
  covered front back heq := by
    rcases List.append_eq_append_iff.1 heq with ⟨mid, rfl, hds⟩ | ⟨mid, hcs, hmid⟩
    · rw [depth_append, hc.closed, Int.zero_add]
      exact hd.covered mid back hds
    · cases mid with
      | nil =>
        rw [List.append_nil] at hcs
        rw [← hcs, hc.closed]
        exact absurd rfl (hd.covered [] back hmid.symm)
      | cons c mid =>
        obtain ⟨rfl, -⟩ := List.cons.inj hmid
        exact hc.covered front mid hcs

/-- A text without brackets and commas is an entry. -/
theorem isEntry_of_not_mem (hopen : '<' ∉ cs) (hclose : '>' ∉ cs) (hcomma : ',' ∉ cs) :
    IsEntry cs where
  toIsBalanced := isBalanced_of_not_mem hopen hclose
  covered _ _ heq := absurd (heq ▸ List.mem_append_right _ (List.mem_cons_self ..)) hcomma

/-- **Between brackets every balanced text is an entry**, whatever its commas. -/
theorem IsBalanced.bracketed (hc : IsBalanced cs) : IsEntry ('<' :: (cs ++ ['>'])) where
  nonneg front hfront := by
    rcases List.prefix_cons_iff.1 hfront with rfl | ⟨front, rfl, hrest⟩
    · exact Int.le_refl 0
    rw [depth_open_cons]
    rcases List.prefix_concat_iff.1 hrest with rfl | hrest
    · rw [depth_append, hc.closed]
      decide
    · have hnonneg := hc.nonneg front hrest
      omega
  closed := by
    rw [depth_open_cons, depth_append, hc.closed]
    rfl
  covered front back heq := by
    cases front with
    | nil => exact absurd (List.cons.inj heq).1 (by decide)
    | cons c front =>
      rw [List.cons_append] at heq
      obtain ⟨rfl, hrest⟩ := List.cons.inj heq
      have hnonneg : 0 ≤ depth front := by
        rcases List.prefix_concat_iff.1 ⟨_, hrest.symm⟩ with rfl | hfront
        · exact absurd (List.self_eq_append_right.1 hrest) (List.cons_ne_nil _ _)
        · exact hc.nonneg front hfront
      rw [depth_open_cons]
      omega

/-! ### Splitting a list -/

/-- Takes a text apart behind `piece`, the characters since the last separator, last first. -/
def splitBehind (piece : List Char) : List Char → List (List Char)
  | [] => [piece.reverse]
  | ',' :: ' ' :: cs =>
    if depth piece = 0 then piece.reverse :: splitBehind [] cs
    else splitBehind (',' :: piece) (' ' :: cs)
  | c :: cs => splitBehind (c :: piece) cs

/-- The text, taken apart at each `, ` that stands outside all angle brackets. -/
def split (s : String) : List String := (splitBehind [] s.toList).map String.ofList

theorem splitBehind_cons {piece : List Char} {c : Char} (h : c = ',' → depth piece ≠ 0) :
    splitBehind piece (c :: cs) = splitBehind (c :: piece) cs := by
  rw [splitBehind.eq_def]
  split
  · contradiction
  · rename_i heq
    obtain ⟨rfl, rfl⟩ := List.cons.inj heq
    exact if_neg (h rfl)
  · rename_i heq
    obtain ⟨rfl, rfl⟩ := List.cons.inj heq
    rfl

/-- An entry is not taken apart. -/
theorem splitBehind_append (h : IsEntry (front ++ cs)) :
    splitBehind front.reverse (cs ++ ds) = splitBehind (front ++ cs).reverse ds := by
  induction cs generalizing front with
  | nil => rw [List.nil_append, List.append_nil]
  | cons c cs ih =>
    have hcomma : c = ',' → depth front.reverse ≠ 0 := by
      rintro rfl
      rw [depth_reverse]
      exact h.covered front cs rfl
    have hnext : front ++ c :: cs = (front ++ [c]) ++ cs := List.append_cons ..
    rw [List.cons_append, splitBehind_cons hcomma, hnext, ← ih (hnext ▸ h)]
    simp

theorem splitBehind_intercalate {items : List (List Char)} (hne : items ≠ [])
    (h : ∀ cs ∈ items, IsEntry cs) : splitBehind [] ([',', ' '].intercalate items) = items := by
  induction items with
  | nil => contradiction
  | cons cs items ih =>
    obtain ⟨hcs, hitems⟩ := List.forall_mem_cons.1 h
    cases items with
    | nil =>
      have hentry := @splitBehind_append cs [] [] hcs
      simpa [splitBehind] using hentry
    | cons ds items =>
      have hrest := ih (List.cons_ne_nil _ _) hitems
      rw [List.intercalate_cons_cons, List.append_assoc]
      refine (@splitBehind_append cs _ [] hcs).trans ?_
      simp [splitBehind, hcs.closed, hrest]

/-- **A list of entries splits into these entries.** -/
theorem split_displayList {items : List String} (hne : items ≠ [])
    (h : ∀ s ∈ items, IsEntry s.toList) : split (displayList items) = items := by
  have hentries : ∀ cs ∈ items.map String.toList, IsEntry cs := by
    simpa using h
  have hsplit := splitBehind_intercalate (mt List.map_eq_nil_iff.1 hne) hentries
  rw [split, displayList, String.toList_intercalate]
  refine (congrArg (List.map String.ofList) hsplit).trans ?_
  simp

example : split "string, Func<int, !0>, char[]" = ["string", "Func<int, !0>", "char[]"] := by
  decide

/-- **The text of a list determines its entries**, and with them how many there are. -/
theorem eq_of_displayList_eq {items items' : List String} (h : ∀ s ∈ items, IsEntry s.toList)
    (h' : ∀ s ∈ items', IsEntry s.toList) (hne : "" ∉ items) (hne' : "" ∉ items')
    (heq : displayList items = displayList items') : items = items' := by
  -- The empty text would split into one entry, itself, which no list has.
  have hnil : split (displayList []) = [""] := by decide
  by_cases hitems : items = [] <;> by_cases hitems' : items' = []
  · rw [hitems, hitems']
  · rw [← split_displayList hitems' h', ← heq, hitems, hnil] at hne'
    exact absurd (List.mem_singleton_self _) hne'
  · rw [← split_displayList hitems h, heq, hitems', hnil] at hne
    exact absurd (List.mem_singleton_self _) hne
  · rw [← split_displayList hitems h, heq, split_displayList hitems' h']

/-- **A list is put together from its entries and separators.** -/
theorem displayList_of_append {P : List Char → Prop} {items : List String} (nil : P [])
    (separator : P ", ".toList) (append : ∀ {cs ds}, P cs → P ds → P (cs ++ ds))
    (h : ∀ s ∈ items, P s.toList) : P (displayList items).toList := by
  rw [displayList, String.toList_intercalate]
  induction items with
  | nil => exact nil
  | cons s items ih =>
    obtain ⟨hs, hitems⟩ := List.forall_mem_cons.1 h
    cases items with
    | nil => simpa using hs
    | cons s' items =>
      rw [List.map_cons, List.map_cons, List.intercalate_cons_cons]
      exact append (append hs separator) (ih hitems)

theorem isBalanced_displayList {items : List String} (h : ∀ s ∈ items, IsBalanced s.toList) :
    IsBalanced (displayList items).toList :=
  displayList_of_append (isBalanced_of_not_mem List.not_mem_nil List.not_mem_nil)
    (isBalanced_of_not_mem (by decide) (by decide)) .append h

theorem not_mem_displayList {c : Char} {items : List String} (hseparator : c ∉ ", ".toList)
    (h : ∀ s ∈ items, c ∉ s.toList) : c ∉ (displayList items).toList :=
  @displayList_of_append (c ∉ ·) items List.not_mem_nil hseparator
    (fun hcs hds => mt List.mem_append.1 (not_or.2 ⟨hcs, hds⟩)) h

end Text

end MemberCatalog
