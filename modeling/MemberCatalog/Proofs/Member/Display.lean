/-
# Lists in declarations

What a declaration writes between angle brackets or parentheses can be read back.  No type that the
enumerations know has a bracket, comma or parenthesis in its name, and a number has none either;
only the self type is written with brackets, and they are balanced.  By induction every signature
is then an entry of a list (`TypeSig.isEntry_display`), so the type arguments of a generic instance
and the parameters of a member are found by splitting their list outside all brackets, whatever
they nest and whatever the member is called (`MemberRecord.display_splits`).
-/

import MemberCatalog.Proofs.Text.Brackets
import MemberCatalog.Proofs.Text.Wording
import MemberCatalog.Member.Display

namespace MemberCatalog

open Text

/-! ### Names of types -/

/-- Whether the character delimits a list or an entry of one. -/
def isDelimiter (c : Char) : Bool := ['<', '>', ',', '('].contains c

/-- A text without delimiters. -/
def IsPlain (s : String) : Prop := ∀ c ∈ s.toList, isDelimiter c = false

namespace IsPlain

variable {s s' : String}

theorem ofList {cs : List Char} (h : cs.any isDelimiter = false) : IsPlain (String.ofList cs) := by
  intro c hc
  rw [String.toList_ofList] at hc
  exact Bool.eq_false_iff.2 (List.any_eq_false.1 h c hc)

theorem append (hs : IsPlain s) (hs' : IsPlain s') : IsPlain (s ++ s') := by
  intro c hc
  rw [String.toList_append] at hc
  rcases List.mem_append.1 hc with hc | hc
  · exact hs c hc
  · exact hs' c hc

theorem isEntry (h : IsPlain s) : IsEntry s.toList :=
  isEntry_of_not_mem (fun hc => nomatch h _ hc) (fun hc => nomatch h _ hc) fun hc => nomatch h _ hc

theorem paren_not_mem (h : IsPlain s) : '(' ∉ s.toList :=
  fun hc => nomatch h _ hc

end IsPlain

/-- A number is written with digits only. -/
theorem isPlain_toString (n : Token) : IsPlain (toString n) := by
  intro c hc
  have hdigit : c.isDigit := isDigit_of_mem_toString (n := n.toNat) hc
  have hdelimiters : ['<', '>', ',', '('].any Char.isDigit = false := rfl
  rw [isDelimiter, ← Bool.not_eq_true, List.contains_iff_mem]
  exact fun hmem => List.any_eq_false.1 hdelimiters c hmem hdigit

namespace SpecialType

theorem isPlain_label (t : SpecialType) : IsPlain t.label := by
  cases t <;> exact .ofList rfl

theorem isPlain_metadataName (t : SpecialType) : IsPlain t.metadataName := by
  unfold metadataName
  split
  -- The last branch is the one whose name is not a fixed text.
  rotate_right
  · exact .append (.ofList rfl) t.isPlain_label
  all_goals exact .ofList rfl

theorem isPlain_of_keyword? {t : SpecialType} {s : String} (h : t.keyword? = some s) :
    IsPlain s := by
  cases t <;> cases h <;> exact .ofList rfl

end SpecialType

theorem WellKnownType.isPlain_metadataName (t : WellKnownType) : IsPlain t.metadataName := by
  cases t <;> exact .ofList rfl

/-- The text stands for a type: a plain one, or the self type in its brackets. -/
def IsName (s : String) : Prop := IsPlain s ∨ s = "<self>"

theorem IsName.isEntry {s : String} (h : IsName s) : IsEntry s.toList := by
  rcases h with h | rfl
  · exact h.isEntry
  · have hself : IsBalanced "self".toList := isBalanced_of_not_mem (by decide) (by decide)
    exact hself.bracketed

theorem IsName.paren_not_mem {s : String} (h : IsName s) : '(' ∉ s.toList := by
  rcases h with h | rfl
  · exact h.paren_not_mem
  · decide

namespace TypeId

/-- The ways to write a type: by keyword, by metadata name, or by number. -/
theorem display_cases (id : TypeId) :
    (∃ t : SpecialType, t.keyword? = some id.display ∨ t.metadataName = id.display) ∨
    (∃ t : WellKnownType, t.metadataName = id.display) ∨ id.numbered = id.display := by
  cases id with
  | self => exact .inr (.inr rfl)
  | special n =>
    simp only [display, metadataName?, asSpecial?, asWellKnown?]
    cases SpecialType.ofHandle? n with
    | none => exact .inr (.inr rfl)
    | some t =>
      refine .inl ⟨t, ?_⟩
      cases hkeyword : t.keyword? <;> simp [hkeyword]
  | wellKnown n =>
    simp only [display, metadataName?, asSpecial?, asWellKnown?]
    cases WellKnownType.ofNumber? n with
    | none => exact .inr (.inr rfl)
    | some t => exact .inr (.inl ⟨t, rfl⟩)

theorem isName_numbered (id : TypeId) : IsName id.numbered := by
  cases id with
  | self => exact .inr rfl
  | special n | wellKnown n => exact .inl (.append (.ofList rfl) (isPlain_toString n))

theorem isName_display (id : TypeId) : IsName id.display := by
  rcases id.display_cases with ⟨t, h | h⟩ | ⟨t, h⟩ | h
  · exact .inl (SpecialType.isPlain_of_keyword? h)
  · exact .inl (h ▸ t.isPlain_metadataName)
  · exact .inl (h ▸ t.isPlain_metadataName)
  · exact h ▸ id.isName_numbered

/-- The suffix that a definition loses is no part of the self type. -/
theorem isName_displayDefinition (d : TypeId) : IsName d.displayDefinition := by
  rcases d.isName_display with h | h
  · left
    intro c hc
    rw [displayDefinition, String.toList_ofList] at hc
    exact h c ((List.takeWhile_sublist _).subset hc)
  · right
    rw [displayDefinition, h]
    decide

theorem display_ne_empty (id : TypeId) : id.display ≠ "" := by
  rcases id.display_cases with ⟨t, h | h⟩ | ⟨t, h⟩ | h
  · intro hempty
    rw [hempty] at h
    revert h
    cases t <;> decide
  · rw [← h]
    cases t <;> decide
  · rw [← h]
    cases t <;> decide
  · rw [← h]
    cases id <;> simp [numbered]

end TypeId

/-! ### Signatures -/

namespace TypeSig

/-- **Every signature is written as an entry of a list.** -/
theorem isEntry_display (t : TypeSig) : IsEntry t.display.toList := by
  induction t with
  | direct id => exact id.isName_display.isEntry
  | typeParam i | methodParam i =>
    exact (IsPlain.append (.ofList rfl) (isPlain_toString i)).isEntry
  | modified m t ih =>
    cases m with
    | array | pointer =>
      rw [display_modified, Modifier.display, String.toList_append]
      exact ih.append (isEntry_of_not_mem (by decide) (by decide) (by decide))
    | byRef =>
      rw [display_modified, Modifier.display, String.toList_append]
      exact (isEntry_of_not_mem (by decide) (by decide) (by decide)).append ih
  | inst d args ih =>
    have hlist : IsBalanced (displayList (args.map display)).toList :=
      isBalanced_displayList (List.forall_mem_map.2 fun a ha => (ih a ha).toIsBalanced)
    have hentry := d.isName_displayDefinition.isEntry.append hlist.bracketed
    simpa [display_inst] using hentry

theorem paren_not_mem_display (t : TypeSig) : '(' ∉ t.display.toList := by
  induction t with
  | direct id => exact id.isName_display.paren_not_mem
  | typeParam i | methodParam i =>
    exact (IsPlain.append (.ofList rfl) (isPlain_toString i)).paren_not_mem
  | modified m t ih => cases m <;> simp [Modifier.display, ih]
  | inst d args ih =>
    have hlist : '(' ∉ (displayList (args.map display)).toList :=
      not_mem_displayList (by decide) (List.forall_mem_map.2 ih)
    simp [d.isName_displayDefinition.paren_not_mem, hlist]

theorem display_ne_empty (t : TypeSig) : t.display ≠ "" := by
  cases t with
  | direct id => exact id.display_ne_empty
  | modified m t => cases m <;> simp [Modifier.display]
  | typeParam i | methodParam i => simp
  | inst d args => simp

theorem split_map_display {ts : List TypeSig} (h : ts ≠ []) :
    split (displayList (ts.map display)) = ts.map display :=
  split_displayList (mt List.map_eq_nil_iff.1 h)
    (List.forall_mem_map.2 fun t _ => t.isEntry_display)

theorem displayList_display_inj {ts ts' : List TypeSig}
    (heq : displayList (ts.map display) = displayList (ts'.map display)) :
    ts.map display = ts'.map display := by
  have hentry (ts : List TypeSig) : ∀ s ∈ ts.map display, IsEntry s.toList :=
    List.forall_mem_map.2 fun t _ => t.isEntry_display
  have hempty (ts : List TypeSig) : "" ∉ ts.map display := by
    simp [display_ne_empty]
  exact eq_of_displayList_eq (hentry ts) (hentry ts') (hempty ts) (hempty ts') heq

/-- **The text of a generic instance determines the texts of its arguments.** -/
theorem map_display_eq_of_display_inst_eq {d d' : TypeId} {args args' : List TypeSig}
    (heq : (inst d args).display = (inst d' args').display) :
    args.map display = args'.map display := by
  have hlist (args : List TypeSig) : IsBalanced (displayList (args.map display)).toList :=
    isBalanced_displayList (List.forall_mem_map.2 fun a _ => a.isEntry_display.toIsBalanced)
  rw [display_inst, display_inst, String.append_left_inj] at heq
  have htext : d.displayDefinition.toList ++ '<' :: (displayList (args.map display)).toList =
      d'.displayDefinition.toList ++ '<' :: (displayList (args'.map display)).toList := by
    simpa using congrArg String.toList heq
  have hsame := (hlist args).eq_of_append_eq (hlist args') htext
  exact displayList_display_inj (String.toList_inj.1 hsame)

end TypeSig

/-! ### Members -/

namespace MemberRecord

variable {r r' : MemberRecord} {returnType returnType' : TypeSig}
  {parameters parameters' : List TypeSig}

/-- What a declaration of an invocable member ends in. -/
theorem display_invocable (h : r.shape = .invocable returnType parameters) (name : String) :
    ∃ front, r.display name = front ++ "(" ++ displayList (parameters.map TypeSig.display) ++ ")" :=
  ⟨_, by rw [display, h]⟩

theorem paren_not_mem_parameters (parameters : List TypeSig) :
    '(' ∉ (displayList (parameters.map TypeSig.display)).toList :=
  not_mem_displayList (by decide) (List.forall_mem_map.2 fun t _ => t.paren_not_mem_display)

/-- **The declaration of an invocable member determines the texts of its parameters**, whatever
the member is called: they stand behind the last opening parenthesis. -/
theorem map_display_eq_of_display_eq (h : r.shape = .invocable returnType parameters)
    (h' : r'.shape = .invocable returnType' parameters') {name name' : String}
    (heq : r.display name = r'.display name') :
    parameters.map TypeSig.display = parameters'.map TypeSig.display := by
  obtain ⟨front, hfront⟩ := display_invocable h name
  obtain ⟨front', hfront'⟩ := display_invocable h' name'
  rw [hfront, hfront', String.append_left_inj] at heq
  have htext : front.toList ++ '(' :: (displayList (parameters.map TypeSig.display)).toList =
      front'.toList ++ '(' :: (displayList (parameters'.map TypeSig.display)).toList := by
    simpa using congrArg String.toList heq
  refine TypeSig.displayList_display_inj (String.toList_inj.1 ?_)
  rcases eq_or_suffix_of_append_eq htext with hsame | hsuffix | hsuffix
  · exact hsame
  · exact absurd (hsuffix.subset (List.mem_cons_self ..)) (paren_not_mem_parameters parameters)
  · exact absurd (hsuffix.subset (List.mem_cons_self ..)) (paren_not_mem_parameters parameters')

/-- **Lists in declarations can be read back.**  The brackets of a signature are balanced.  What a
generic instance writes behind its definition and between brackets splits into its arguments; what
an invocable member, whatever its name, writes behind the last opening parenthesis splits into its
parameters.  So instances of the same text have arguments of the same texts, and members that are
declared by the same text have such parameters. -/
theorem display_splits :
    (∀ t : TypeSig, IsBalanced t.display.toList) ∧
    (∀ (d : TypeId) (args : List TypeSig), ∃ list : String,
      (TypeSig.inst d args).display = d.displayDefinition ++ "<" ++ list ++ ">" ∧
        (args ≠ [] → split list = args.map TypeSig.display)) ∧
    (∀ (r : MemberRecord) (name : String) (returnType : TypeSig) (parameters : List TypeSig),
      r.shape = .invocable returnType parameters → parameters ≠ [] →
        ∃ front list : String, r.display name = front ++ "(" ++ list ++ ")" ∧
          '(' ∉ list.toList ∧ split list = parameters.map TypeSig.display) ∧
    (∀ (d d' : TypeId) (args args' : List TypeSig),
      (TypeSig.inst d args).display = (TypeSig.inst d' args').display →
        args.map TypeSig.display = args'.map TypeSig.display) ∧
    ∀ (r r' : MemberRecord) (name name' : String) (returnType returnType' : TypeSig)
      (parameters parameters' : List TypeSig), r.shape = .invocable returnType parameters →
        r'.shape = .invocable returnType' parameters' → r.display name = r'.display name' →
          parameters.map TypeSig.display = parameters'.map TypeSig.display := by
  refine ⟨fun t => t.isEntry_display.toIsBalanced, fun d args => ?_,
    fun r name returnType parameters hshape hne => ?_,
    fun _ _ _ _ heq => TypeSig.map_display_eq_of_display_inst_eq heq,
    fun _ _ _ _ _ _ _ _ h h' heq => map_display_eq_of_display_eq h h' heq⟩
  · exact ⟨_, TypeSig.display_inst d args, TypeSig.split_map_display⟩
  · obtain ⟨front, hfront⟩ := display_invocable hshape name
    exact ⟨front, _, hfront, paren_not_mem_parameters parameters, TypeSig.split_map_display hne⟩

/-- Brackets and commas inside an argument, or in the name of the member, are not taken for others;
and the same text may declare two members, but not with other parameters. -/
theorem display_splits_nested :
    let args : List TypeSig := [.direct SpecialType.string.typeId, .inst .self [.methodParam 0]]
    let parameters (id : TypeId) : List TypeSig :=
      [.inst id args, .modified .pointer (.typeParam 1)]
    let r : MemberRecord :=
      ⟨⟨0x0001⟩, .self, 1, .invocable (.direct .self) (parameters WellKnownType.task.typeId)⟩
    let r' : MemberRecord :=
      ⟨⟨0x0001⟩, .self, 0, .invocable (.direct .self) (parameters WellKnownType.taskT.typeId)⟩
    (∃ list, (TypeSig.inst WellKnownType.taskT.typeId args).display =
      WellKnownType.taskT.typeId.displayDefinition ++ "<" ++ list ++ ">" ∧
        split list = ["string", "<self><!!0>"]) ∧
    (∃ front list, r.display "op(, <" = front ++ "(" ++ list ++ ")" ∧ '(' ∉ list.toList ∧
      split list = ["System.Threading.Tasks.Task<string, <self><!!0>>", "!1*"]) ∧
    r.display "op" = r'.display "op<!!0>" ∧
      r.shape.parameters.map TypeSig.display = r'.shape.parameters.map TypeSig.display := by
  intro args parameters r r'
  obtain ⟨list, hinst, hargs⟩ := display_splits.2.1 WellKnownType.taskT.typeId args
  obtain ⟨front, list', hmember, hparen, hparameters⟩ :=
    display_splits.2.2.1 r "op(, <" _ _ rfl (List.cons_ne_nil _ _)
  have hsame : r.display "op" = r'.display "op<!!0>" := by decide
  refine ⟨⟨list, hinst, (hargs (List.cons_ne_nil _ _)).trans ?_⟩,
    ⟨front, list', hmember, hparen, hparameters.trans ?_⟩, hsame,
    display_splits.2.2.2.2 r r' "op" "op<!!0>" _ _ _ _ rfl rfl hsame⟩
  · decide
  · decide

end MemberRecord

end MemberCatalog
