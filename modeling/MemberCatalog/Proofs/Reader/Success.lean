/-
# When a reader succeeds

The success of a reader is stated as an equivalence for each step that readers are made of: a
reader followed by another succeeds exactly when both do, and a token is read exactly when it is
the next one.

`x.Reads layout P` is the form that these equivalences take for a whole value: `x` succeeds exactly
on the layouts of the values that satisfy `P`, wherever they stand and whatever follows them.
`Reads.repeated` carries it from one value to a list of them.  Such layouts need no separators: a
stream opens with the layout of one value at most (`Reads.eq_of_append_eq`), and lists of values are
told apart by their layouts in a row (`Reads.isPrefix_of_flatMap`).

A count is the exception.  Whether it is accepted depends on how many tokens follow, so
`ReadsCounts` says that it is accepted at least where enough of them do.
-/

import MemberCatalog.Proofs.Reader.Span

namespace MemberCatalog

namespace Reader

variable {α β : Type} {c c' : Cursor}

@[simp]
theorem pure_eq_ok_iff {a b : α} : (pure a : Reader α) c = .ok b c' ↔ a = b ∧ c = c' := by
  simp [pure, EStateM.pure]

@[simp]
theorem throw_ne_ok {e : Error} {a : α} : (throw e : Reader α) c ≠ .ok a c' := nofun

@[simp]
theorem pure_ne_error {a : α} {e : Error} : (pure a : Reader α) c ≠ .error e c' := nofun

@[simp]
theorem throw_eq_error_iff {e e' : Error} :
    (throw e : Reader α) c = .error e' c' ↔ e = e' ∧ c = c' := by
  constructor
  · rintro ⟨⟩
    exact ⟨rfl, rfl⟩
  · rintro ⟨rfl, rfl⟩
    rfl

/-- **Two readers in a row succeed exactly when both do**, the second from where the first one
stopped. -/
theorem bind_eq_ok_iff {x : Reader α} {f : α → Reader β} {b : β} :
    (x >>= f) c = .ok b c' ↔ ∃ a m, x c = .ok a m ∧ f a m = .ok b c' := by
  simp only [bind, EStateM.bind]
  cases x c with
  | ok a m =>
    constructor
    · intro h
      exact ⟨a, m, rfl, h⟩
    · rintro ⟨_, _, h, hf⟩
      cases h
      exact hf
  | error e m => simp

/-- Two readers in a row fail when the first one does, or the second from where that one stopped. -/
theorem bind_eq_error_iff {x : Reader α} {f : α → Reader β} {e : Error} :
    (x >>= f) c = .error e c' ↔
      x c = .error e c' ∨ ∃ a m, x c = .ok a m ∧ f a m = .error e c' := by
  simp only [bind, EStateM.bind]
  cases x c with
  | ok a m =>
    refine ⟨fun h => .inr ⟨a, m, rfl, h⟩, ?_⟩
    rintro (h | ⟨_, _, h, hf⟩)
    · cases h
    · cases h
      exact hf
  | error e m => simp

theorem bind_of_eq_ok {x : Reader α} {a : α} {m : Cursor} (h : x c = .ok a m) (f : α → Reader β) :
    (x >>= f) c = f a m := by
  simp only [bind, EStateM.bind, h]

theorem bind_of_eq_error {x : Reader α} {e : Error} {m : Cursor} (h : x c = .error e m)
    (f : α → Reader β) : (x >>= f) c = .error e m := by
  simp only [bind, EStateM.bind, h]

theorem position_eq_ok_iff {n : Nat} : position c = .ok n c' ↔ c.pos = n ∧ c = c' := by
  have h : position c = .ok c.pos c := rfl
  simp [h]

/-- A token is read exactly when it is the next one. -/
theorem token_eq_ok_iff {t : Token} : token c = .ok t c' ↔ c.Passes [t] c' := by
  obtain ⟨pos, rest, len, h⟩ := c
  cases rest with
  | nil =>
    refine ⟨nofun, fun hp => ?_⟩
    exact absurd hp.rest_eq (by simp)
  | cons u rest =>
    constructor
    · intro ht
      cases ht
      exact ⟨rfl, rfl⟩
    · intro hp
      obtain ⟨rfl, hrest⟩ := List.cons.inj hp.rest_eq
      simp only [token, EStateM.Result.ok.injEq, true_and]
      exact Cursor.eq_of_pos_of_rest hp.pos_eq.symm hrest

/-- There is no next token exactly at the end of the stream. -/
theorem token_eq_error_iff {e : Error} :
    token c = .error e c' ↔ c.rest = [] ∧ e = .outOfBounds c.pos c.len ∧ c' = c := by
  obtain ⟨pos, rest, len, h⟩ := c
  cases rest with
  | nil => simp [token, eq_comm]
  | cons t rest => simp [token]

/-- A check succeeds exactly when it is not wanted or satisfied. -/
theorem check_eq_ok_iff {wanted : Bool} {x : Except Error α} {u : Unit} :
    check wanted x c = .ok u c' ↔ (wanted = true → ∃ a, x = .ok a) ∧ c = c' := by
  cases wanted with
  | false => simp [check]
  | true => cases x <;> simp [check]

theorem check_eq_error_iff {wanted : Bool} {x : Except Error α} {e : Error} :
    check wanted x c = .error e c' ↔ (wanted = true ∧ x = .error e) ∧ c = c' := by
  cases wanted with
  | false => simp [check]
  | true => cases x <;> simp [check]

/-! ### Values by their layout -/

/-- **What `x` reads.**  It succeeds exactly on the layouts of the values that satisfy `P`,
whatever follows them, and stops right behind. -/
def Reads (x : Reader α) (layout : α → List Token) (P : α → Prop) : Prop :=
  ∀ c a c', x c = .ok a c' ↔ c.Passes (layout a) c' ∧ P a

/-- What reads one value reads a list of them, one layout behind the other. -/
theorem Reads.repeated {x : Reader α} {layout : α → List Token} {P : α → Prop}
    (hx : x.Reads layout P) (n : Nat) :
    (Reader.repeated n x).Reads (fun as => as.flatMap layout)
      fun as => as.length = n ∧ ∀ a ∈ as, P a := by
  intro c as c'
  induction n generalizing c as c' with
  | zero =>
    cases as with
    | nil => simp [eq_comm]
    | cons a as => simp
  | succ n ih =>
    simp only [repeated_succ, bind_eq_ok_iff, pure_eq_ok_iff, hx _ _ _, ih]
    cases as with
    | nil => simp
    | cons a as =>
      simp only [List.flatMap_cons, Cursor.passes_append, List.length_cons, List.forall_mem_cons,
        Nat.add_right_cancel_iff]
      constructor
      · rintro ⟨_, m, ⟨hm, ha⟩, _, _, ⟨hm', hn, has⟩, heq, rfl⟩
        obtain ⟨rfl, rfl⟩ := List.cons.inj heq
        exact ⟨⟨m, hm, hm'⟩, hn, ha, has⟩
      · rintro ⟨⟨m, hm, hm'⟩, hn, ha, has⟩
        exact ⟨a, m, ⟨hm, ha⟩, as, c', ⟨hm', hn, has⟩, rfl, rfl⟩

section

variable {x : Reader α} {layout : α → List Token} {P : α → Prop}

/-- **A stream opens with the layout of one value at most**, whatever follows it. -/
theorem Reads.eq_of_append_eq (hx : x.Reads layout P) {a b : α} {us vs : List Token} (ha : P a)
    (hb : P b) (h : layout a ++ us = layout b ++ vs) : a = b ∧ us = vs := by
  obtain ⟨m, hm, hus⟩ := Cursor.exists_passes (c := .ofTokens (layout a ++ us)) rfl
  obtain ⟨m', hm', hvs⟩ := Cursor.exists_passes (c := .ofTokens (layout a ++ us)) h
  have hread := (hx _ a m).2 ⟨hm, ha⟩
  have hread' := (hx _ b m').2 ⟨hm', hb⟩
  rw [hread] at hread'
  cases hread'
  exact ⟨rfl, hus.symm.trans hvs⟩

/-- **Layouts in a row divide in one way.**  If those of `as` open the stream of those of `bs`, then
the values `as` are the first of `bs`. -/
theorem Reads.isPrefix_of_flatMap (hx : x.Reads layout P) (hne : ∀ a, layout a ≠ [])
    {as bs : List α} (has : ∀ a ∈ as, P a) (hbs : ∀ b ∈ bs, P b)
    (h : as.flatMap layout <+: bs.flatMap layout) : as <+: bs := by
  induction as generalizing bs with
  | nil => exact List.nil_prefix
  | cons a as ih =>
    obtain ⟨us, h⟩ := h
    rw [List.flatMap_cons, List.append_assoc] at h
    cases bs with
    | nil => exact absurd (List.append_eq_nil_iff.1 h).1 (hne a)
    | cons b bs =>
      obtain ⟨ha, has'⟩ := List.forall_mem_cons.1 has
      obtain ⟨hb, hbs'⟩ := List.forall_mem_cons.1 hbs
      rw [List.flatMap_cons] at h
      obtain ⟨heq, hrest⟩ := hx.eq_of_append_eq ha hb h
      exact List.cons_prefix_cons.2 ⟨heq, ih has' hbs' ⟨us, hrest⟩⟩

end

/-! ### Counts -/

/-- A reader of counts reads one token as a number, and does so at least where as many tokens
follow as the number says. -/
structure ReadsCounts (readCount : Reader Nat) : Prop where
  passes : ∀ {c n c'}, readCount c = .ok n c' → ∃ t : Token, c.Passes [t] c' ∧ t.toNat = n
  accepts : ∀ {c c'} {t : Token}, c.Passes [t] c' → t.toNat ≤ c'.rest.length →
    readCount c = .ok t.toNat c'

/-- A count is read as its token says, unless fewer tokens follow. -/
theorem count_of_passes {m : Cursor} {t : Token} (h : c.Passes [t] m) :
    count c = if m.rest.length < t.toNat then .error (.outOfBounds (m.pos + t.toNat) m.len) m
      else .ok t.toNat m := by
  rw [count, bind_of_eq_ok (token_eq_ok_iff.2 h), ← m.remaining_eq_length]
  show (if m.remaining < t.toNat then throw _ else pure _ : Reader Nat) m = _
  split <;> rfl

theorem count_readsCounts : ReadsCounts count where
  passes := by
    intro c n c' h
    obtain ⟨t, m, ht, -⟩ := bind_eq_ok_iff.1 h
    have hp := token_eq_ok_iff.1 ht
    rw [count_of_passes hp] at h
    split at h
    · cases h
    · cases h
      exact ⟨t, hp, rfl⟩
  accepts := by
    intro c c' t hp hle
    rw [count_of_passes hp, if_neg (Nat.not_lt.2 hle)]

theorem uncheckedCount_of_passes {m : Cursor} {t : Token} (h : c.Passes [t] m) :
    uncheckedCount c = .ok t.toNat m := by
  rw [uncheckedCount, bind_of_eq_ok (token_eq_ok_iff.2 h)]
  rfl

theorem uncheckedCount_readsCounts : ReadsCounts uncheckedCount where
  passes := by
    intro c n c' h
    obtain ⟨t, m, ht, h⟩ := bind_eq_ok_iff.1 h
    obtain ⟨rfl, rfl⟩ := pure_eq_ok_iff.1 h
    exact ⟨t, token_eq_ok_iff.1 ht, rfl⟩
  accepts := fun hp _ => uncheckedCount_of_passes hp

namespace ReadsCounts

variable {readCount : Reader Nat} {n : Nat}

/-- A count that is read fits into the token it was read from. -/
theorem of_eq_ok (hc : ReadsCounts readCount) (h : readCount c = .ok n c') :
    n < UInt16.size ∧ c.Passes [.ofNat n] c' := by
  obtain ⟨t, ht, rfl⟩ := hc.passes h
  rw [UInt16.ofNat_toNat]
  exact ⟨t.toNat_lt, ht⟩

/-- A count is read if what has to follow it takes as many tokens. -/
theorem eq_ok (hc : ReadsCounts readCount) (hn : n < UInt16.size) {m : Cursor} {ts : List Token}
    (h : c.Passes [.ofNat n] m) (h' : m.Passes ts c') (hle : n ≤ ts.length) :
    readCount c = .ok n m := by
  have htoNat : (UInt16.ofNat n).toNat = n := UInt16.toNat_ofNat_of_lt' hn
  have hread := hc.accepts h (by rw [htoNat, h'.length_rest]; omega)
  rwa [htoNat] at hread

end ReadsCounts

end Reader

end MemberCatalog
