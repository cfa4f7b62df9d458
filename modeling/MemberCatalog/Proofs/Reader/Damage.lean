/-
# Readers on damaged streams

`x.FailsOn ts e` says that a stream that goes on with the tokens `ts` makes the reader `x` fail,
with an error `e` that depends on nothing but the place where these tokens begin.  A reader that
fails on some tokens fails on them behind whatever is read before: the tokens of that come first,
and the place moves on by their number.

What follows the damage is never read, but it has to be there.  A count in front of the damage is
accepted only if as many tokens follow as it says.
-/

import MemberCatalog.Proofs.Reader.Success

namespace MemberCatalog

/-- A damage to one of the layouts in a row lies behind the layouts in front of it. -/
theorem set_flatMap {α : Type} (layout : α → List Token) (as : List α) (a : α) (bs : List α)
    {i : Nat} (hi : i < (layout a).length) (v : Token) :
    ((as ++ a :: bs).flatMap layout).set ((as.flatMap layout).length + i) v =
      as.flatMap layout ++ ((layout a).set i v ++ bs.flatMap layout) := by
  rw [List.flatMap_append, List.flatMap_cons, List.set_append_right _ _ (Nat.le_add_right _ _),
    Nat.add_sub_cancel_left, List.set_append_left _ _ hi]

/-- The first of the tokens that follow a cursor is passed, and the others follow behind it. -/
theorem Cursor.exists_passes_of_cons_prefix {c : Cursor} {t : Token} {ts : List Token}
    (h : t :: ts <+: c.rest) : ∃ m, c.Passes [t] m ∧ ts <+: m.rest := by
  obtain ⟨us, h⟩ := h
  have hrest : c.rest = [t] ++ (ts ++ us) := h.symm
  obtain ⟨m, hm, hrest'⟩ := exists_passes hrest
  exact ⟨m, hm, us, hrest'.symm⟩

namespace Reader

variable {α β : Type} {x : Reader α} {f : α → Reader β} {a : α} {layout : α → List Token}
  {P : α → Prop} {ts us : List Token} {e : Nat → Error}

/-- **The reader fails on the tokens `ts`**, wherever they stand and whatever follows them. -/
def FailsOn (x : Reader α) (ts : List Token) (e : Nat → Error) : Prop :=
  ∀ c, ts <+: c.rest → ∃ m, x c = .error (e c.pos) m

theorem FailsOn.append (hx : x.FailsOn ts e) (us : List Token) : x.FailsOn (ts ++ us) e :=
  fun c h => hx c ((List.prefix_append ts us).trans h)

theorem FailsOn.congr {e' : Nat → Error} (hx : x.FailsOn ts e) (he : ∀ p, e p = e' p) :
    x.FailsOn ts e' := by
  intro c h
  obtain ⟨m, hm⟩ := hx c h
  exact ⟨m, he c.pos ▸ hm⟩

theorem FailsOn.bind (hx : x.FailsOn ts e) (f : α → Reader β) : (x >>= f).FailsOn ts e := by
  intro c h
  obtain ⟨m, hm⟩ := hx c h
  exact ⟨m, bind_of_eq_error hm f⟩

/-- **Behind a value that is read** the failure is the one of the next reader. -/
theorem Reads.bind_failsOn (hx : x.Reads layout P) (ha : P a) (hf : (f a).FailsOn ts e) :
    (x >>= f).FailsOn (layout a ++ ts) fun p => e (p + (layout a).length) := by
  rintro c ⟨us, hrest⟩
  rw [List.append_assoc] at hrest
  obtain ⟨m, hm, hrest'⟩ := Cursor.exists_passes hrest.symm
  obtain ⟨m', hm'⟩ := hf m ⟨us, hrest'.symm⟩
  exact ⟨m', by rw [bind_of_eq_ok ((hx c a m).2 ⟨hm, ha⟩), hm', hm.pos_eq]⟩

theorem reads_token : token.Reads (fun t => [t]) fun _ => True :=
  fun _ _ _ => token_eq_ok_iff.trans (and_iff_left trivial).symm

theorem token_bind_failsOn {t : Token} {f : Token → Reader β} (hf : (f t).FailsOn ts e) :
    (token >>= f).FailsOn (t :: ts) fun p => e (p + 1) :=
  reads_token.bind_failsOn trivial hf

theorem check_bind_failsOn {wanted : Bool} {y : Except Error α} {f : Unit → Reader β}
    (h : wanted = true → ∃ a, y = .ok a) (hf : (f ()).FailsOn ts e) :
    (check wanted y >>= f).FailsOn ts e := by
  intro c hc
  rw [bind_of_eq_ok (check_eq_ok_iff.2 ⟨h, rfl⟩)]
  exact hf c hc

/-- A count in front of the tokens is read, if they are as many as it says. -/
theorem count_bind_failsOn {n : Nat} {f : Nat → Reader β} (hn : n < UInt16.size)
    (hle : n ≤ ts.length) (hf : (f n).FailsOn ts e) :
    (count >>= f).FailsOn (.ofNat n :: ts) fun p => e (p + 1) := by
  intro c h
  obtain ⟨m, hm, hprefix⟩ := Cursor.exists_passes_of_cons_prefix h
  obtain ⟨us, hrest⟩ := hprefix
  obtain ⟨m₁, hm₁, -⟩ := Cursor.exists_passes hrest.symm
  have hcount := count_readsCounts.eq_ok hn hm hm₁ hle
  obtain ⟨m', he⟩ := hf m ⟨us, hrest⟩
  exact ⟨m', by rw [bind_of_eq_ok hcount, he, hm.pos_eq]; rfl⟩

/-- **Of values in a row the first that fails decides.** -/
theorem Reads.repeated_failsOn (hx : x.Reads layout P) {as : List α} {n : Nat}
    (has : ∀ a ∈ as, P a) (hn : as.length < n) (hts : x.FailsOn ts e) :
    (Reader.repeated n x).FailsOn (as.flatMap layout ++ ts)
      fun p => e (p + (as.flatMap layout).length) := by
  induction as generalizing n with
  | nil =>
    obtain ⟨n, rfl⟩ := Nat.exists_eq_succ_of_ne_zero (Nat.ne_of_gt hn)
    rw [repeated_succ]
    exact hts.bind _
  | cons a as ih =>
    obtain ⟨ha, has'⟩ := List.forall_mem_cons.1 has
    obtain ⟨n, rfl⟩ := Nat.exists_eq_succ_of_ne_zero (Nat.ne_zero_of_lt hn)
    have hrest := (ih has' (Nat.lt_of_succ_lt_succ hn)).bind fun as => pure (a :: as)
    have hfirst := hx.bind_failsOn (f := fun a => do return a :: (← Reader.repeated n x)) ha hrest
    rw [repeated_succ, List.flatMap_cons, List.append_assoc, List.length_append]
    simpa only [Nat.add_assoc] using hfirst

/-- Values in a row fail alike if the first of them is kept apart from the others. -/
theorem FailsOn.of_repeated_succ {n : Nat} {g : α → List α → β}
    (h : (Reader.repeated (n + 1) x).FailsOn ts e) :
    (do let a ← x; let as ← Reader.repeated n x; return g a as).FailsOn ts e := by
  intro c hc
  obtain ⟨m, hm⟩ := h c hc
  simp only [repeated_succ, bind_eq_error_iff, pure_ne_error, and_false, exists_false,
    or_false] at hm
  simp only [bind_eq_error_iff, pure_ne_error, and_false, exists_false, or_false]
  exact ⟨m, hm⟩

/-- **A damage to one of several values in a row is found behind those in front of it.** -/
theorem Reads.repeated_failsOn_set (hx : x.Reads layout P) {as : List α} (bs : List α) {i : Nat}
    {v : Token} (has : ∀ a ∈ as, P a) (hi : i < (layout a).length)
    (ha : x.FailsOn ((layout a).set i v) e) :
    (Reader.repeated (as ++ a :: bs).length x).FailsOn
      (((as ++ a :: bs).flatMap layout).set ((as.flatMap layout).length + i) v)
      fun p => e (p + (as.flatMap layout).length) := by
  have hlt : as.length < (as ++ a :: bs).length := by simp
  rw [set_flatMap layout as a bs hi]
  exact hx.repeated_failsOn has hlt (ha.append _)

end Reader

end MemberCatalog
