/-
# Streams that break off

`d.IsCutOf c` says that `d` stands where `c` stands, in a stream that may break off earlier.  A
reader that succeeds at `c` sees the same tokens at `d` until they run out.  It can therefore do one
of two things there: answer the same, or read past the end (`Reader.SurvivesCuts`).  The steps that
readers are made of do no other, and neither do the readers made of them.

A count is where a cut shows early.  It may be refused although its token is there, and the place
that the error names lies behind the end of the stream then.
-/

import MemberCatalog.Proofs.Reader.Success

namespace MemberCatalog

/-- `d` stands where `c` stands, in a stream that may break off earlier. -/
structure Cursor.IsCutOf (d c : Cursor) : Prop where
  pos_eq : d.pos = c.pos
  prefix_rest : d.rest <+: c.rest

namespace Reader

variable {α β : Type} {c c' d m : Cursor}

/-- The reader reads past the end of the stream. -/
def RunsOut (x : Reader α) (d : Cursor) : Prop :=
  ∃ position d', d.len ≤ position ∧ x d = .error (.outOfBounds position d.len) d'

/-- **Where the reader succeeds, a cut leaves it two outcomes**: the same answer, or a read past
the end. -/
def SurvivesCuts (x : Reader α) : Prop :=
  ∀ c d c' a, d.IsCutOf c → x c = .ok a c' →
    (∃ d', d'.IsCutOf c' ∧ d'.len = d.len ∧ x d = .ok a d') ∨ x.RunsOut d

theorem survivesCuts_pure (a : α) : SurvivesCuts (pure a) := by
  intro c d c' b hd h
  obtain ⟨rfl, rfl⟩ := pure_eq_ok_iff.1 h
  exact .inl ⟨d, hd, rfl, rfl⟩

theorem survivesCuts_throw (e : Error) : SurvivesCuts (throw e : Reader α) := by
  intro c d c' a _ h
  exact absurd h throw_ne_ok

theorem survivesCuts_position : SurvivesCuts position := by
  intro c d c' n hd h
  obtain ⟨rfl, rfl⟩ := position_eq_ok_iff.1 h
  exact .inl ⟨d, hd, rfl, position_eq_ok_iff.2 ⟨hd.pos_eq, rfl⟩⟩

/-- The next token is the same behind a cut, or there is none. -/
theorem survivesCuts_token : SurvivesCuts token := by
  intro c d c' t hd h
  have hp := token_eq_ok_iff.1 h
  cases hrest : d.rest with
  | nil =>
    obtain ⟨pos, rest, len, hlen⟩ := d
    subst hrest
    exact .inr ⟨pos, _, by simp [hlen], rfl⟩
  | cons u us =>
    have hpre := hd.prefix_rest
    rw [hrest, hp.rest_eq, List.singleton_append, List.cons_prefix_cons] at hpre
    obtain ⟨rfl, hus⟩ := hpre
    have hrest' : d.rest = [u] ++ us := hrest
    obtain ⟨d', hd', rfl⟩ := Cursor.exists_passes hrest'
    refine .inl ⟨d', ⟨?_, hus⟩, hd'.len_eq, token_eq_ok_iff.2 hd'⟩
    rw [hd'.pos_eq, hp.pos_eq, hd.pos_eq]

/-- **Two readers in a row survive cuts if both do.** -/
theorem SurvivesCuts.bind {x : Reader α} {f : α → Reader β} (hx : x.SurvivesCuts)
    (hf : ∀ a, (f a).SurvivesCuts) : (x >>= f).SurvivesCuts := by
  intro c d c' b hd h
  obtain ⟨a, m, hxc, hfm⟩ := bind_eq_ok_iff.1 h
  rcases hx c d m a hd hxc with ⟨d₁, hd₁, hlen₁, hxd⟩ | ⟨position, d₁, hle, hxd⟩
  · rcases hf a m d₁ c' b hd₁ hfm with ⟨d', hd', hlen', hfd⟩ | ⟨position, d', hle, hfd⟩
    · exact .inl ⟨d', hd', hlen'.trans hlen₁, (bind_of_eq_ok hxd f).trans hfd⟩
    · rw [hlen₁] at hle hfd
      exact .inr ⟨position, d', hle, (bind_of_eq_ok hxd f).trans hfd⟩
  · exact .inr ⟨position, d₁, hle, bind_of_eq_error hxd f⟩

/-- A count survives cuts: if too few tokens are left for it, the place it points at lies behind
the end. -/
theorem survivesCuts_count : SurvivesCuts count := by
  intro c d c' n hd h
  obtain ⟨t, hp, rfl⟩ := count_readsCounts.passes h
  rcases survivesCuts_token c d c' t hd (token_eq_ok_iff.2 hp) with
    ⟨d', hd', hlen, ht⟩ | ⟨position, d', hle, ht⟩
  · have hcount := count_of_passes (token_eq_ok_iff.1 ht)
    split at hcount
    · rename_i hlt
      rw [hlen] at hcount
      have := d'.len_eq
      exact .inr ⟨d'.pos + t.toNat, d', by omega, hcount⟩
    · exact .inl ⟨d', hd', hlen, hcount⟩
  · exact .inr ⟨position, d', hle, bind_of_eq_error ht _⟩

theorem survivesCuts_check (wanted : Bool) (x : Except Error α) :
    SurvivesCuts (check wanted x) := by
  intro c d c' u hd h
  obtain ⟨hx, rfl⟩ := check_eq_ok_iff.1 h
  exact .inl ⟨d, hd, rfl, check_eq_ok_iff.2 ⟨hx, rfl⟩⟩

theorem SurvivesCuts.repeated {x : Reader α} (hx : x.SurvivesCuts) (n : Nat) :
    (Reader.repeated n x).SurvivesCuts := by
  induction n with
  | zero => exact survivesCuts_pure []
  | succ n ih =>
    rw [repeated_succ]
    exact hx.bind fun a => ih.bind fun as => survivesCuts_pure (a :: as)

/-- **A layout that breaks off is not read.**  What reads it runs out of tokens. -/
theorem SurvivesCuts.runsOut {x : Reader α} {layout : α → List Token} {P : α → Prop} {a : α}
    (hcuts : x.SurvivesCuts) (hreads : x.Reads layout P) (ha : P a)
    (hpre : d.rest <+: layout a) (hlt : d.rest.length < (layout a).length) : x.RunsOut d := by
  let c : Cursor := ⟨d.pos, layout a, d.pos + (layout a).length, rfl⟩
  obtain ⟨c', hc', -⟩ := Cursor.exists_passes (c := c) (List.append_nil (layout a)).symm
  have hok := (hreads c a c').2 ⟨hc', ha⟩
  rcases hcuts c d c' a ⟨rfl, hpre⟩ hok with ⟨d', -, -, hd'⟩ | h
  · have hlen := ((hreads d a d').1 hd').1.length_rest
    omega
  · exact h

end Reader

end MemberCatalog
