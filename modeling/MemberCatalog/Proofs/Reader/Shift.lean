/-
# Streams with more tokens in front

`c.shift k` is the cursor `c` in the same stream behind `k` more tokens: the same tokens follow, and
the place and the length are larger by `k`.  Every cursor is the start of the tokens that follow it,
shifted by its place (`Cursor.shift_ofTokens_rest`).

A reader cannot tell what lies in front of a cursor, but for the places that its errors name.
`x.ShiftsTo k y` says that `y` does behind `k` more tokens what `x` does without them, with `k`
added to each of these places.  Both readers are the same in the end.  They have to be told apart
on the way there, since a reader that has asked for its position carries a number with it.
-/

import MemberCatalog.Proofs.Reader.Success

namespace MemberCatalog

namespace Cursor

/-- The same place in a stream with `k` more tokens in front. -/
def shift (k : Nat) (c : Cursor) : Cursor :=
  ⟨k + c.pos, c.rest, k + c.len, by rw [c.len_eq, Nat.add_assoc]⟩

theorem remaining_shift (k : Nat) (c : Cursor) : (c.shift k).remaining = c.remaining := by
  rw [remaining_eq_length, remaining_eq_length]
  rfl

theorem hasMore_shift (k : Nat) (c : Cursor) : (c.shift k).hasMore = c.hasMore := by
  rw [Bool.eq_iff_iff, hasMore_iff, hasMore_iff]
  rfl

/-- **A cursor is the start of what follows it**, behind as many tokens as lie before it. -/
theorem shift_ofTokens_rest (c : Cursor) : (ofTokens c.rest).shift c.pos = c :=
  eq_of_pos_of_rest rfl rfl

/-- Behind the tokens `ts` a stream `ts ++ us` goes on like the stream `us`. -/
theorem Passes.eq_shift {ts us : List Token} {m : Cursor}
    (h : (ofTokens (ts ++ us)).Passes ts m) : m = (ofTokens us).shift ts.length := by
  obtain ⟨hrest, hpos, -⟩ := ofTokens_passes h
  rw [List.append_cancel_left hrest, ← hpos, shift_ofTokens_rest]

end Cursor

/-- The damage as it is noticed behind `k` more tokens. -/
def Malformation.shift (k : Nat) : Malformation → Malformation
  | definitionNotHandle position tag => definitionNotHandle (k + position) tag
  | described text => described text

/-- **The error behind `k` more tokens**: every place in the stream that it names, and every length
of the stream, is larger by `k`. -/
def Error.shift (k : Nat) : Error → Error
  | malformed damage location => malformed (damage.shift k) location
  | outOfBounds position len => outOfBounds (k + position) (k + len)
  | unknownTag tag position => unknownTag tag (k + position)
  | trailingTokens consumed len => trailingTokens (k + consumed) (k + len)
  | record index source => record index (source.shift k)
  | e => e

namespace Reader

variable {α β : Type} {k : Nat}

/-- The outcome of a reader behind `k` more tokens. -/
def shiftOutcome (k : Nat) : EStateM.Result Error Cursor α → EStateM.Result Error Cursor α
  | .ok a c => .ok a (c.shift k)
  | .error e c => .error (e.shift k) (c.shift k)

/-- **Behind `k` more tokens `y` does what `x` does without them.** -/
def ShiftsTo (k : Nat) (x y : Reader α) : Prop := ∀ c, y (c.shift k) = shiftOutcome k (x c)

theorem shiftsTo_pure (a : α) : ShiftsTo k (pure a) (pure a) := fun _ => rfl

theorem shiftsTo_throw (e : Error) : ShiftsTo k (throw e : Reader α) (throw (e.shift k)) :=
  fun _ => rfl

theorem shiftsTo_token : ShiftsTo k token token := by
  intro c
  obtain ⟨pos, rest, len, hlen⟩ := c
  cases rest with
  | nil => rfl
  | cons t ts => rfl

/-- Two readers in a row shift if each does, the second one for every value of the first. -/
theorem ShiftsTo.bind {x y : Reader α} {f g : α → Reader β} (hx : ShiftsTo k x y)
    (hf : ∀ a, ShiftsTo k (f a) (g a)) : ShiftsTo k (x >>= f) (y >>= g) := by
  intro c
  have hy := hx c
  cases hxc : x c with
  | ok a m =>
    rw [hxc] at hy
    rw [bind_of_eq_ok hxc, bind_of_eq_ok hy]
    exact hf a m
  | error e m =>
    rw [hxc] at hy
    rw [bind_of_eq_error hxc, bind_of_eq_error hy]
    rfl

/-- A reader that asks for its position learns a number that is larger by `k`. -/
theorem shiftsTo_position_bind {f g : Nat → Reader β} (h : ∀ p, ShiftsTo k (f p) (g (k + p))) :
    ShiftsTo k (position >>= f) (position >>= g) :=
  fun c => h c.pos c

/-- A count is refused for the tokens that follow it, wherever it stands. -/
theorem shiftsTo_count : ShiftsTo k count count := by
  refine shiftsTo_token.bind fun t c => ?_
  show (if (c.shift k).remaining < t.toNat then throw _ else pure _ : Reader Nat) (c.shift k) =
    shiftOutcome k ((if c.remaining < t.toNat then throw _ else pure _ : Reader Nat) c)
  rw [Cursor.remaining_shift]
  split
  · show EStateM.Result.error (Error.outOfBounds (k + c.pos + t.toNat) (k + c.len)) (c.shift k) = _
    rw [Nat.add_assoc]
    rfl
  · rfl

/-- A check shifts if its error names no place. -/
theorem shiftsTo_check {wanted : Bool} {x : Except Error α}
    (h : ∀ e, x = .error e → e.shift k = e) : ShiftsTo k (check wanted x) (check wanted x) := by
  intro c
  cases wanted with
  | false => rfl
  | true =>
    cases x with
    | ok a => rfl
    | error e =>
      show EStateM.Result.error e _ = .error (e.shift k) _
      rw [h e rfl]

theorem ShiftsTo.repeated {x y : Reader α} (hx : ShiftsTo k x y) (n : Nat) :
    ShiftsTo k (Reader.repeated n x) (Reader.repeated n y) := by
  induction n with
  | zero => exact shiftsTo_pure []
  | succ n ih =>
    rw [repeated_succ, repeated_succ]
    exact hx.bind fun a => ih.bind fun as => shiftsTo_pure (a :: as)

end Reader

end MemberCatalog
