/-
# The early refusal of counts

A count that exceeds the tokens left is refused before any entry behind it is read.  A reader that
takes such a count at its word reads on, and fails as well: every entry takes a token at least, so
the entries cannot all be there (`TypeSig.repeated_eq_error_of_lt`).  It may fail in another way, at
a damage that lies in front of the end.

`x.Forestalls y` says that `x` does what `y` does, but may fail early where `y` fails later on.
Readers made of such readers forestall each other in turn, at any depth of nesting, and so do the
runs over them (`Run.extend_forestalls`).  `decodeWith_forestalls` says what this means for a
stream.
-/

import MemberCatalog.Proofs.Decode.Failure
import MemberCatalog.Proofs.Decode.Run

namespace MemberCatalog

namespace Reader

variable {α β : Type} {refused : Error → Prop} {c m : Cursor}

/-- **The first outcome forestalls the second.**  Both are the same, or both are failures and the
first of them points behind the end of a stream of `len` tokens. -/
inductive ForestallsIn (len : Nat) :
    EStateM.Result Error Cursor α → EStateM.Result Error Cursor α → Prop
  | answer {a : α} {c : Cursor} (h : c.len = len) : ForestallsIn len (.ok a c) (.ok a c)
  | failure (e : Error) (c : Cursor) : ForestallsIn len (.error e c) (.error e c)
  | early {position : Nat} {e : Error} {c c' : Cursor} (h : len < position) :
    ForestallsIn len (.error (.outOfBounds position len) c) (.error e c')

/-- **The reader `x` does what `y` does**, or fails past the end of the stream before `y` fails. -/
def Forestalls (x y : Reader α) : Prop := ∀ c, ForestallsIn c.len (x c) (y c)

/-- A reader that only moves forward stays in its stream. -/
theorem FailsOnly.forestalls_self {x : Reader α} (hx : x.FailsOnly refused) : x.Forestalls x := by
  intro c
  have hends := hx c
  cases hxc : x c with
  | ok a m =>
    rw [hxc] at hends
    exact .answer (Cursor.Reaches.len_eq hends)
  | error e m => exact .failure e m

theorem forestalls_pure (a : α) : Forestalls (pure a) (pure a) := fun _ => .answer rfl

theorem forestalls_throw (e : Error) : Forestalls (throw e : Reader α) (throw e) :=
  fun c => .failure e c

theorem forestalls_position : position.Forestalls position := fun _ => .answer rfl

theorem forestalls_token : token.Forestalls token := by
  have h : token.FailsOnly fun _ => False := failsOnly_token
  exact h.forestalls_self

theorem forestalls_check (wanted : Bool) (x : Except Error α) :
    (check wanted x).Forestalls (check wanted x) := by
  have h : (check wanted x).FailsOnly fun _ => True := failsOnly_check fun _ _ _ => trivial
  exact h.forestalls_self

/-- Two readers in a row forestall two others if each does. -/
theorem Forestalls.bind {x y : Reader α} {f g : α → Reader β} (hx : x.Forestalls y)
    (hf : ∀ a, (f a).Forestalls (g a)) : (x >>= f).Forestalls (y >>= g) := by
  intro c
  have hc := hx c
  generalize hxc : x c = outcome, hyc : y c = outcome' at hc
  cases hc with
  | @answer a m hlen =>
    rw [bind_of_eq_ok hxc, bind_of_eq_ok hyc, ← hlen]
    exact hf a m
  | failure e m =>
    rw [bind_of_eq_error hxc, bind_of_eq_error hyc]
    exact .failure e m
  | early h =>
    rw [bind_of_eq_error hxc, bind_of_eq_error hyc]
    exact .early h

theorem Forestalls.repeated {x y : Reader α} (hx : x.Forestalls y) (n : Nat) :
    (Reader.repeated n x).Forestalls (Reader.repeated n y) := by
  induction n with
  | zero => exact forestalls_pure []
  | succ n ih =>
    rw [repeated_succ, repeated_succ]
    exact hx.bind fun a => ih.bind fun as => forestalls_pure (a :: as)

/-- **A count that is refused forestalls what is read behind it**, if that fails whenever fewer
tokens are left than the count says. -/
theorem forestalls_count_bind {f g : Nat → Reader α} (hf : ∀ n, (f n).Forestalls (g n))
    (hg : ∀ n m, m.rest.length < n → ∃ e m', g n m = .error e m') :
    (count >>= f).Forestalls (uncheckedCount >>= g) := by
  intro c
  cases ht : token c with
  | error e m =>
    have hcount : count c = .error e m := bind_of_eq_error ht _
    have hunchecked : uncheckedCount c = .error e m := bind_of_eq_error ht _
    rw [bind_of_eq_error hcount, bind_of_eq_error hunchecked]
    exact .failure e m
  | ok t m =>
    have hp := token_eq_ok_iff.1 ht
    have hcount := count_of_passes hp
    rw [bind_of_eq_ok (uncheckedCount_of_passes hp), ← hp.len_eq]
    split at hcount
    · rename_i hlt
      obtain ⟨e, m', he⟩ := hg t.toNat m hlt
      have := m.len_eq
      rw [bind_of_eq_error hcount, he]
      exact .early (by omega)
    · rw [bind_of_eq_ok hcount]
      exact hf t.toNat m

end Reader

open Reader

/-! ### Readers of records -/

namespace TypeSig

/-- **More signatures than tokens are not read.** -/
theorem repeated_eq_error_of_lt (limit budget : Nat) {n : Nat} {m : Cursor}
    (h : m.rest.length < n) :
    ∃ e m', repeated n (readWith uncheckedCount limit budget) m = .error e m' := by
  cases hread : repeated n (readWith uncheckedCount limit budget) m with
  | error e m' => exact ⟨e, m', rfl⟩
  | ok ts m' =>
    obtain ⟨hp, rfl, -⟩ :=
      ((reads_readWith uncheckedCount_readsCounts limit budget).repeated n m ts m').1 hread
    have hle := length_le_length_flatMap_layout ts
    have hlen : m.rest.length = (ts.flatMap layout).length + m'.rest.length := hp.length_rest
    omega

theorem forestalls_readWith (limit budget : Nat) :
    (readWith count limit budget).Forestalls (readWith uncheckedCount limit budget) := by
  induction budget with
  | zero => exact forestalls_throw _
  | succ budget ih =>
    refine forestalls_position.bind fun position => forestalls_token.bind fun word => ?_
    split
    · exact forestalls_token.bind fun h => forestalls_pure _
    · exact ih.bind fun t => forestalls_pure _
    · exact forestalls_token.bind fun i => forestalls_pure _
    · exact forestalls_token.bind fun i => forestalls_pure _
    · refine forestalls_token.bind fun opening => ?_
      split
      · refine forestalls_token.bind fun d => forestalls_count_bind
          (fun n => (ih.repeated n).bind fun args => forestalls_pure _) fun n m hlt => ?_
        obtain ⟨e, m', he⟩ := repeated_eq_error_of_lt limit budget hlt
        exact ⟨e, m', bind_of_eq_error he _⟩
      · exact forestalls_throw _
    · exact forestalls_throw _

end TypeSig

theorem MemberShape.forestalls_readWith (limit : Nat) (kind? : Option MemberKind) :
    (MemberShape.readWith count limit kind?).Forestalls
      (MemberShape.readWith uncheckedCount limit kind?) := by
  have htype := TypeSig.forestalls_readWith limit limit
  unfold MemberShape.readWith
  split
  · exact htype.bind fun t => forestalls_pure _
  · refine forestalls_count_bind (fun n => htype.bind fun t => (htype.repeated n).bind fun ps =>
      forestalls_pure _) fun n m hlt => ?_
    -- The return type leaves no more tokens for the parameters.
    cases hreturn : TypeSig.readWith uncheckedCount limit limit m with
    | error e m' => exact ⟨e, m', bind_of_eq_error hreturn _⟩
    | ok t m₁ =>
      have hreads := TypeSig.reads_readWith uncheckedCount_readsCounts limit limit
      have hlen := ((hreads m t m₁).1 hreturn).1.length_rest
      obtain ⟨e, m', he⟩ :=
        TypeSig.repeated_eq_error_of_lt limit limit (n := n) (m := m₁) (by omega)
      exact ⟨e, m', (bind_of_eq_ok hreturn _).trans (bind_of_eq_error he _)⟩

/-- **A reader of records refuses a count only where it would fail anyway.** -/
theorem MemberRecord.forestalls_read (config : DecoderConfig) :
    (MemberRecord.read config).Forestalls (MemberRecord.readWith uncheckedCount config) := by
  refine forestalls_token.bind fun bits => (forestalls_check _ _).bind fun _ => ?_
  refine forestalls_token.bind fun h => forestalls_token.bind fun arity => ?_
  refine (MemberShape.forestalls_readWith _ _).bind fun s => ?_
  exact (forestalls_check _ _).bind fun _ => (forestalls_check _ _).bind fun _ =>
    forestalls_pure _

/-! ### Runs -/

/-- A run with counts refused early is the run without, or both fail in the same record. -/
theorem Run.extend_forestalls {read read' : Reader MemberRecord} (h : read.Forestalls read')
    (n index : Nat) (done : List Entry) (c : Cursor) :
    extend read n index done c = extend read' n index done c ∨
    ∃ i position e, c.len < position ∧
      (extend read n index done c).result =
        .error ((Error.outOfBounds position c.len).inRecord i) ∧
      (∃ m m', read' m = .error e m') ∧
      (extend read' n index done c).result = .error (e.inRecord i) := by
  induction n generalizing index done c with
  | zero => exact .inl rfl
  | succ n ih =>
    have hc := h c
    unfold extend
    generalize hread : read c = outcome, hread' : read' c = outcome' at hc
    cases hc with
    | @answer r m hlen =>
      rw [← hlen]
      exact ih (index + 1) _ m
    | failure e m => exact .inl rfl
    | @early position e m m' hlt =>
      exact .inr ⟨index, position, e, hlt, rfl, ⟨c, m', hread'⟩, rfl⟩

/-- Decodes exactly `count` records with every count taken at its word. -/
def decodeTrusting (config : DecoderConfig) (tokens : List Token) (count : Nat) :
    Except Error (List MemberRecord) :=
  (Run.start (MemberRecord.readWith uncheckedCount config) count (.ofTokens tokens)).result

/-- **The early refusal of counts loses nothing.**  A stream decodes to the same records whether
counts that exceed the tokens left are refused or taken at their word.  A stream that fails to
decode fails with the same error when they are taken at their word, unless it was such a count that
was refused, and then it fails all the same and in the same record. -/
theorem decodeWith_forestalls (config : DecoderConfig) (tokens : List Token) (n : Nat) :
    (∀ rs, decodeWith config tokens n = .ok rs ↔ decodeTrusting config tokens n = .ok rs) ∧
    ∀ e, decodeWith config tokens n = .error e →
      decodeTrusting config tokens n = .error e ∨
      ∃ i position e', e = .record i (.outOfBounds position tokens.length) ∧
        tokens.length < position ∧ decodeTrusting config tokens n = .error (.record i e') := by
  rcases Run.extend_forestalls (MemberRecord.forestalls_read config) n 0 [] (.ofTokens tokens) with
    hsame | ⟨i, position, e', hlt, hearly, ⟨m, m', hfail⟩, hlate⟩
  · have heq : decodeWith config tokens n = decodeTrusting config tokens n :=
      congrArg Run.result hsame
    rw [heq]
    exact ⟨fun rs => Iff.rfl, fun e he => .inl he⟩
  · have hcause := MemberRecord.isCause_of_readWith_eq_error failsOnly_uncheckedCount hfail
    rw [Error.inRecord_of_isCause hcause] at hlate
    have hdecode : decodeWith config tokens n =
      .error (.record i (.outOfBounds position tokens.length)) := hearly
    have htrusting : decodeTrusting config tokens n = .error (.record i e') := hlate
    rw [hdecode, htrusting]
    refine ⟨fun rs => ⟨nofun, nofun⟩, fun e he => .inr ⟨i, position, e', ?_, hlt, rfl⟩⟩
    exact (Except.error.inj he).symm

/-- Taken at their word, the counts of a method and of its generic return type are read as before.
A method that announces nine parameters is refused for their number, and otherwise for its return
type, which opens with no tag. -/
theorem decodeWith_forestalls_sampleStream :
    decodeWith .default MemberRecord.sampleStream 2 = .ok [.staticField, .genericMethod] ∧
    decodeTrusting .default MemberRecord.sampleStream 2 = .ok [.staticField, .genericMethod] ∧
    decodeWith .default [0x41, 20, 0, 9, 0x99] 1 = .error (.record 0 (.outOfBounds 13 5)) ∧
    decodeTrusting .default [0x41, 20, 0, 9, 0x99] 1 = .error (.record 0 (.unknownTag 0x99 4)) := by
  have h : decodeWith .default MemberRecord.sampleStream 2 = .ok [.staticField, .genericMethod] :=
    rfl
  exact ⟨h, ((decodeWith_forestalls .default MemberRecord.sampleStream 2).1 _).1 h, rfl, rfl⟩

end MemberCatalog
