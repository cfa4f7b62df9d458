/-
# How decoding fails

A reader only moves forward, whether it succeeds or fails (`Cursor.Reaches`).  Its failure is one
of three damages of the stream, each with the place where it lies, or a refusal, which says nothing
of a place (`Failure`).

`x.FailsOnly refused` says that the reader `x` ends like this and refuses only with the errors
`refused`.  For a reader of signatures that is the nesting limit (`TypeSig.failsOnly_readWith`), and
for a reader of records the checks that the configuration asks for as well
(`MemberRecord.failsOnly_read`).
-/

import MemberCatalog.Proofs.Decode.Record

namespace MemberCatalog

/-- `c'` stands at `c` or behind it, in the same stream. -/
def Cursor.Reaches (c c' : Cursor) : Prop := ∃ ts, c.Passes ts c'

namespace Cursor

variable {c c' m : Cursor}

theorem reaches_refl (c : Cursor) : c.Reaches c := ⟨[], passes_nil.2 rfl⟩

theorem Passes.reaches {ts : List Token} (h : c.Passes ts c') : c.Reaches c' := ⟨ts, h⟩

theorem Reaches.trans (h : c.Reaches m) (h' : m.Reaches c') : c.Reaches c' := by
  obtain ⟨ts, h⟩ := h
  obtain ⟨us, h'⟩ := h'
  exact ⟨ts ++ us, h.trans h'⟩

theorem Reaches.len_eq (h : c.Reaches c') : c'.len = c.len := by
  obtain ⟨ts, h⟩ := h
  exact h.len_eq

/-- Behind a cursor lie the tokens that follow it, without those in between. -/
theorem Reaches.rest_eq_drop (h : c.Reaches c') : c'.rest = c.rest.drop (c'.pos - c.pos) := by
  obtain ⟨ts, h⟩ := h
  rw [h.pos_eq, Nat.add_sub_cancel_left, h.rest_eq, List.drop_left]

end Cursor

/-- **How a reader fails** that starts at `c`: with which error, and at which cursor it stops. -/
inductive Failure (refused : Error → Prop) (c : Cursor) : Error → Cursor → Prop
  /-- Tokens are missing at the end of the stream. -/
  | pastEnd {position : Nat} {c' : Cursor} (h : c.Reaches c') (hle : c.len ≤ position) :
    Failure refused c (.outOfBounds position c.len) c'
  /-- A signature opens with a word that is no tag. -/
  | unknownTag {word : Token} {m c' : Cursor} (h : c.Reaches m) (hword : m.Passes [word] c')
    (htag : Tag.ofToken? word = none) : Failure refused c (.unknownTag word m.pos) c'
  /-- The definition of a generic instance opens with another word than the tag of a type handle. -/
  | definition {word : Token} {m c' : Cursor} (h : c.Reaches m)
    (hword : m.Passes [Tag.inst.token, word] c') (htag : word ≠ Tag.typeHandle.token) :
    Failure refused c (.malformed (.definitionNotHandle m.pos word) none) c'
  /-- The reader refuses what it has read, or to read on. -/
  | refused {e : Error} {c' : Cursor} (h : c.Reaches c') (he : refused e) : Failure refused c e c'

namespace Failure

variable {refused refused' : Error → Prop} {c c' m : Cursor} {e : Error}

theorem reaches (h : Failure refused c e c') : c.Reaches c' := by
  cases h with
  | pastEnd h _ => exact h
  | unknownTag h hword _ => exact h.trans hword.reaches
  | definition h hword _ => exact h.trans hword.reaches
  | refused h _ => exact h

/-- A failure is also one of a reader that starts earlier. -/
theorem of_reaches (hm : c.Reaches m) (h : Failure refused m e c') : Failure refused c e c' := by
  cases h with
  | pastEnd h hle =>
    rw [hm.len_eq] at hle ⊢
    exact .pastEnd (hm.trans h) hle
  | unknownTag h hword htag => exact .unknownTag (hm.trans h) hword htag
  | definition h hword htag => exact .definition (hm.trans h) hword htag
  | refused h he => exact .refused (hm.trans h) he

theorem mono (hsub : ∀ e, refused e → refused' e) (h : Failure refused c e c') :
    Failure refused' c e c' := by
  cases h with
  | pastEnd h hle => exact .pastEnd h hle
  | unknownTag h hword htag => exact .unknownTag h hword htag
  | definition h hword htag => exact .definition h hword htag
  | refused h he => exact .refused h (hsub _ he)

end Failure

namespace Reader

variable {α β : Type} {refused refused' : Error → Prop} {c m : Cursor}

/-- The outcome of a reader that starts at `c`, moves forward, and fails in one of the ways of
`Failure`. -/
def Ends (refused : Error → Prop) (c : Cursor) : EStateM.Result Error Cursor α → Prop
  | .ok _ c' => c.Reaches c'
  | .error e c' => Failure refused c e c'

/-- **The reader moves forward and fails in no other way than those of `Failure`.** -/
def FailsOnly (refused : Error → Prop) (x : Reader α) : Prop := ∀ c, Ends refused c (x c)

theorem Ends.of_reaches {r : EStateM.Result Error Cursor α} (hm : c.Reaches m)
    (h : Ends refused m r) : Ends refused c r := by
  cases r with
  | ok a c' => exact Cursor.Reaches.trans hm h
  | error e c' => exact Failure.of_reaches hm h

theorem Ends.bind {x : Reader α} {f : α → Reader β} (hx : Ends refused c (x m))
    (hf : ∀ a m', x m = .ok a m' → Ends refused c (f a m')) : Ends refused c ((x >>= f) m) := by
  cases hxm : x m with
  | ok a m' =>
    rw [bind_of_eq_ok hxm]
    exact hf a m' hxm
  | error e m' =>
    rw [hxm] at hx
    rw [bind_of_eq_error hxm]
    exact hx

theorem FailsOnly.bind {x : Reader α} {f : α → Reader β} (hx : x.FailsOnly refused)
    (hf : ∀ a, (f a).FailsOnly refused) : (x >>= f).FailsOnly refused := by
  refine fun c => (hx c).bind fun a m hxc => (hf a m).of_reaches ?_
  have hm := hx c
  rw [hxc] at hm
  exact hm

theorem FailsOnly.mono {x : Reader α} (hx : x.FailsOnly refused)
    (hsub : ∀ e, refused e → refused' e) : x.FailsOnly refused' := by
  intro c
  have hc := hx c
  cases hxc : x c with
  | ok a c' =>
    rw [hxc] at hc
    exact hc
  | error e c' =>
    rw [hxc] at hc
    exact Failure.mono hsub hc

theorem failsOnly_pure (a : α) : FailsOnly refused (pure a) := fun c => c.reaches_refl

theorem failsOnly_throw {e : Error} (he : refused e) : FailsOnly refused (throw e : Reader α) :=
  fun c => .refused c.reaches_refl he

theorem failsOnly_token : FailsOnly refused token := by
  intro c
  cases h : token c with
  | ok t c' => exact (token_eq_ok_iff.1 h).reaches
  | error e c' =>
    obtain ⟨pos, rest, len, hlen⟩ := c
    cases rest with
    | nil =>
      cases h
      exact .pastEnd (Cursor.reaches_refl _) (by simp [hlen])
    | cons t ts => cases h

theorem failsOnly_count : FailsOnly refused count := by
  intro c
  refine (failsOnly_token c).bind fun t m ht => ?_
  have hm := token_eq_ok_iff.1 ht
  refine Ends.of_reaches hm.reaches ?_
  show Ends refused m ((if m.remaining < t.toNat then throw _ else pure _ : Reader Nat) m)
  split
  · rename_i hlt
    have := m.len_eq
    rw [m.remaining_eq_length] at hlt
    exact .pastEnd m.reaches_refl (by omega)
  · exact m.reaches_refl

theorem failsOnly_uncheckedCount : FailsOnly refused uncheckedCount :=
  failsOnly_token.bind fun t => failsOnly_pure t.toNat

theorem failsOnly_check {wanted : Bool} {x : Except Error α}
    (h : ∀ e, wanted = true → x = .error e → refused e) : FailsOnly refused (check wanted x) := by
  intro c
  cases wanted with
  | false => exact c.reaches_refl
  | true =>
    cases x with
    | ok a => exact c.reaches_refl
    | error e => exact .refused c.reaches_refl (h e rfl rfl)

theorem FailsOnly.repeated {x : Reader α} (hx : x.FailsOnly refused) (n : Nat) :
    (Reader.repeated n x).FailsOnly refused := by
  induction n with
  | zero => exact failsOnly_pure []
  | succ n ih =>
    rw [repeated_succ]
    exact hx.bind fun a => ih.bind fun as => failsOnly_pure (a :: as)

end Reader

open Reader

/-- **A reader of signatures refuses only to nest deeper than the limit**, if its reader of counts
refuses nothing. -/
theorem TypeSig.failsOnly_readWith {readCount : Reader Nat}
    (hc : readCount.FailsOnly fun _ => False) (limit budget : Nat) :
    (TypeSig.readWith readCount limit budget).FailsOnly (· = .recursionLimit limit) := by
  have hcount : readCount.FailsOnly (· = .recursionLimit limit) := hc.mono fun _ h => h.elim
  induction budget with
  | zero => exact failsOnly_throw rfl
  | succ budget ih =>
    intro c
    refine Ends.bind (x := position) c.reaches_refl fun p m hp => ?_
    obtain ⟨rfl, rfl⟩ := position_eq_ok_iff.1 hp
    refine (failsOnly_token c).bind fun word m hword => ?_
    have hm := token_eq_ok_iff.1 hword
    have hoperands {x : Reader TypeSig} (hx : x.FailsOnly (· = .recursionLimit limit)) :
        Ends (· = .recursionLimit limit) c (x m) := (hx m).of_reaches hm.reaches
    cases htag : Tag.ofToken? word with
    | none => exact .unknownTag c.reaches_refl hm htag
    | some tag =>
      cases tag with
      | typeHandle => exact hoperands (failsOnly_token.bind fun h => failsOnly_pure _)
      | modifier k => exact hoperands (ih.bind fun t => failsOnly_pure _)
      | typeParam | methodParam => exact hoperands (failsOnly_token.bind fun i => failsOnly_pure _)
      | inst =>
        obtain rfl := Tag.ofToken?_eq_some_iff.1 htag
        refine ((failsOnly_token m).of_reaches hm.reaches).bind fun opening m' hopening => ?_
        have hm' := hm.trans (token_eq_ok_iff.1 hopening)
        split
        · have hargs := failsOnly_token.bind fun d => hcount.bind fun n =>
            (ih.repeated n).bind fun args => failsOnly_pure (inst (.ofHandle d) args)
          exact (hargs m').of_reaches hm'.reaches
        · rename_i hne
          exact .definition c.reaches_refl hm' hne

theorem MemberShape.failsOnly_readWith {readCount : Reader Nat}
    (hc : readCount.FailsOnly fun _ => False) (limit : Nat) (kind? : Option MemberKind) :
    (MemberShape.readWith readCount limit kind?).FailsOnly (· = .recursionLimit limit) := by
  have htype := TypeSig.failsOnly_readWith hc limit limit
  unfold MemberShape.readWith
  split
  · exact htype.bind fun t => failsOnly_pure _
  · exact (hc.mono fun _ h => h.elim).bind fun n => htype.bind fun t =>
      (htype.repeated n).bind fun ps => failsOnly_pure _

/-- What a decoder may refuse of a record that the grammar allows. -/
inductive DecoderConfig.Refuses (config : DecoderConfig) : Error → Prop
  /-- Its types nest deeper than the limit. -/
  | nesting : Refuses config (.recursionLimit config.maxNestingDepth)
  /-- Its structure is unsound. -/
  | unsound {fault : RecordFault} (wanted : config.recordValidation = true)
    (h : fault.IsStructural) : Refuses config (.invalidRecord fault)
  /-- A method parameter lies beyond its arity. -/
  | arity {index arity : Token} (wanted : config.arityValidation = true) (h : arity ≤ index) :
    Refuses config (.genericParamOutOfRange index arity)

/-- **A reader of records refuses only what the configuration tells it to.** -/
theorem MemberRecord.failsOnly_readWith {readCount : Reader Nat}
    (hc : readCount.FailsOnly fun _ => False) (config : DecoderConfig) :
    (MemberRecord.readWith readCount config).FailsOnly config.Refuses := by
  have hshape (kind? : Option MemberKind) :
      (MemberShape.readWith readCount config.maxNestingDepth kind?).FailsOnly config.Refuses := by
    refine (MemberShape.failsOnly_readWith hc config.maxNestingDepth kind?).mono ?_
    rintro _ rfl
    exact .nesting
  refine failsOnly_token.bind fun bits => (failsOnly_check fun e hw he => ?_).bind fun _ =>
    failsOnly_token.bind fun d => failsOnly_token.bind fun arity => (hshape _).bind fun s =>
    (failsOnly_check fun e hw he => ?_).bind fun _ =>
    (failsOnly_check fun e hw he => ?_).bind fun _ => failsOnly_pure _
  · obtain ⟨fault, hfault, rfl⟩ := MemberFlags.validKind_error_form he
    exact .unsound hw hfault
  · obtain ⟨fault, hfault, rfl⟩ := checkStructure_error_form he
    exact .unsound hw hfault
  · obtain ⟨_, -, index, -, hle, rfl⟩ := checkArity_error_form he
    exact .arity hw hle

theorem MemberRecord.failsOnly_read (config : DecoderConfig) :
    (MemberRecord.read config).FailsOnly config.Refuses :=
  failsOnly_readWith failsOnly_count config

/-- The error names a cause and no record. -/
def Error.IsCause : Error → Prop
  | record _ _ => False
  | _ => True

theorem Error.inRecord_of_isCause {e : Error} (h : e.IsCause) (i : Nat) :
    e.inRecord i = .record i e := by
  cases e with
  | record => exact h.elim
  | _ => rfl

theorem MemberRecord.isCause_of_readWith_eq_error {readCount : Reader Nat} {config : DecoderConfig}
    {c c' : Cursor} {e : Error} (hc : readCount.FailsOnly fun _ => False)
    (h : MemberRecord.readWith readCount config c = .error e c') : e.IsCause := by
  have hends := failsOnly_readWith hc config c
  rw [h] at hends
  cases hends with
  | pastEnd | unknownTag | definition => trivial
  | refused _ he => cases he <;> trivial

theorem MemberRecord.isCause_of_read_eq_error {config : DecoderConfig} {c c' : Cursor} {e : Error}
    (h : MemberRecord.read config c = .error e c') : e.IsCause :=
  isCause_of_readWith_eq_error failsOnly_count h

end MemberCatalog
