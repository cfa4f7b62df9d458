/-
# Decoders count what readers hand down

`x.Follows k y` says that the computation `x`, started with `k` types open, does what the reader `y`
does, and closes again every type that it opens, whether it succeeds or fails.  A signature read
within a limit is read with as many levels left as the open types leave of the limit
(`TypeSig.follows_decode`).  With no type open a decoder therefore reads records as
`MemberRecord.read` does, and has no type open afterwards (`MemberRecord.follows_decode`).
-/

import MemberCatalog.Decode.Session
import MemberCatalog.Proofs.Reader.Success

namespace MemberCatalog

namespace Decoding

variable {α β : Type} {k limit : Nat}

/-- **With `k` types open, `x` does what the reader `y` does**, and leaves `k` types open. -/
def Follows (k : Nat) (x : Decoding α) (y : Reader α) : Prop := ∀ c, x ⟨c, k⟩ = lift y ⟨c, k⟩

theorem follows_lift (y : Reader α) : Follows k (liftM y) y := fun _ => rfl

theorem follows_pure (a : α) : Follows k (pure a) (pure a) := fun _ => rfl

theorem follows_throw (e : Error) : Follows k (throw e : Decoding α) (throw e) := fun _ => rfl

/-- Of two computations in a row the second starts at the depth at which the first one ended, which
is the depth at which that one started. -/
theorem Follows.bind {x : Decoding α} {y : Reader α} {f : α → Decoding β} {g : α → Reader β}
    (hx : Follows k x y) (hf : ∀ a, Follows k (f a) (g a)) : Follows k (x >>= f) (y >>= g) := by
  intro c
  have hc := hx c
  cases h : y c with
  | ok a c' =>
    simp only [lift, h] at hc
    simp only [Bind.bind, EStateM.bind, hc, lift, h]
    exact hf a c'
  | error e c' =>
    simp only [lift, h] at hc
    simp only [Bind.bind, EStateM.bind, hc, lift, h]

theorem Follows.repeated {x : Decoding α} {y : Reader α} (hx : Follows k x y) (n : Nat) :
    Follows k (Decoding.repeated n x) (Reader.repeated n y) := by
  induction n with
  | zero => exact follows_pure []
  | succ n ih =>
    rw [repeated_succ, Reader.repeated_succ]
    exact hx.bind fun a => ih.bind fun as => follows_pure (a :: as)

/-- Below the limit a type is opened, and closed in any case. -/
theorem Follows.nested {x : Decoding α} {y : Reader α} (hx : Follows (k + 1) x y)
    (hk : k < limit) : Follows k (nested limit x) y := by
  intro c
  have hc := hx c
  simp only [Decoding.nested, if_neg (Nat.not_le.2 hk), hc, lift]
  cases y c with
  | ok a c' => rfl
  | error e c' => rfl

/-- At the limit no type is opened. -/
theorem follows_nested_of_le (x : Decoding α) (hk : limit ≤ k) :
    Follows k (nested limit x) (throw (.recursionLimit limit)) := by
  intro c
  simp only [Decoding.nested, if_pos hk]
  rfl

end Decoding

open Decoding

/-- **The open types and the levels left make up the limit.**  The fuel is never used up, for the
count of open types refuses to go beyond the limit. -/
theorem TypeSig.follows_decode {limit fuel : Nat} (k : Nat) (hle : k ≤ limit)
    (hfuel : limit < k + fuel) :
    Follows k (TypeSig.decode limit fuel) (TypeSig.readWith Reader.count limit (limit - k)) := by
  induction fuel generalizing k with
  | zero => omega
  | succ fuel ih =>
    rcases Nat.lt_or_ge k limit with hk | hk
    · obtain ⟨budget, hbudget⟩ := Nat.exists_eq_add_of_lt hk
      have hinner := ih (k + 1) hk (by omega)
      have hleft : limit - (k + 1) = budget := by omega
      have hlevels : limit - k = budget + 1 := by omega
      rw [hleft] at hinner
      rw [hlevels]
      refine Follows.nested ?_ hk
      refine (follows_lift _).bind fun position => (follows_lift _).bind fun word => ?_
      cases Tag.ofToken? word with
      | none => exact follows_throw _
      | some tag =>
        cases tag with
        | typeHandle => exact (follows_lift _).bind fun h => follows_pure _
        | modifier m => exact hinner.bind fun t => follows_pure _
        | typeParam | methodParam => exact (follows_lift _).bind fun i => follows_pure _
        | inst =>
          refine (follows_lift _).bind fun opening => ?_
          split
          · exact (follows_lift _).bind fun d => (follows_lift _).bind fun n =>
              (hinner.repeated n).bind fun args => follows_pure _
          · exact follows_throw _
    · rw [Nat.sub_eq_zero_of_le hk]
      exact follows_nested_of_le _ hk

theorem MemberShape.follows_decode (limit : Nat) (kind? : Option MemberKind) :
    Follows 0 (MemberShape.decode limit kind?)
      (MemberShape.readWith Reader.count limit kind?) := by
  have htype : Follows 0 (TypeSig.decode limit (limit + 1))
      (TypeSig.readWith Reader.count limit limit) :=
    TypeSig.follows_decode 0 (Nat.zero_le limit) (by omega)
  unfold MemberShape.decode MemberShape.readWith
  split
  · exact htype.bind fun t => follows_pure _
  · exact (follows_lift _).bind fun n => htype.bind fun t =>
      (htype.repeated n).bind fun ps => follows_pure _

/-- **With no type open a decoder reads a record as a reader does**, and has no type open
afterwards. -/
theorem MemberRecord.follows_decode (config : DecoderConfig) :
    Follows 0 (MemberRecord.decode config) (MemberRecord.read config) := by
  refine (follows_lift _).bind fun bits => (follows_lift _).bind fun _ => ?_
  refine (follows_lift _).bind fun d => (follows_lift _).bind fun arity => ?_
  refine (MemberShape.follows_decode _ _).bind fun s => ?_
  exact (follows_lift _).bind fun _ => (follows_lift _).bind fun _ => follows_pure _

namespace Decoder

variable {config : DecoderConfig}

theorem extend_eq (n index : Nat) (done : List Entry) (c : Cursor) :
    extend config n index done c =
      (Run.extend (MemberRecord.read config) n index done c,
        ((Run.extend (MemberRecord.read config) n index done c).cursor : Decoder)) := by
  induction n generalizing index done c with
  | zero => rfl
  | succ n ih =>
    have hc := MemberRecord.follows_decode config c
    cases h : MemberRecord.read config c with
    | ok r c' =>
      simp only [lift, h] at hc
      simp only [extend, Run.extend, hc, h]
      exact ih (index + 1) _ c'
    | error e c' =>
      simp only [lift, h] at hc
      simp only [extend, Run.extend, hc, h]

/-- **A decoder with no type open runs as the readers do**, and has no type open at the end. -/
theorem run_eq (count : Nat) (c : Cursor) :
    run config count c =
      (Run.start (MemberRecord.read config) count c,
        ((Run.start (MemberRecord.read config) count c).cursor : Decoder)) :=
  extend_eq count 0 [] c

end Decoder

namespace DecoderCall

variable {config : DecoderConfig}

/-- A call for a record to a decoder with no type open. -/
theorem perform_record (c : Cursor) :
    record.perform config c = match MemberRecord.read config c with
      | .ok r c' => ⟨.ok (.record r), [], c'⟩
      | .error e c' => ⟨.error e, [], c'⟩ := by
  have hc := MemberRecord.follows_decode config c
  unfold perform
  cases h : MemberRecord.read config c with
  | ok r c' =>
    simp only [lift, h] at hc
    rw [hc]
  | error e c' =>
    simp only [lift, h] at hc
    rw [hc]

/-- A call for a run to a decoder with no type open. -/
theorem perform_records (count : Nat) (c : Cursor) :
    (records count).perform config c =
      ⟨(Run.start (MemberRecord.read config) count c).result.map .records,
        (Run.start (MemberRecord.read config) count c).events,
        (Run.start (MemberRecord.read config) count c).cursor⟩ := by
  simp only [perform, Decoder.run_eq]

/-- Decoding a stream is one call to a new decoder. -/
theorem answer_perform_records (config : DecoderConfig) (tokens : List Token) (count : Nat) :
    ((records count).perform config (.ofTokens tokens)).answer =
      (decodeWith config tokens count).map .records :=
  congrArg Outcome.answer (perform_records count (.ofTokens tokens))

end DecoderCall

end MemberCatalog
