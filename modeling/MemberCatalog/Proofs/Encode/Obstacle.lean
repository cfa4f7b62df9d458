/-
# What stands in the way of a record

A record that is valid may still have no layout that stands for it: a type id in it may have no
handle, or there may be more parameters or type arguments than a count can hold.
`MemberRecord.obstacles` lists what is in the way, in the order in which the record is written, each
as the error that writing would report there.  There is nothing in the way exactly if the record
has a layout (`MemberRecord.obstacles_eq_nil_iff`).

Writing stops at the first obstacle, and what is written by then depends on no id that is in the way
(`TypeSig.proceeds_write`).  A record is checked before it is written.  So its error is
that of the check, or else that of the first obstacle (`MemberRecord.answers_write`).
`encode_cases` says what this means for a list of records.
-/

import MemberCatalog.Proofs.Encode
import MemberCatalog.Proofs.TypeSig.Relabel

namespace MemberCatalog

open Writer

/-! ### Obstacles in writing order -/

/-- An id is in the way if its number lies outside its range. -/
def TypeId.obstacles : TypeId → List Error
  | special n => if n < wellKnownBase then [] else [.typeIdOutOfRange n]
  | wellKnown n => if n < selfHandle - wellKnownBase then [] else [.typeIdOutOfRange n]
  | self => []

/-- A number of things is in the way if it does not fit into a token. -/
def Counted.obstacles (counted : Counted) (n : Nat) : List Error :=
  if n < UInt16.size then [] else [.invalidRecord (.countTooLarge n counted)]

namespace TypeSig

/-- What is in the way at the head of a signature: its id, or its definition and then the number of
its arguments. -/
def headObstacles : TypeSig → List Error
  | direct id => id.obstacles
  | inst d args => d.obstacles ++ Counted.typeArguments.obstacles args.length
  | modified _ _ | typeParam _ | methodParam _ => []

/-- **What is in the way of a signature**, each part before the ones it is made of. -/
def obstacles (t : TypeSig) : List Error := t.parts.flatMap headObstacles

end TypeSig

/-- **What is in the way of a shape**: the number of parameters, the return type and the parameters
in order. -/
def MemberShape.obstacles : MemberShape → List Error
  | field t => t.obstacles
  | invocable t ps =>
    Counted.parameters.obstacles ps.length ++ t.obstacles ++ ps.flatMap TypeSig.obstacles

/-- **What is in the way of a record**: the declaring type, and then the shape. -/
def MemberRecord.obstacles (r : MemberRecord) : List Error :=
  r.declaringType.obstacles ++ r.shape.obstacles

/-! ### Nothing is in the way of a layout -/

theorem TypeId.obstacles_eq_nil_iff {id : TypeId} : id.obstacles = [] ↔ id.HasHandle := by
  cases id <;> simp [obstacles, HasHandle]

theorem Counted.obstacles_eq_nil_iff {counted : Counted} {n : Nat} :
    counted.obstacles n = [] ↔ n < UInt16.size := by
  simp [obstacles]

namespace TypeSig

@[simp]
theorem obstacles_direct (id : TypeId) : (direct id).obstacles = id.obstacles := by
  simp [obstacles, parts, headObstacles]

@[simp]
theorem obstacles_modified (m : Modifier) (t : TypeSig) :
    (modified m t).obstacles = t.obstacles := by
  simp [obstacles, parts, headObstacles]

@[simp]
theorem obstacles_typeParam (i : Token) : (typeParam i).obstacles = [] := rfl

@[simp]
theorem obstacles_methodParam (i : Token) : (methodParam i).obstacles = [] := rfl

@[simp]
theorem obstacles_inst (d : TypeId) (args : List TypeSig) :
    (inst d args).obstacles =
      d.obstacles ++ Counted.typeArguments.obstacles args.length ++ args.flatMap obstacles := by
  rw [obstacles, parts, List.flatMap_cons, partsAll_eq_flatMap, List.flatMap_assoc]
  rfl

theorem headObstacles_eq_nil_iff {t : TypeSig} : t.headObstacles = [] ↔ t.HeadFits := by
  cases t <;>
    simp [headObstacles, HeadFits, TypeId.obstacles_eq_nil_iff, Counted.obstacles_eq_nil_iff]

theorem obstacles_eq_nil_iff {t : TypeSig} : t.obstacles = [] ↔ t.HasLayout := by
  simp only [obstacles, List.flatMap_eq_nil_iff, headObstacles_eq_nil_iff, HasLayout]

end TypeSig

theorem MemberShape.obstacles_eq_nil_iff {s : MemberShape} : s.obstacles = [] ↔ s.HasLayout := by
  cases s with
  | field t =>
    rw [hasLayout_field]
    exact TypeSig.obstacles_eq_nil_iff
  | invocable t ps =>
    simp only [obstacles, hasLayout_invocable, List.append_eq_nil_iff, List.flatMap_eq_nil_iff,
      Counted.obstacles_eq_nil_iff, TypeSig.obstacles_eq_nil_iff, and_assoc]

/-- **Nothing is in the way of a record exactly if it has a layout.** -/
theorem MemberRecord.obstacles_eq_nil_iff {r : MemberRecord} :
    r.obstacles = [] ↔ r.HasLayout := by
  rw [obstacles, List.append_eq_nil_iff, TypeId.obstacles_eq_nil_iff,
    MemberShape.obstacles_eq_nil_iff, hasLayout_iff]

/-! ### Obstacles are of two kinds -/

/-- A number outside the range of its ids, or one too large for a count. -/
def Error.IsObstacle : Error → Prop
  | typeIdOutOfRange _ | invalidRecord (.countTooLarge _ _) => True
  | _ => False

theorem TypeId.isObstacle_of_mem {id : TypeId} : ∀ e ∈ id.obstacles, e.IsObstacle := by
  intro e he
  cases id with
  | self => cases he
  | special n | wellKnown n =>
    simp only [obstacles] at he
    split at he
    · cases he
    · obtain rfl := List.mem_singleton.1 he
      trivial

theorem Counted.isObstacle_of_mem {counted : Counted} {n : Nat} :
    ∀ e ∈ counted.obstacles n, e.IsObstacle := by
  unfold obstacles
  split <;> simp [Error.IsObstacle]

theorem TypeSig.isObstacle_of_mem {t : TypeSig} : ∀ e ∈ t.obstacles, e.IsObstacle := by
  intro e he
  obtain ⟨s, -, hs⟩ := List.mem_flatMap.1 he
  cases s with
  | direct id => exact TypeId.isObstacle_of_mem e hs
  | inst d args =>
    rcases List.mem_append.1 hs with h | h
    · exact TypeId.isObstacle_of_mem e h
    · exact Counted.isObstacle_of_mem e h
  | modified | typeParam | methodParam => cases hs

theorem MemberShape.isObstacle_of_mem {s : MemberShape} : ∀ e ∈ s.obstacles, e.IsObstacle := by
  intro e he
  cases s with
  | field t => exact TypeSig.isObstacle_of_mem e he
  | invocable t ps =>
    rcases List.mem_append.1 he with h | h
    · rcases List.mem_append.1 h with h | h
      · exact Counted.isObstacle_of_mem e h
      · exact TypeSig.isObstacle_of_mem e h
    · obtain ⟨p, -, hp⟩ := List.mem_flatMap.1 h
      exact TypeSig.isObstacle_of_mem e hp

theorem MemberRecord.isObstacle_of_mem {r : MemberRecord} : ∀ e ∈ r.obstacles, e.IsObstacle := by
  intro e he
  rcases List.mem_append.1 he with h | h
  · exact TypeId.isObstacle_of_mem e h
  · exact MemberShape.isObstacle_of_mem e h

/-! ### Writing stops at the first obstacle -/

/-- An id is in the way exactly with the error that its handle answers. -/
theorem TypeId.first_obstacles (id : TypeId) :
    Checks.first id.obstacles = id.handle.map fun _ => () := by
  cases id with
  | self => rfl
  | special n | wellKnown n =>
    simp only [obstacles, handle]
    split <;> rfl

/-- An id is written as the one in its place is, if the latter is another one only for want of a
handle. -/
theorem proceeds_handle {id id' : TypeId} (h : id.YieldsTo id') :
    (handle id).Proceeds (Checks.first id.obstacles) [id'.toToken] := by
  rw [TypeId.first_obstacles]
  unfold handle
  cases hid : id.handle with
  | ok w =>
    obtain ⟨hhas, rfl⟩ := TypeId.handle_eq_ok_iff.1 hid
    rw [h hhas]
    exact proceeds_token id.toToken
  | error e => exact proceeds_throw e _

theorem proceeds_count (n : Nat) (counted : Counted) :
    (count n counted).Proceeds (Checks.first (counted.obstacles n)) [.ofNat n] := by
  unfold count Counted.obstacles
  split
  · exact proceeds_token _
  · exact proceeds_throw _ _

/-- **A signature is written up to its first obstacle**, and as any signature is that has other ids
in the place of those without a handle. -/
theorem TypeSig.proceeds_write {R : TypeId → TypeId → Prop}
    (hR : ∀ id id', R id id' → id.YieldsTo id') {t t' : TypeSig} (h : t.Relabels R t') :
    t.write.Proceeds (Checks.first t.obstacles) t'.layout := by
  induction t generalizing t' with
  | direct id =>
    cases h with
    | direct h =>
      rw [write_direct, obstacles_direct]
      exact (proceeds_token _).seq (proceeds_handle (hR _ _ h))
  | modified m inner ih =>
    cases h with
    | modified _ h =>
      rw [write_modified, obstacles_modified]
      exact (proceeds_token _).seq (ih h)
  | typeParam i | methodParam i =>
    cases h
    exact (proceeds_token _).seq (proceeds_token i)
  | inst d args ih =>
    cases h with
    | inst hd hargs =>
      rw [write_inst, obstacles_inst, List.append_assoc, Checks.first_append, Checks.first_append,
        Checks.first_flatMap, layout_inst, ← hargs.length_eq]
      exact (proceeds_token _).seq <| (proceeds_token _).seq <| (proceeds_handle (hR _ _ hd)).seq <|
        (proceeds_count _ _).seq <| Proceeds.forM (forall₂_args (fun a ha _ => ih a ha) hargs)

/-- In particular as itself. -/
theorem TypeSig.proceeds_write_self (t : TypeSig) :
    t.write.Proceeds (Checks.first t.obstacles) t.layout :=
  proceeds_write (fun _ _ h _ => h.symm) (Relabels.refl Eq.refl t)

theorem MemberShape.proceeds_write (s : MemberShape) :
    s.write.Proceeds (Checks.first s.obstacles) s.layout := by
  cases s with
  | field t => exact t.proceeds_write_self
  | invocable t ps =>
    rw [obstacles, List.append_assoc, Checks.first_append, Checks.first_append,
      Checks.first_flatMap]
    exact (proceeds_count _ _).seq <| t.proceeds_write_self.seq <|
      Proceeds.forM (List.forall₂_same.2 fun p _ => p.proceeds_write_self)

namespace MemberRecord

theorem proceeds_writeUnchecked (r : MemberRecord) :
    r.writeUnchecked.Proceeds (Checks.first r.obstacles) r.layout := by
  rw [obstacles, Checks.first_append]
  exact (proceeds_token _).seq <| (proceeds_handle fun _ => rfl).seq <| (proceeds_token _).seq
    r.shape.proceeds_write

/-- What writing the record comes to: the error of its check, or else that of the first obstacle. -/
def writable (r : MemberRecord) : Except Error Unit := do
  r.validate
  Checks.first r.obstacles

theorem answers_write (r : MemberRecord) : r.write.Answers r.writable := by
  unfold write writable
  cases r.validate with
  | ok => exact r.proceeds_writeUnchecked.answers.atomic
  | error e => exact answers_throw e

theorem writable_eq_ok_iff {r : MemberRecord} :
    r.writable = .ok () ↔ r.validate = .ok () ∧ r.HasLayout := by
  rw [writable, Checks.seq_eq_ok_iff, Checks.first_eq_ok_iff, obstacles_eq_nil_iff]

theorem writable_eq_error_iff {r : MemberRecord} {e : Error} :
    r.writable = .error e ↔
      r.validate = .error e ∨ r.validate = .ok () ∧ r.obstacles.head? = some e := by
  rw [writable, Checks.seq_eq_error_iff, Checks.first_eq_error_iff]

theorem inRecord_of_writable {r : MemberRecord} {e : Error} (h : r.writable = .error e) (i : Nat) :
    e.inRecord i = .record i e := by
  rcases writable_eq_error_iff.1 h with h | ⟨-, h⟩
  · exact inRecord_of_validate h i
  · have hobstacle := isObstacle_of_mem e (List.mem_of_mem_head? h)
    cases e with
    | record => exact hobstacle.elim
    | _ => rfl

end MemberRecord

variable {rs : List MemberRecord} {i : Nat} {e : Error}

/-- Encoding fails in the first record that cannot be written. -/
theorem encode_eq_error_of_writable (h : Checks.FirstFails MemberRecord.writable rs i e) :
    encode rs = .error (.record i e) := by
  obtain ⟨ps, r, qs, rfl, rfl, hps, he⟩ := h.exists_split
  rw [← MemberRecord.inRecord_of_writable he]
  refine encode_eq_error_of_answers (fun p hp => MemberRecord.writable_eq_ok_iff.1 (hps p hp)) ?_
  exact he ▸ r.answers_write

/-- **What encoding accepts, and what it answers otherwise.**  It succeeds exactly if every record
is valid and has a layout: every type id in it has a handle, and its parameters and all type
arguments can be counted by one token.  Otherwise it fails in the first record that is not so, with
the error for which this record is not valid, or else with the first obstacle in it. -/
theorem encode_cases (rs : List MemberRecord) :
    ((∃ tokens, encode rs = .ok tokens) ↔ ∀ r ∈ rs, r.validate = .ok () ∧ r.HasLayout) ∧
    ((∃ r ∈ rs, ¬ (r.validate = .ok () ∧ r.HasLayout)) →
      ∃ i r e, rs[i]? = some r ∧ ¬ (r.validate = .ok () ∧ r.HasLayout) ∧
        (∀ q ∈ rs.take i, q.validate = .ok () ∧ q.HasLayout) ∧
        (r.validate = .error e ∨ r.validate = .ok () ∧ r.obstacles.head? = some e) ∧
        encode rs = .error (.record i e)) := by
  constructor
  · constructor
    · rintro ⟨tokens, h⟩
      exact (encode_eq_ok_iff.1 h).2
    · intro h
      exact ⟨_, encode_eq_ok_iff.2 ⟨rfl, h⟩⟩
  · rintro ⟨r, hr, hne⟩
    rcases Checks.forall_ok_or_firstFails MemberRecord.writable rs with hall | ⟨i, e, hfirst⟩
    · exact absurd (MemberRecord.writable_eq_ok_iff.1 (hall r hr)) hne
    · have hencode := encode_eq_error_of_writable hfirst
      obtain ⟨r, hi, he, hbefore⟩ := hfirst
      refine ⟨i, r, e, hi, fun h => ?_, fun q hq => ?_, ?_, hencode⟩
      · rw [MemberRecord.writable_eq_ok_iff.2 h] at he
        cases he
      · exact MemberRecord.writable_eq_ok_iff.1 (hbefore q hq)
      · exact MemberRecord.writable_eq_error_iff.1 he

/-- A field of the last framework type with a handle, declared by the last special type. -/
def MemberRecord.lastHandles : MemberRecord where
  flags := ⟨0x0002⟩
  declaringType := .special 0x01FF
  arity := 0
  shape := .field (.direct (.wellKnown 0xFDFE))

/-- A method whose parameter applies a definition beyond the framework types to an argument beyond
the special types. -/
def MemberRecord.twoObstacles : MemberRecord where
  flags := ⟨0x0001⟩
  declaringType := .special 0x01FF
  arity := 0
  shape := .invocable (.direct .self) [.modified .array (.inst (.wellKnown 0xFDFF)
    [.direct (.special 0x0200)])]

/-- Of two obstacles in a valid record the first is reported, behind a record that can be
encoded. -/
theorem encode_cases_twoObstacles :
    MemberRecord.twoObstacles.validate = .ok () ∧
    MemberRecord.twoObstacles.obstacles =
      [.typeIdOutOfRange 0xFDFF, .typeIdOutOfRange 0x0200] ∧
    (∃ tokens, encode [.lastHandles] = .ok tokens) ∧
    encode [.lastHandles, .twoObstacles] = .error (.record 1 (.typeIdOutOfRange 0xFDFF)) := by
  have hlast : MemberRecord.lastHandles.validate = .ok () ∧ MemberRecord.lastHandles.HasLayout :=
    ⟨rfl, by decide⟩
  have hvalid : MemberRecord.twoObstacles.validate = .ok () := rfl
  have hobstacles : MemberRecord.twoObstacles.obstacles =
    [.typeIdOutOfRange 0xFDFF, .typeIdOutOfRange 0x0200] := rfl
  have hone := (encode_cases [.lastHandles]).1.2 (List.forall_mem_singleton.2 hlast)
  obtain ⟨i, r, e, hi, hr, -, he, hencode⟩ := (encode_cases [.lastHandles, .twoObstacles]).2
    ⟨.twoObstacles, List.mem_cons_of_mem _ (List.mem_singleton_self _),
      fun h => absurd h.2 (by decide)⟩
  refine ⟨hvalid, hobstacles, hone, ?_⟩
  match i, hi with
  | 0, hi =>
    obtain rfl : MemberRecord.lastHandles = r := Option.some.inj hi
    exact absurd hlast hr
  | 1, hi =>
    obtain rfl : MemberRecord.twoObstacles = r := Option.some.inj hi
    rcases he with he | ⟨-, he⟩
    · rw [hvalid] at he
      cases he
    · rw [hobstacles] at he
      rwa [Option.some.inj he]

end MemberCatalog
