/-
# Writing records into a shared buffer

A record is written whole or not at all (`MemberRecord.write_appends`): either the call appends what
encoding the record alone would give, or it leaves the buffer as it was and fails as encoding the
record alone would.  So the buffer behind any number of calls holds the records that could be
written, in order and one layout behind the other (`WriteSession.buffer_start`).

`WriteSession.start_atomic` states what a caller sees of this.
-/

import MemberCatalog.Encode.Session
import MemberCatalog.Proofs.Encode.Obstacle
import MemberCatalog.Proofs.RoundTrip

namespace MemberCatalog

open Writer

/-! ### One record -/

namespace MemberRecord

/-- **A record is written whole or not at all.**  What cannot be written is refused before the first
token or taken back. -/
theorem write_appends (r : MemberRecord) :
    ((r.validate = .ok () ∧ r.HasLayout) ∧ r.write.Appends (.ok ()) r.layout) ∨
      ∃ e, r.write.Appends (.error e) [] := by
  by_cases h : r.validate = .ok () ∧ r.HasLayout
  · exact .inl ⟨h, r.writes_write.appends h⟩
  · right
    cases hv : r.validate with
    | error e =>
      refine ⟨e, ?_⟩
      rw [write, hv]
      exact appends_throw e
    | ok =>
      have hl : ¬ r.HasLayout := fun hl => h ⟨hv, hl⟩
      obtain ⟨e, us, hfail⟩ :=
        r.writes_writeUnchecked.exists_appends_error ⟨_, r.proceeds_writeUnchecked.answers⟩ hl
      refine ⟨e, ?_⟩
      rw [write, hv]
      exact hfail.atomic_of_error

end MemberRecord

variable {r : MemberRecord} {ts : List Token} {e : Error}

/-- Encoding one record alone is writing it into an empty buffer. -/
theorem encode_singleton_of_ok (h : r.write.Appends (.ok ()) ts) : encode [r] = .ok ts := by
  simp only [encode, MemberRecord.writeAll, bind, EStateM.bind, EStateM.adaptExcept, h.eq_ok]
  exact congrArg Except.ok (Buffer.toList_append .empty ts)

theorem encode_singleton_of_error (h : r.write.Appends (.error e) ts) :
    encode [r] = .error (e.inRecord 0) := by
  simp only [encode, MemberRecord.writeAll, bind, EStateM.bind, EStateM.adaptExcept, h.eq_error]

/-! ### Record by record -/

namespace WriteCall

/-- The call succeeds and appends what encoding its record alone gives, or it fails as encoding the
record alone does and leaves the buffer as it was. -/
def IsAtomic (call : WriteCall) : Prop :=
  (call.answer = .ok () ∧ ∃ ts, encode [call.record] = .ok ts ∧
    call.after.toList = call.before.toList ++ ts) ∨
  ∃ e, call.answer = .error e ∧ encode [call.record] = .error (e.inRecord 0) ∧
    call.after = call.before

theorem make_of_appends {b : Buffer} {answer : Except Error Unit}
    (h : r.write.Appends answer ts) : make b r = ⟨r, answer, b, b.append ts⟩ := by
  rw [make, h b]

theorem isAtomic_make (b : Buffer) (r : MemberRecord) : (make b r).IsAtomic := by
  rcases r.write_appends with ⟨-, h⟩ | ⟨e, h⟩
  · rw [make_of_appends h]
    exact .inl ⟨rfl, r.layout, encode_singleton_of_ok h, b.toList_append r.layout⟩
  · rw [make_of_appends h]
    exact .inr ⟨e, rfl, encode_singleton_of_error h, b.append_nil⟩

end WriteCall

namespace WriteSession

theorem map_record_start (b : Buffer) (rs : List MemberRecord) :
    (start b rs).calls.map WriteCall.record = rs := by
  induction rs generalizing b with
  | nil => rfl
  | cons r rs ih => rw [start, List.map_cons, ih]; rfl

theorem isAtomic_of_mem_start {b : Buffer} {rs : List MemberRecord} {call : WriteCall}
    (h : call ∈ (start b rs).calls) : call.IsAtomic := by
  induction rs generalizing b with
  | nil => exact absurd h List.not_mem_nil
  | cons r rs ih =>
    rcases List.mem_cons.1 h with rfl | h
    · exact WriteCall.isAtomic_make b r
    · exact ih h

variable {b : Buffer} {rs : List MemberRecord} {answer : Except Error Unit}

theorem buffer_start_cons (h : r.write.Appends answer ts) :
    (start b (r :: rs)).buffer = (start (b.append ts) rs).buffer := by
  simp only [start, WriteCall.make_of_appends h]

theorem written_start_cons_of_ok (h : r.write.Appends (.ok ()) ts) :
    (start b (r :: rs)).written = r :: (start (b.append ts) rs).written := by
  simp only [start, WriteCall.make_of_appends h]
  rfl

theorem written_start_cons_of_error (h : r.write.Appends (.error e) ts) :
    (start b (r :: rs)).written = (start (b.append ts) rs).written := by
  simp only [start, WriteCall.make_of_appends h]
  rfl

/-- **The buffer holds the records that could be written**, one layout behind the other. -/
theorem buffer_start (b : Buffer) (rs : List MemberRecord) :
    (start b rs).buffer = b.append ((start b rs).written.flatMap MemberRecord.layout) ∧
      ∀ r ∈ (start b rs).written, r.validate = .ok () ∧ r.HasLayout := by
  induction rs generalizing b with
  | nil => exact ⟨b.append_nil.symm, nofun⟩
  | cons r rs ih =>
    rcases r.write_appends with ⟨hr, h⟩ | ⟨e, h⟩
    · obtain ⟨hbuffer, hall⟩ := ih (b.append r.layout)
      rw [written_start_cons_of_ok h, buffer_start_cons h, hbuffer, Buffer.append_append,
        List.flatMap_cons]
      exact ⟨rfl, List.forall_mem_cons.2 ⟨hr, hall⟩⟩
    · rw [written_start_cons_of_error h, buffer_start_cons h, Buffer.append_nil]
      exact ih b

/-- **Writing record by record is atomic.**  Each call appends what encoding its record alone gives,
or fails as that does and leaves the buffer as it was.  So the buffer ends up with what it held
before and then the encodings of the records whose calls succeeded, in order.  If it was empty, it
decodes to these records. -/
theorem start_atomic (b : Buffer) (rs : List MemberRecord) :
    let session := start b rs
    session.calls.map WriteCall.record = rs ∧
    (∀ call ∈ session.calls, call.IsAtomic) ∧
    (∃ encodings : List (List Token),
      session.written.map (fun r => encode [r]) = encodings.map .ok ∧
      session.buffer.toList = b.toList ++ encodings.flatten) ∧
    (b = .empty →
      decode session.buffer.toList session.written.length = .ok session.written) := by
  obtain ⟨hbuffer, hall⟩ := buffer_start b rs
  have htokens : (start b rs).buffer.toList =
      b.toList ++ (start b rs).written.flatMap MemberRecord.layout := by
    rw [hbuffer, Buffer.toList_append]
  refine ⟨map_record_start b rs, fun call hcall => isAtomic_of_mem_start hcall, ?_, ?_⟩
  · refine ⟨(start b rs).written.map MemberRecord.layout, ?_, ?_⟩
    · rw [List.map_map]
      refine List.map_congr_left fun r hr => ?_
      exact encode_singleton_of_ok (r.writes_write.appends (hall r hr))
    · rw [htokens, ← List.flatMap_def]
  · rintro rfl
    rw [decode_eq_ok_iff, encode_eq_ok_iff]
    exact ⟨rfl, htokens, hall⟩

/-- A field of an array whose element type applies a definition to a type without a handle.  The
record is valid, and the obstacle comes last of all that is written. -/
def fieldWithoutLayout : MemberRecord where
  flags := ⟨0x0002⟩
  declaringType := .special 20
  arity := 0
  shape := .field (.modified .array (.inst (.wellKnown 7) [.direct (.special 0x300)]))

/-- A field, one that cannot be written to its end, and a method: the second call takes back what it
wrote, and the buffer decodes to the other two records. -/
theorem start_atomic_fieldWithoutLayout :
    fieldWithoutLayout.validate = .ok () ∧
    (start .empty [.staticField, fieldWithoutLayout, .genericMethod]).calls.map WriteCall.answer =
      [.ok (), .error (.typeIdOutOfRange 0x300), .ok ()] ∧
    (start .empty [.staticField, fieldWithoutLayout, .genericMethod]).buffer.toList =
      MemberRecord.sampleStream ∧
    decode MemberRecord.sampleStream 2 = .ok [.staticField, .genericMethod] := by
  refine ⟨rfl, rfl, rfl, ?_⟩
  exact (start_atomic .empty [.staticField, fieldWithoutLayout, .genericMethod]).2.2.2 rfl

end WriteSession

end MemberCatalog
