/-
# Records are written in their layouts

A signature, a shape or a record is written exactly if it has a layout, and the layout is what is
written (`TypeSig.writes_write`, `MemberRecord.writes_write`).  A list of records is encoded exactly
if all of them are valid and have a layout (`encode_eq_ok_iff`).

Behind records that can be encoded, the first record that cannot be written decides the answer
(`encode_eq_error_of_answers`).
-/

import MemberCatalog.Encode
import MemberCatalog.Proofs.Member.Validity
import MemberCatalog.Proofs.Writer.Append

namespace MemberCatalog

open Writer

/-- **A signature is written in its layout**, if it has one. -/
theorem TypeSig.writes_write (t : TypeSig) : t.write.Writes t.layout t.HasLayout := by
  induction t with
  | direct id =>
    have h := (writes_token Tag.typeHandle.token).seq (writes_handle id)
    simpa using h
  | modified m inner ih =>
    have h := (writes_token (Tag.modifier m).token).seq ih
    simpa using h
  | typeParam i =>
    have h := (writes_token Tag.typeParam.token).seq (writes_token i)
    simpa using h
  | methodParam i =>
    have h := (writes_token Tag.methodParam.token).seq (writes_token i)
    simpa using h
  | inst d args ih =>
    have h := (writes_token Tag.inst.token).seq <| (writes_token Tag.typeHandle.token).seq <|
      (writes_handle d).seq <| (writes_count args.length .typeArguments).seq <| Writes.forM ih
    simpa using h

/-- **A shape is written in its layout**, if it has one. -/
theorem MemberShape.writes_write (s : MemberShape) : s.write.Writes s.layout s.HasLayout := by
  cases s with
  | field t =>
    rw [hasLayout_field]
    exact t.writes_write
  | invocable t ps =>
    rw [hasLayout_invocable]
    exact (writes_count ps.length .parameters).seq <| t.writes_write.seq <|
      Writes.forM fun p _ => p.writes_write

namespace MemberRecord

theorem writes_writeUnchecked (r : MemberRecord) :
    r.writeUnchecked.Writes r.layout r.HasLayout := by
  rw [hasLayout_iff]
  have h := (writes_token r.flags.bits).seq <| (writes_handle r.declaringType).seq <|
    (writes_token r.arity).seq r.shape.writes_write
  simpa [writeUnchecked, layout] using h

/-- **A record is written in its layout**, if it is valid and has one. -/
theorem writes_write (r : MemberRecord) :
    r.write.Writes r.layout (r.validate = .ok () ∧ r.HasLayout) := by
  unfold write
  split
  · rename_i hv
    simpa [hv] using r.writes_writeUnchecked.atomic
  · rename_i e hv
    simpa [hv] using writes_throw e r.layout

/-- **Records are written in their layouts, one behind the other.** -/
theorem writes_writeAll (index : Nat) (rs : List MemberRecord) :
    (writeAll index rs).Writes (rs.flatMap layout)
      (∀ r ∈ rs, r.validate = .ok () ∧ r.HasLayout) := by
  induction rs generalizing index with
  | nil => simpa [writeAll] using writes_pure
  | cons r rs ih =>
    rw [List.flatMap_cons, List.forall_mem_cons]
    exact (r.writes_write.adaptExcept (Error.inRecord index)).seq (ih (index + 1))

/-- Behind records that are written the rest of a list is written as if it stood alone, with
numbers that go on. -/
theorem writeAll_append {index : Nat} {ps qs : List MemberRecord} {b m : Buffer}
    (h : writeAll index ps b = .ok () m) :
    writeAll index (ps ++ qs) b = writeAll (index + ps.length) qs m := by
  induction ps generalizing index b with
  | nil =>
    cases h
    rfl
  | cons p ps ih =>
    obtain ⟨m₁, h₁, h₂⟩ := seq_eq_ok_iff.1 h
    have hstep : writeAll index (p :: ps ++ qs) b = writeAll (index + 1) (ps ++ qs) m₁ := by
      rw [List.cons_append, writeAll]
      simp only [bind, EStateM.bind, h₁]
    rw [hstep, ih h₂, List.length_cons, Nat.add_assoc, Nat.add_comm 1]

end MemberRecord

variable {rs ps qs : List MemberRecord} {r : MemberRecord} {tokens : List Token} {e : Error}

/-- **Encoding answers exactly with the layouts of valid records that have one.** -/
theorem encode_eq_ok_iff :
    encode rs = .ok tokens ↔
      tokens = rs.flatMap MemberRecord.layout ∧ ∀ r ∈ rs, r.validate = .ok () ∧ r.HasLayout := by
  have h := MemberRecord.writes_writeAll 0 rs Buffer.empty
  unfold encode
  split
  · rename_i b hb
    obtain ⟨htokens, hall⟩ := (h b).1 hb
    rw [htokens, Buffer.toList_empty, List.nil_append, Except.ok.injEq, eq_comm]
    exact (and_iff_left hall).symm
  · rename_i e b hb
    refine ⟨nofun, fun ⟨_, hall⟩ => ?_⟩
    obtain ⟨b', hb'⟩ := Buffer.exists_toList_eq (rs.flatMap MemberRecord.layout)
    have hok := (h b').2 ⟨by rw [hb']; rfl, hall⟩
    rw [hb] at hok
    cases hok

/-- The first record that cannot be written decides the answer, if the records before it can be
encoded. -/
theorem encode_eq_error_of_answers (hps : ∀ p ∈ ps, p.validate = .ok () ∧ p.HasLayout)
    (hr : r.write.Answers (.error e)) :
    encode (ps ++ r :: qs) = .error (e.inRecord ps.length) := by
  obtain ⟨m, hm⟩ := Buffer.exists_toList_eq (ps.flatMap MemberRecord.layout)
  have hwrite := (MemberRecord.writes_writeAll 0 ps Buffer.empty m).2 ⟨by rw [hm]; rfl, hps⟩
  obtain ⟨ts, hr⟩ := hr
  rw [encode, MemberRecord.writeAll_append hwrite, MemberRecord.writeAll]
  simp only [bind, EStateM.bind, EStateM.adaptExcept, hr.eq_error m, Nat.zero_add]

/-- In particular a record that is not valid. -/
theorem encode_eq_error_of_validate (hps : ∀ p ∈ ps, p.validate = .ok () ∧ p.HasLayout)
    (hr : r.validate = .error e) :
    encode (ps ++ r :: qs) = .error (e.inRecord ps.length) := by
  refine encode_eq_error_of_answers hps ?_
  rw [MemberRecord.write, hr]
  exact answers_throw e

end MemberCatalog
