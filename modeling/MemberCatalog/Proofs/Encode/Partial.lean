/-
# What a failed signature leaves behind

Writing a signature is not taken back when it fails.  What it leaves behind is the beginning of a
layout (`TypeSig.write_cases`): of its own, which it does not finish, and likewise of the layout
of any signature that is as it should have been, with ids that have handles in the place of those
that have none.
-/

import MemberCatalog.Proofs.Encode.Obstacle

namespace MemberCatalog

open Writer

namespace TypeSig

variable {t t' : TypeSig} {ts : List Token}

/-- What stands before the first obstacle is the beginning of what a repaired signature is encoded
as. -/
theorem Relabels.isPrefix_of_appends (h : t.Relabels TypeId.RepairsTo t')
    (hcount : ∀ d args, .inst d args ∈ t.parts → args.length < UInt16.size)
    (hts : t.write.Appends (Checks.first t.obstacles) ts) :
    ∃ b, t'.write .empty = .ok () b ∧ ts <+: b.toList := by
  obtain ⟨b, hb⟩ := Buffer.exists_toList_eq t'.layout
  have hlayout : t'.HasLayout := h.hasLayout (fun _ _ hid => hid.hasHandle) hcount
  obtain ⟨us, hus, hpre, -⟩ := proceeds_write (fun _ _ hid => hid.yieldsTo) h
  refine ⟨b, (t'.writes_write .empty b).2 ⟨hb, hlayout⟩, ?_⟩
  rw [hb, hts.eq_of_appends hus]
  exact hpre

/-- **What writing a signature does to a buffer.**  It answers and appends the same whatever
stands in the buffer.  It succeeds exactly if the signature has a layout, which is then what it
appends, in as many tokens as the signature takes.  Otherwise it fails with the first obstacle and
has appended fewer tokens by then.  They are the beginning of what the signature would be encoded
as with ids that have handles in the place of those that have none, provided that all type
arguments can be counted. -/
theorem write_cases (t : TypeSig) :
    ∃ answer ts, (∀ b, ∃ b', t.write.outcome b = (answer, b') ∧ b'.toList = b.toList ++ ts) ∧
      (answer = .ok () ↔ t.HasLayout) ∧
      (answer = .ok () → ts = t.layout ∧ ts.length = t.tokenLen) ∧
      ∀ e, answer = .error e →
        t.obstacles.head? = some e ∧ ts.length < t.tokenLen ∧
        ((∀ d args, .inst d args ∈ t.parts → args.length < UInt16.size) →
          ∀ t', t.Relabels TypeId.RepairsTo t' →
            ∃ b, t'.write .empty = .ok () b ∧ ts <+: b.toList) := by
  obtain ⟨ts, hts, hpre, hend⟩ := t.proceeds_write_self
  refine ⟨Checks.first t.obstacles, ts, fun b => ⟨b.append ts, hts b, b.toList_append ts⟩, ?_,
    fun h => ?_, fun e he => ⟨Checks.first_eq_error_iff.1 he, ?_, ?_⟩⟩
  · rw [Checks.first_eq_ok_iff, obstacles_eq_nil_iff]
  · obtain rfl := hend.1 h
    exact ⟨rfl, t.length_layout⟩
  · rw [← t.length_layout]
    refine Nat.lt_of_le_of_ne hpre.length_le fun hlen => ?_
    rw [hend.2 (hpre.eq_of_length hlen)] at he
    cases he
  · exact fun hcount t' h => h.isPrefix_of_appends hcount hts

/-- An array of a generic instance with two arguments. -/
def arrayOfPairs (first second : TypeId) : TypeSig :=
  .modified .array (.inst (.wellKnown 7) [.direct first, .direct second])

/-- Of two arguments without a handle the first is in the way.  Behind a token that stood there,
six of the nine tokens are left, which also begin the signature with two ids that have handles. -/
theorem write_cases_arrayOfPairs :
    (∃ b, (arrayOfPairs (.special 0x0200) (.wellKnown 0xFDFF)).write.outcome ⟨[9]⟩ =
        (.error (.typeIdOutOfRange 0x0200), b) ∧
      b.toList = [9] ++ [0x1D, 0x15, 0x40, 0x0207, 2, 0x40]) ∧
    6 < (arrayOfPairs (.special 0x0200) (.wellKnown 0xFDFF)).tokenLen ∧
    (arrayOfPairs (.special 0x0200) (.wellKnown 0xFDFF)).Relabels TypeId.RepairsTo
      (arrayOfPairs (.special 20) .self) ∧
    ∃ b, (arrayOfPairs (.special 20) .self).write .empty = .ok () b ∧
      [0x1D, 0x15, 0x40, 0x0207, 2, 0x40] <+: b.toList := by
  obtain ⟨answer, ts, hwrite, -, -, herror⟩ :=
    write_cases (arrayOfPairs (.special 0x0200) (.wellKnown 0xFDFF))
  obtain ⟨b, hb, htokens⟩ := hwrite ⟨[9]⟩
  obtain ⟨rfl, rfl⟩ := Prod.mk.inj hb
  obtain rfl := (List.append_right_inj [9]).1 htokens
  obtain ⟨-, hlen, hrepair⟩ := herror _ rfl
  have hrelabels : (arrayOfPairs (.special 0x0200) (.wellKnown 0xFDFF)).Relabels TypeId.RepairsTo
      (arrayOfPairs (.special 20) .self) := by
    refine .modified _ (.inst ?_ (.cons (.direct ?_) (.cons (.direct ?_) .nil)))
    · exact ⟨by decide, fun _ => rfl⟩
    · exact ⟨by decide, fun h => absurd h (by decide)⟩
    · exact ⟨by decide, fun h => absurd h (by decide)⟩
  refine ⟨⟨_, rfl, rfl⟩, hlen, hrelabels, hrepair (fun d args hmem => ?_) _ hrelabels⟩
  -- the only generic instance in it has two arguments
  simp only [arrayOfPairs, parts, partsAll, List.mem_cons, reduceCtorEq, false_or, inst.injEq,
    List.append_nil, List.cons_append, List.nil_append, List.not_mem_nil, or_false] at hmem
  rw [hmem.2]
  decide

end TypeSig

end MemberCatalog
