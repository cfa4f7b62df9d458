/-
# Type ids and their handles

An id answers with a handle exactly when it has one (`TypeId.handle_eq_ok_iff`), and every handle
addresses an id that has it (`TypeId.toToken_ofHandle`).  So to answer and to address are inverse to
each other (`TypeId.handle_eq_ok_iff_ofHandle_eq`).
-/

import MemberCatalog.TypeId.Basic

namespace MemberCatalog

namespace TypeId

variable {id : TypeId}

theorem handle_eq_ok_iff {h : Token} : id.handle = .ok h ↔ id.HasHandle ∧ id.toToken = h := by
  cases id with
  | self => simp [handle, HasHandle, toToken]
  | special n => by_cases hn : n < wellKnownBase <;> simp [handle, HasHandle, toToken, hn]
  | wellKnown n =>
    by_cases hn : n < selfHandle - wellKnownBase <;> simp [handle, HasHandle, toToken, hn]

theorem hasHandle_ofHandle (h : Token) : (ofHandle h).HasHandle :=
  (handle_eq_ok_iff.1 (handle_ofHandle h)).1

theorem toToken_ofHandle (h : Token) : (ofHandle h).toToken = h :=
  (handle_eq_ok_iff.1 (handle_ofHandle h)).2

/-- **An id answers with a handle exactly if this handle addresses it.** -/
theorem handle_eq_ok_iff_ofHandle_eq {h : Token} : id.handle = .ok h ↔ ofHandle h = id := by
  constructor
  · intro hid
    obtain ⟨hhas, rfl⟩ := handle_eq_ok_iff.1 hid
    exact ofHandle_toToken hhas
  · rintro rfl
    exact handle_ofHandle h

end TypeId

end MemberCatalog
