/-
# The tokens between two cursors

`c.Passes ts c'` says that the tokens `ts` are the next ones at the cursor `c` and that `c'` stands
right behind them.  One may pass any tokens that follow (`exists_passes`), and passing two sequences
in a row is stopping somewhere between them (`passes_append`).
-/

import MemberCatalog.Reader.Basic

namespace MemberCatalog

namespace Cursor

/-- The tokens `ts` follow the cursor `c`, and `c'` stands right behind them. -/
structure Passes (c : Cursor) (ts : List Token) (c' : Cursor) : Prop where
  rest_eq : c.rest = ts ++ c'.rest
  pos_eq : c'.pos = c.pos + ts.length

variable {c c' m : Cursor} {ts us : List Token}

/-- A cursor is its position and the tokens that follow; the length of the stream is their sum. -/
theorem eq_of_pos_of_rest (hpos : c.pos = c'.pos) (hrest : c.rest = c'.rest) : c = c' := by
  obtain ⟨pos, rest, len, h⟩ := c
  obtain ⟨pos', rest', len', h'⟩ := c'
  subst hpos hrest h h'
  rfl

namespace Passes

theorem len_eq (h : c.Passes ts c') : c'.len = c.len := by
  have hlen := congrArg List.length h.rest_eq
  have hpos := h.pos_eq
  rw [List.length_append] at hlen
  rw [c'.len_eq, c.len_eq]
  omega

theorem length_rest (h : c.Passes ts c') : c.rest.length = ts.length + c'.rest.length := by
  rw [h.rest_eq, List.length_append]

theorem trans (h : c.Passes ts m) (h' : m.Passes us c') : c.Passes (ts ++ us) c' where
  rest_eq := by rw [h.rest_eq, h'.rest_eq, List.append_assoc]
  pos_eq := by rw [h'.pos_eq, h.pos_eq, List.length_append, Nat.add_assoc]

end Passes

@[simp]
theorem passes_nil : c.Passes [] c' ↔ c' = c := by
  constructor
  · intro h
    exact eq_of_pos_of_rest h.pos_eq h.rest_eq.symm
  · rintro rfl
    exact ⟨rfl, rfl⟩

/-- Behind any tokens that follow a cursor there is a place to stand. -/
theorem exists_passes (h : c.rest = ts ++ us) : ∃ m, c.Passes ts m ∧ m.rest = us := by
  refine ⟨⟨c.pos + ts.length, us, c.len, ?_⟩, ⟨h, rfl⟩, rfl⟩
  rw [c.len_eq, h, List.length_append, Nat.add_assoc]

/-- Passing one token sequence after another is stopping between them. -/
theorem passes_append : c.Passes (ts ++ us) c' ↔ ∃ m, c.Passes ts m ∧ m.Passes us c' := by
  constructor
  · intro h
    have hrest : c.rest = ts ++ (us ++ c'.rest) := by rw [h.rest_eq, List.append_assoc]
    obtain ⟨m, hm, hrest'⟩ := exists_passes hrest
    refine ⟨m, hm, hrest', ?_⟩
    rw [h.pos_eq, hm.pos_eq, List.length_append, Nat.add_assoc]
  · rintro ⟨m, hm, hm'⟩
    exact hm.trans hm'

theorem passes_cons {t : Token} :
    c.Passes (t :: ts) c' ↔ ∃ m, c.Passes [t] m ∧ m.Passes ts c' := by
  rw [← List.singleton_append]
  exact passes_append

/-- The start of a stream passes all of it exactly when the stream is what is passed. -/
theorem ofTokens_passes {tokens : List Token} (h : (ofTokens tokens).Passes ts c') :
    tokens = ts ++ c'.rest ∧ c'.pos = ts.length ∧ c'.len = tokens.length :=
  ⟨h.rest_eq, h.pos_eq.trans (Nat.zero_add _), h.len_eq⟩

end Cursor

end MemberCatalog
