/-
# Conversations with a reader

Whatever a caller asks of a cursor and whatever fails on the way, nothing of the stream is lost.  A
request takes one token or none (`Request.turn_passes`), so a conversation takes the tokens between
the cursor it starts from and the cursor it leaves, each once and in order (`Cursor.after_passes`).
The caller can tell which: a read and a count hand over the token they take, and a count that is
refused names it by the place that it would have reached (`Turn.taken`).

`Cursor.after_faithful` says so of every conversation about a stream, with what the next request
answers then in terms of the stream.
-/

import MemberCatalog.Reader.Request
import MemberCatalog.Proofs.Reader.Success

namespace MemberCatalog

/-- **What a turn takes from the stream**, as far as its caller can see.  A count that is refused
takes its token too, and the error points as far behind the cursor as the token says. -/
def Turn.taken (turn : Turn) : List Nat :=
  match turn.request, turn.outcome with
  | .token, .ok (.number n) => [n]
  | .count, .ok (.number n) => [n]
  | .count, .error (.outOfBounds position _) =>
    if turn.cursor.pos < position then [position - turn.cursor.pos] else []
  | _, _ => []

namespace Cursor

theorem head?_rest_eq_some_iff {c : Cursor} {t : Token} :
    c.rest.head? = some t ↔ ∃ m, c.Passes [t] m := by
  rw [List.head?_eq_some_iff]
  constructor
  · rintro ⟨us, hus⟩
    have hrest : c.rest = [t] ++ us := hus
    obtain ⟨m, hm, -⟩ := exists_passes hrest
    exact ⟨m, hm⟩
  · rintro ⟨m, hm⟩
    exact ⟨m.rest, hm.rest_eq⟩

/-- A cursor stands at the end of its stream, or there is a token that it can pass. -/
theorem rest_eq_nil_or_exists_passes (c : Cursor) : c.rest = [] ∨ ∃ t m, c.Passes [t] m := by
  cases h : c.rest.head? with
  | none => exact .inl (List.head?_eq_none_iff.1 h)
  | some t => exact .inr ⟨t, head?_rest_eq_some_iff.1 h⟩

end Cursor

/-! ### One request -/

namespace Request

variable {request : Request} {c m : Cursor} {t : Token}

theorem turn_of_answer_eq_ok {reply : Reply} (h : request.answer c = .ok reply m) :
    request.turn c = ⟨request, .ok reply, m⟩ := by
  rw [turn, step, h]

theorem turn_of_answer_eq_error {e : Error} (h : request.answer c = .error e m) :
    request.turn c = ⟨request, .error e, m⟩ := by
  rw [turn, step, h]

theorem turn_token_of_passes (h : c.Passes [t] m) :
    token.turn c = ⟨token, .ok (.number t.toNat), m⟩ :=
  turn_of_answer_eq_ok (Reader.bind_of_eq_ok (Reader.token_eq_ok_iff.2 h) _)

/-- **A count takes its token, and refuses it afterwards** if too few tokens follow. -/
theorem turn_count_of_passes (h : c.Passes [t] m) :
    count.turn c = ⟨count, if t.toNat ≤ m.rest.length then .ok (.number t.toNat)
      else .error (.outOfBounds (m.pos + t.toNat) m.len), m⟩ := by
  have hcount := Reader.count_of_passes h
  by_cases hle : t.toNat ≤ m.rest.length
  · rw [if_neg (Nat.not_lt.2 hle)] at hcount
    rw [if_pos hle]
    exact turn_of_answer_eq_ok (Reader.bind_of_eq_ok hcount _)
  · rw [if_pos (Nat.lt_of_not_le hle)] at hcount
    rw [if_neg hle]
    exact turn_of_answer_eq_error (Reader.bind_of_eq_error hcount _)

/-- At the end of the stream a read fails, and so does a count. -/
theorem turn_of_rest_eq_nil (h : c.rest = []) :
    token.turn c = ⟨token, .error (.outOfBounds c.pos c.len), c⟩ ∧
      count.turn c = ⟨count, .error (.outOfBounds c.pos c.len), c⟩ := by
  have hread := Reader.token_eq_error_iff.2 ⟨h, rfl, rfl⟩
  have hcount : Reader.count c = .error (.outOfBounds c.pos c.len) c :=
    Reader.bind_of_eq_error hread _
  exact ⟨turn_of_answer_eq_error (Reader.bind_of_eq_error hread _),
    turn_of_answer_eq_error (Reader.bind_of_eq_error hcount _)⟩

/-- A count is accepted exactly if as many tokens follow its token as it says. -/
theorem turn_count_eq_ok_iff {n : Nat} : (count.turn c).outcome = .ok (.number n) ↔
    ∃ t m, c.Passes [t] m ∧ t.toNat = n ∧ n ≤ m.rest.length := by
  constructor
  · intro h
    rcases c.rest_eq_nil_or_exists_passes with hnil | ⟨t, m, hm⟩
    · rw [(turn_of_rest_eq_nil hnil).2] at h
      cases h
    · rw [turn_count_of_passes hm] at h
      dsimp only at h
      split at h
      · cases h
        exact ⟨t, m, hm, rfl, ‹_›⟩
      · cases h
  · rintro ⟨t, m, hm, rfl, hle⟩
    rw [turn_count_of_passes hm]
    exact if_pos hle

/-- **To peek is to learn what a read would answer**, and to leave it unread. -/
theorem turn_peek (c : Cursor) : peek.turn c = ⟨peek, (token.turn c).outcome, c⟩ := by
  obtain ⟨pos, rest, len, h⟩ := c
  cases rest with
  | nil => rfl
  | cons t rest => rfl

/-- **A token follows exactly if a read succeeds.** -/
theorem turn_hasMore (c : Cursor) :
    hasMore.turn c = ⟨hasMore, .ok (.truth (token.turn c).outcome.isOk), c⟩ := by
  have hturn : hasMore.turn c = ⟨hasMore, .ok (.truth c.hasMore), c⟩ := rfl
  rcases c.rest_eq_nil_or_exists_passes with h | ⟨t, m, h⟩
  · have hmore : c.hasMore = false := by simpa [h] using c.hasMore_iff
    rw [hturn, (turn_of_rest_eq_nil h).1, hmore]
    rfl
  · have hmore : c.hasMore = true := c.hasMore_iff.2 (by simp [h.rest_eq])
    rw [hturn, turn_token_of_passes h, hmore]
    rfl

/-- All requests but a read and a count leave the cursor where it is. -/
theorem exists_turn_eq (htoken : request ≠ token) (hcount : request ≠ count) (c : Cursor) :
    ∃ outcome, request.turn c = ⟨request, outcome, c⟩ := by
  cases request with
  | token => exact absurd rfl htoken
  | count => exact absurd rfl hcount
  | peek => exact ⟨_, turn_peek c⟩
  | _ => exact ⟨_, rfl⟩

/-- **What one request takes.**  The cursor moves on behind the tokens that the caller sees the
turn take. -/
theorem turn_passes (request : Request) (c : Cursor) :
    ∃ ts, c.Passes ts (request.turn c).cursor ∧
      (request.turn c).taken = ts.map UInt16.toNat := by
  by_cases htoken : request = token
  · subst htoken
    rcases c.rest_eq_nil_or_exists_passes with h | ⟨t, m, h⟩
    · rw [(turn_of_rest_eq_nil h).1]
      exact ⟨[], Cursor.passes_nil.2 rfl, rfl⟩
    · rw [turn_token_of_passes h]
      exact ⟨[t], h, rfl⟩
  by_cases hcount : request = count
  · subst hcount
    rcases c.rest_eq_nil_or_exists_passes with h | ⟨t, m, h⟩
    · rw [(turn_of_rest_eq_nil h).2]
      exact ⟨[], Cursor.passes_nil.2 rfl, if_neg (Nat.lt_irrefl _)⟩
    · rw [turn_count_of_passes h]
      refine ⟨[t], h, ?_⟩
      split
      · rfl
      · -- a count that is refused is not `0`, so its error points behind the cursor
        have hlt : m.pos < m.pos + t.toNat := by omega
        simp [Turn.taken, hlt]
  · obtain ⟨outcome, hturn⟩ := exists_turn_eq htoken hcount c
    rw [hturn]
    refine ⟨[], Cursor.passes_nil.2 rfl, ?_⟩
    simp [Turn.taken, htoken, hcount]

end Request

/-! ### One request after the other -/

namespace Cursor

variable {c : Cursor}

/-- Requests that are neither reads nor counts leave the cursor where it is, however many. -/
theorem after_eq_self {requests : List Request} (htoken : .token ∉ requests)
    (hcount : .count ∉ requests) : c.after requests = c := by
  induction requests with
  | nil => rfl
  | cons request requests ih =>
    rw [List.mem_cons, not_or] at htoken hcount
    obtain ⟨outcome, hturn⟩ := request.exists_turn_eq (Ne.symm htoken.1) (Ne.symm hcount.1) c
    rw [after, List.foldl_cons, hturn]
    exact ih htoken.2 hcount.2

/-- **What a conversation takes.**  The cursor moves on behind the tokens that the caller sees the
turns take, one after the other. -/
theorem after_passes (c : Cursor) (requests : List Request) :
    ∃ ts, c.Passes ts (c.after requests) ∧
      (c.turns requests).flatMap Turn.taken = ts.map UInt16.toNat := by
  induction requests generalizing c with
  | nil => exact ⟨[], passes_nil.2 rfl, rfl⟩
  | cons request requests ih =>
    obtain ⟨ts, hts, htaken⟩ := request.turn_passes c
    obtain ⟨us, hus, hrest⟩ := ih (request.turn c).cursor
    refine ⟨ts ++ us, hts.trans hus, ?_⟩
    rw [turns, List.flatMap_cons, htaken, hrest, List.map_append]

theorem after_append (c : Cursor) (requests more : List Request) :
    c.after (requests ++ more) = (c.after requests).after more :=
  List.foldl_append

theorem turns_append (c : Cursor) (requests more : List Request) :
    c.turns (requests ++ more) = c.turns requests ++ (c.after requests).turns more := by
  induction requests generalizing c with
  | nil => rfl
  | cons request requests ih => rw [List.cons_append, turns, ih]; rfl

/-! ### Places in a stream -/

variable {tokens ts : List Token}

/-- The token at the place of a cursor is the one that follows next. -/
theorem getElem?_pos (h : (ofTokens tokens).Passes ts c) : tokens[c.pos]? = c.rest.head? := by
  obtain ⟨htokens, hpos, -⟩ := ofTokens_passes h
  rw [htokens, hpos, List.getElem?_append_right (Nat.le_refl _), Nat.sub_self,
    List.head?_eq_getElem?]

theorem length_eq_of_passes {t : Token} {m : Cursor} (h : (ofTokens tokens).Passes ts c)
    (hm : c.Passes [t] m) : tokens.length = c.pos + 1 + m.rest.length := by
  obtain ⟨-, -, hlen⟩ := ofTokens_passes h
  rw [← hlen, c.len_eq, hm.length_rest, List.length_singleton, Nat.add_assoc]

/-- A count is accepted exactly if the stream holds as many tokens behind it as it says. -/
theorem turn_count_eq_ok_iff_getElem? (h : (ofTokens tokens).Passes ts c) {n : Nat} :
    (Request.count.turn c).outcome = .ok (.number n) ↔
      ∃ t, tokens[c.pos]? = some t ∧ t.toNat = n ∧ c.pos + 1 + n ≤ tokens.length := by
  rw [getElem?_pos h, Request.turn_count_eq_ok_iff]
  constructor
  · rintro ⟨t, m, hm, hn, hle⟩
    refine ⟨t, head?_rest_eq_some_iff.2 ⟨m, hm⟩, hn, ?_⟩
    rw [length_eq_of_passes h hm]
    exact Nat.add_le_add_left hle _
  · rintro ⟨t, hhead, hn, hle⟩
    obtain ⟨m, hm⟩ := head?_rest_eq_some_iff.1 hhead
    rw [length_eq_of_passes h hm] at hle
    exact ⟨t, m, hm, hn, Nat.le_of_add_le_add_left hle⟩

/-- **A conversation tells the truth about the stream**, whatever fails on the way.  The cursor
stays within the stream and never moves back, and the tokens that the caller has seen taken are
those in front of it, in order.  From there the conversation goes on.  How much lies before and
behind the cursor, and whether the stream is empty, is answered as it is; a peek answers what the
next read will, also in failure, and a token is announced exactly if that read succeeds.  None of
these questions moves the cursor.  A read and a count move it by one token if there is one, whether
the count is accepted or not, and fail without moving it if there is none.  A count is accepted
exactly if as many tokens follow its token as it says. -/
theorem after_faithful (tokens : List Token) (requests : List Request) :
    let start := ofTokens tokens
    let c := start.after requests
    let read := Request.token.turn c
    let counted := Request.count.turn c
    (c.pos ≤ tokens.length ∧
      (start.turns requests).flatMap Turn.taken = (tokens.take c.pos).map UInt16.toNat ∧
      c.rest = tokens.drop c.pos) ∧
    (∀ more, start.turns (requests ++ more) = start.turns requests ++ c.turns more ∧
      c.pos ≤ (start.after (requests ++ more)).pos) ∧
    ((Request.position.turn c).outcome = .ok (.number c.pos) ∧
      (Request.remaining.turn c).outcome = .ok (.number (tokens.length - c.pos)) ∧
      (Request.len.turn c).outcome = .ok (.number tokens.length) ∧
      (Request.isEmpty.turn c).outcome = .ok (.truth (tokens.length == 0)) ∧
      (Request.hasMore.turn c).outcome = .ok (.truth read.outcome.isOk) ∧
      (Request.peek.turn c).outcome = read.outcome) ∧
    (∀ asked, .token ∉ asked → .count ∉ asked → c.after asked = c) ∧
    (∀ t, tokens[c.pos]? = some t → read.outcome = .ok (.number t.toNat) ∧
      read.cursor.pos = c.pos + 1 ∧ counted.cursor.pos = c.pos + 1) ∧
    (tokens[c.pos]? = none → read = ⟨.token, .error (.outOfBounds c.pos tokens.length), c⟩ ∧
      counted = ⟨.count, .error (.outOfBounds c.pos tokens.length), c⟩) ∧
    ∀ n, counted.outcome = .ok (.number n) ↔
      ∃ t, tokens[c.pos]? = some t ∧ t.toNat = n ∧ c.pos + 1 + n ≤ tokens.length := by
  intro start c read counted
  obtain ⟨ts, hts, htaken⟩ := after_passes start requests
  obtain ⟨htokens, hpos, hlen⟩ := ofTokens_passes hts
  have hnext : tokens[c.pos]? = c.rest.head? := getElem?_pos hts
  refine ⟨⟨hlen ▸ c.pos_le_len, ?_, ?_⟩, fun more => ⟨turns_append start requests more, ?_⟩,
    ⟨rfl, ?_, ?_, ?_, ?_, ?_⟩, fun asked => after_eq_self, fun t ht => ?_, fun hnone => ?_,
    fun n => turn_count_eq_ok_iff_getElem? hts⟩
  · rw [htaken, hpos, htokens, List.take_left]
  · rw [htokens, hpos, List.drop_left]
  · obtain ⟨us, hus, -⟩ := after_passes c more
    rw [after_append, hus.pos_eq]
    exact Nat.le_add_right _ _
  · rw [← hlen]
    rfl
  · rw [← hlen]
    rfl
  · rw [← hlen]
    rfl
  · rw [Request.turn_hasMore]
  · rw [Request.turn_peek]
  · obtain ⟨m, hm⟩ := head?_rest_eq_some_iff.1 (hnext ▸ ht)
    have hread : read = ⟨.token, .ok (.number t.toNat), m⟩ := Request.turn_token_of_passes hm
    have hcounted : counted.cursor = m := congrArg Turn.cursor (Request.turn_count_of_passes hm)
    rw [hread, hcounted]
    exact ⟨rfl, hm.pos_eq, hm.pos_eq⟩
  · have hnil : c.rest = [] := List.head?_eq_none_iff.1 (hnext ▸ hnone)
    rw [← hlen]
    exact Request.turn_of_rest_eq_nil hnil

/-- A count is accepted, a token is peeked at and read, and the next count asks for more than is
left.  It is refused behind its token, so the token behind it is read next, and then there is none;
of the four tokens none is missing and none is taken twice. -/
theorem after_faithful_refusedCount :
    let start := ofTokens [2, 7, 5, 9]
    let requests := [.count, .peek, .token]
    let c := start.after requests
    let asked := [.remaining, .peek, .hasMore]
    (.token ∉ asked ∧ .count ∉ asked ∧ c.after asked = c) ∧
    (Request.count.turn c).outcome = .error (.outOfBounds 8 4) ∧
    (Request.count.turn c).cursor.pos = 3 ∧
    (start.turns (requests ++ [.count, .token, .token])).flatMap Turn.taken = [2, 7, 5, 9] := by
  intro start requests c asked
  obtain ⟨-, -, -, hquiet, hsome, -⟩ := after_faithful [2, 7, 5, 9] requests
  obtain ⟨⟨-, htaken, -⟩, -⟩ := after_faithful [2, 7, 5, 9] (requests ++ [.count, .token, .token])
  have htoken : .token ∉ asked := by decide
  have hcount : .count ∉ asked := by decide
  exact ⟨⟨htoken, hcount, hquiet asked htoken hcount⟩, rfl, (hsome 5 rfl).2.2, htaken⟩

end Cursor

end MemberCatalog
