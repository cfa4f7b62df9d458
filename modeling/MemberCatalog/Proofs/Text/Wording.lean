/-
# What messages tell

A message quotes numbers among fixed words.  No digit stands next to a number, so the number can be
read back from the end of a text (`Text.append_toString_inj`), and so can a word of the stream from
its four hexadecimal digits (`Token.hex_injective`).

The message of a damage therefore tells the place and the word (`Malformation.Quotes.unique`), and
the messages of the errors around a damage end in it (`Error.damage_message_suffix`).  What is
reported of an event, its level and its wording, tells the event (`Event.report_injective`).
-/

import MemberCatalog.Error
import MemberCatalog.Event

namespace MemberCatalog

/-! ### Numbers in a text -/

namespace Text

theorem toList_toString (n : Nat) : (toString n).toList = Nat.toDigits 10 n := by
  rw [Nat.toString_eq_repr, Nat.toList_repr]

theorem isDigit_of_mem_toString {n : Nat} {c : Char} (h : c ∈ (toString n).toList) : c.isDigit :=
  Nat.isDigit_of_mem_toDigits (by decide) (by decide) (toList_toString n ▸ h)

theorem toString_injective {n m : Nat} (h : toString n = toString m) : n = m := by
  have hdigits : Nat.toDigits 10 n = Nat.toDigits 10 m := by
    rw [← toList_toString, ← toList_toString, h]
  calc
    n = Nat.ofDigitChars 10 (Nat.toDigits 10 n) 0 := Nat.ofDigitChars_ten_toDigits.symm
    _ = Nat.ofDigitChars 10 (Nat.toDigits 10 m) 0 := by rw [hdigits]
    _ = m := Nat.ofDigitChars_ten_toDigits

/-- Digits at the end of a text are those behind the last character that is none. -/
theorem takeWhile_isDigit_reverse {us ds : List Char} {c : Char} (hc : c.isDigit = false)
    (hds : ∀ d ∈ ds, d.isDigit) :
    (us ++ [c] ++ ds).reverse.takeWhile Char.isDigit = ds.reverse := by
  rw [List.reverse_append, List.takeWhile_append_of_pos (by simpa using hds), List.reverse_append,
    List.reverse_singleton, List.singleton_append, List.takeWhile_cons_of_neg (by simp [hc]),
    List.append_nil]

/-- **A number at the end of a text is read back from it**, if no digit stands in front of it. -/
theorem append_toString_inj {a b sep : String} {n m : Nat}
    (hsep : sep.toList.getLast?.any (fun c => !c.isDigit) = true)
    (h : a ++ sep ++ toString n = b ++ sep ++ toString m) : a = b ∧ n = m := by
  obtain ⟨c, hlast, hc⟩ := (Option.any_eq_true _ _).1 hsep
  obtain ⟨us, hus⟩ := List.getLast?_eq_some_iff.1 hlast
  have hread (s : String) (k : Nat) :
      (s ++ sep ++ toString k).toList.reverse.takeWhile Char.isDigit =
        (toString k).toList.reverse := by
    rw [String.toList_append, String.toList_append, hus, ← List.append_assoc]
    exact takeWhile_isDigit_reverse (by simpa using hc) fun d => isDigit_of_mem_toString
  have hdigits : (toString n).toList.reverse = (toString m).toList.reverse := by
    rw [← hread a, ← hread b, h]
  obtain rfl : n = m := toString_injective (String.toList_inj.1 (List.reverse_inj.1 hdigits))
  exact ⟨(String.append_left_inj _).1 ((String.append_left_inj _).1 h), rfl⟩

/-- Of two equal texts the ends of one length are equal. -/
theorem append_inj_of_length_eq {a b s t : String} (hlen : s.length = t.length)
    (h : a ++ s = b ++ t) : a = b ∧ s = t := by
  have hlist : a.toList ++ s.toList = b.toList ++ t.toList := by
    rw [← String.toList_append, h, String.toList_append]
  have hlen : s.toList.length = t.toList.length := by
    rw [String.length_toList, String.length_toList, hlen]
  obtain ⟨ha, hs⟩ := List.append_inj' hlist hlen
  exact ⟨String.toList_inj.1 ha, String.toList_inj.1 hs⟩

end Text

/-! ### Words in hexadecimal digits -/

namespace Token

variable {s t : Token} {weight : Nat}

theorem eq_of_toUpper_digitChar_eq : ∀ a < 16, ∀ b < 16,
    (Nat.digitChar a).toUpper = (Nat.digitChar b).toUpper → a = b := by decide

theorem mod_eq_of_hexDigit_eq (h : s.hexDigit weight = t.hexDigit weight) :
    s.toNat / weight % 16 = t.toNat / weight % 16 :=
  eq_of_toUpper_digitChar_eq _ (Nat.mod_lt _ (by decide)) _ (Nat.mod_lt _ (by decide)) h

theorem length_hex (t : Token) : t.hex.length = 4 := by
  simp [hex]

/-- **A word is told by its hexadecimal digits.** -/
theorem hex_injective (h : s.hex = t.hex) : s = t := by
  simp only [hex, String.ofList_inj, List.map_cons, List.map_nil, List.cons.injEq, and_true] at h
  obtain ⟨h₃, h₂, h₁, h₀⟩ := h
  have d₃ := mod_eq_of_hexDigit_eq h₃
  have d₂ := mod_eq_of_hexDigit_eq h₂
  have d₁ := mod_eq_of_hexDigit_eq h₁
  have d₀ := mod_eq_of_hexDigit_eq h₀
  have hs := s.toNat_lt
  have ht := t.toNat_lt
  exact UInt16.toNat_inj.1 (by omega)

end Token

/-! ### Damages and errors -/

namespace Malformation

variable {damage : Malformation} {position position' : Nat} {word word' : Token}

/-- **The message quotes a place of the stream and a word**: the generic instance that opens there,
and what its definition opens with. -/
def Quotes (damage : Malformation) (position : Nat) (word : Token) : Prop :=
  damage.message =
    s!"GENERIC_TYPE_INSTANCE at token {position} - definition is not a TYPE_HANDLE - 0x{word.hex}"

theorem quotes_definitionNotHandle (position : Nat) (word : Token) :
    (definitionNotHandle position word).Quotes position word := rfl

/-- **A message quotes one place and one word only**, so whoever reads it knows both. -/
theorem Quotes.unique (h : damage.Quotes position word) (h' : damage.Quotes position' word') :
    position = position' ∧ word = word' := by
  have hlen : word.hex.length = word'.hex.length := word.length_hex.trans word'.length_hex.symm
  obtain ⟨hfront, hword⟩ := Text.append_inj_of_length_eq hlen (h.symm.trans h')
  have hposition := (String.append_right_inj _).1 ((String.append_left_inj _).1 hfront)
  exact ⟨Text.toString_injective hposition, Token.hex_injective hword⟩

end Malformation

namespace Error

variable {e : Error} {damage : Malformation} {location : Option SourceLocation}

/-- The number of a record stands in front of what went wrong in it. -/
theorem root_message_suffix (e : Error) : e.root.message.toList <:+ e.message.toList := by
  induction e with
  | record index source ih =>
    show source.root.message.toList <:+ (s!"Record {index}: " ++ source.message).toList
    rw [String.toList_append]
    exact ih.trans (List.suffix_append _ _)
  | _ => exact List.suffix_rfl

/-- **The message of an error ends in the wording of its damage**, in whatever record that is, and
with or without the line that noticed it. -/
theorem damage_message_suffix (h : e.root = .malformed damage location) :
    damage.message.toList <:+ e.message.toList := by
  have hroot := root_message_suffix e
  obtain ⟨front, hfront⟩ : ∃ front, e.root.message = front ++ damage.message := by
    rw [h]
    cases location with
    | none => exact ⟨_, rfl⟩
    | some => exact ⟨_, rfl⟩
  rw [hfront, String.toList_append] at hroot
  exact (List.suffix_append _ _).trans hroot

end Error

/-! ### Events -/

namespace Event

/-- What is reported of an event: its level and its wording. -/
def report (e : Event) : EventLevel × String := (e.level, e.message)

/-- **An event is told by what is reported of it.** -/
theorem report_injective {e e' : Event} (h : e.report = e'.report) : e = e' := by
  obtain ⟨hlevel, hmessage⟩ := Prod.mk.inj h
  cases e with
  | recordDecoded index start len =>
    cases e' with
    | recordDecoded index' start' len' =>
      obtain ⟨hfront, hlen⟩ := Text.append_toString_inj rfl ((String.append_left_inj _).1 hmessage)
      obtain ⟨hfront, hstart⟩ := Text.append_toString_inj rfl hfront
      have hindex := Text.toString_injective ((String.append_right_inj _).1 hfront)
      rw [hindex, hstart, hlen]
    | catalogBuilt => cases hlevel
  | catalogBuilt idType members tokens =>
    cases e' with
    | recordDecoded => cases hlevel
    | catalogBuilt idType' members' tokens' =>
      obtain ⟨hfront, htokens⟩ :=
        Text.append_toString_inj rfl ((String.append_left_inj _).1 hmessage)
      obtain ⟨hfront, hmembers⟩ := Text.append_toString_inj rfl hfront
      have hidType : idType = idType' := (String.append_right_inj _).1 hfront
      rw [hidType, hmembers, htokens]

end Event

end MemberCatalog
