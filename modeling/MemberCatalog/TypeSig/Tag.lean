/-
# Signature tags

The word that opens a signature in a token table says what follows:

| tag | signature | what follows |
| ---: | --- | --- |
| `0x0F` | pointer | a signature |
| `0x10` | by reference | a signature |
| `0x13` | generic parameter of the type | its position |
| `0x15` | generic instance | `0x40`, a handle, a count and that many signatures |
| `0x1D` | array | a signature |
| `0x1E` | generic parameter of the member | its position |
| `0x40` | direct | a handle |

`ofToken?_eq_some_iff` says that a word is read as a tag exactly when it is the word of that tag.
-/

import MemberCatalog.TypeSig.Basic

namespace MemberCatalog

/-- What opens a signature in a token table. -/
inductive Tag where
  | typeHandle
  | modifier (m : Modifier)
  | typeParam
  | methodParam
  | inst
  deriving DecidableEq, Repr

namespace Tag

/-- The word of a tag. -/
def token : Tag → Token
  | modifier .pointer => 0x0F
  | modifier .byRef => 0x10
  | typeParam => 0x13
  | inst => 0x15
  | modifier .array => 0x1D
  | methodParam => 0x1E
  | typeHandle => 0x40

/-- Every tag, lowest word first. -/
def all : List Tag :=
  [modifier .pointer, modifier .byRef, typeParam, inst, modifier .array, methodParam, typeHandle]

/-- The tag of a word, if it is the word of one. -/
def ofToken? (w : Token) : Option Tag := all.find? fun tag => tag.token = w

@[simp]
theorem ofToken?_token (tag : Tag) : ofToken? tag.token = some tag := by
  obtain _ | (_ | _ | _) | _ | _ | _ := tag <;> rfl

theorem ofToken?_eq_some_iff {w : Token} {tag : Tag} : ofToken? w = some tag ↔ w = tag.token := by
  refine ⟨fun h => ?_, fun h => h ▸ ofToken?_token tag⟩
  have hw := List.find?_some h
  exact (of_decide_eq_true hw).symm

theorem ofToken?_eq_none_iff {w : Token} : ofToken? w = none ↔ ∀ tag : Tag, tag.token ≠ w := by
  constructor
  · rintro h tag rfl
    rw [ofToken?_token] at h
    cases h
  · intro h
    cases hw : ofToken? w with
    | none => rfl
    | some tag => exact absurd (ofToken?_eq_some_iff.1 hw).symm (h tag)

end Tag

namespace TypeSig

/-- The tag that opens a signature. -/
def tag : TypeSig → Tag
  | direct _ => .typeHandle
  | modified m _ => .modifier m
  | typeParam _ => .typeParam
  | methodParam _ => .methodParam
  | inst _ _ => .inst

end TypeSig

end MemberCatalog
