/-
# Signatures as declarations write them

`string`, `char[]`, `ref int`, `!0` for a generic parameter of the type, `!!0` for one of the
member, and `System.Collections.Generic.Dictionary<string, !0>` for a generic instance, where
the definition loses its arity suffix.
-/

import MemberCatalog.TypeSig.Basic

namespace MemberCatalog

/-- A type with a modifier, given how the type is written. -/
def Modifier.display : Modifier → String → String
  | array, inner => inner ++ "[]"
  | pointer, inner => inner ++ "*"
  | byRef, inner => "ref " ++ inner

/-- A list of arguments or parameters, separated by commas. -/
def displayList (items : List String) : String := ", ".intercalate items

/-- The name of a generic definition without its arity suffix, which starts at the first
backquote. -/
def TypeId.displayDefinition (id : TypeId) : String :=
  String.ofList (id.display.toList.takeWhile (· ≠ '\x60'))

namespace TypeSig

/-- The signature as a declaration writes it. -/
def display : TypeSig → String :=
  fold {
    direct := TypeId.display
    modified := Modifier.display
    typeParam i := "!" ++ toString i
    methodParam i := "!!" ++ toString i
    inst d args := d.displayDefinition ++ "<" ++ displayList args ++ ">" }

@[simp]
theorem display_direct (id : TypeId) : (direct id).display = id.display := rfl

@[simp]
theorem display_modified (m : Modifier) (t : TypeSig) :
    (modified m t).display = m.display t.display := rfl

@[simp]
theorem display_typeParam (i : Token) : (typeParam i).display = "!" ++ toString i := rfl

@[simp]
theorem display_methodParam (i : Token) : (methodParam i).display = "!!" ++ toString i := rfl

@[simp]
theorem display_inst (d : TypeId) (args : List TypeSig) :
    (inst d args).display =
      d.displayDefinition ++ "<" ++ displayList (args.map display) ++ ">" :=
  fold_inst _ d args

end TypeSig

end MemberCatalog
