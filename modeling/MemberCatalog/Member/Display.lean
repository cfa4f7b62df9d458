/-
# Members as declarations write them

`static string System.String::Concat(string, string)`: modifiers, the type or return type, the
declaring type by its full name, the name of the member, its own generic parameters
`<!!0, !!1>` if it has any, and the parameters of an invocable member.
-/

import MemberCatalog.Member.Basic
import MemberCatalog.TypeSig.Display

namespace MemberCatalog

namespace MemberRecord

/-- The modifiers, each followed by a space. -/
def displayModifiers (r : MemberRecord) : String :=
  (if r.isStatic then "static " else "") ++ if r.isVirtual then "virtual " else ""

/-- The member's own generic parameters in angle brackets, or nothing if it has none. -/
def displayGenerics (arity : Token) : String :=
  if arity = 0 then ""
  else "<" ++ displayList ((List.range arity.toNat).map fun i => "!!" ++ toString i) ++ ">"

/-- The record as the declaration of a member called `name`. -/
def display (r : MemberRecord) (name : String) : String :=
  let owner := " " ++ r.declaringType.displayQualified ++ "::" ++ name
  match r.shape with
  | .field type => r.displayModifiers ++ type.display ++ owner
  | .invocable returnType parameters =>
    r.displayModifiers ++ returnType.display ++ owner ++ displayGenerics r.arity ++
      "(" ++ displayList (parameters.map TypeSig.display) ++ ")"

end MemberRecord

end MemberCatalog
