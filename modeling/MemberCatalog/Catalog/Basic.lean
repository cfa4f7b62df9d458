/-
# Catalogs

A catalog gives every id of a closed enumeration a name and a record.  It is built from a token
table with one record per id, in the order of the ids, and from a list of as many names; building
is all or nothing.  Each enumeration of ids comes with a catalog of its own, `shipped`, and with
the token table of that catalog.

`members` walks ids, names and records in step, `find` picks the members of one name, and
`member` looks up one id.
-/

import MemberCatalog.Decode.Run
import MemberCatalog.Enumeration
import MemberCatalog.Layout
import MemberCatalog.Member.Display

namespace MemberCatalog

/-- An enumeration of member ids, with the name and the record that its own catalog gives each. -/
class MemberId (I : Type) [DecidableEq I] extends Enumeration I where
  /-- The full name of the type of ids. -/
  typeName : String
  /-- The name of a member in metadata. -/
  name : I → String
  /-- The signature of a member. -/
  record : I → MemberRecord

/-- One record and one name for each id. -/
structure Catalog (I : Type) [DecidableEq I] [MemberId I] where
  records : Vector MemberRecord (Enumeration.count I)
  names : Vector String (Enumeration.count I)

/-- A member of a catalog. -/
structure NamedMember (I : Type) where
  id : I
  name : String
  record : MemberRecord
  deriving DecidableEq

/-- The member as a declaration writes it. -/
def NamedMember.display {I : Type} (m : NamedMember I) : String := m.record.display m.name

namespace Catalog

variable {I : Type} [DecidableEq I] [MemberId I]

/-! ### Building -/

/-- What building a catalog comes to, and the events on the way. -/
structure Build (I : Type) [DecidableEq I] [MemberId I] where
  result : Except Error (Catalog I)
  events : List Event

/-- Builds a catalog from a token table and a list of names.  The number of names is checked
first, and then the table has to decode under every check. -/
def build (I : Type) [DecidableEq I] [MemberId I] (tokens : List Token) (names : List String) :
    Build I :=
  if hn : names.length = Enumeration.count I then
    let run := decodeRun .strict tokens (Enumeration.count I)
    match hr : run.result with
    | .ok records =>
      { result := .ok
          { records := ⟨records.toArray, by simp [Run.length_of_result_start hr]⟩
            names := ⟨names.toArray, by simp [hn]⟩ }
        events := run.events ++
          [.catalogBuilt (MemberId.typeName I) records.length tokens.length] }
    | .error e => { result := .error e, events := run.events }
  else { result := .error (.countMismatch (Enumeration.count I) names.length), events := [] }

/-- The catalog that comes with the ids. -/
def shipped : Catalog I where
  records := ⟨((Enumeration.all : List I).map MemberId.record).toArray,
    by simp [Enumeration.count]⟩
  names := ⟨((Enumeration.all : List I).map MemberId.name).toArray, by simp [Enumeration.count]⟩

/-- The token table of the catalog that comes with the ids. -/
def shippedTokens (I : Type) [DecidableEq I] [MemberId I] : List Token :=
  (Enumeration.all : List I).flatMap fun id => (MemberId.record id).layout

/-- The names in the catalog that comes with the ids. -/
def shippedNames (I : Type) [DecidableEq I] [MemberId I] : List String :=
  (Enumeration.all : List I).map MemberId.name

/-! ### Looking up -/

/-- The record of an id. -/
def get (c : Catalog I) (id : I) : MemberRecord :=
  c.records.get ⟨Enumeration.index id, Enumeration.index_lt id⟩

/-- The name of an id. -/
def name (c : Catalog I) (id : I) : String :=
  c.names.get ⟨Enumeration.index id, Enumeration.index_lt id⟩

/-- The member of an id. -/
def member (c : Catalog I) (id : I) : NamedMember I := ⟨id, c.name id, c.get id⟩

/-- The record at a position of the table, if the table reaches that far. -/
def getByIndex? (c : Catalog I) (n : Nat) : Option MemberRecord := c.records[n]?

/-- How many members there are. -/
def size (c : Catalog I) : Nat := c.records.size

/-- Every member, in the order of the ids. -/
def members (c : Catalog I) : List (NamedMember I) :=
  ((Enumeration.all : List I).zip (c.names.toList.zip c.records.toList)).map
    fun (id, name, record) => ⟨id, name, record⟩

/-- Every member called `name`, in the order of the ids. -/
def find (c : Catalog I) (name : String) : List (NamedMember I) :=
  c.members.filter fun m => m.name = name

/-- A catalog by the type of its ids and its size. -/
def describe (c : Catalog I) : String :=
  "Catalog \x7b id: \"" ++ MemberId.typeName I ++ "\", len: " ++ toString c.size ++ " \x7d"

end Catalog

end MemberCatalog
