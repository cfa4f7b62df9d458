/-
# Events

What the decoder and the catalogs report while they work: one event for each record decoded from
a stream, and one for each catalog built.
-/

namespace MemberCatalog

/-- How much an event matters. -/
inductive EventLevel where
  | trace
  | debug
  deriving DecidableEq, Repr

/-- Something worth reporting. -/
inductive Event where
  /-- Record number `index` of a run took `len` tokens from token `start` on. -/
  | recordDecoded (index start len : Nat)
  /-- A catalog was built over the ids of the type `idType`. -/
  | catalogBuilt (idType : String) (members tokens : Nat)
  deriving DecidableEq, Repr

namespace Event

/-- The level of an event. -/
def level : Event → EventLevel
  | recordDecoded _ _ _ => .trace
  | catalogBuilt _ _ _ => .debug

/-- The wording of an event. -/
def message : Event → String
  | recordDecoded index start len => s!"decoded record {index} at token {start} ({len} tokens)"
  | catalogBuilt idType members tokens =>
    s!"decoded {idType} catalog: {members} members from {tokens} tokens"

end Event

end MemberCatalog
