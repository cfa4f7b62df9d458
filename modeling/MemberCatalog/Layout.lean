/-
# Layouts

The tokens that stand for a signature, a shape or a record in a token table, by the grammar

    record    = flags declaring arity (signature | count signature signature*)
    signature = 0x40 handle
              | 0x0F signature | 0x10 signature | 0x1D signature
              | 0x13 position | 0x1E position
              | 0x15 0x40 handle count signature*

where the first form of a record is that of a field.  A layout asks for no check: it stands for
its value if every type id in it has a handle and every count fits into a token.  Its length is
the `tokenLen` of the value in any case.
-/

import MemberCatalog.Member.Basic
import MemberCatalog.TypeSig.Tag

namespace MemberCatalog

namespace TypeSig

/-- The tokens of a signature. -/
def layout : TypeSig → List Token :=
  fold {
    direct id := [Tag.typeHandle.token, id.toToken]
    modified m inner := (Tag.modifier m).token :: inner
    typeParam i := [Tag.typeParam.token, i]
    methodParam i := [Tag.methodParam.token, i]
    inst d args :=
      Tag.inst.token :: Tag.typeHandle.token :: d.toToken :: .ofNat args.length :: args.flatten }

@[simp]
theorem layout_direct (id : TypeId) :
    (direct id).layout = [Tag.typeHandle.token, id.toToken] := rfl

@[simp]
theorem layout_modified (m : Modifier) (t : TypeSig) :
    (modified m t).layout = (Tag.modifier m).token :: t.layout := rfl

@[simp]
theorem layout_typeParam (i : Token) : (typeParam i).layout = [Tag.typeParam.token, i] := rfl

@[simp]
theorem layout_methodParam (i : Token) : (methodParam i).layout = [Tag.methodParam.token, i] := rfl

@[simp]
theorem layout_inst (d : TypeId) (args : List TypeSig) :
    (inst d args).layout =
      Tag.inst.token :: Tag.typeHandle.token :: d.toToken :: .ofNat args.length ::
        args.flatMap layout := by
  refine (fold_inst _ d args).trans ?_
  simp [layout, List.flatMap]

theorem length_flatMap_layout {ts : List TypeSig} (h : ∀ t ∈ ts, t.layout.length = t.tokenLen) :
    (ts.flatMap layout).length = tokenLenAll ts := by
  induction ts with
  | nil => rfl
  | cons t ts ih =>
    obtain ⟨ht, hts⟩ := List.forall_mem_cons.1 h
    rw [List.flatMap_cons, List.length_append, ht, ih hts, tokenLenAll_cons]

theorem length_layout (t : TypeSig) : t.layout.length = t.tokenLen := by
  induction t with
  | direct | typeParam | methodParam => rfl
  | modified _ _ ih => simp [ih]
  | inst _ args ih =>
    rw [layout_inst, tokenLen_inst, ← length_flatMap_layout ih]
    simp only [List.length_cons]
    omega

end TypeSig

namespace MemberShape

/-- The tokens of a shape. -/
def layout : MemberShape → List Token
  | field type => type.layout
  | invocable returnType parameters =>
    .ofNat parameters.length :: (returnType.layout ++ parameters.flatMap TypeSig.layout)

theorem length_layout : (s : MemberShape) → s.layout.length = s.tokenLen
  | field type => type.length_layout
  | invocable returnType parameters => by
    rw [layout, tokenLen, List.length_cons, List.length_append, returnType.length_layout,
      TypeSig.length_flatMap_layout fun t _ => t.length_layout]
    omega

end MemberShape

namespace MemberRecord

/-- The tokens of a record. -/
def layout (r : MemberRecord) : List Token :=
  r.flags.bits :: r.declaringType.toToken :: r.arity :: r.shape.layout

theorem length_layout (r : MemberRecord) : r.layout.length = r.tokenLen := by
  simp only [layout, tokenLen, List.length_cons, r.shape.length_layout]
  omega

end MemberRecord

end MemberCatalog
