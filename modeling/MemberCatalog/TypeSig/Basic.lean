/-
# Type signatures

A type signature is one type reference inside the signature of a member: a type by its id, a
type with a modifier, a generic parameter, or a generic definition with its type arguments.
Signatures nest without bound.

`induct` is the induction over signatures, with one hypothesis for all arguments of a generic
instance.  `fold` reads a signature bottom up, in one pass over arguments of any number, and
`fold_inst` says what it makes of a generic instance; the measures `tokenLen`, `depth` and
`maxMethodParam?` are folds.
-/

import MemberCatalog.TypeId.Basic

namespace MemberCatalog

/-- What turns one type into another. -/
inductive Modifier where
  /-- A one-dimensional, zero-based array of the type. -/
  | array
  /-- A pointer to the type. -/
  | pointer
  /-- The type by reference. -/
  | byRef
  deriving DecidableEq, Repr

/-- One type reference inside the signature of a member. -/
inductive TypeSig where
  /-- A type by its id. -/
  | direct (id : TypeId)
  /-- A type with a modifier. -/
  | modified (modifier : Modifier) (inner : TypeSig)
  /-- A generic parameter of the declaring type, by position. -/
  | typeParam (index : Token)
  /-- A generic parameter of the member itself, by position. -/
  | methodParam (index : Token)
  /-- A generic definition with its type arguments. -/
  | inst (definition : TypeId) (args : List TypeSig)
  deriving Repr

namespace TypeSig

/-- **Induction over signatures.**  A generic instance may assume the statement of each of its
arguments. -/
@[elab_as_elim, induction_eliminator]
theorem induct {motive : TypeSig → Prop}
    (direct : ∀ id, motive (.direct id))
    (modified : ∀ modifier inner, motive inner → motive (.modified modifier inner))
    (typeParam : ∀ index, motive (.typeParam index))
    (methodParam : ∀ index, motive (.methodParam index))
    (inst : ∀ definition args, (∀ a ∈ args, motive a) → motive (.inst definition args))
    (t : TypeSig) : motive t :=
  @TypeSig.rec motive (fun args => ∀ a ∈ args, motive a) direct modified typeParam methodParam inst
    (fun _ h => absurd h List.not_mem_nil)
    (fun _ _ ha has => List.forall_mem_cons.2 ⟨ha, has⟩) t

/-! ### Equality -/

mutual

/-- Whether two signatures are equal. -/
def beq : TypeSig → TypeSig → Bool
  | .direct a, .direct b => a = b
  | .modified m a, .modified n b => m = n && beq a b
  | .typeParam i, .typeParam j => i = j
  | .methodParam i, .methodParam j => i = j
  | .inst d as, .inst e bs => d = e && beqAll as bs
  | _, _ => false

/-- Whether two lists of signatures are equal. -/
def beqAll : List TypeSig → List TypeSig → Bool
  | [], [] => true
  | a :: as, b :: bs => beq a b && beqAll as bs
  | _, _ => false

end

theorem beqAll_eq_true_iff {as : List TypeSig} (h : ∀ a ∈ as, ∀ b, beq a b = true ↔ a = b)
    (bs : List TypeSig) : beqAll as bs = true ↔ as = bs := by
  induction as generalizing bs with
  | nil => cases bs <;> simp [beqAll]
  | cons a as ih =>
    obtain ⟨ha, has⟩ := List.forall_mem_cons.1 h
    cases bs <;> simp [beqAll, ha, ih has]

theorem beq_eq_true_iff (a b : TypeSig) : beq a b = true ↔ a = b := by
  induction a generalizing b with
  | direct | typeParam | methodParam => cases b <;> simp [beq]
  | modified _ _ ih => cases b <;> simp [beq, ih]
  | inst _ _ ih => cases b <;> simp [beq, beqAll_eq_true_iff ih]

instance : DecidableEq TypeSig := fun a b => decidable_of_iff _ (beq_eq_true_iff a b)

/-! ### Folds -/

/-- What a fold makes of each form of signature, given what it made of the parts. -/
structure Algebra (α : Type) where
  direct : TypeId → α
  modified : Modifier → α → α
  typeParam : Token → α
  methodParam : Token → α
  inst : TypeId → List α → α

mutual

/-- The value of a signature, bottom up. -/
def fold {α : Type} (f : Algebra α) : TypeSig → α
  | .direct id => f.direct id
  | .modified m inner => f.modified m (fold f inner)
  | .typeParam i => f.typeParam i
  | .methodParam i => f.methodParam i
  | .inst d args => f.inst d (foldArgs f args [])

/-- The values of a list of signatures, behind the values `done` of those before it, which are
held last first. -/
def foldArgs {α : Type} (f : Algebra α) : List TypeSig → List α → List α
  | [], done => done.reverse
  | a :: as, done => foldArgs f as (fold f a :: done)

end

theorem foldArgs_eq {α : Type} (f : Algebra α) (args : List TypeSig) (done : List α) :
    foldArgs f args done = done.reverse ++ args.map (fold f) := by
  induction args generalizing done with
  | nil => simp [foldArgs]
  | cons a as ih => simp [foldArgs, ih]

section

variable {α : Type} (f : Algebra α)

@[simp]
theorem fold_direct (id : TypeId) : fold f (.direct id) = f.direct id := rfl

@[simp]
theorem fold_modified (m : Modifier) (inner : TypeSig) :
    fold f (.modified m inner) = f.modified m (fold f inner) := rfl

@[simp]
theorem fold_typeParam (i : Token) : fold f (.typeParam i) = f.typeParam i := rfl

@[simp]
theorem fold_methodParam (i : Token) : fold f (.methodParam i) = f.methodParam i := rfl

/-- **A fold sees the values of all arguments, in order.** -/
@[simp]
theorem fold_inst (d : TypeId) (args : List TypeSig) :
    fold f (.inst d args) = f.inst d (args.map (fold f)) := by
  simp [fold, foldArgs_eq]

end

/-! ### Measures -/

/-- How many tokens the signature takes in a token table. -/
def tokenLen : TypeSig → Nat :=
  fold {
    direct _ := 2
    modified _ inner := inner + 1
    typeParam _ := 2
    methodParam _ := 2
    inst _ args := 4 + args.foldl (· + ·) 0 }

/-- How deep the signature nests, a signature without parts having depth `1`. -/
def depth : TypeSig → Nat :=
  fold {
    direct _ := 1
    modified _ inner := inner + 1
    typeParam _ := 1
    methodParam _ := 1
    inst _ args := args.foldl max 0 + 1 }

/-- The highest method parameter that occurs anywhere in the signature. -/
def maxMethodParam? : TypeSig → Option Token :=
  fold {
    direct _ := none
    modified _ inner := inner
    typeParam _ := none
    methodParam i := some i
    inst _ args := (args.filterMap id).max? }

@[simp]
theorem tokenLen_direct (id : TypeId) : (direct id).tokenLen = 2 := rfl

@[simp]
theorem tokenLen_modified (m : Modifier) (t : TypeSig) :
    (modified m t).tokenLen = t.tokenLen + 1 := rfl

@[simp]
theorem tokenLen_typeParam (i : Token) : (typeParam i).tokenLen = 2 := rfl

@[simp]
theorem tokenLen_methodParam (i : Token) : (methodParam i).tokenLen = 2 := rfl

/-- How many tokens a list of signatures takes. -/
def tokenLenAll (ts : List TypeSig) : Nat := (ts.map tokenLen).foldl (· + ·) 0

@[simp]
theorem tokenLenAll_nil : tokenLenAll [] = 0 := rfl

@[simp]
theorem tokenLenAll_cons (t : TypeSig) (ts : List TypeSig) :
    tokenLenAll (t :: ts) = t.tokenLen + tokenLenAll ts := by
  have h (ns : List Nat) (m n : Nat) : ns.foldl (· + ·) (m + n) = m + ns.foldl (· + ·) n := by
    induction ns generalizing n with
    | nil => rfl
    | cons k ns ih => rw [List.foldl_cons, Nat.add_assoc, ih, List.foldl_cons]
  rw [tokenLenAll, List.map_cons, List.foldl_cons, Nat.zero_add]
  exact h _ _ 0

@[simp]
theorem tokenLen_inst (d : TypeId) (args : List TypeSig) :
    (inst d args).tokenLen = 4 + tokenLenAll args :=
  fold_inst _ d args

@[simp]
theorem depth_direct (id : TypeId) : (direct id).depth = 1 := rfl

@[simp]
theorem depth_modified (m : Modifier) (t : TypeSig) : (modified m t).depth = t.depth + 1 := rfl

@[simp]
theorem depth_typeParam (i : Token) : (typeParam i).depth = 1 := rfl

@[simp]
theorem depth_methodParam (i : Token) : (methodParam i).depth = 1 := rfl

@[simp]
theorem depth_inst (d : TypeId) (args : List TypeSig) :
    (inst d args).depth = (args.map depth).foldl max 0 + 1 :=
  fold_inst _ d args

@[simp]
theorem maxMethodParam?_direct (id : TypeId) : (direct id).maxMethodParam? = none := rfl

@[simp]
theorem maxMethodParam?_modified (m : Modifier) (t : TypeSig) :
    (modified m t).maxMethodParam? = t.maxMethodParam? := rfl

@[simp]
theorem maxMethodParam?_typeParam (i : Token) : (typeParam i).maxMethodParam? = none := rfl

@[simp]
theorem maxMethodParam?_methodParam (i : Token) : (methodParam i).maxMethodParam? = some i := rfl

@[simp]
theorem maxMethodParam?_inst (d : TypeId) (args : List TypeSig) :
    (inst d args).maxMethodParam? = (args.filterMap maxMethodParam?).max? := by
  refine (fold_inst _ d args).trans ?_
  simp [List.filterMap_map, maxMethodParam?]

end TypeSig

end MemberCatalog
