/-
# Special types

The fundamental runtime types.  Their handles count from `1` in the order of the list; handle
`0` names no type.
-/

import MemberCatalog.Enumeration
import MemberCatalog.Token

namespace MemberCatalog

/-- A fundamental runtime type. -/
inductive SpecialType where
  | object
  | enum
  | multicastDelegate
  | delegate
  | valueType
  | void
  | boolean
  | char
  | sByte
  | byte
  | int16
  | uInt16
  | int32
  | uInt32
  | int64
  | uInt64
  | decimal
  | single
  | double
  | string
  | intPtr
  | uIntPtr
  | array
  | iEnumerable
  | iEnumerableT
  | iListT
  | iCollectionT
  | iEnumerator
  | iEnumeratorT
  | iReadOnlyListT
  | iReadOnlyCollectionT
  | nullableT
  | dateTime
  | iDisposable
  | typedReference
  | runtimeTypeHandle
  | runtimeFieldHandle
  | runtimeMethodHandle
  | iAsyncResult
  | asyncCallback
  deriving DecidableEq, Repr

namespace SpecialType

/-- Every special type, in the order of their handles. -/
def all : List SpecialType :=
  [object, enum, multicastDelegate, delegate, valueType, void, boolean, char, sByte, byte, int16,
    uInt16, int32, uInt32, int64, uInt64, decimal, single, double, string, intPtr, uIntPtr, array,
    iEnumerable, iEnumerableT, iListT, iCollectionT, iEnumerator, iEnumeratorT, iReadOnlyListT,
    iReadOnlyCollectionT, nullableT, dateTime, iDisposable, typedReference, runtimeTypeHandle,
    runtimeFieldHandle, runtimeMethodHandle, iAsyncResult, asyncCallback]

/-- The label of a special type: its short name, with a `T` where it is generic. -/
def label : SpecialType → String
  | object => "Object"
  | enum => "Enum"
  | multicastDelegate => "MulticastDelegate"
  | delegate => "Delegate"
  | valueType => "ValueType"
  | void => "Void"
  | boolean => "Boolean"
  | char => "Char"
  | sByte => "SByte"
  | byte => "Byte"
  | int16 => "Int16"
  | uInt16 => "UInt16"
  | int32 => "Int32"
  | uInt32 => "UInt32"
  | int64 => "Int64"
  | uInt64 => "UInt64"
  | decimal => "Decimal"
  | single => "Single"
  | double => "Double"
  | string => "String"
  | intPtr => "IntPtr"
  | uIntPtr => "UIntPtr"
  | array => "Array"
  | iEnumerable => "IEnumerable"
  | iEnumerableT => "IEnumerableT"
  | iListT => "IListT"
  | iCollectionT => "ICollectionT"
  | iEnumerator => "IEnumerator"
  | iEnumeratorT => "IEnumeratorT"
  | iReadOnlyListT => "IReadOnlyListT"
  | iReadOnlyCollectionT => "IReadOnlyCollectionT"
  | nullableT => "NullableT"
  | dateTime => "DateTime"
  | iDisposable => "IDisposable"
  | typedReference => "TypedReference"
  | runtimeTypeHandle => "RuntimeTypeHandle"
  | runtimeFieldHandle => "RuntimeFieldHandle"
  | runtimeMethodHandle => "RuntimeMethodHandle"
  | iAsyncResult => "IAsyncResult"
  | asyncCallback => "AsyncCallback"

instance : Enumeration SpecialType where
  all := all
  label := label
  complete t := by cases t <;> decide
  nodup := by decide

/-- The fully qualified metadata name.  A generic type carries its arity behind a backquote, the
collection interfaces live in their own namespaces, and every other type is its label under
`System`. -/
def metadataName : SpecialType → String
  | iEnumerable => "System.Collections.IEnumerable"
  | iEnumerator => "System.Collections.IEnumerator"
  | iEnumerableT => "System.Collections.Generic.IEnumerable`1"
  | iListT => "System.Collections.Generic.IList`1"
  | iCollectionT => "System.Collections.Generic.ICollection`1"
  | iEnumeratorT => "System.Collections.Generic.IEnumerator`1"
  | iReadOnlyListT => "System.Collections.Generic.IReadOnlyList`1"
  | iReadOnlyCollectionT => "System.Collections.Generic.IReadOnlyCollection`1"
  | nullableT => "System.Nullable`1"
  | t => "System." ++ t.label

/-- The keyword that declarations write for the type, where there is one. -/
def keyword? : SpecialType → Option String
  | object => some "object"
  | void => some "void"
  | boolean => some "bool"
  | char => some "char"
  | sByte => some "sbyte"
  | byte => some "byte"
  | int16 => some "short"
  | uInt16 => some "ushort"
  | int32 => some "int"
  | uInt32 => some "uint"
  | int64 => some "long"
  | uInt64 => some "ulong"
  | decimal => some "decimal"
  | single => some "float"
  | double => some "double"
  | string => some "string"
  | intPtr => some "nint"
  | uIntPtr => some "nuint"
  | _ => none

/-- The handle of a special type: its position in the list, counted from `1`. -/
def handle (t : SpecialType) : Token := .ofNat (Enumeration.index t + 1)

/-- The special type with handle `n`, if the list covers it. -/
def ofHandle? (n : Token) : Option SpecialType :=
  if n = 0 then none else Enumeration.ofIndex? SpecialType (n.toNat - 1)

@[simp]
theorem ofHandle?_handle (t : SpecialType) : ofHandle? t.handle = some t := by
  cases t <;> decide

end SpecialType

end MemberCatalog
