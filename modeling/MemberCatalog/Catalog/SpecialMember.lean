/-
# Members of special types

The members that the fundamental runtime types declare, and the catalog of them.
-/

import MemberCatalog.Catalog.Basic
import MemberCatalog.Catalog.Declaration

namespace MemberCatalog

/-- A member that a special type declares. -/
inductive SpecialMember where
  | stringConcatStringString
  | stringConcatStringStringString
  | stringConcatObjectArray
  | stringOpEquality
  | stringOpImplicitToReadOnlySpan
  | stringCtorCharArray
  | stringEmpty
  | stringLength
  | stringGetLength
  | stringGetChars
  | objectCtor
  | objectToString
  | objectEquals
  | objectGetHashCode
  | delegateCombine
  | delegateRemove
  | decimalCtorInt32
  | decimalOpExplicitToInt32
  | decimalOpExplicitToDouble
  | decimalOpExplicitFromDouble
  | decimalZero
  | intPtrOpExplicitToPointer
  | intPtrOpExplicitFromPointer
  | intPtrZero
  | nullableTCtor
  | nullableTGetValue
  | nullableTGetHasValue
  | nullableTGetValueOrDefault
  | iEnumerableTGetEnumerator
  | iEnumeratorTGetCurrent
  | iEnumeratorMoveNext
  | iDisposableDispose
  | arrayGetLength
  | arrayEmpty
  | iCollectionTCopyTo
  | iListTItem
  | iListTSetItem
  | iReadOnlyListTGetItem
  deriving DecidableEq, Repr

namespace SpecialMember

/-- Every id, in table order. -/
def all : List SpecialMember :=
  [stringConcatStringString, stringConcatStringStringString, stringConcatObjectArray,
    stringOpEquality, stringOpImplicitToReadOnlySpan, stringCtorCharArray, stringEmpty,
    stringLength, stringGetLength, stringGetChars, objectCtor, objectToString, objectEquals,
    objectGetHashCode, delegateCombine, delegateRemove, decimalCtorInt32, decimalOpExplicitToInt32,
    decimalOpExplicitToDouble, decimalOpExplicitFromDouble, decimalZero, intPtrOpExplicitToPointer,
    intPtrOpExplicitFromPointer, intPtrZero, nullableTCtor, nullableTGetValue, nullableTGetHasValue,
    nullableTGetValueOrDefault, iEnumerableTGetEnumerator, iEnumeratorTGetCurrent,
    iEnumeratorMoveNext, iDisposableDispose, arrayGetLength, arrayEmpty, iCollectionTCopyTo,
    iListTItem, iListTSetItem, iReadOnlyListTGetItem]

/-- The label of an id: its type, its name, and what tells it from its overloads. -/
def label : SpecialMember → String
  | stringConcatStringString => "StringConcatStringString"
  | stringConcatStringStringString => "StringConcatStringStringString"
  | stringConcatObjectArray => "StringConcatObjectArray"
  | stringOpEquality => "StringOpEquality"
  | stringOpImplicitToReadOnlySpan => "StringOpImplicitToReadOnlySpan"
  | stringCtorCharArray => "StringCtorCharArray"
  | stringEmpty => "StringEmpty"
  | stringLength => "StringLength"
  | stringGetLength => "StringGetLength"
  | stringGetChars => "StringGetChars"
  | objectCtor => "ObjectCtor"
  | objectToString => "ObjectToString"
  | objectEquals => "ObjectEquals"
  | objectGetHashCode => "ObjectGetHashCode"
  | delegateCombine => "DelegateCombine"
  | delegateRemove => "DelegateRemove"
  | decimalCtorInt32 => "DecimalCtorInt32"
  | decimalOpExplicitToInt32 => "DecimalOpExplicitToInt32"
  | decimalOpExplicitToDouble => "DecimalOpExplicitToDouble"
  | decimalOpExplicitFromDouble => "DecimalOpExplicitFromDouble"
  | decimalZero => "DecimalZero"
  | intPtrOpExplicitToPointer => "IntPtrOpExplicitToPointer"
  | intPtrOpExplicitFromPointer => "IntPtrOpExplicitFromPointer"
  | intPtrZero => "IntPtrZero"
  | nullableTCtor => "NullableTCtor"
  | nullableTGetValue => "NullableTGetValue"
  | nullableTGetHasValue => "NullableTGetHasValue"
  | nullableTGetValueOrDefault => "NullableTGetValueOrDefault"
  | iEnumerableTGetEnumerator => "IEnumerableTGetEnumerator"
  | iEnumeratorTGetCurrent => "IEnumeratorTGetCurrent"
  | iEnumeratorMoveNext => "IEnumeratorMoveNext"
  | iDisposableDispose => "IDisposableDispose"
  | arrayGetLength => "ArrayGetLength"
  | arrayEmpty => "ArrayEmpty"
  | iCollectionTCopyTo => "ICollectionTCopyTo"
  | iListTItem => "IListTItem"
  | iListTSetItem => "IListTSetItem"
  | iReadOnlyListTGetItem => "IReadOnlyListTGetItem"

/-- The name of a member in metadata, which overloads share. -/
def name : SpecialMember → String
  | stringConcatStringString => "Concat"
  | stringConcatStringStringString => "Concat"
  | stringConcatObjectArray => "Concat"
  | stringOpEquality => "op_Equality"
  | stringOpImplicitToReadOnlySpan => "op_Implicit"
  | stringCtorCharArray => ".ctor"
  | stringEmpty => "Empty"
  | stringLength => "Length"
  | stringGetLength => "get_Length"
  | stringGetChars => "get_Chars"
  | objectCtor => ".ctor"
  | objectToString => "ToString"
  | objectEquals => "Equals"
  | objectGetHashCode => "GetHashCode"
  | delegateCombine => "Combine"
  | delegateRemove => "Remove"
  | decimalCtorInt32 => ".ctor"
  | decimalOpExplicitToInt32 => "op_Explicit"
  | decimalOpExplicitToDouble => "op_Explicit"
  | decimalOpExplicitFromDouble => "op_Explicit"
  | decimalZero => "Zero"
  | intPtrOpExplicitToPointer => "op_Explicit"
  | intPtrOpExplicitFromPointer => "op_Explicit"
  | intPtrZero => "Zero"
  | nullableTCtor => ".ctor"
  | nullableTGetValue => "get_Value"
  | nullableTGetHasValue => "get_HasValue"
  | nullableTGetValueOrDefault => "GetValueOrDefault"
  | iEnumerableTGetEnumerator => "GetEnumerator"
  | iEnumeratorTGetCurrent => "get_Current"
  | iEnumeratorMoveNext => "MoveNext"
  | iDisposableDispose => "Dispose"
  | arrayGetLength => "get_Length"
  | arrayEmpty => "Empty"
  | iCollectionTCopyTo => "CopyTo"
  | iListTItem => "Item"
  | iListTSetItem => "set_Item"
  | iReadOnlyListTGetItem => "get_Item"

section

open Declaration SpecialType WellKnownType

/-- The signature of a member. -/
def record : SpecialMember → MemberRecord
  | stringConcatStringString => method [.static] string string [string, string]
  | stringConcatStringStringString => method [.static] string string [string, string, string]
  | stringConcatObjectArray => method [.static] string string [arrayOf object]
  | stringOpEquality => method [.static] string boolean [string, string]
  | stringOpImplicitToReadOnlySpan => method [.static] string (.inst readOnlySpanT [char]) [string]
  | stringCtorCharArray => constructor string [arrayOf char]
  | stringEmpty => field [.static] string string
  | stringLength => property [] string int32 []
  | stringGetLength => getter [] string int32 []
  | stringGetChars => getter [] string char [int32]
  | objectCtor => constructor object []
  | objectToString => method [.virtual] object string []
  | objectEquals => method [.virtual] object boolean [object]
  | objectGetHashCode => method [.virtual] object int32 []
  | delegateCombine => method [.static] delegate delegate [delegate, delegate]
  | delegateRemove => method [.static] delegate delegate [delegate, delegate]
  | decimalCtorInt32 => constructor decimal [int32]
  | decimalOpExplicitToInt32 => method [.static] decimal int32 [decimal]
  | decimalOpExplicitToDouble => method [.static] decimal double [decimal]
  | decimalOpExplicitFromDouble => method [.static] decimal decimal [double]
  | decimalZero => field [.static] decimal decimal
  | intPtrOpExplicitToPointer => method [.static] intPtr (pointerTo void) [intPtr]
  | intPtrOpExplicitFromPointer => method [.static] intPtr intPtr [pointerTo void]
  | intPtrZero => field [.static] intPtr intPtr
  | nullableTCtor => constructor nullableT [.typeParam 0]
  | nullableTGetValue => getter [] nullableT (.typeParam 0) []
  | nullableTGetHasValue => getter [] nullableT boolean []
  | nullableTGetValueOrDefault => method [] nullableT (.typeParam 0) []
  | iEnumerableTGetEnumerator =>
    method [.virtual] iEnumerableT (.inst iEnumeratorT [.typeParam 0]) []
  | iEnumeratorTGetCurrent => getter [.virtual] iEnumeratorT (.typeParam 0) []
  | iEnumeratorMoveNext => method [.virtual] iEnumerator boolean []
  | iDisposableDispose => method [.virtual] iDisposable void []
  | arrayGetLength => getter [] array int32 []
  | arrayEmpty => genericMethod 1 [.static] array (arrayOf (.methodParam 0)) []
  | iCollectionTCopyTo => method [.virtual] iCollectionT void [arrayOf (.typeParam 0), int32]
  | iListTItem => property [.virtual] iListT (.typeParam 0) [int32]
  | iListTSetItem => setter [.virtual] iListT [int32, .typeParam 0]
  | iReadOnlyListTGetItem => getter [.virtual] iReadOnlyListT (.typeParam 0) [int32]

end

instance : MemberId SpecialMember where
  all := all
  label := label
  complete id := by cases id <;> decide
  nodup := by decide
  typeName := "sigcatalog::catalog::special::SpecialMember"
  name := name
  record := record

end SpecialMember

end MemberCatalog
