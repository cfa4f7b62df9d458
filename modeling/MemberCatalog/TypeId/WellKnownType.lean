/-
# Well-known types

The framework types that signatures name beside the special ones.  They are numbered from `0`
in the order of the list.
-/

import MemberCatalog.Enumeration
import MemberCatalog.Token

namespace MemberCatalog

/-- A framework type. -/
inductive WellKnownType where
  | math
  | type
  | attributeClass
  | exception
  | activator
  | interlocked
  | monitor
  | task
  | taskT
  | listT
  | dictionaryKV
  | keyValuePairKV
  | iDictionaryKV
  | equalityComparerT
  | funcT2
  | actionT
  | compilerGeneratedAttribute
  | runtimeHelpers
  | asyncTaskMethodBuilderT
  | iAsyncStateMachine
  | debuggerHiddenAttribute
  | paramArrayAttribute
  | methodBase
  | methodInfo
  | fieldInfo
  | enumerable
  | marshal
  | spanT
  | readOnlySpanT
  | unsafeOps
  deriving DecidableEq, Repr

namespace WellKnownType

/-- Every framework type, in the order of their numbers. -/
def all : List WellKnownType :=
  [math, type, attributeClass, exception, activator, interlocked, monitor, task, taskT, listT,
    dictionaryKV, keyValuePairKV, iDictionaryKV, equalityComparerT, funcT2, actionT,
    compilerGeneratedAttribute, runtimeHelpers, asyncTaskMethodBuilderT, iAsyncStateMachine,
    debuggerHiddenAttribute, paramArrayAttribute, methodBase, methodInfo, fieldInfo, enumerable,
    marshal, spanT, readOnlySpanT, unsafeOps]

/-- The label of a framework type: its short name, with a mark for its arity where it is
generic. -/
def label : WellKnownType → String
  | math => "Math"
  | type => "Type"
  | attributeClass => "Attribute"
  | exception => "Exception"
  | activator => "Activator"
  | interlocked => "Interlocked"
  | monitor => "Monitor"
  | task => "Task"
  | taskT => "TaskT"
  | listT => "ListT"
  | dictionaryKV => "DictionaryKV"
  | keyValuePairKV => "KeyValuePairKV"
  | iDictionaryKV => "IDictionaryKV"
  | equalityComparerT => "EqualityComparerT"
  | funcT2 => "FuncT2"
  | actionT => "ActionT"
  | compilerGeneratedAttribute => "CompilerGeneratedAttribute"
  | runtimeHelpers => "RuntimeHelpers"
  | asyncTaskMethodBuilderT => "AsyncTaskMethodBuilderT"
  | iAsyncStateMachine => "IAsyncStateMachine"
  | debuggerHiddenAttribute => "DebuggerHiddenAttribute"
  | paramArrayAttribute => "ParamArrayAttribute"
  | methodBase => "MethodBase"
  | methodInfo => "MethodInfo"
  | fieldInfo => "FieldInfo"
  | enumerable => "Enumerable"
  | marshal => "Marshal"
  | spanT => "SpanT"
  | readOnlySpanT => "ReadOnlySpanT"
  | unsafeOps => "Unsafe"

instance : Enumeration WellKnownType where
  all := all
  label := label
  complete t := by cases t <;> decide
  nodup := by decide

/-- The fully qualified metadata name, a generic type carrying its arity behind a backquote. -/
def metadataName : WellKnownType → String
  | math => "System.Math"
  | type => "System.Type"
  | attributeClass => "System.Attribute"
  | exception => "System.Exception"
  | activator => "System.Activator"
  | interlocked => "System.Threading.Interlocked"
  | monitor => "System.Threading.Monitor"
  | task => "System.Threading.Tasks.Task"
  | taskT => "System.Threading.Tasks.Task`1"
  | listT => "System.Collections.Generic.List`1"
  | dictionaryKV => "System.Collections.Generic.Dictionary`2"
  | keyValuePairKV => "System.Collections.Generic.KeyValuePair`2"
  | iDictionaryKV => "System.Collections.Generic.IDictionary`2"
  | equalityComparerT => "System.Collections.Generic.EqualityComparer`1"
  | funcT2 => "System.Func`2"
  | actionT => "System.Action`1"
  | compilerGeneratedAttribute => "System.Runtime.CompilerServices.CompilerGeneratedAttribute"
  | runtimeHelpers => "System.Runtime.CompilerServices.RuntimeHelpers"
  | asyncTaskMethodBuilderT => "System.Runtime.CompilerServices.AsyncTaskMethodBuilder`1"
  | iAsyncStateMachine => "System.Runtime.CompilerServices.IAsyncStateMachine"
  | debuggerHiddenAttribute => "System.Diagnostics.DebuggerHiddenAttribute"
  | paramArrayAttribute => "System.ParamArrayAttribute"
  | methodBase => "System.Reflection.MethodBase"
  | methodInfo => "System.Reflection.MethodInfo"
  | fieldInfo => "System.Reflection.FieldInfo"
  | enumerable => "System.Linq.Enumerable"
  | marshal => "System.Runtime.InteropServices.Marshal"
  | spanT => "System.Span`1"
  | readOnlySpanT => "System.ReadOnlySpan`1"
  | unsafeOps => "System.Runtime.CompilerServices.Unsafe"

/-- The number of a framework type: its position in the list. -/
def number (t : WellKnownType) : Token := .ofNat (Enumeration.index t)

/-- The framework type with number `n`, if the list covers it. -/
def ofNumber? (n : Token) : Option WellKnownType := Enumeration.ofIndex? WellKnownType n.toNat

@[simp]
theorem ofNumber?_number (t : WellKnownType) : ofNumber? t.number = some t := by
  cases t <;> decide

end WellKnownType

end MemberCatalog
