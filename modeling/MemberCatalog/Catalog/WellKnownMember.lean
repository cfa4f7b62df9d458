/-
# Members of well-known types

The members that the framework types declare, and the catalog of them.
-/

import MemberCatalog.Catalog.Basic
import MemberCatalog.Catalog.Declaration

namespace MemberCatalog

/-- A member that a well-known type declares. -/
inductive WellKnownMember where
  | mathRoundDouble
  | mathRoundDecimal
  | mathMaxInt32
  | typeGetTypeFromHandle
  | typeOpEquality
  | typeEmptyTypes
  | typeMissing
  | attributeCtor
  | exceptionCtorString
  | exceptionGetMessage
  | activatorCreateInstanceT
  | interlockedExchangeT
  | interlockedCompareExchangeT
  | interlockedIncrementInt32
  | monitorEnter
  | monitorExit
  | taskFromResult
  | taskGetCompletedTask
  | taskTGetResult
  | listTCtor
  | listTAdd
  | listTToArray
  | dictionaryKVTryGetValue
  | dictionaryKVItem
  | dictionaryKVSetItem
  | keyValuePairKVGetKey
  | equalityComparerTGetDefault
  | equalityComparerTEquals
  | funcT2Invoke
  | actionTInvoke
  | compilerGeneratedAttributeCtor
  | debuggerHiddenAttributeCtor
  | paramArrayAttributeCtor
  | runtimeHelpersInitializeArray
  | runtimeHelpersGetOffsetToStringData
  | asyncTaskMethodBuilderTCreate
  | asyncTaskMethodBuilderTStart
  | asyncTaskMethodBuilderTSetResult
  | asyncTaskMethodBuilderTGetTask
  | iAsyncStateMachineMoveNext
  | methodBaseGetMethodFromHandle
  | methodInfoGetReturnType
  | fieldInfoGetFieldFromHandle
  | enumerableSelect
  | enumerableToDictionaryKeyValuePairs
  | marshalAllocHGlobal
  | spanTCtorPointer
  | readOnlySpanTGetItem
  | unsafeAsPointer
  | unsafeAs
  deriving DecidableEq, Repr

namespace WellKnownMember

/-- Every id, in table order. -/
def all : List WellKnownMember :=
  [mathRoundDouble, mathRoundDecimal, mathMaxInt32, typeGetTypeFromHandle, typeOpEquality,
    typeEmptyTypes, typeMissing, attributeCtor, exceptionCtorString, exceptionGetMessage,
    activatorCreateInstanceT, interlockedExchangeT, interlockedCompareExchangeT,
    interlockedIncrementInt32, monitorEnter, monitorExit, taskFromResult, taskGetCompletedTask,
    taskTGetResult, listTCtor, listTAdd, listTToArray, dictionaryKVTryGetValue, dictionaryKVItem,
    dictionaryKVSetItem, keyValuePairKVGetKey, equalityComparerTGetDefault, equalityComparerTEquals,
    funcT2Invoke, actionTInvoke, compilerGeneratedAttributeCtor, debuggerHiddenAttributeCtor,
    paramArrayAttributeCtor, runtimeHelpersInitializeArray, runtimeHelpersGetOffsetToStringData,
    asyncTaskMethodBuilderTCreate, asyncTaskMethodBuilderTStart, asyncTaskMethodBuilderTSetResult,
    asyncTaskMethodBuilderTGetTask, iAsyncStateMachineMoveNext, methodBaseGetMethodFromHandle,
    methodInfoGetReturnType, fieldInfoGetFieldFromHandle, enumerableSelect,
    enumerableToDictionaryKeyValuePairs, marshalAllocHGlobal, spanTCtorPointer,
    readOnlySpanTGetItem, unsafeAsPointer, unsafeAs]

/-- The label of an id: its type, its name, and what tells it from its overloads. -/
def label : WellKnownMember → String
  | mathRoundDouble => "MathRoundDouble"
  | mathRoundDecimal => "MathRoundDecimal"
  | mathMaxInt32 => "MathMaxInt32"
  | typeGetTypeFromHandle => "TypeGetTypeFromHandle"
  | typeOpEquality => "TypeOpEquality"
  | typeEmptyTypes => "TypeEmptyTypes"
  | typeMissing => "TypeMissing"
  | attributeCtor => "AttributeCtor"
  | exceptionCtorString => "ExceptionCtorString"
  | exceptionGetMessage => "ExceptionGetMessage"
  | activatorCreateInstanceT => "ActivatorCreateInstanceT"
  | interlockedExchangeT => "InterlockedExchangeT"
  | interlockedCompareExchangeT => "InterlockedCompareExchangeT"
  | interlockedIncrementInt32 => "InterlockedIncrementInt32"
  | monitorEnter => "MonitorEnter"
  | monitorExit => "MonitorExit"
  | taskFromResult => "TaskFromResult"
  | taskGetCompletedTask => "TaskGetCompletedTask"
  | taskTGetResult => "TaskTGetResult"
  | listTCtor => "ListTCtor"
  | listTAdd => "ListTAdd"
  | listTToArray => "ListTToArray"
  | dictionaryKVTryGetValue => "DictionaryKVTryGetValue"
  | dictionaryKVItem => "DictionaryKVItem"
  | dictionaryKVSetItem => "DictionaryKVSetItem"
  | keyValuePairKVGetKey => "KeyValuePairKVGetKey"
  | equalityComparerTGetDefault => "EqualityComparerTGetDefault"
  | equalityComparerTEquals => "EqualityComparerTEquals"
  | funcT2Invoke => "FuncT2Invoke"
  | actionTInvoke => "ActionTInvoke"
  | compilerGeneratedAttributeCtor => "CompilerGeneratedAttributeCtor"
  | debuggerHiddenAttributeCtor => "DebuggerHiddenAttributeCtor"
  | paramArrayAttributeCtor => "ParamArrayAttributeCtor"
  | runtimeHelpersInitializeArray => "RuntimeHelpersInitializeArray"
  | runtimeHelpersGetOffsetToStringData => "RuntimeHelpersGetOffsetToStringData"
  | asyncTaskMethodBuilderTCreate => "AsyncTaskMethodBuilderTCreate"
  | asyncTaskMethodBuilderTStart => "AsyncTaskMethodBuilderTStart"
  | asyncTaskMethodBuilderTSetResult => "AsyncTaskMethodBuilderTSetResult"
  | asyncTaskMethodBuilderTGetTask => "AsyncTaskMethodBuilderTGetTask"
  | iAsyncStateMachineMoveNext => "IAsyncStateMachineMoveNext"
  | methodBaseGetMethodFromHandle => "MethodBaseGetMethodFromHandle"
  | methodInfoGetReturnType => "MethodInfoGetReturnType"
  | fieldInfoGetFieldFromHandle => "FieldInfoGetFieldFromHandle"
  | enumerableSelect => "EnumerableSelect"
  | enumerableToDictionaryKeyValuePairs => "EnumerableToDictionaryKeyValuePairs"
  | marshalAllocHGlobal => "MarshalAllocHGlobal"
  | spanTCtorPointer => "SpanTCtorPointer"
  | readOnlySpanTGetItem => "ReadOnlySpanTGetItem"
  | unsafeAsPointer => "UnsafeAsPointer"
  | unsafeAs => "UnsafeAs"

/-- The name of a member in metadata, which overloads share. -/
def name : WellKnownMember → String
  | mathRoundDouble => "Round"
  | mathRoundDecimal => "Round"
  | mathMaxInt32 => "Max"
  | typeGetTypeFromHandle => "GetTypeFromHandle"
  | typeOpEquality => "op_Equality"
  | typeEmptyTypes => "EmptyTypes"
  | typeMissing => "Missing"
  | attributeCtor => ".ctor"
  | exceptionCtorString => ".ctor"
  | exceptionGetMessage => "get_Message"
  | activatorCreateInstanceT => "CreateInstance"
  | interlockedExchangeT => "Exchange"
  | interlockedCompareExchangeT => "CompareExchange"
  | interlockedIncrementInt32 => "Increment"
  | monitorEnter => "Enter"
  | monitorExit => "Exit"
  | taskFromResult => "FromResult"
  | taskGetCompletedTask => "get_CompletedTask"
  | taskTGetResult => "get_Result"
  | listTCtor => ".ctor"
  | listTAdd => "Add"
  | listTToArray => "ToArray"
  | dictionaryKVTryGetValue => "TryGetValue"
  | dictionaryKVItem => "Item"
  | dictionaryKVSetItem => "set_Item"
  | keyValuePairKVGetKey => "get_Key"
  | equalityComparerTGetDefault => "get_Default"
  | equalityComparerTEquals => "Equals"
  | funcT2Invoke => "Invoke"
  | actionTInvoke => "Invoke"
  | compilerGeneratedAttributeCtor => ".ctor"
  | debuggerHiddenAttributeCtor => ".ctor"
  | paramArrayAttributeCtor => ".ctor"
  | runtimeHelpersInitializeArray => "InitializeArray"
  | runtimeHelpersGetOffsetToStringData => "get_OffsetToStringData"
  | asyncTaskMethodBuilderTCreate => "Create"
  | asyncTaskMethodBuilderTStart => "Start"
  | asyncTaskMethodBuilderTSetResult => "SetResult"
  | asyncTaskMethodBuilderTGetTask => "get_Task"
  | iAsyncStateMachineMoveNext => "MoveNext"
  | methodBaseGetMethodFromHandle => "GetMethodFromHandle"
  | methodInfoGetReturnType => "get_ReturnType"
  | fieldInfoGetFieldFromHandle => "GetFieldFromHandle"
  | enumerableSelect => "Select"
  | enumerableToDictionaryKeyValuePairs => "ToDictionary"
  | marshalAllocHGlobal => "AllocHGlobal"
  | spanTCtorPointer => ".ctor"
  | readOnlySpanTGetItem => "get_Item"
  | unsafeAsPointer => "AsPointer"
  | unsafeAs => "As"

section

open Declaration SpecialType WellKnownType

/-- The signature of a member. -/
def record : WellKnownMember → MemberRecord
  | mathRoundDouble => method [.static] math double [double]
  | mathRoundDecimal => method [.static] math decimal [decimal]
  | mathMaxInt32 => method [.static] math int32 [int32, int32]
  | typeGetTypeFromHandle => method [.static] type type [runtimeTypeHandle]
  | typeOpEquality => method [.static] type boolean [type, type]
  | typeEmptyTypes => field [.static] type (arrayOf type)
  | typeMissing => field [.static] type object
  | attributeCtor => constructor attributeClass []
  | exceptionCtorString => constructor exception [string]
  | exceptionGetMessage => getter [.virtual] exception string []
  | activatorCreateInstanceT => genericMethod 1 [.static] activator (.methodParam 0) []
  | interlockedExchangeT =>
    genericMethod 1 [.static] interlocked (.methodParam 0) [byRef (.methodParam 0), .methodParam 0]
  | interlockedCompareExchangeT =>
    genericMethod 1 [.static] interlocked (.methodParam 0)
      [byRef (.methodParam 0), .methodParam 0, .methodParam 0]
  | interlockedIncrementInt32 => method [.static] interlocked int32 [byRef int32]
  | monitorEnter => method [.static] monitor void [object, byRef boolean]
  | monitorExit => method [.static] monitor void [object]
  | taskFromResult => genericMethod 1 [.static] task (.inst taskT [.methodParam 0]) [.methodParam 0]
  | taskGetCompletedTask => getter [.static] task task []
  | taskTGetResult => getter [] taskT (.typeParam 0) []
  | listTCtor => constructor listT []
  | listTAdd => method [] listT void [.typeParam 0]
  | listTToArray => method [] listT (arrayOf (.typeParam 0)) []
  | dictionaryKVTryGetValue =>
    method [.virtual] dictionaryKV boolean [.typeParam 0, byRef (.typeParam 1)]
  | dictionaryKVItem => property [.virtual] dictionaryKV (.typeParam 1) [.typeParam 0]
  | dictionaryKVSetItem => setter [.virtual] dictionaryKV [.typeParam 0, .typeParam 1]
  | keyValuePairKVGetKey => getter [] keyValuePairKV (.typeParam 0) []
  | equalityComparerTGetDefault => getter [.static] equalityComparerT (.direct .self) []
  | equalityComparerTEquals =>
    method [.virtual] equalityComparerT boolean [.typeParam 0, .typeParam 0]
  | funcT2Invoke => method [.virtual] funcT2 (.typeParam 1) [.typeParam 0]
  | actionTInvoke => method [.virtual] actionT void [.typeParam 0]
  | compilerGeneratedAttributeCtor => constructor compilerGeneratedAttribute []
  | debuggerHiddenAttributeCtor => constructor debuggerHiddenAttribute []
  | paramArrayAttributeCtor => constructor paramArrayAttribute []
  | runtimeHelpersInitializeArray =>
    method [.static] runtimeHelpers void [array, runtimeFieldHandle]
  | runtimeHelpersGetOffsetToStringData => getter [.static] runtimeHelpers int32 []
  | asyncTaskMethodBuilderTCreate => method [.static] asyncTaskMethodBuilderT (.direct .self) []
  | asyncTaskMethodBuilderTStart =>
    genericMethod 1 [] asyncTaskMethodBuilderT void [byRef (.methodParam 0)]
  | asyncTaskMethodBuilderTSetResult => method [] asyncTaskMethodBuilderT void [.typeParam 0]
  | asyncTaskMethodBuilderTGetTask =>
    getter [] asyncTaskMethodBuilderT (.inst taskT [.typeParam 0]) []
  | iAsyncStateMachineMoveNext => method [.virtual] iAsyncStateMachine void []
  | methodBaseGetMethodFromHandle => method [.static] methodBase methodBase [runtimeMethodHandle]
  | methodInfoGetReturnType => getter [.virtual] methodInfo type []
  | fieldInfoGetFieldFromHandle => method [.static] fieldInfo fieldInfo [runtimeFieldHandle]
  | enumerableSelect =>
    genericMethod 2 [.static] enumerable (.inst iEnumerableT [.methodParam 1])
      [.inst iEnumerableT [.methodParam 0], .inst funcT2 [.methodParam 0, .methodParam 1]]
  | enumerableToDictionaryKeyValuePairs =>
    genericMethod 2 [.static] enumerable (.inst dictionaryKV [.methodParam 0, .methodParam 1])
      [.inst iEnumerableT [.inst keyValuePairKV [.methodParam 0, .methodParam 1]]]
  | marshalAllocHGlobal => method [.static] marshal intPtr [int32]
  | spanTCtorPointer => constructor spanT [pointerTo void, int32]
  | readOnlySpanTGetItem => getter [] readOnlySpanT (byRef (.typeParam 0)) [int32]
  | unsafeAsPointer => genericMethod 1 [.static] unsafeOps (pointerTo void) [byRef (.methodParam 0)]
  | unsafeAs =>
    genericMethod 2 [.static] unsafeOps (byRef (.methodParam 1)) [byRef (.methodParam 0)]

end

instance : MemberId WellKnownMember where
  all := all
  label := label
  complete id := by cases id <;> decide
  nodup := by decide
  typeName := "sigcatalog::catalog::wellknown::WellKnownMember"
  name := name
  record := record

end WellKnownMember

end MemberCatalog
