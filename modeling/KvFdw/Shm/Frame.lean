import KvFdw.Bytes

/-!
# Command frames of kv_shm.c

What each client request function writes into `ptr->area`.
-/

set_option autoImplicit false

namespace KvFdw.Shm

/-- Modelled from the spec: the `FuncName` enumeration of `kv_fdw.h`, which is not among
the sources. Its constants are those `KVWorkerMain` switches on; their numbering below is
the order of that switch, and no result depends on it beyond the constants being distinct. -/
inductive FuncName
  | OPEN
  | CLOSE
  | COUNT
  | GETITER
  | DELITER
  | NEXT
  | GET
  | PUT
  | DELETE
  | RANGEQUERY
  | TERMINATE
  deriving DecidableEq, Repr

/-- The value a `FuncName` has as a C enumeration constant. -/
def FuncName.code : FuncName → Nat
  | .OPEN => 0
  | .CLOSE => 1
  | .COUNT => 2
  | .GETITER => 3
  | .DELITER => 4
  | .NEXT => 5
  | .GET => 6
  | .PUT => 7
  | .DELETE => 8
  | .RANGEQUERY => 9
  | .TERMINATE => 10

theorem FuncName.code_lt (func : FuncName) : func.code < 2 ^ 32 := by
  cases func <;> decide

theorem FuncName.code_injective : Function.Injective FuncName.code := by
  intro left right same
  cases left <;> cases right <;> first | rfl | cases same

/-- `sizeof(FuncName)`, `sizeof(responseId)`, `sizeof(Oid)` and `sizeof(pid_t)`. -/
def wordSize : Nat := 4

/-- The options of a range query as `RangeQueryRequest` reads them: `startLen`, `limitLen`
and `attrCount` are the lengths of `start`, `limit` and `attrs`. -/
structure RangeQueryOptions where
  start : List UInt8
  limit : List UInt8
  batchCapacity : Nat
  attrs : List Int
  deriving DecidableEq, Repr

/-- The bytes `RangeQueryRequest` writes for its options: each length as a `uint64`,
the bounds only when non-empty, `attrCount` as an `int` and the `AttrNumber`s. -/
def RangeQueryOptions.encode (options : RangeQueryOptions) : List UInt8 :=
  encodeU64 options.start.length ++
    (if options.start.length > 0 then options.start else []) ++
    encodeU64 options.limit.length ++
    (if options.limit.length > 0 then options.limit else []) ++
    encodeU64 options.batchCapacity ++
    encodeI32 options.attrs.length ++
    (if options.attrs.length > 0 then options.attrs.flatMap encodeI16 else [])

/-- A call of one of the client request functions of kv_shm.c, with its arguments. -/
inductive Call
  | openRequest (relationId : Nat) (useColumn : Bool) (attrCount : Int)
  | closeRequest (relationId : Nat)
  | countRequest (relationId : Nat)
  | getIterRequest (relationId : Nat)
  | delIterRequest (relationId : Nat)
  | nextRequest (relationId : Nat)
  | getRequest (relationId : Nat) (key : List UInt8)
  | putRequest (relationId : Nat) (key val : List UInt8)
  | deleteRequest (relationId : Nat) (key : List UInt8)
  | rangeQueryRequest (relationId : Nat) (options : RangeQueryOptions)
  deriving DecidableEq, Repr

namespace Call

/-- The `FuncName` each request function stores first. -/
def funcName : Call → FuncName
  | .openRequest .. => .OPEN
  | .closeRequest .. => .CLOSE
  | .countRequest .. => .COUNT
  | .getIterRequest .. => .GETITER
  | .delIterRequest .. => .DELITER
  | .nextRequest .. => .NEXT
  | .getRequest .. => .GET
  | .putRequest .. => .PUT
  | .deleteRequest .. => .DELETE
  | .rangeQueryRequest .. => .RANGEQUERY

/-- The bytes a request function writes after the `responseId`, for a client whose
`getpid()` is `pid`. For `OpenRequest` these are the fields before `KVGetOptions`
is called; the path follows once it returns. -/
def body (pid : Nat) : Call → List UInt8
  | .openRequest _ useColumn attrCount => encodeBool useColumn ++ encodeI32 attrCount
  | .closeRequest relationId => encodeU32 relationId
  | .countRequest relationId => encodeU32 relationId
  | .getIterRequest relationId => encodeU32 relationId ++ encodeU32 pid
  | .delIterRequest relationId => encodeU32 relationId ++ encodeU32 pid
  | .nextRequest relationId => encodeU32 relationId ++ encodeU32 pid
  | .getRequest relationId key => encodeU32 relationId ++ encodeU64 key.length ++ key
  | .putRequest relationId key val =>
      encodeU32 relationId ++ encodeU64 key.length ++ key ++ encodeU64 val.length ++ val
  | .deleteRequest relationId key => encodeU32 relationId ++ encodeU64 key.length ++ key
  | .rangeQueryRequest relationId options =>
      encodeU32 relationId ++ encodeU32 pid ++ options.encode

/-- Only `OpenRequest` calls `KVGetOptions` while it holds the area. -/
def isOpen : Call → Bool
  | .openRequest .. => true
  | _ => false

/-- Only `PutRequest` compares its frame with `BUFSIZE`. -/
def checksSize : Call → Bool
  | .putRequest .. => true
  | _ => false

/-- The requests that read their response slot before releasing it. -/
def readsResponse : Call → Bool
  | .countRequest .. | .nextRequest .. | .getRequest .. | .rangeQueryRequest .. => true
  | _ => false

/-- Only `RangeQueryRequest` maps a segment after reading its response. -/
def isRangeQuery : Call → Bool
  | .rangeQueryRequest .. => true
  | _ => false

end Call

/-- `strcpy(dst, src)`: the bytes of `src` up to its first NUL, then the NUL. -/
def strcpyBytes (src : List UInt8) : List UInt8 :=
  src.takeWhile (· != 0) ++ [0]

/-- Where `OpenRequest` copies the path: after the `FuncName`, the `responseId`,
`useColumn` and `attrCount`. -/
def openPathOffset : Nat := wordSize + wordSize + 1 + wordSize

theorem Call.funcName_ne_terminate (call : Call) : call.funcName ≠ .TERMINATE := by
  cases call <;> simp [Call.funcName]

theorem Call.length_body_of_isOpen {call : Call} (isOpen : call.isOpen = true) (pid : Nat) :
    (call.body pid).length = 5 := by
  cases call <;> simp_all [Call.isOpen, Call.body]

@[simp] theorem length_body_openRequest (pid relationId : Nat) (useColumn : Bool)
    (attrCount : Int) :
    (Call.body pid (.openRequest relationId useColumn attrCount)).length = 5 := rfl

end KvFdw.Shm
