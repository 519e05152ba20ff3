import KvFdw.Shm.Ledger
import KvFdw.Shm.Iterators

/-!
# What the worker's handlers decode

The fields each handler of `KVWorkerMain` copies out of the area, against what the request
function wrote.
-/

set_option autoImplicit false

namespace KvFdw.Shm

/-! ## The handlers' decoders -/

/-- The `RangeQueryOptions` that `RangeQueryResponse` fills in; `none` for a pointer field
it never assigns. -/
structure DecodedOptions where
  startLen : Nat
  start : Option (List UInt8)
  limitLen : Nat
  limit : Option (List UInt8)
  batchCapacity : Nat
  attrCount : Int
  attrs : Option (List Int)
  deriving DecidableEq, Repr

/-- The fields a handler of `KVWorkerMain` takes from the area it is handed. The
`responseId` of `GetResponse` is an `int`. -/
inductive Command
  | openResponse (useColumn : Bool) (attrCount : Int) (path : List UInt8)
  | closeResponse (relationId : Nat)
  | countResponse (responseId relationId : Nat)
  | getIterResponse (key : IterKey)
  | delIterResponse (key : IterKey)
  | nextResponse (responseId : Nat) (key : IterKey)
  | getResponse (responseId : Int) (relationId : Nat) (key : List UInt8)
  | putResponse (relationId : Nat) (key val : List UInt8)
  | deleteResponse (relationId : Nat) (key : List UInt8)
  | rangeQueryResponse (responseId : Nat) (key : IterKey) (options : DecodedOptions)
  deriving DecidableEq, Repr

/-- `OpenResponse(area)`: `useColumn`, `attrCount`, then `strcpy` of the path. -/
def openResponseArgs (area : List UInt8) : Command :=
  .openResponse (decodeLE (area.take 1) != 0) (decodeI32 ((area.drop 1).take 4))
    (((area.drop 1).drop 4).takeWhile (· != 0))

/-- `CountResponse(area)`: `responseId`, then `relationId`. -/
def countResponseArgs (area : List UInt8) : Command :=
  .countResponse (decodeLE (area.take 4)) (decodeLE ((area.drop 4).take 4))

/-- `GetResponse(area)`: `responseId`, `relationId`, then `keyLen` and the key at
`current`. -/
def getResponseArgs (area : List UInt8) : Command :=
  let current := (area.drop 4).drop 4
  .getResponse (decodeI32 (area.take 4)) (decodeLE ((area.drop 4).take 4))
    ((current.drop 8).take (decodeLE (current.take 8)))

/-- `PutResponse(area)`: `relationId`, then `keyLen` and the key at `current`, and
`valLen` and the value after `current += sizeof(keyLen) + keyLen`. -/
def putResponseArgs (area : List UInt8) : Command :=
  let current := area.drop 4
  let keyLen := decodeLE (current.take 8)
  let afterKey := (current.drop 8).drop keyLen
  .putResponse (decodeLE (area.take 4)) ((current.drop 8).take keyLen)
    ((afterKey.drop 8).take (decodeLE (afterKey.take 8)))

theorem putResponseArgs_lengths {area key val : List UInt8} {relationId : Nat}
    (decoded : putResponseArgs area = .putResponse relationId key val) :
    key.length + val.length ≤ area.length - 12 := by
  simp only [putResponseArgs, Command.putResponse.injEq] at decoded
  obtain ⟨-, rfl, rfl⟩ := decoded
  simp only [List.length_take, List.length_drop]
  omega

/-- `DeleteResponse(area)`: `relationId`, then `keyLen` and the key at `current`. -/
def deleteResponseArgs (area : List UInt8) : Command :=
  let current := area.drop 4
  .deleteResponse (decodeLE (area.take 4)) ((current.drop 8).take (decodeLE (current.take 8)))

/-- The options as `RangeQueryResponse` copies them, moving `area` past each field. The
bounds are copied into the locals `start` and `limit`, which are never stored in
`options.start` and `options.limit`; `options.attrs` is set when `attrCount` is positive. -/
def rangeQueryResponseOptions (area : List UInt8) : DecodedOptions :=
  let startLen := decodeLE (area.take 8)
  let afterStart := (area.drop 8).drop startLen
  let limitLen := decodeLE (afterStart.take 8)
  let afterLimit := (afterStart.drop 8).drop limitLen
  let afterCapacity := afterLimit.drop 8
  let attrCount := decodeI32 (afterCapacity.take 4)
  { startLen := startLen
    start := none
    limitLen := limitLen
    limit := none
    batchCapacity := decodeLE (afterLimit.take 8)
    attrCount := attrCount
    attrs := if attrCount > 0 then some (decodeI16s attrCount.toNat (afterCapacity.drop 4))
      else none }

/-- `RangeQueryResponse(area)`: `responseId`, the key `(relationId, pid)`, then the
options. -/
def rangeQueryResponseArgs (area : List UInt8) : Command :=
  let afterResponseId := area.drop 4
  let afterRelationId := afterResponseId.drop 4
  .rangeQueryResponse (decodeLE (area.take 4))
    ⟨decodeLE (afterResponseId.take 4), decodeLE (afterRelationId.take 4)⟩
    (rangeQueryResponseOptions (afterRelationId.drop 4))

/-- The case of `KVWorkerMain`'s switch for a command: the handler it calls, handed `buf`
or `buf + sizeof(responseId)`, and what that handler decodes. `TERMINATE` leaves the
loop before the switch. -/
def FuncName.decode (buf : List UInt8) : FuncName → Option Command
  | .OPEN => some (openResponseArgs (buf.drop wordSize))
  | .CLOSE => some (.closeResponse (decodeLE ((buf.drop wordSize).take 4)))
  | .COUNT => some (countResponseArgs buf)
  | .GETITER => some (.getIterResponse (IterKey.read (buf.drop wordSize)))
  | .DELITER => some (.delIterResponse (IterKey.read (buf.drop wordSize)))
  | .NEXT => some (.nextResponse (decodeLE (buf.take 4)) (IterKey.read (buf.drop 4)))
  | .GET => some (getResponseArgs buf)
  | .PUT => some (putResponseArgs (buf.drop wordSize))
  | .DELETE => some (deleteResponseArgs (buf.drop wordSize))
  | .RANGEQUERY => some (rangeQueryResponseArgs buf)
  | .TERMINATE => none

/-! ## What the request functions encode -/

/-- The options a client passed, as a handler should hold them: every length, and a
bound or the attributes wherever there are some. -/
def RangeQueryOptions.fields (options : RangeQueryOptions) : DecodedOptions where
  startLen := options.start.length
  start := if options.start.length > 0 then some options.start else none
  limitLen := options.limit.length
  limit := if options.limit.length > 0 then some options.limit else none
  batchCapacity := options.batchCapacity
  attrCount := options.attrs.length
  attrs := if options.attrs.length > 0 then some options.attrs else none

/-- The fields a request function encodes for its handler, for a client whose `getpid()`
is `pid`, in slot `slot`, where `KVGetOptions` gives `path`. -/
def Call.command (pid slot : Nat) (path : List UInt8) : Call → Command
  | .openRequest _ useColumn attrCount =>
      .openResponse useColumn attrCount (path.takeWhile (· != 0))
  | .closeRequest relationId => .closeResponse relationId
  | .countRequest relationId => .countResponse slot relationId
  | .getIterRequest relationId => .getIterResponse ⟨relationId, pid⟩
  | .delIterRequest relationId => .delIterResponse ⟨relationId, pid⟩
  | .nextRequest relationId => .nextResponse slot ⟨relationId, pid⟩
  | .getRequest relationId key => .getResponse slot relationId key
  | .putRequest relationId key val => .putResponse relationId key val
  | .deleteRequest relationId key => .deleteResponse relationId key
  | .rangeQueryRequest relationId options =>
      .rangeQueryResponse slot ⟨relationId, pid⟩ options.fields

/-- The arguments of a call are values of the C types the request function stores them
as: `Oid` and `pid_t` in four bytes, lengths in a `size_t`, `attrCount` an `int`, and the
`AttrNumber`s `int16`s. -/
def Call.Representable (pid : Nat) : Call → Prop
  | .openRequest _ _ attrCount => -2 ^ 31 ≤ attrCount ∧ attrCount < 2 ^ 31
  | .closeRequest relationId | .countRequest relationId => relationId < 2 ^ 32
  | .getIterRequest relationId | .delIterRequest relationId | .nextRequest relationId =>
      relationId < 2 ^ 32 ∧ pid < 2 ^ 32
  | .getRequest relationId key | .deleteRequest relationId key =>
      relationId < 2 ^ 32 ∧ key.length < 2 ^ 64
  | .putRequest relationId key val =>
      relationId < 2 ^ 32 ∧ key.length < 2 ^ 64 ∧ val.length < 2 ^ 64
  | .rangeQueryRequest relationId options =>
      relationId < 2 ^ 32 ∧ pid < 2 ^ 32 ∧ options.start.length < 2 ^ 64 ∧
        options.limit.length < 2 ^ 64 ∧ options.batchCapacity < 2 ^ 64 ∧
        options.attrs.length < 2 ^ 31 ∧ ∀ attr ∈ options.attrs, -2 ^ 15 ≤ attr ∧ attr < 2 ^ 15

instance (pid : Nat) (call : Call) : Decidable (call.Representable pid) := by
  cases call <;> unfold Call.Representable <;> infer_instance

/-- The whole command a request function writes into the area: `func`, `responseId`, the
body, and for `OpenRequest` the path that `strcpy` copies after it. -/
def Call.frame (pid slot : Nat) (path : List UInt8) (call : Call) : List UInt8 :=
  frameHeader call.funcName.code slot ++ call.body pid ++
    if call.isOpen then strcpyBytes path else []

/-! ## Decoding the commands -/

theorem takeWhile_strcpyBytes (path rest : List UInt8) :
    (strcpyBytes path ++ rest).takeWhile (· != 0) = path.takeWhile (· != 0) := by
  have kept : ∀ byte ∈ path.takeWhile (· != 0), (byte != 0) = true :=
    fun _ member => List.mem_takeWhile_imp (p := fun byte => byte != 0) member
  rw [strcpyBytes, List.append_assoc, List.takeWhile_append_of_pos kept]
  simp

theorem Call.frame_drop (pid slot : Nat) (path : List UInt8) (call : Call) :
    (call.frame pid slot path).drop wordSize =
      encodeU32 slot ++ call.body pid ++ if call.isOpen then strcpyBytes path else [] := by
  simp only [Call.frame, frameHeader, List.append_assoc]
  exact List.drop_left' rfl

theorem Call.frame_header (pid slot : Nat) (path : List UInt8) (call : Call) :
    (call.frame pid slot path).take 8 = frameHeader call.funcName.code slot := by
  rw [Call.frame, List.append_assoc]
  exact List.take_left' rfl

theorem Call.frame_long (pid slot : Nat) (path : List UInt8) (call : Call) :
    8 ≤ (call.frame pid slot path).length := by
  simp [Call.frame]

theorem Call.decode_frame {call : Call} {pid slot : Nat} (path : List UInt8)
    (notRange : call.isRangeQuery = false) (representable : call.Representable pid)
    (slotSmall : slot < 2 ^ 31) (rest : List UInt8) :
    call.funcName.decode ((call.frame pid slot path).drop wordSize ++ rest) =
      some (call.command pid slot path) := by
  rw [Call.frame_drop]
  cases call <;> simp only [Call.Representable] at representable
  case rangeQueryRequest => cases notRange
  all_goals
    simp (disch := omega) only [Call.funcName, Call.body, Call.isOpen, Call.command,
      FuncName.decode, wordSize, openResponseArgs, countResponseArgs, getResponseArgs,
      putResponseArgs, deleteResponseArgs, if_true, List.append_nil, List.append_assoc,
      List.take_left' (length_encodeU32 _), List.drop_left' (length_encodeU32 _),
      List.take_left' (length_encodeU64 _), List.drop_left' (length_encodeU64 _),
      List.take_left' (length_encodeBool _), List.drop_left' (length_encodeBool _),
      List.take_left' (length_encodeI32 _), List.drop_left' (length_encodeI32 _),
      List.take_left, List.drop_left, Bool.false_eq_true, ↓reduceIte, IterKey.read,
      decodeLE_encodeU32, decodeLE_encodeU64, decodeI32_encodeI32, decodeI32_encodeU32,
      decodeLE_encodeBool, takeWhile_strcpyBytes]

theorem rangeQueryResponseOptions_encode (options : RangeQueryOptions)
    (fits : options.start.length < 2 ^ 64 ∧ options.limit.length < 2 ^ 64 ∧
      options.batchCapacity < 2 ^ 64 ∧ options.attrs.length < 2 ^ 31)
    (attrsInRange : ∀ attr ∈ options.attrs, -2 ^ 15 ≤ attr ∧ attr < 2 ^ 15) (rest : List UInt8) :
    rangeQueryResponseOptions (options.encode ++ rest) =
      { options.fields with start := none, limit := none } := by
  obtain ⟨start, limit, batchCapacity, attrs⟩ := options
  dsimp only at fits attrsInRange
  have count : decodeI32 (encodeI32 attrs.length) = attrs.length :=
    decodeI32_encodeI32 (by omega)
  have decoded := decodeI16s_flatMap attrs attrsInRange rest
  simp only [RangeQueryOptions.encode, RangeQueryOptions.fields, rangeQueryResponseOptions,
    ite_length_pos, List.append_assoc, List.take_left' (length_encodeU64 _),
    List.drop_left' (length_encodeU64 _), List.drop_left, List.take_left,
    List.take_left' (length_encodeI32 _), List.drop_left' (length_encodeI32 _),
    decodeLE_encodeU64 fits.1, decodeLE_encodeU64 fits.2.1, decodeLE_encodeU64 fits.2.2.1,
    count, Int.toNat_ofNat, decoded]
  by_cases positive : attrs.length > 0
  · simp [positive, show (attrs.length : Int) > 0 by omega, decoded]
  · simp [positive, show ¬(attrs.length : Int) > 0 by omega]

theorem Call.decode_rangeQuery_frame {relationId pid slot : Nat} {options : RangeQueryOptions}
    (representable : (Call.rangeQueryRequest relationId options).Representable pid)
    (slotSmall : slot < 2 ^ 32) (path rest : List UInt8) :
    FuncName.RANGEQUERY.decode
        (((Call.rangeQueryRequest relationId options).frame pid slot path).drop wordSize ++ rest) =
      some (.rangeQueryResponse slot ⟨relationId, pid⟩
        { options.fields with start := none, limit := none }) := by
  obtain ⟨relationSmall, pidSmall, startFits, limitFits, capacityFits, attrsFit, attrsInRange⟩ :=
    representable
  rw [Call.frame_drop]
  simp only [Call.body, Call.isOpen, FuncName.decode, rangeQueryResponseArgs, Bool.false_eq_true,
    ↓reduceIte, List.append_nil, List.append_assoc,
    List.take_left' (length_encodeU32 _), List.drop_left' (length_encodeU32 _),
    decodeLE_encodeU32 slotSmall, decodeLE_encodeU32 relationSmall, decodeLE_encodeU32 pidSmall,
    rangeQueryResponseOptions_encode options ⟨startFits, limitFits, capacityFits, attrsFit⟩
      attrsInRange]

/-! ## After the copy-out -/

theorem handlerBuf_of_holds {C : ShmConfig} {area : Region} {frame : List UInt8}
    (holds : area.read 0 frame.length = frame) (fits : frame.length ≤ C.bufSize)
    (long : wordSize ≤ frame.length) :
    ∃ rest, handlerBuf C (area.read 0 C.bufSize) = frame.drop wordSize ++ rest := by
  obtain ⟨more, bound⟩ : ∃ more, C.bufSize = frame.length + more :=
    ⟨_, (Nat.add_sub_of_le fits).symm⟩
  refine ⟨area.read frame.length more ++ List.replicate (min wordSize C.bufSize) 0, ?_⟩
  rw [handlerBuf, bound, Region.read_add, holds, Nat.zero_add, List.drop_append_of_le_length long,
    List.append_assoc]

theorem copyOutOf_frame {C : ShmConfig} {area : Region} {call : Call} {pid slot : Nat}
    {path : List UInt8} (slotSmall : slot < 2 ^ 32)
    (holds : area.read 0 (call.frame pid slot path).length = call.frame pid slot path)
    (fits : (call.frame pid slot path).length ≤ C.bufSize) :
    ∃ rest, copyOutOf C area = .postFull call.funcName.code slot
      ((call.frame pid slot path).drop wordSize ++ rest) := by
  obtain ⟨rest, buf⟩ := handlerBuf_of_holds holds fits
    (le_trans (by decide) (Call.frame_long pid slot path call))
  refine ⟨rest, ?_⟩
  rw [copyOutOf_of_holds holds (Call.frame_long pid slot path call), buf,
    frameFunc_eq (Call.frame_header pid slot path call) call.funcName.code_lt,
    frameSlot_eq (Call.frame_header pid slot path call) slotSmall]

/-- Each handler takes the fields its request function encoded, and the worker answers on
the leased slot. For every request of kind `OPEN`, `CLOSE`, `COUNT`, `GETITER`, `DELITER`,
`NEXT`, `GET`, `PUT` or `DELETE`, every argument value of its C type and every slot below
`2 ^ 31` (`GetResponse` reads `responseId` into an `int`), once the area holds the command
and the command fits in `BUFSIZE`: `KVWorkerMain` copies out the request's `func` and the
leased slot as the `responseId` it signals, and the handler its switch calls, handed `buf`
or `buf + sizeof(responseId)`, decodes exactly the encoded fields, including the
`responseId` of the slot it writes its response to. -/
theorem commands_decoded (C : ShmConfig) (call : Call) (pid slot : Nat) (path : List UInt8)
    (area : Region) (notRange : call.isRangeQuery = false) (representable : call.Representable pid)
    (slotSmall : slot < 2 ^ 31)
    (holds : area.read 0 (call.frame pid slot path).length = call.frame pid slot path)
    (fits : (call.frame pid slot path).length ≤ C.bufSize) :
    ∃ buf, copyOutOf C area = .postFull call.funcName.code slot buf ∧
      call.funcName.decode buf = some (call.command pid slot path) := by
  obtain ⟨rest, copied⟩ := copyOutOf_frame (by omega) holds fits
  exact ⟨_, copied, Call.decode_frame path notRange representable slotSmall rest⟩

/-- A `GetRequest` of a one-byte key of relation 7, written in slot 0 of a 32-byte area. -/
theorem get_command_decoded :
    ∃ buf, copyOutOf ⟨1, 32, by decide, by decide⟩
        (Region.write (fun _ => 0) 0 ((Call.getRequest 7 [107]).frame 4123 0 [])) =
        .postFull FuncName.GET.code 0 buf ∧
      FuncName.GET.decode buf = some (.getResponse 0 7 [107]) :=
  commands_decoded ⟨1, 32, by decide, by decide⟩ (.getRequest 7 [107]) 4123 0 []
    (Region.write (fun _ => 0) 0 ((Call.getRequest 7 [107]).frame 4123 0 [])) rfl (by decide)
    (by decide) (Region.read_write_self _ _ _) (by decide)

/-- `RangeQueryResponse` loses the scan bounds. For every range query whose command fits
in `BUFSIZE`, the worker copies out `func` and the leased slot, and `RangeQueryResponse`
takes the `responseId`, the key `(relationId, pid)`, both lengths, `batchCapacity`,
`attrCount` and the attributes; but it copies the bound bytes into its locals `start` and
`limit` and never stores them in `options.start` and `options.limit`. So whenever a bound
is not empty, the options it passes on differ from those the client sent. -/
theorem rangeQueryResponse_drops_bounds (C : ShmConfig) (relationId pid slot : Nat)
    (options : RangeQueryOptions) (area : Region)
    (representable : (Call.rangeQueryRequest relationId options).Representable pid)
    (slotSmall : slot < 2 ^ 32)
    (holds : area.read 0 ((Call.rangeQueryRequest relationId options).frame pid slot []).length =
      (Call.rangeQueryRequest relationId options).frame pid slot [])
    (fits : ((Call.rangeQueryRequest relationId options).frame pid slot []).length ≤ C.bufSize) :
    ∃ buf, copyOutOf C area = .postFull FuncName.RANGEQUERY.code slot buf ∧
      FuncName.RANGEQUERY.decode buf = some (.rangeQueryResponse slot ⟨relationId, pid⟩
        { options.fields with start := none, limit := none }) ∧
      (options.start ≠ [] ∨ options.limit ≠ [] →
        FuncName.RANGEQUERY.decode buf ≠
          some ((Call.rangeQueryRequest relationId options).command pid slot [])) := by
  obtain ⟨rest, copied⟩ := copyOutOf_frame slotSmall holds fits
  have decoded := Call.decode_rangeQuery_frame representable slotSmall [] rest
  refine ⟨_, copied, decoded, fun bounded same => ?_⟩
  rw [decoded] at same
  simp only [Call.command, Option.some.injEq, Command.rangeQueryResponse.injEq, true_and,
    RangeQueryOptions.fields, DecodedOptions.mk.injEq] at same
  rcases bounded with startSet | limitSet
  · exact startSet (List.eq_nil_of_length_eq_zero (by split_ifs at same <;> simp_all))
  · exact limitSet (List.eq_nil_of_length_eq_zero (by split_ifs at same <;> simp_all))

/-- A range query of relation 7 from the bound `[1]`, in a 64-byte area: the handler does
not get the bound. -/
theorem rangeQuery_start_lost :
    ∃ buf, copyOutOf ⟨1, 64, by decide, by decide⟩
        (Region.write (fun _ => 0) 0 ((Call.rangeQueryRequest 7 ⟨[1], [], 10, []⟩).frame 4123 0 [])) =
        .postFull FuncName.RANGEQUERY.code 0 buf ∧
      FuncName.RANGEQUERY.decode buf ≠
        some ((Call.rangeQueryRequest 7 ⟨[1], [], 10, []⟩).command 4123 0 []) :=
  let ⟨buf, copied, _, lost⟩ := rangeQueryResponse_drops_bounds ⟨1, 64, by decide, by decide⟩
    7 4123 0 ⟨[1], [], 10, []⟩
    (Region.write (fun _ => 0) 0 ((Call.rangeQueryRequest 7 ⟨[1], [], 10, []⟩).frame 4123 0 []))
    (by decide) (by decide) (Region.read_write_self _ _ _) (by decide)
  ⟨buf, copied, lost (.inl (by decide))⟩

end KvFdw.Shm
