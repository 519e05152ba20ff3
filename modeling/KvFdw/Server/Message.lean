import KvFdw.Bytes

/-!
# Messages between a kv worker and its clients

The `KVMessage` headers and entities of src/server/kv_worker.cc; the queue's `Send` and
`Recv` are not among the sources and are modelled from the spec.
-/

set_option autoImplicit false

namespace KvFdw.Server

/-! ## C layout -/

/-- The first offset at or after `offset` that is a multiple of `alignment`. -/
def alignUp (offset alignment : Nat) : Nat :=
  (offset + alignment - 1) / alignment * alignment

/-- `sizeof` of a C struct of scalar fields of the given sizes, each aligned to its own
size, the whole padded to the largest alignment (the layout of the 64-bit ABIs). -/
def cSizeof (fields : List Nat) : Nat :=
  alignUp (fields.foldl (fun offset size => alignUp offset size + size) 0) (fields.foldl max 1)

/-- `sizeof(ReadBatchState)`: `bool next`, seven bytes of padding, `uint64 size`. -/
def readBatchStateSize : Nat := cSizeof [1, 8]

/-- `sizeof(KVMessageHeader)`: `op`, `dbId`, `relId`, `status`, `rpsId`, then `etySize`. -/
def headerSize : Nat := cSizeof [4, 4, 4, 4, 4, 8]

theorem readBatchStateSize_eq : readBatchStateSize = 16 := rfl

theorem headerSize_eq : headerSize = 32 := rfl

/-! ## The channel -/

/-- Modelled from the spec: `pop(offset, buffer, length)`, the next `length` bytes and
what follows them, once that many bytes have been pushed. -/
def pop (length : Nat) (channel : List UInt8) : Option (List UInt8 × List UInt8) :=
  if length ≤ channel.length then some (channel.take length, channel.drop length) else none

@[simp] theorem pop_append {bytes rest : List UInt8} {length : Nat}
    (exact : bytes.length = length) : pop length (bytes ++ rest) = some (bytes, rest) := by
  subst exact
  simp [pop]

theorem pop_append_of_pop {bytes rest taken left : List UInt8} {length : Nat}
    (popped : pop length bytes = some (taken, left)) :
    pop length (bytes ++ rest) = some (taken, left ++ rest) := by
  unfold pop at popped ⊢
  split_ifs at popped with enough
  cases popped
  rw [if_pos (by simp; omega), List.take_append_of_le_length enough,
    List.drop_append_of_le_length enough]

/-- `KVMessageHeader` (src/ipc/kv_message.h). The enums are stored as their values. -/
structure Header where
  op : Nat
  dbId : Nat
  relId : Nat
  status : Nat
  rpsId : Nat
  etySize : Nat
  deriving DecidableEq, Repr

/-- Modelled from the spec: the header's bytes as `Send` pushes them, the struct as it
lies in memory. -/
def Header.encode (hdr : Header) : List UInt8 :=
  encodeU32 hdr.op ++ encodeU32 hdr.dbId ++ encodeU32 hdr.relId ++ encodeU32 hdr.status ++
    encodeU32 hdr.rpsId ++ encodeU32 0 ++ encodeU64 hdr.etySize

/-- Modelled from the spec: `Recv(msg, MSGHEADER)`, the header popped field by field. -/
def Header.read (channel : List UInt8) : Option (Header × List UInt8) := do
  let (op, channel) ← pop 4 channel
  let (dbId, channel) ← pop 4 channel
  let (relId, channel) ← pop 4 channel
  let (status, channel) ← pop 4 channel
  let (rpsId, channel) ← pop 4 channel
  let (_, channel) ← pop 4 channel
  let (etySize, channel) ← pop 8 channel
  pure (⟨decodeLE op, decodeLE dbId, decodeLE relId, decodeLE status, decodeLE rpsId,
    decodeLE etySize⟩, channel)

/-- The header the receiver reads: each field cut to the width of its C type. -/
def Header.truncate (hdr : Header) : Header where
  op := hdr.op % 2 ^ 32
  dbId := hdr.dbId % 2 ^ 32
  relId := hdr.relId % 2 ^ 32
  status := hdr.status % 2 ^ 32
  rpsId := hdr.rpsId % 2 ^ 32
  etySize := hdr.etySize % 2 ^ 64

theorem length_encode (hdr : Header) : hdr.encode.length = headerSize := by
  simp [Header.encode, headerSize_eq]

theorem Header.read_encode (hdr : Header) (rest : List UInt8) :
    Header.read (hdr.encode ++ rest) = some (hdr.truncate, rest) := by
  simp only [Header.read, Header.encode, List.append_assoc, pop_append (length_encodeU32 _),
    pop_append (length_encodeU64 _), Option.bind_eq_bind, Option.some_bind, Option.pure_def,
    Header.truncate, decodeLE_encodeU32_eq_mod, decodeLE_encodeU64_eq_mod]

/-- Modelled from the spec: `Send`, the header, then what `writeFunc` pushes. -/
def send (hdr : Header) (entity : List UInt8) : List UInt8 :=
  hdr.encode ++ entity

/-- Modelled from the spec: `Recv(msg, MSGHEADER)` then `Recv(msg, MSGENTITY)`, the
header, then `etySize` bytes into the entity buffer. -/
def receive (channel : List UInt8) : Option (Header × List UInt8 × List UInt8) := do
  let (hdr, channel) ← Header.read channel
  let (entity, channel) ← pop hdr.etySize channel
  pure (hdr, entity, channel)

/-- A message is framed when its header announces exactly the bytes its `writeFunc`
pushes. -/
def Framed (hdr : Header) (entity : List UInt8) : Prop :=
  hdr.etySize % 2 ^ 64 = entity.length

theorem receive_send {hdr : Header} {entity : List UInt8} (framed : Framed hdr entity)
    (rest : List UInt8) :
    receive (send hdr entity ++ rest) = some (hdr.truncate, entity, rest) := by
  have announced : hdr.truncate.etySize = entity.length := framed
  simp only [receive, send, List.append_assoc, Header.read_encode, Option.bind_eq_bind,
    Option.some_bind, announced, pop_append]
  rfl

/-- The channel after the messages have been sent in order. -/
def sendAll : List (Header × List UInt8) → List UInt8
  | [] => []
  | (hdr, entity) :: rest => send hdr entity ++ sendAll rest

/-- `count` messages received one after the other. -/
def receiveAll : Nat → List UInt8 → Option (List (Header × List UInt8) × List UInt8)
  | 0, channel => some ([], channel)
  | count + 1, channel => do
      let (hdr, entity, channel) ← receive channel
      let (messages, channel) ← receiveAll count channel
      pure ((hdr, entity) :: messages, channel)

theorem receiveAll_sendAll (messages : List (Header × List UInt8))
    (framed : ∀ message ∈ messages, Framed message.1 message.2) (rest : List UInt8) :
    receiveAll messages.length (sendAll messages ++ rest) =
      some (messages.map fun message => (message.1.truncate, message.2), rest) := by
  induction messages with
  | nil => rfl
  | cons message others ih =>
      obtain ⟨hdr, entity⟩ := message
      simp only [List.mem_cons, forall_eq_or_imp] at framed
      simp [receiveAll, sendAll, List.append_assoc, receive_send framed.1, ih framed.2]

/-! ## Requests -/

/-- `RangeQueryOpts` as `KVWorkerClient::RangeQuery` reads it: `startLen` and `limitLen`
are the lengths of `start` and `limit`, and `attrs` holds `attrCount` numbers. -/
structure RangeQueryOpts where
  start : List UInt8
  limit : List UInt8
  batchCapacity : Nat
  attrCount : Int
  attrs : List Int
  /-- `attrCount` is an `int`. -/
  attrCount_range : -2 ^ 31 ≤ attrCount ∧ attrCount < 2 ^ 31
  attrs_length : attrs.length = attrCount.toNat

/-- An `int` converted to `size_t`. -/
def sizeT (value : Int) : Nat :=
  (value % 2 ^ 64).toNat

/-- What `WriteRangeQueryArgs` pushes for the options. -/
def RangeQueryOpts.write (opts : RangeQueryOpts) : List UInt8 :=
  encodeU64 opts.start.length ++ (if opts.start.length > 0 then opts.start else []) ++
    encodeU64 opts.limit.length ++ (if opts.limit.length > 0 then opts.limit else []) ++
    encodeU64 opts.batchCapacity ++ encodeI32 opts.attrCount ++
    (if opts.attrCount > 0 then opts.attrs.flatMap encodeI16 else [])

/-- The `RangeQueryOpts` that `KVWorker::RangeQuery` fills in from the entity on the first
call for a key; `none` for a pointer field it leaves unset. -/
structure ReceivedOpts where
  startLen : Nat
  start : Option (List UInt8)
  limitLen : Nat
  limit : Option (List UInt8)
  batchCapacity : Nat
  attrCount : Int
  attrs : Option (List Int)
  deriving DecidableEq, Repr

/-- The options decoder of `KVWorker::RangeQuery`, from `current` just after the key:
each length as a `uint64`, a bound copied only when its length is positive (moving
`current` past a bound of length zero changes nothing), `attrCount` as an `int`, and
`attrs` pointing at the `AttrNumber`s only when `attrCount` is positive. -/
def readRangeQueryOpts (current : List UInt8) : ReceivedOpts :=
  let startLen := decodeLE (current.take 8)
  let afterStart := (current.drop 8).drop startLen
  let limitLen := decodeLE (afterStart.take 8)
  let afterLimit := (afterStart.drop 8).drop limitLen
  let afterCapacity := afterLimit.drop 8
  let attrCount := decodeI32 (afterCapacity.take 4)
  { startLen := startLen
    start := if startLen > 0 then some ((current.drop 8).take startLen) else none
    limitLen := limitLen
    limit := if limitLen > 0 then some ((afterStart.drop 8).take limitLen) else none
    batchCapacity := decodeLE (afterLimit.take 8)
    attrCount := attrCount
    attrs := if attrCount > 0 then some (decodeI16s attrCount.toNat (afterCapacity.drop 4))
      else none }

/-- The entity of a message a `KVWorkerClient` method sends, with its arguments. `pid` is
the caller's `getpid()`, an `opid` is a `KVOpId`, printed with `%lu`, so eight bytes. -/
inductive Request
  | openArgs (opts : List UInt8) (useColumn : Bool) (attrCount : Int) (path : List UInt8)
  | close
  | count
  | put (key val : List UInt8)
  | get (key : List UInt8)
  | delete (key : List UInt8)
  | load (key val : List UInt8)
  | readBatch (pid opid : Nat)
  | closeCursor (pid opid : Nat)
  | rangeQuery (pid opid : Nat) (opts : Option RangeQueryOpts)
  | clearRangeQuery (pid opid : Nat)
  | terminate

/-- `strlen`: the bytes before the first NUL. -/
def cString (bytes : List UInt8) : List UInt8 :=
  bytes.takeWhile (· != 0)

namespace Request

/-- The `KVOperation` of each request (src/ipc/kv_message.h, with `VIDARDB`). -/
def op : Request → Nat
  | .openArgs .. => 1
  | .close => 2
  | .count => 3
  | .put .. => 4
  | .get .. => 5
  | .delete .. => 6
  | .load .. => 7
  | .readBatch .. => 8
  | .closeCursor .. => 9
  | .rangeQuery .. => 10
  | .clearRangeQuery .. => 11
  | .terminate => 13

/-- `sendmsg.hdr.etySize` as each method computes it, in `uint64` arithmetic; zero for
the messages `SimpleMessage` builds with no entity. -/
def etySize : Request → Nat
  | .openArgs opts _ _ path => (opts.length + (cString path).length + 1 + 4) % 2 ^ 64
  | .close | .count | .terminate => 0
  | .put key val | .load key val => (key.length + val.length + 8) % 2 ^ 64
  | .get key | .delete key => key.length % 2 ^ 64
  | .readBatch .. | .closeCursor .. | .clearRangeQuery .. | .rangeQuery _ _ none => 4 + 8
  | .rangeQuery _ _ (some opts) =>
      (4 + 8 + 8 + opts.start.length + 8 + opts.limit.length + 4 + sizeT opts.attrCount * 2 +
        8) % 2 ^ 64

/-- What the message's `writeFunc` pushes: `WriteOpenArgs`, `WritePutArgs`,
`CommonWriteEntity` of the key, `WriteReadBatchArgs`, `WriteDelCursorArgs` and
`WriteRangeQueryArgs`. -/
def write : Request → List UInt8
  | .openArgs opts useColumn attrCount path =>
      opts ++ encodeBool useColumn ++ encodeI32 attrCount ++ cString path
  | .close | .count | .terminate => []
  | .put key val | .load key val => encodeU64 key.length ++ key ++ val
  | .get key | .delete key => key
  | .readBatch pid opid | .closeCursor pid opid | .clearRangeQuery pid opid =>
      encodeU32 pid ++ encodeU64 opid
  | .rangeQuery pid opid opts =>
      encodeU32 pid ++ encodeU64 opid ++ (opts.map RangeQueryOpts.write).getD []

/-- The header `SimpleMessage(op, workerId, MyDatabaseId)` gives the request, with the
response channel `SendWithResponse` leased (zero for `Send`). -/
def header (workerId dbId rpsId : Nat) (request : Request) : Header where
  op := request.op
  dbId := dbId
  relId := workerId
  status := 0
  rpsId := rpsId
  etySize := request.etySize

/-- The requests whose options announce no negative attribute count. -/
def attrsCounted : Request → Bool
  | .rangeQuery _ _ (some opts) => 0 ≤ opts.attrCount
  | _ => true

end Request

theorem length_flatMap_encodeI16 (attrs : List Int) :
    (attrs.flatMap encodeI16).length = 2 * attrs.length := by
  induction attrs with
  | nil => rfl
  | cons attr rest ih => simp [ih]; omega

theorem RangeQueryOpts.length_write (opts : RangeQueryOpts) (counted : 0 ≤ opts.attrCount) :
    opts.write.length =
      8 + opts.start.length + 8 + opts.limit.length + 8 + 4 + sizeT opts.attrCount * 2 := by
  have attrs := opts.attrs_length
  have range := opts.attrCount_range
  have converted : sizeT opts.attrCount = opts.attrCount.toNat := by
    unfold sizeT
    rw [Int.emod_eq_of_lt counted (by omega)]
  rw [converted]
  unfold RangeQueryOpts.write
  split_ifs <;>
    simp only [List.length_append, length_encodeU64, length_encodeI32, length_flatMap_encodeI16,
      attrs, List.length_nil] <;> omega

/-- The options the worker should hold for the options a client sent: every length, and
a bound or the attributes wherever there are some. -/
def RangeQueryOpts.received (opts : RangeQueryOpts) : ReceivedOpts where
  startLen := opts.start.length
  start := if opts.start.length > 0 then some opts.start else none
  limitLen := opts.limit.length
  limit := if opts.limit.length > 0 then some opts.limit else none
  batchCapacity := opts.batchCapacity
  attrCount := opts.attrCount
  attrs := if opts.attrCount > 0 then some opts.attrs else none

theorem readRangeQueryOpts_write (opts : RangeQueryOpts)
    (fits : opts.start.length < 2 ^ 64 ∧ opts.limit.length < 2 ^ 64 ∧ opts.batchCapacity < 2 ^ 64)
    (attrsInRange : ∀ attr ∈ opts.attrs, -2 ^ 15 ≤ attr ∧ attr < 2 ^ 15) (rest : List UInt8) :
    readRangeQueryOpts (opts.write ++ rest) = opts.received := by
  obtain ⟨start, limit, batchCapacity, attrCount, attrs, range, attrsLength⟩ := opts
  have attrsBytes : (if attrCount > 0 then attrs.flatMap encodeI16 else []) ++ rest =
      attrs.flatMap encodeI16 ++ rest := by
    split_ifs with positive
    · rfl
    · rw [List.eq_nil_of_length_eq_zero (show attrs.length = 0 by omega)]; rfl
  have decoded := decodeI16s_flatMap attrs attrsInRange rest
  rw [attrsLength] at decoded
  simp only [RangeQueryOpts.write, RangeQueryOpts.received, readRangeQueryOpts, ite_length_pos,
    List.append_assoc, attrsBytes, List.take_left' (length_encodeU64 _),
    List.drop_left' (length_encodeU64 _), List.drop_left, List.take_left,
    List.take_left' (length_encodeI32 _), List.drop_left' (length_encodeI32 _),
    decodeLE_encodeU64 fits.1, decodeLE_encodeU64 fits.2.1, decodeLE_encodeU64 fits.2.2,
    decodeI32_encodeI32 range, decoded]

theorem Request.framed (workerId dbId rpsId : Nat) (request : Request)
    (fits : request.write.length < 2 ^ 64) (counted : request.attrsCounted = true) :
    Framed (request.header workerId dbId rpsId) request.write := by
  unfold Framed Request.header
  cases request with
  | rangeQuery pid opid opts =>
      cases opts with
      | none => rfl
      | some opts =>
          have length := opts.length_write (by simpa [Request.attrsCounted] using counted)
          simp only [Request.write, Option.map_some', Option.getD_some, List.length_append,
            length_encodeU32, length_encodeU64] at fits ⊢
          simp only [Request.etySize, Nat.mod_mod]
          omega
  | _ => simp [Request.etySize, Request.write] at fits ⊢ <;> omega

/-- The requests a backend sends one after the other on a worker's queue, each with the
response channel it leased, are received by `KVWorker::Run` one by one: each with the
header the client set, its fields cut to their C widths, and exactly the bytes its
`writeFunc` pushed. -/
theorem requests_received (workerId dbId : Nat) (messages : List (Nat × Request))
    (fits : ∀ message ∈ messages,
      message.2.write.length < 2 ^ 64 ∧ message.2.attrsCounted = true)
    (rest : List UInt8) :
    receiveAll messages.length
        (sendAll (messages.map fun message =>
          (message.2.header workerId dbId message.1, message.2.write)) ++ rest) =
      some (messages.map fun message =>
        ((message.2.header workerId dbId message.1).truncate, message.2.write), rest) := by
  have framed : ∀ message ∈ messages.map (fun message : Nat × Request =>
      (message.2.header workerId dbId message.1, message.2.write)),
      Framed message.1 message.2 := by
    simp only [List.mem_map]
    rintro _ ⟨message, member, rfl⟩
    exact Request.framed workerId dbId message.1 message.2 (fits message member).1
      (fits message member).2
  simpa [Function.comp_def] using receiveAll_sendAll _ framed rest

/-- A `GET` of a one-byte key on channel 1, then a `CLOSE`, to worker 3 of database 5. -/
theorem get_then_close_received :
    receiveAll 2 (sendAll [((Request.get [107]).header 3 5 1, [107]),
        (Request.close.header 3 5 0, [])] ++ [9]) =
      some ([(((Request.get [107]).header 3 5 1).truncate, [107]),
        ((Request.close.header 3 5 0).truncate, [])], [9]) :=
  requests_received 3 5 [(1, .get [107]), (0, .close)] (by decide) [9]

/-! ## Replies -/

/-- A reply of `KVWorker`: `SuccessMessage` or `FailureMessage` alone, the count of
`Count`, the value of a successful `Get`, and the `ReadBatchState` of `ReadBatch` and
`RangeQuery`. -/
inductive Reply
  | status (success : Bool)
  | count (count : Nat)
  | value (val : List UInt8)
  | batch (next : Bool) (size : Nat)

namespace Reply

/-- `sendmsg.hdr.etySize` of the reply. -/
def etySize : Reply → Nat
  | .status _ => 0
  | .count _ => 8
  | .value val => val.length % 2 ^ 64
  | .batch .. => readBatchStateSize

/-- What the reply's `writeFunc` pushes: nothing, `CommonWriteEntity` of the count or
the value, or `WriteReadBatchState`. -/
def write : Reply → List UInt8
  | .status _ => []
  | .count total => encodeU64 total
  | .value val => val
  | .batch next size => encodeBool next ++ encodeU64 size

/-- The header: `KVStatusSuccess` or `KVStatusFailure` on the leased channel, and for
`Count` a header with no status. -/
def header (rpsId : Nat) (reply : Reply) : Header where
  op := 0
  dbId := 0
  relId := 0
  status := match reply with
    | .status false => 2
    | .count _ => 0
    | _ => 1
  rpsId := rpsId
  etySize := reply.etySize

/-- The bytes the receiving client has room for: none in `Put` and `Delete`, `count` in
`Count`, `palloc0(*(args->valLen))` of the announced length in `Get`, and
`char buf[sizeof(bool) + sizeof(uint64)]` in `ReadBatch` and `RangeQuery`. -/
def capacity : Reply → Nat
  | .status _ => 0
  | .count _ => 8
  | .value val => val.length % 2 ^ 64
  | .batch .. => 1 + 8

end Reply

/-- What `KVWorkerClient::ReadBatch` and `KVWorkerClient::RangeQuery` take from the bytes
they received into `buf`: `next`, the `bool` at its start, and `*(args->bufLen)`, the
`uint64` after it. -/
def readBatchState (buf : List UInt8) : Bool × Nat :=
  (decodeLE (buf.take 1) != 0, decodeLE ((buf.drop 1).take 8))

theorem readBatchState_write (next : Bool) {size : Nat} (small : size < 2 ^ 64)
    (rest : List UInt8) : readBatchState ((Reply.batch next size).write ++ rest) = (next, size) := by
  simp only [readBatchState, Reply.write, List.append_assoc,
    List.take_left' (length_encodeBool next), List.drop_left' (length_encodeBool next),
    List.take_left' (length_encodeU64 size), decodeLE_encodeBool, decodeLE_encodeU64 small]

/-- `KVWorker::ReadBatch` and `KVWorker::RangeQuery` announce `sizeof(ReadBatchState)`,
sixteen bytes with the padding after `next`, while `WriteReadBatchState` pushes the nine
bytes of `next` and `size` and the client receives into a nine-byte buffer: the client
pops seven bytes that the reply did not push, and writes them past its buffer. -/
theorem batchReply_overruns (rpsId : Nat) (next : Bool) (size : Nat) (rest : List UInt8) :
    (Reply.batch next size).write.length + 7 = ((Reply.batch next size).header rpsId).etySize ∧
      (Reply.batch next size).capacity + 7 = ((Reply.batch next size).header rpsId).etySize ∧
      receive (send ((Reply.batch next size).header rpsId) (Reply.batch next size).write ++ rest) =
        if 7 ≤ rest.length then
          some (((Reply.batch next size).header rpsId).truncate,
            (Reply.batch next size).write ++ rest.take 7, rest.drop 7)
        else none := by
  refine ⟨rfl, rfl, ?_⟩
  simp only [receive, send, List.append_assoc, Header.read_encode, Option.bind_eq_bind,
    Option.some_bind]
  simp only [Header.truncate, Reply.header, Reply.etySize, readBatchStateSize_eq, pop,
    Reply.write, List.length_append, length_encodeBool, length_encodeU64]
  split_ifs <;> first
    | omega
    | simp [List.take_append_eq_append_take, List.drop_append_eq_append_drop,
        List.take_of_length_le, List.drop_of_length_le]

end KvFdw.Server
