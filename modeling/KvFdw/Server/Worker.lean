import KvFdw.Server.Cursor

/-!
# The kv worker's message loop

`KVWorker::Run` at two levels, the byte-level `Worker.step` and the message-level
`Worker.handle`, and that they agree on the messages clients send.
-/

set_option autoImplicit false

namespace KvFdw.Server

/-! ## The storage engine -/

/-- The storage calls of `KVWorker`: `OpenConn`, `GetCount`, `PutRecord`, `GetRecord`,
`DelRecord`, `BatchRead`, and the range-query calls. A null connection is `none`. An
iterator is the number of the `GetIter` call that made it. -/
structure Storage (σ χ κ ρ : Type) where
  openConn : List UInt8 → Bool → Int → List UInt8 → Option χ
  getCount : σ → Option χ → Nat
  putRecord : σ → Option χ → List UInt8 → List UInt8 → σ × Bool
  getRecord : σ → Option χ → List UInt8 → Option (List UInt8)
  delRecord : σ → Option χ → List UInt8 → σ × Bool
  batchRead : σ → Option χ → Nat → σ × Bool × Nat
  range : RangeStorage κ ρ

/-! ## The worker -/

/-- A `KVWorker`: `running_`, `conn_`, `ref_` (an integer here: its C type is declared in
kv_worker.h, which is not among the sources), `cursors_`, `ranges_`, and the store behind
the connection. Ghost: how often `OpenConn`, `GetIter` and `ParseRangeQueryOptions` were
called, the iterators passed to `DelIter`, and the replies sent. -/
structure Worker (σ χ κ ρ : Type) where
  running : Bool
  conn : Option χ
  ref : Int
  cursors : CursorKey → Option Nat
  ranges : RangeWorker κ ρ
  store : σ
  connects : Nat
  issued : Nat
  parsed : Nat
  deleted : List Nat
  sent : List (Header × List UInt8)

variable {σ χ κ ρ : Type}

/-- The worker `KVWorkerDo` runs: `KVWorker::KVWorker`, then `Start`. -/
def Worker.init (store : σ) : Worker σ χ κ ρ where
  running := true
  conn := none
  ref := 0
  cursors := fun _ => none
  ranges := ⟨fun _ => none, [], []⟩
  store := store
  connects := 0
  issued := 0
  parsed := 0
  deleted := []
  sent := []

/-- `queue_->Send(sendmsg)` of a reply on response channel `rpsId`. -/
def Worker.reply (worker : Worker σ χ κ ρ) (rpsId : Nat) (answer : Reply) :
    Worker σ χ κ ρ :=
  { worker with sent := worker.sent ++ [(answer.header rpsId, answer.write)] }

/-! ## The handlers, once the entity is read -/

/-- `OpenArgs` as `KVWorker::ReadOpenArgs` fills it. -/
structure OpenArgs where
  opts : List UInt8
  useColumn : Bool
  attrCount : Int
  path : List UInt8
  deriving DecidableEq, Repr

/-- `KVWorker::ReadOpenArgs`: `sizeof(args->opts)` bytes of options (`optsSize`: the type
is declared in kv_api.h, which is not among the sources), `useColumn`, `attrCount`, then
`size - delta` bytes into the path buffer, which `palloc0(msg.hdr.etySize)` zeroed. -/
def readOpenArgs (optsSize size : Nat) (channel : List UInt8) :
    Option (OpenArgs × List UInt8) := do
  let (opts, channel) ← pop optsSize channel
  let (useColumn, channel) ← pop 1 channel
  let (attrCount, channel) ← pop 4 channel
  let (path, channel) ← pop (sizeT ((size : Int) - (optsSize + 1 + 4))) channel
  pure (⟨opts, decodeLE useColumn != 0, decodeI32 attrCount, cString path⟩, channel)

theorem pop_of_le {length : Nat} {channel : List UInt8} (enough : length ≤ channel.length) :
    pop length channel = some (channel.take length, channel.drop length) := by
  simp [pop, enough]

theorem readOpenArgs_eq {optsSize : Nat} {bytes : List UInt8}
    (long : optsSize + 1 + 4 ≤ bytes.length) (fits : bytes.length < 2 ^ 64) :
    readOpenArgs optsSize bytes.length bytes =
      some (⟨bytes.take optsSize, decodeLE ((bytes.drop optsSize).take 1) != 0,
        decodeI32 ((bytes.drop (optsSize + 1)).take 4), cString (bytes.drop (optsSize + 1 + 4))⟩,
        []) := by
  have path : sizeT ((bytes.length : Int) - (optsSize + 1 + 4)) =
      bytes.length - (optsSize + 1 + 4) := by
    unfold sizeT
    rw [Int.emod_eq_of_lt (by omega) (by omega)]
    omega
  simp (disch := (try simp only [List.length_drop]); omega) only [readOpenArgs,
    Option.bind_eq_bind, path, pop_of_le, Option.some_bind, List.drop_drop, Option.pure_def]
  rw [List.take_of_length_le (show (bytes.drop (optsSize + 1 + 4)).length ≤
      bytes.length - (optsSize + 1 + 4) by simp),
    List.drop_of_length_le
      (show bytes.length ≤ optsSize + 1 + 4 + (bytes.length - (optsSize + 1 + 4)) by omega)]

theorem readOpenArgs_append {optsSize size : Nat} {bytes rest left : List UInt8}
    {args : OpenArgs} (read : readOpenArgs optsSize size bytes = some (args, left)) :
    readOpenArgs optsSize size (bytes ++ rest) = some (args, left ++ rest) := by
  simp only [readOpenArgs, Option.bind_eq_bind, Option.bind_eq_some, Prod.exists] at read
  obtain ⟨opts, c1, p1, useColumn, c2, p2, attrCount, c3, p3, path, c4, p4, done⟩ := read
  simp only [readOpenArgs, Option.bind_eq_bind, pop_append_of_pop p1, pop_append_of_pop p2,
    pop_append_of_pop p3, pop_append_of_pop p4, Option.some_bind]
  simpa using done

theorem cString_cString (bytes : List UInt8) : cString (cString bytes) = cString bytes :=
  List.takeWhile_idem

theorem readOpenArgs_write {optsSize : Nat} {opts path : List UInt8} {useColumn : Bool}
    {attrCount : Int} (sized : opts.length = optsSize)
    (inRange : -2 ^ 31 ≤ attrCount ∧ attrCount < 2 ^ 31)
    (fits : (Request.openArgs opts useColumn attrCount path).write.length < 2 ^ 64) :
    readOpenArgs optsSize (Request.openArgs opts useColumn attrCount path).etySize
        (Request.openArgs opts useColumn attrCount path).write =
      some (⟨opts, useColumn, attrCount, cString path⟩, []) := by
  have size : (Request.openArgs opts useColumn attrCount path).etySize =
      (Request.openArgs opts useColumn attrCount path).write.length := by
    simp only [Request.write, Request.etySize, List.length_append, length_encodeBool,
      length_encodeI32] at fits ⊢
    rw [Nat.mod_eq_of_lt (by omega)]
    omega
  rw [size, readOpenArgs_eq (by simp [Request.write, sized]; omega) fits]
  subst sized
  simp only [Request.write, List.append_assoc, List.take_left, List.drop_left,
    List.take_left' (length_encodeBool _), List.drop_left' (length_encodeBool _),
    List.take_left' (length_encodeI32 _), List.drop_left' (length_encodeI32 _),
    decodeLE_encodeBool, decodeI32_encodeI32 inRange, cString_cString, ← List.drop_drop]

/-- `KVWorker::Open`: `OpenConn` only while `conn_` is null, and `ref_++` in any case. -/
def Worker.open (storage : Storage σ χ κ ρ) (worker : Worker σ χ κ ρ) (args : OpenArgs) :
    Worker σ χ κ ρ :=
  match worker.conn with
  | none =>
      { worker with
        conn := storage.openConn args.path args.useColumn args.attrCount args.opts
        connects := worker.connects + 1
        ref := worker.ref + 1 }
  | some _ => { worker with ref := worker.ref + 1 }

/-- `KVWorker::Close`: `ref_--` unless `conn_` is null. -/
def Worker.close (worker : Worker σ χ κ ρ) : Worker σ χ κ ρ :=
  match worker.conn with
  | none => worker
  | some _ => { worker with ref := worker.ref - 1 }

/-- `KVWorker::Count`. -/
def Worker.count (storage : Storage σ χ κ ρ) (worker : Worker σ χ κ ρ) (rpsId : Nat) :
    Worker σ χ κ ρ :=
  worker.reply rpsId (.count (storage.getCount worker.store worker.conn))

/-- The key and the value `KVWorker::Put` and `KVWorker::Load` take from the entity:
`keyLen` from its first eight bytes, `valLen = msg.hdr.etySize - keyLen - sizeof(keyLen)`
in `uint64` arithmetic. -/
def putArgs (etySize : Nat) (entity : List UInt8) : List UInt8 × List UInt8 :=
  ((entity.drop 8).take (decodeLE (entity.take 8)),
    (entity.drop (8 + decodeLE (entity.take 8))).take
      (sizeT ((etySize : Int) - decodeLE (entity.take 8) - 8)))

theorem putArgs_write {key val : List UInt8} (fits : key.length + val.length + 8 < 2 ^ 64) :
    putArgs ((key.length + val.length + 8) % 2 ^ 64) (encodeU64 key.length ++ key ++ val) =
      (key, val) := by
  have valLen : sizeT (((key.length + val.length + 8) % 2 ^ 64 : Nat) - (key.length : Int) - 8) =
      val.length := by
    unfold sizeT
    rw [Nat.mod_eq_of_lt fits, Int.emod_eq_of_lt (by omega) (by omega)]
    omega
  simp only [putArgs, List.append_assoc, List.take_left' (length_encodeU64 _),
    List.drop_left' (length_encodeU64 _), decodeLE_encodeU64 (show key.length < 2 ^ 64 by omega),
    List.take_left, valLen, ← List.drop_drop, List.drop_left, List.take_length]

/-- `KVWorker::Put`. -/
def Worker.put (storage : Storage σ χ κ ρ) (worker : Worker σ χ κ ρ) (rpsId etySize : Nat)
    (entity : List UInt8) : Worker σ χ κ ρ :=
  let put := storage.putRecord worker.store worker.conn (putArgs etySize entity).1
    (putArgs etySize entity).2
  { worker with store := put.1 }.reply rpsId (.status put.2)

/-- `KVWorker::Get`: the value on success, `FailureMessage` otherwise. -/
def Worker.get (storage : Storage σ χ κ ρ) (worker : Worker σ χ κ ρ) (rpsId : Nat)
    (entity : List UInt8) : Worker σ χ κ ρ :=
  match storage.getRecord worker.store worker.conn entity with
  | some val => worker.reply rpsId (.value val)
  | none => worker.reply rpsId (.status false)

/-- `KVWorker::Delete`. -/
def Worker.delete (storage : Storage σ χ κ ρ) (worker : Worker σ χ κ ρ) (rpsId : Nat)
    (entity : List UInt8) : Worker σ χ κ ρ :=
  let deleted := storage.delRecord worker.store worker.conn entity
  { worker with store := deleted.1 }.reply rpsId (.status deleted.2)

/-- `KVWorker::Load`: `PutRecord` with no reply. -/
def Worker.load (storage : Storage σ χ κ ρ) (worker : Worker σ χ κ ρ) (etySize : Nat)
    (entity : List UInt8) : Worker σ χ κ ρ :=
  { worker with
    store := (storage.putRecord worker.store worker.conn (putArgs etySize entity).1
      (putArgs etySize entity).2).1 }

/-- `cursors_.find(key)` in `KVWorker::ReadBatch`: the key's iterator, or a new one from
`GetIter` inserted under the key. -/
def Worker.cursor (worker : Worker σ χ κ ρ) (key : CursorKey) : Worker σ χ κ ρ × Nat :=
  match worker.cursors key with
  | some cursor => (worker, cursor)
  | none =>
      ({ worker with
          cursors := Function.update worker.cursors key (some worker.issued)
          issued := worker.issued + 1 }, worker.issued)

/-- `KVWorker::ReadBatch`: `BatchRead` on the key's iterator, and its `ReadBatchState`
as the reply. -/
def Worker.readBatch (storage : Storage σ χ κ ρ) (worker : Worker σ χ κ ρ) (rpsId : Nat)
    (entity : List UInt8) : Worker σ χ κ ρ :=
  let found := worker.cursor (CursorKey.read entity)
  let read := storage.batchRead found.1.store found.1.conn found.2
  { found.1 with store := read.1 }.reply rpsId (.batch read.2.1 read.2.2)

/-- `KVWorker::CloseCursor`: `DelIter` on the key's iterator and its removal; nothing
when the key has none. -/
def Worker.closeCursor (worker : Worker σ χ κ ρ) (entity : List UInt8) : Worker σ χ κ ρ :=
  match worker.cursors (CursorKey.read entity) with
  | none => worker
  | some cursor =>
      { worker with
        cursors := Function.update worker.cursors (CursorKey.read entity) none
        deleted := worker.deleted ++ [cursor] }

/-- `KVWorker::RangeQuery`, with `RangeWorker.rangeQuery` on `ranges_`; `none` while its
read loop has not ended after `fuel` reads. -/
def Worker.rangeQuery (storage : Storage σ χ κ ρ) (fuel : Nat) (worker : Worker σ χ κ ρ)
    (rpsId : Nat) (entity : List UInt8) : Option (Worker σ χ κ ρ) :=
  (worker.ranges.rangeQuery storage.range fuel entity).map fun answered =>
    { worker with
      ranges := answered.1
      parsed := worker.parsed +
        if (worker.ranges.ranges (CursorKey.read entity)).isSome then 0 else 1
    }.reply rpsId (.batch answered.2.next answered.2.size)

/-- `KVWorker::ClearRangeQuery`. -/
def Worker.clearRangeQuery (worker : Worker σ χ κ ρ) (entity : List UInt8) :
    Worker σ χ κ ρ :=
  { worker with ranges := worker.ranges.clearRangeQuery entity }

/-- `KVWorker::Terminate`: `Stop` ends the loop. -/
def Worker.terminate (worker : Worker σ χ κ ρ) : Worker σ χ κ ρ :=
  { worker with running := false }

/-- The handler of `msg.hdr.op` (src/ipc/kv_message.h numbers `KVOperation` from
`KVOpDummy` = 0 to `KVOpTerminate` = 13, with `KVOpLaunch` = 12), given the bytes its
`Recv` reads: the arguments of `ReadOpenArgs` for `KVOpOpen`, `msg.hdr.etySize` bytes
for the others. -/
def Worker.handle (storage : Storage σ χ κ ρ) (optsSize fuel : Nat) (worker : Worker σ χ κ ρ)
    (hdr : Header) (entity : List UInt8) : Option (Worker σ χ κ ρ) :=
  match hdr.op with
  | 1 => (readOpenArgs optsSize hdr.etySize entity).map fun opened => worker.open storage opened.1
  | 2 => some worker.close
  | 3 => some (worker.count storage hdr.rpsId)
  | 4 => some (worker.put storage hdr.rpsId hdr.etySize entity)
  | 5 => some (worker.get storage hdr.rpsId entity)
  | 6 => some (worker.delete storage hdr.rpsId entity)
  | 7 => some (worker.load storage hdr.etySize entity)
  | 8 => some (worker.readBatch storage hdr.rpsId entity)
  | 9 => some (worker.closeCursor entity)
  | 10 => worker.rangeQuery storage fuel hdr.rpsId entity
  | 11 => some (worker.clearRangeQuery entity)
  | 13 => some worker.terminate
  | _ => some worker

/-! ## The loop on the bytes of the queue -/

/-- One pass of `KVWorker::Run`'s loop: `Recv(msg, MSGHEADER)`, then the handler of the
operation, which reads the entity with `ReadOpenArgs` (`Open`), or `etySize` bytes with
`MSGENTITY` or `MSGDISCARD` (the others). `KVOpDummy`, `KVOpLaunch` and unknown operations
read no entity. `none` while the queue holds too few bytes, as `Recv` then waits. -/
def Worker.step (storage : Storage σ χ κ ρ) (optsSize fuel : Nat) (worker : Worker σ χ κ ρ)
    (queue : List UInt8) : Option (Worker σ χ κ ρ × List UInt8) := do
  let (hdr, queue) ← Header.read queue
  match hdr.op with
  | 1 => do
      let (args, queue) ← readOpenArgs optsSize hdr.etySize queue
      pure (worker.open storage args, queue)
  | 2 | 3 | 4 | 5 | 6 | 7 | 8 | 9 | 10 | 11 | 13 => do
      let (entity, queue) ← pop hdr.etySize queue
      let worker ← worker.handle storage optsSize fuel hdr entity
      pure (worker, queue)
  | _ => pure (worker, queue)

/-- `while (running_)`, for at most `passes` passes. -/
def Worker.run (storage : Storage σ χ κ ρ) (optsSize fuel : Nat) :
    Nat → Worker σ χ κ ρ → List UInt8 → Option (Worker σ χ κ ρ × List UInt8)
  | 0, worker, queue => some (worker, queue)
  | passes + 1, worker, queue =>
      if worker.running then
        (worker.step storage optsSize fuel queue).bind fun stepped =>
          Worker.run storage optsSize fuel passes stepped.1 stepped.2
      else some (worker, queue)

/-- The messages handled in order while the worker runs. -/
def Worker.handleAll (storage : Storage σ χ κ ρ) (optsSize fuel : Nat) :
    Worker σ χ κ ρ → List (Header × List UInt8) → Option (Worker σ χ κ ρ)
  | worker, [] => some worker
  | worker, (hdr, entity) :: rest =>
      if worker.running then
        (worker.handle storage optsSize fuel hdr entity).bind fun next =>
          Worker.handleAll storage optsSize fuel next rest
      else some worker

/-! ## The messages clients send -/

/-- The operations whose handler sends a reply. -/
def repliesTo (op : Nat) : Bool :=
  op ∈ [3, 4, 5, 6, 8, 10]

theorem Worker.handle_sent {storage : Storage σ χ κ ρ} {optsSize fuel : Nat}
    {worker next : Worker σ χ κ ρ} {hdr : Header} {entity : List UInt8}
    (handled : worker.handle storage optsSize fuel hdr entity = some next) :
    next.running = (worker.running && hdr.op != 13) ∧
      ∃ replies, next.sent = worker.sent ++ replies ∧
        replies.map (·.1.rpsId) = if repliesTo hdr.op then [hdr.rpsId] else [] := by
  unfold Worker.handle at handled
  split at handled
  case h_1 op =>
    obtain ⟨_, _, rfl⟩ := Option.map_eq_some'.mp handled
    unfold Worker.open
    split <;> simp [-IsEmpty.exists_iff, op, repliesTo]
  case h_10 op =>
    obtain ⟨_, _, rfl⟩ := Option.map_eq_some'.mp handled
    simp [-IsEmpty.exists_iff, op, repliesTo, Worker.reply, Reply.header]
  case h_2 op | h_5 op | h_8 op | h_9 op =>
    cases handled
    simp only [Worker.close, Worker.get, Worker.readBatch, Worker.cursor, Worker.closeCursor]
    split <;> simp [-IsEmpty.exists_iff, op, repliesTo, Worker.reply, Reply.header]
  case h_13 =>
    cases handled
    simp_all [-IsEmpty.exists_iff, repliesTo]
  all_goals
    cases handled
    simp [-IsEmpty.exists_iff, *, repliesTo, Worker.count, Worker.put, Worker.delete, Worker.load,
      Worker.clearRangeQuery, Worker.terminate, Worker.reply, Reply.header]

/-- On the bytes a client sends for a message whose entity its handler reads, one pass of
the loop handles the message and leaves the queue at what follows it. -/
theorem Worker.step_send (storage : Storage σ χ κ ρ) (optsSize fuel : Nat)
    (worker : Worker σ χ κ ρ) {hdr : Header} {entity : List UInt8} (framed : Framed hdr entity)
    (reads : hdr.truncate.op ∈ [1, 2, 3, 4, 5, 6, 7, 8, 9, 10, 11, 13])
    (opening : hdr.truncate.op = 1 → optsSize + 1 + 4 ≤ entity.length) (rest : List UInt8) :
    worker.step storage optsSize fuel (send hdr entity ++ rest) =
      (worker.handle storage optsSize fuel hdr.truncate entity).map fun next => (next, rest) := by
  have announced : hdr.truncate.etySize = entity.length := framed
  have fits : entity.length < 2 ^ 64 := by rw [← announced]; exact Nat.mod_lt _ (by norm_num)
  simp only [Worker.step, send, List.append_assoc, Header.read_encode, Option.bind_eq_bind,
    Option.some_bind]
  simp only [List.mem_cons, List.mem_singleton, List.not_mem_nil, or_false] at reads
  rcases reads with op | op | op | op | op | op | op | op | op | op | op | op <;>
    simp only [op, Worker.handle, announced, pop_append rfl, Option.some_bind, Option.map_some',
      Option.pure_def]
  · rw [readOpenArgs_append (readOpenArgs_eq (opening op) fits), readOpenArgs_eq (opening op) fits]
    rfl
  · cases worker.rangeQuery storage fuel hdr.truncate.rpsId entity <;> rfl

/-- The loop on a queue of such messages, none of them `Terminate`, handles them in
order. -/
theorem Worker.run_sendAll (storage : Storage σ χ κ ρ) (optsSize fuel : Nat)
    (rest : List UInt8) :
    ∀ (messages : List (Header × List UInt8)), (∀ message ∈ messages, Framed message.1 message.2 ∧
      message.1.truncate.op ∈ [1, 2, 3, 4, 5, 6, 7, 8, 9, 10, 11] ∧
      (message.1.truncate.op = 1 → optsSize + 1 + 4 ≤ message.2.length)) →
    ∀ worker : Worker σ χ κ ρ, worker.running = true →
      worker.run storage optsSize fuel messages.length (sendAll messages ++ rest) =
        (worker.handleAll storage optsSize fuel
          (messages.map fun message => (message.1.truncate, message.2))).map
          fun final => (final, rest)
  | [], _, worker, _ => rfl
  | (hdr, entity) :: others, sendable, worker, running => by
      obtain ⟨framed, reads, opening⟩ := sendable (hdr, entity) (List.mem_cons_self _ _)
      have stepped := worker.step_send storage optsSize fuel framed
        (by simp only [List.mem_cons, List.mem_singleton, List.not_mem_nil, or_false] at reads ⊢
            omega) opening (sendAll others ++ rest)
      simp only [sendAll, List.append_assoc] at stepped ⊢
      simp only [List.length_cons, List.map_cons, Worker.run, Worker.handleAll, running,
        if_true, stepped]
      cases handled : worker.handle storage optsSize fuel hdr.truncate entity with
      | none => rfl
      | some next =>
          have kept := (Worker.handle_sent handled).1
          simp only [running, Bool.true_and] at kept
          have notTerminate : hdr.truncate.op ≠ 13 := by
            simp only [List.mem_cons, List.mem_singleton, List.not_mem_nil, or_false] at reads
            omega
          exact Worker.run_sendAll storage optsSize fuel rest others
            (fun message member => sendable message (List.mem_cons_of_mem _ member)) next
            (by rw [kept]; simpa using notTerminate)
/-! ## Requests and their replies -/

namespace Request

/-- Whether the `KVWorkerClient` method of a request waits for a reply: `Count`, `Put`,
`Delete`, `ReadBatch` and `RangeQuery` call `SendWithResponse`, and `Get` receives on the
channel it leased after `Send`; the others only `Send`. -/
def awaitsReply : Request → Bool
  | .count | .put .. | .get .. | .delete .. | .readBatch .. | .rangeQuery .. => true
  | _ => false

/-- The options of an `Open` have the size `ReadOpenArgs` reads: client and worker use one
`OpenArgs` type. -/
def optsSized (optsSize : Nat) : Request → Bool
  | .openArgs opts .. => opts.length == optsSize
  | _ => true

end Request

theorem Request.truncate_header_op (workerId dbId rpsId : Nat) (request : Request) :
    (request.header workerId dbId rpsId).truncate.op = request.op := by
  cases request <;> rfl

theorem Request.repliesTo_op (request : Request) : repliesTo request.op = request.awaitsReply := by
  cases request <;> rfl

theorem Request.op_mem (request : Request) :
    request.op ∈ [1, 2, 3, 4, 5, 6, 7, 8, 9, 10, 11, 13] := by
  cases request <;> simp [Request.op]

theorem Request.fixed_le_write {optsSize : Nat} {request : Request}
    (sized : request.optsSized optsSize = true) (opening : request.op = 1) :
    optsSize + 1 + 4 ≤ request.write.length := by
  cases request <;> simp only [Request.op, OfNat.ofNat_ne_one, reduceCtorEq] at opening
  case openArgs opts useColumn attrCount path =>
    simp only [Request.optsSized, beq_iff_eq] at sized
    simp [Request.write, sized]
    omega

theorem Worker.handle_request_isSome (storage : Storage σ χ κ ρ) (optsSize fuel : Nat)
    (worker : Worker σ χ κ ρ) (workerId dbId rpsId : Nat) (request : Request)
    (fits : request.write.length < 2 ^ 64) (counted : request.attrsCounted = true)
    (sized : request.optsSized optsSize = true)
    (ends : ∀ range readOpts, (readLoop storage.range.read range fuel readOpts).isSome) :
    (worker.handle storage optsSize fuel (request.header workerId dbId rpsId).truncate
      request.write).isSome := by
  have announced : (request.header workerId dbId rpsId).truncate.etySize = request.write.length :=
    request.framed workerId dbId rpsId fits counted
  cases request with
  | openArgs opts useColumn attrCount path =>
      simp only [Worker.handle, Request.truncate_header_op, Request.op, announced,
        readOpenArgs_eq (Request.fixed_le_write sized rfl) fits]
      rfl
  | rangeQuery pid opid opts =>
      simp only [Worker.handle, Request.truncate_header_op, Request.op, Worker.rangeQuery,
        RangeWorker.rangeQuery, Option.isSome_map', ends]
  | _ => rfl

/-- A running worker handles every request a backend sends, `Terminate` apart, sending
one reply on the request's channel exactly for the requests that wait for one. -/
theorem Worker.handleAll_requests (storage : Storage σ χ κ ρ) (optsSize fuel workerId dbId : Nat)
    (ends : ∀ range readOpts, (readLoop storage.range.read range fuel readOpts).isSome) :
    ∀ (messages : List (Nat × Request)), (∀ message ∈ messages,
      message.2.write.length < 2 ^ 64 ∧ message.2.attrsCounted = true ∧
        message.2.optsSized optsSize = true ∧ message.2.op ≠ 13) →
    ∀ worker : Worker σ χ κ ρ, worker.running = true →
      ∃ final, worker.handleAll storage optsSize fuel (messages.map fun message =>
          ((message.2.header workerId dbId message.1).truncate, message.2.write)) = some final ∧
        final.running = true ∧ ∃ replies, final.sent = worker.sent ++ replies ∧
          replies.map (·.1.rpsId) = (messages.filter (·.2.awaitsReply)).map (·.1 % 2 ^ 32)
  | [], _, worker, running => ⟨worker, rfl, running, [], by simp, rfl⟩
  | (rpsId, request) :: others, sendable, worker, running => by
      obtain ⟨fits, counted, sized, notTerminate⟩ := sendable _ (List.mem_cons_self _ _)
      obtain ⟨next, handled⟩ := Option.isSome_iff_exists.mp
        (worker.handle_request_isSome storage optsSize fuel workerId dbId rpsId request fits
          counted sized ends)
      obtain ⟨kept, replies, sent, answered⟩ := Worker.handle_sent handled
      have stillRunning : next.running = true := by
        rw [kept, running, Request.truncate_header_op]
        simpa using notTerminate
      obtain ⟨final, later, finalRunning, replies', sent', answered'⟩ :=
        Worker.handleAll_requests storage optsSize fuel workerId dbId ends others
          (fun message member => sendable message (List.mem_cons_of_mem _ member)) next stillRunning
      refine ⟨final, ?_, finalRunning, replies ++ replies', by rw [sent', sent, List.append_assoc], ?_⟩
      · simp only [List.map_cons, Worker.handleAll, running, if_true, handled, Option.some_bind,
          later]
      · rw [List.map_append, answered, answered', Request.truncate_header_op, Request.repliesTo_op]
        cases awaits : request.awaitsReply <;>
          simp [List.filter_cons, awaits, Request.header, Header.truncate]

/-- The worker answers exactly the requests whose client waits for an answer. For every
storage engine whose range reads end a run of empty batches within `fuel` reads, and every
sequence of requests a backend sends to a running worker, `Terminate` apart, the loop
takes every message off the queue, goes on running, and sends one reply for each `Count`,
`Put`, `Get`, `Delete`, `ReadBatch` and `RangeQuery`, in the order of the requests, on
the response channel each request names, and none for `Open`, `Close`, `Load`,
`CloseCursor` and `ClearRangeQuery`. -/
theorem replies_answer_waits (storage : Storage σ χ κ ρ) (optsSize fuel workerId dbId : Nat)
    (ends : ∀ range readOpts, (readLoop storage.range.read range fuel readOpts).isSome)
    (messages : List (Nat × Request))
    (sendable : ∀ message ∈ messages, message.2.write.length < 2 ^ 64 ∧
      message.2.attrsCounted = true ∧ message.2.optsSized optsSize = true ∧ message.2.op ≠ 13)
    (worker : Worker σ χ κ ρ) (running : worker.running = true) (rest : List UInt8) :
    ∃ final, worker.run storage optsSize fuel messages.length
        (sendAll (messages.map fun message =>
          (message.2.header workerId dbId message.1, message.2.write)) ++ rest) =
        some (final, rest) ∧ final.running = true ∧
      ∃ replies, final.sent = worker.sent ++ replies ∧
        replies.map (·.1.rpsId) = (messages.filter (·.2.awaitsReply)).map (·.1 % 2 ^ 32) := by
  obtain ⟨final, handled, finalRunning, answered⟩ :=
    Worker.handleAll_requests storage optsSize fuel workerId dbId ends messages sendable worker
      running
  refine ⟨final, ?_, finalRunning, answered⟩
  have lengths := List.length_map messages fun message : Nat × Request =>
    (message.2.header workerId dbId message.1, message.2.write)
  rw [← lengths, Worker.run_sendAll storage optsSize fuel rest _ ?_ worker running, List.map_map]
  · exact congrArg (Option.map _) handled
  · intro message member
    obtain ⟨⟨rpsId, request⟩, mem, rfl⟩ := List.mem_map.mp member
    obtain ⟨fits, counted, sized, notTerminate⟩ := sendable _ mem
    dsimp only at fits counted sized notTerminate
    have ops := request.op_mem
    refine ⟨request.framed workerId dbId rpsId fits counted, ?_, fun opening => ?_⟩
    · simp only [Request.truncate_header_op, List.mem_cons, List.mem_singleton, List.not_mem_nil,
        or_false] at ops ⊢
      omega
    · rw [Request.truncate_header_op] at opening
      exact Request.fixed_le_write sized opening

/-- A storage engine with no records: lookups fail, writes succeed, batches are empty,
and range reads give one byte at a time with more to come. -/
def Storage.empty : Storage Unit Unit Unit Nat where
  openConn _ _ _ _ := some ()
  getCount _ _ := 0
  putRecord _ _ _ _ := ((), true)
  getRecord _ _ _ := none
  delRecord _ _ _ := ((), true)
  batchRead _ _ _ := ((), false, 0)
  range := .counting

/-- A backend counts, closes and looks a key up on a fresh worker, with channels 1 and 2
leased for the count and the lookup: these two are answered, on their channels, and the
close is not. -/
theorem count_close_get_answered :
    ∃ final, (Worker.init () : Worker Unit Unit Unit Nat).run Storage.empty 0 1 3
        (sendAll [(Request.count.header 3 5 1, []), (Request.close.header 3 5 0, []),
          ((Request.get [107]).header 3 5 2, [107])] ++ []) = some (final, []) ∧
      final.running = true ∧
      ∃ replies, final.sent = [] ++ replies ∧ replies.map (·.1.rpsId) = [1, 2] :=
  replies_answer_waits Storage.empty 0 1 3 5 (fun _ _ => rfl)
    [(1, .count), (0, .close), (2, .get [107])] (by decide) (Worker.init ()) rfl []
end KvFdw.Server
