import KvFdw.Shm.Engine
import Mathlib.Data.List.AList

/-!
# The worker as a key-value service

Over an engine that keeps each database as a key-value map, COUNT and GET answer as one
map per relation.
-/

set_option autoImplicit false

namespace KvFdw.Shm

/-! ## A relation's records -/

/-- A relation's records as a key-value map keeps them: at most one value per key. -/
abbrev Records := AList fun _ : List UInt8 => List UInt8

/-- What a request does to the records: PUT sets the key's value, DELETE removes the key,
the others only read. -/
def DbRequest.apply (records : Records) : DbRequest → Records
  | .put key val => records.insert key val
  | .delete key => records.erase key
  | _ => records

/-- The records a database's requests leave, from none. -/
def recordsAfter (requests : List DbRequest) : Records :=
  requests.foldl DbRequest.apply ∅

@[simp] theorem recordsAfter_concat (requests : List DbRequest) (request : DbRequest) :
    recordsAfter (requests ++ [request]) = DbRequest.apply (recordsAfter requests) request :=
  List.foldl_concat _ _ _ _

theorem put_mem_of_mem_recordsAfter {requests : List DbRequest}
    {record : Sigma fun _ : List UInt8 => List UInt8}
    (member : record ∈ (recordsAfter requests).entries) :
    DbRequest.put record.1 record.2 ∈ requests := by
  induction requests using List.reverseRecOn with
  | nil => simp [recordsAfter] at member
  | append_singleton requests request ih =>
      rw [recordsAfter_concat] at member
      cases request with
      | put key val =>
          rw [DbRequest.apply, AList.insert_entries, List.mem_cons] at member
          rcases member with rfl | member
          · exact List.mem_append_right _ (List.mem_singleton_self _)
          · exact List.mem_append_left _ (ih ((List.kerase_sublist _ _).subset member))
      | delete key => exact List.mem_append_left _ (ih ((List.kerase_sublist _ _).subset member))
      | _ => exact List.mem_append_left _ (ih member)

theorem mem_requestsTo {α : Type} {request : α → Option (Nat × DbRequest)} {target : Nat}
    {log : List α} {asked : DbRequest} (member : asked ∈ requestsTo request target log) :
    ∃ entry ∈ log, request entry = some (target, asked) := by
  obtain ⟨entry, inLog, found⟩ := List.mem_filterMap.mp member
  obtain ⟨⟨db, other⟩, requested, chosen⟩ := Option.bind_eq_some.mp found
  simp only [Option.ite_none_right_eq_some, Option.some.injEq] at chosen
  obtain ⟨rfl, rfl⟩ := chosen
  exact ⟨entry, inLog, requested⟩

/-- The answer a key-value map of a relation's records gives a command, after the
requests made of that relation before it: COUNT the number of keys, GET the key's value;
`none` for the commands it does not answer. -/
def Command.expected (before : List Command) : Command → Option (List UInt8)
  | .countResponse _ relationId =>
      some (countReply (recordsAfter (requestsTo Command.request relationId before)).entries.length)
  | .getResponse _ relationId key =>
      some (getReply ((recordsAfter (requestsTo Command.request relationId before)).lookup key))
  | _ => none

/-- An engine that keeps each database's records as a key-value map: `Count` counts the
keys, and `Get` finds the value that the database's `Put` and `Delete` calls left. -/
structure Storage.KeepsRecords (S : Storage) : Prop where
  count : ∀ calls db,
    S.count calls db = (recordsAfter (requestsTo StorageCall.request db calls)).entries.length
  get : ∀ calls db key,
    S.get calls db key = (recordsAfter (requestsTo StorageCall.request db calls)).lookup key

/-! ## The handlers answer as the map -/

namespace WorkerTables

variable {S : Storage} {t next : WorkerTables} {command : Command} {response : List UInt8}
  {commands : List Command}

theorem Forwards.requests_of_entry (forwards : Forwards commands t) {relationId : Nat}
    {entry : TableEntry} (found : t.kvTableHash relationId = some entry) :
    requestsTo Command.request relationId commands = requestsTo StorageCall.request entry.db t.calls := by
  rw [forwards relationId]
  simp [dbOf, found]

theorem respond_expected (keeps : S.KeepsRecords) (forwards : Forwards commands t)
    (handled : S.handlers.respond t command = some (next, response)) {answer : List UInt8}
    (expected : command.expected commands = some answer) : response = answer := by
  cases command with
  | countResponse _ relationId =>
      obtain ⟨_, counted, ⟨⟩⟩ := Option.map_eq_some'.mp handled
      obtain ⟨entry, found, ⟨⟩⟩ := Option.map_eq_some'.mp counted
      cases expected
      rw [keeps.count, forwards.requests_of_entry found]
  | getResponse _ relationId key =>
      obtain ⟨_, got, ⟨⟩⟩ := Option.map_eq_some'.mp handled
      obtain ⟨entry, found, ⟨⟩⟩ := Option.map_eq_some'.mp got
      cases expected
      rw [keeps.get, forwards.requests_of_entry found]
  | _ => cases expected

theorem runAnswers_expected (keeps : S.KeepsRecords) {t final : WorkerTables}
    {done commands : List Command} {answers : List (List UInt8)}
    (ran : S.handlers.runAnswers t commands = some (final, answers)) (tracked : Tracked done t)
    (k : Nat) (command : Command) (answer : List UInt8) (found : commands[k]? = some command)
    (expected : command.expected (done ++ commands.take k) = some answer) :
    answers[k]? = some answer := by
  obtain ⟨_, _, _, tracked, handled, answered⟩ := S.handlers.runAnswers_at
    (fun _ _ _ _ _ tracked handled => tracked.respond handled) ran tracked k command found
  rw [answered, respond_expected keeps tracked.forwards handled expected]

end WorkerTables

section Runs

variable {n : Nat} {S : Storage} {C : ShmConfig} {pids : Fin n → Nat} {s : State n WorkerTables}

/-- Over an engine that keeps each database's records as a key-value map, the worker is a
key-value map per relation: in every run, each COUNT and GET the worker answered got the
answer a map of its relation's records gives after the requests of the commands handled
for that relation before it, in the order the worker handled them. -/
theorem worker_answers_as_records (keeps : S.KeepsRecords)
    (reachable : Reachable (S.handlers.protocol C .init) pids s) :
    ∀ (k : Nat) (command : Command) (answer : List UInt8),
      (s.handled.filterMap C.handledCommand)[k]? = some command →
      command.expected ((s.handled.filterMap C.handledCommand).take k) = some answer →
        s.responses[k]? = some answer :=
  fun k command answer found expected =>
    WorkerTables.runAnswers_expected keeps reachable.runAnswers .init k command answer found
      (by rwa [List.nil_append])

end Runs

/-! ## What the records hold -/

section Fits

variable {n : Nat} {σ : Type} {C : ShmConfig} {pids : Fin n → Nat}

theorem ShmConfig.handledCommand_put_lengths (C : ShmConfig) {handled : List UInt8 × List UInt8}
    {relationId : Nat} {key val : List UInt8}
    (decoded : C.handledCommand handled = some (.putResponse relationId key val))
    (copied : handled.2.length = C.bufSize) : key.length + val.length ≤ C.bufSize - 16 := by
  unfold ShmConfig.handledCommand at decoded
  obtain ⟨name, -, decoded⟩ := Option.bind_eq_some.mp decoded
  cases name <;> simp only [FuncName.decode, Option.some.injEq, openResponseArgs,
    countResponseArgs, getResponseArgs, deleteResponseArgs, rangeQueryResponseArgs,
    reduceCtorEq] at decoded
  have bound := putResponseArgs_lengths decoded
  simp only [handlerBuf, List.length_drop, List.length_append, List.length_replicate, copied,
    wordSize] at bound
  omega

theorem Reachable.put_fits {handlers : Handlers σ} {initStore : σ} {s : State n σ}
    (reachable : Reachable (handlers.protocol C initStore) pids s) {relationId : Nat}
    {key val : List UInt8}
    (member : .putResponse relationId key val ∈ s.handled.filterMap C.handledCommand) :
    key.length + val.length ≤ C.bufSize - 16 := by
  obtain ⟨handled, inHandled, decoded⟩ := List.mem_filterMap.mp member
  have copied := List.mem_of_mem_take (List.of_mem_zip inHandled).2
  exact C.handledCommand_put_lengths decoded (reachable.copied_length _ copied)

/-- Records that the requests of the handled commands of a relation leave hold keys and
values that fit in `BUFSIZE` past a PUT's header. -/
theorem Reachable.records_fit {handlers : Handlers σ} {initStore : σ} {s : State n σ}
    (reachable : Reachable (handlers.protocol C initStore) pids s) {relationId : Nat}
    {requests : List DbRequest} (within : ∀ request ∈ requests,
      request ∈ requestsTo Command.request relationId (s.handled.filterMap C.handledCommand))
    {record : Sigma fun _ : List UInt8 => List UInt8}
    (stored : record ∈ (recordsAfter requests).entries) :
    record.1.length + record.2.length ≤ C.bufSize - 16 := by
  obtain ⟨command, handled, requested⟩ :=
    mem_requestsTo (within _ (put_mem_of_mem_recordsAfter stored))
  cases command with
  | putResponse _ key val =>
      simp only [Command.request, Option.some.injEq, Prod.mk.injEq, DbRequest.put.injEq]
        at requested
      obtain ⟨rfl, rfl, rfl⟩ := requested
      exact reachable.put_fits handled
  | _ => simp [Command.request] at requested

end Fits

/-! ## What the request functions return -/

section Returns

variable {n : Nat} {σ : Type} {C : ShmConfig} {pids : Fin n → Nat} {c : Fin n} {slot : Nat}

theorem Reachable.reading_handled {handlers : Handlers σ} {initStore : σ} {s : State n σ}
    (reachable : Reachable (handlers.protocol C initStore) pids s)
    (reading : (s.clients c).phase = .readResponse slot)
    (fits : (s.clients c).frame.length ≤ C.bufSize)
    (representable : (s.clients c).call.Representable (s.clients c).pid) (slotSmall : slot < 2 ^ 31)
    (notRange : (s.clients c).call.isRangeQuery = false) :
    ∃ path response,
      (s.handled.filterMap C.handledCommand)[(s.clients c).ticket]? =
        some ((s.clients c).call.command (s.clients c).pid slot path) ∧
      s.responses[(s.clients c).ticket]? = some response ∧
      (s.responseQueue slot).read 0 (response.take C.bufSize).length = response.take C.bufSize := by
  obtain ⟨posted, response, answered, holds⟩ := reachable.reading_response reading
  have below := (List.getElem?_eq_some_iff.mp answered).1
  obtain ⟨snapshot, copied⟩ : ∃ snapshot, s.copied[(s.clients c).ticket]? = some snapshot :=
    ⟨_, List.getElem?_eq_getElem (by have := reachable.ledger.lengths; omega)⟩
  have whole := reachable.commanded.clients c
  rw [reading] at whole
  obtain ⟨path, whole⟩ := whole
  have agrees : snapshot.take (s.clients c).frame.length = (s.clients c).frame :=
    (reachable.ledger.copies _ _ _ posted copied).trans (List.take_of_length_le fits)
  obtain ⟨rest, handed⟩ := handlerBuf_of_prefix C agrees
    (by rw [whole]; exact le_trans (by decide) (Call.frame_long _ _ _ _))
  have decoded : C.handledCommand ((s.clients c).frame, snapshot) =
      some ((s.clients c).call.command (s.clients c).pid slot path) := by
    simp only [ShmConfig.handledCommand]
    rw [handed, whole, frameFunc_eq (Call.frame_header _ _ _ _) (FuncName.code_lt _),
      FuncName.ofCode_code, Option.some_bind, Call.decode_frame path notRange representable
        slotSmall rest]
  refine ⟨path, response, ?_, answered, holds⟩
  rw [reachable.handledCommand_getElem?, State.handled_getElem? below posted copied,
    Option.some_bind, decoded]

variable {S : Storage} {s : State n WorkerTables}

/-- Over an engine that keeps each database's records as a key-value map, a client reading
its slot reads what the map answers its command after the commands handled before it. -/
theorem Reachable.reading_expected (keeps : S.KeepsRecords)
    (reachable : Reachable (S.handlers.protocol C .init) pids s)
    (reading : (s.clients c).phase = .readResponse slot)
    (fits : (s.clients c).frame.length ≤ C.bufSize)
    (representable : (s.clients c).call.Representable (s.clients c).pid) (slotSmall : slot < 2 ^ 31)
    (notRange : (s.clients c).call.isRangeQuery = false) :
    ∃ path, ∀ answer, ((s.clients c).call.command (s.clients c).pid slot path).expected
        ((s.handled.filterMap C.handledCommand).take (s.clients c).ticket) = some answer →
      (s.responseQueue slot).read 0 (answer.take C.bufSize).length = answer.take C.bufSize := by
  obtain ⟨path, response, found, answered, holds⟩ :=
    reachable.reading_handled reading fits representable slotSmall notRange
  refine ⟨path, fun answer expected => ?_⟩
  have recorded := WorkerTables.runAnswers_expected keeps reachable.runAnswers .init _ _ answer
    found (by rwa [List.nil_append])
  obtain rfl := Option.some_injective _ (answered.symm.trans recorded)
  exact holds

/-- What `CountRequest` and `GetRequest` return over an engine that keeps each database's
records as a key-value map: in every run, a client reading the reply of its COUNT or GET,
whose command fits in `BUFSIZE` with arguments of their C types and a slot below `2 ^ 31`,
reads the number of keys, as a `uint64`, or the value that a map of its relation's
records holds after the commands the worker handled before its own. -/
theorem requests_read_relation_records (keeps : S.KeepsRecords)
    (reachable : Reachable (S.handlers.protocol C .init) pids s)
    (reading : (s.clients c).phase = .readResponse slot)
    (fits : (s.clients c).frame.length ≤ C.bufSize)
    (representable : (s.clients c).call.Representable (s.clients c).pid) (slotSmall : slot < 2 ^ 31) :
    (∀ relationId, (s.clients c).call = .countRequest relationId →
      countRequestResult (s.responseQueue slot) =
        (recordsAfter (requestsTo Command.request relationId
          ((s.handled.filterMap C.handledCommand).take (s.clients c).ticket))).entries.length %
            2 ^ 64) ∧
    (∀ relationId key, (s.clients c).call = .getRequest relationId key →
      (∀ val ∈ (recordsAfter (requestsTo Command.request relationId
          ((s.handled.filterMap C.handledCommand).take (s.clients c).ticket))).lookup key,
        val.length < 2 ^ 64) →
      getRequestResult (s.responseQueue slot) =
        (recordsAfter (requestsTo Command.request relationId
          ((s.handled.filterMap C.handledCommand).take (s.clients c).ticket))).lookup key) := by
  have reads := reachable.reading_expected keeps reading fits representable slotSmall
  obtain ⟨path, framed⟩ := reachable.call_frame_fits reading fits
  refine ⟨fun relationId call => ?_, fun relationId key call small => ?_⟩
  · obtain ⟨path, reads⟩ := reads (by rw [call]; rfl)
    rw [call] at reads
    rw [countRequestResult, ← decodeLE_encodeU64_eq_mod]
    exact congrArg decodeLE (Region.read_of_fits (reads _ rfl)
      (by simpa [countReply] using (Call.frame_long _ _ _ _).trans framed))
  · obtain ⟨path, reads⟩ := reads (by rw [call]; rfl)
    rw [call] at reads framed
    simp only [Call.frame, frameHeader, Call.body, Call.isOpen, List.length_append,
      length_encodeU32, length_encodeU64, Bool.false_eq_true, if_false, List.length_nil,
      Handlers.protocol_toShmConfig] at framed
    refine getRequestResult_eq small (Region.read_of_fits (reads _ rfl) ?_)
    cases found : (recordsAfter (requestsTo Command.request relationId
        ((s.handled.filterMap C.handledCommand).take (s.clients c).ticket))).lookup key with
    | none => simp only [getReply, length_encodeBool]; omega
    | some val =>
        have stored := reachable.records_fit
          (fun request member => ((List.take_sublist _ _).filterMap _).subset member)
          (AList.mem_lookup_iff.mp found)
        dsimp only at stored
        simp only [getReply, List.length_append, length_encodeBool, length_encodeU64]
        omega

end Returns

section Runs

variable {n : Nat} {S : Storage} {C : ShmConfig} {pids : Fin n → Nat} {s : State n WorkerTables}

/-- An engine that keeps each database's records as a key-value map, read from its calls;
`Next` finds nothing, and `RangeQuery` returns an empty last chunk and leaves its
`readOptions` as they were. -/
def Storage.records : Storage where
  count calls db := (recordsAfter (requestsTo StorageCall.request db calls)).entries.length
  next _ _ _ := none
  get calls db key := (recordsAfter (requestsTo StorageCall.request db calls)).lookup key
  put _ _ _ _ := true
  delete _ _ _ := true
  rangeQuery _ _ readOptions _ _ := (readOptions, 0, false)

theorem Storage.records_keepsRecords : Storage.records.KeepsRecords :=
  ⟨fun _ _ => rfl, fun _ _ _ => rfl⟩

/-- The kv_shm.c handlers over `Storage.records`, with one response slot and a 32-byte
area. -/
def Storage.recordsProtocol : Protocol WorkerTables :=
  Storage.records.handlers.protocol ⟨1, 32, by decide, by decide⟩ .init

set_option maxRecDepth 8000 in
/-- A backend opens the relation at "/kv/5", puts the value `[2]` under the key `[1]` and
gets the key `[1]`: the worker answered the GET with `[2]`, as the map does. -/
theorem open_put_get_answered : ∃ s : State 1 WorkerTables,
    Reachable Storage.recordsProtocol (fun _ => 7) s ∧ s.responses[2]? = some (getReply (some [2])) ∧
    ∀ (k : Nat) (command : Command) (answer : List UInt8),
      (s.handled.filterMap Storage.recordsProtocol.handledCommand)[k]? = some command →
      command.expected ((s.handled.filterMap Storage.recordsProtocol.handledCommand).take k) =
        some answer → s.responses[k]? = some answer := by
  obtain ⟨s, ran⟩ := Option.isSome_iff_exists.mp (show (runWith
      (Action.normal Storage.recordsProtocol) Storage.recordsProtocol
      (State.init Storage.recordsProtocol fun (_ : Fin 1) => 7)
      (openScript 0 [47, 107, 118, 47, 53] ++
        Action.client 0 (Move.invoke (Call.putRequest 5 [1] [2])) ::
          List.replicate 7 (Action.client 0 Move.proceed) ++
          List.replicate 5 (Action.kvWorker Move.proceed) ++
          List.replicate 3 (Action.client 0 Move.proceed) ++
        Action.client 0 (Move.invoke (Call.getRequest 5 [1])) ::
          List.replicate 7 (Action.client 0 Move.proceed) ++
          List.replicate 5 (Action.kvWorker Move.proceed))).isSome by decide)
  have answered : (s.responses[2]? == some (getReply (some [2]))) = true := by
    have mapped := congrArg (Option.map fun (s : State 1 WorkerTables) =>
      s.responses[2]? == some (getReply (some [2]))) ran
    rw [Option.map_some'] at mapped
    exact Option.some_injective _ (mapped.symm.trans (by decide))
  have reachable := (NormalReachable.of_run _ ran).reachable
  exact ⟨s, reachable, beq_iff_eq.mp answered,
    worker_answers_as_records Storage.records_keepsRecords reachable⟩

set_option maxRecDepth 8000 in
/-- In the run of `open_put_get_answered`, the backend then reads its GET reply: its
`GetRequest` returns `[2]`, what the map holds under `[1]`. -/
theorem open_put_get_read : ∃ s : State 1 WorkerTables,
    Reachable Storage.recordsProtocol (fun _ => 7) s ∧ (s.clients 0).phase = .readResponse 0 ∧
    (s.clients 0).call = .getRequest 5 [1] ∧ getRequestResult (s.responseQueue 0) = some [2] ∧
    (∀ relationId, (s.clients 0).call = .countRequest relationId →
      countRequestResult (s.responseQueue 0) =
        (recordsAfter (requestsTo Command.request relationId
          ((s.handled.filterMap Storage.recordsProtocol.handledCommand).take
            (s.clients 0).ticket))).entries.length % 2 ^ 64) ∧
    (∀ relationId key, (s.clients 0).call = .getRequest relationId key →
      (∀ val ∈ (recordsAfter (requestsTo Command.request relationId
          ((s.handled.filterMap Storage.recordsProtocol.handledCommand).take
            (s.clients 0).ticket))).lookup key, val.length < 2 ^ 64) →
      getRequestResult (s.responseQueue 0) =
        (recordsAfter (requestsTo Command.request relationId
          ((s.handled.filterMap Storage.recordsProtocol.handledCommand).take
            (s.clients 0).ticket))).lookup key) := by
  obtain ⟨s, ran⟩ := Option.isSome_iff_exists.mp (show (runWith
      (Action.normal Storage.recordsProtocol) Storage.recordsProtocol
      (State.init Storage.recordsProtocol fun (_ : Fin 1) => 7)
      (openScript 0 [47, 107, 118, 47, 53] ++
        Action.client 0 (Move.invoke (Call.putRequest 5 [1] [2])) ::
          List.replicate 7 (Action.client 0 Move.proceed) ++
          List.replicate 5 (Action.kvWorker Move.proceed) ++
          List.replicate 3 (Action.client 0 Move.proceed) ++
        Action.client 0 (Move.invoke (Call.getRequest 5 [1])) ::
          List.replicate 7 (Action.client 0 Move.proceed) ++
          List.replicate 5 (Action.kvWorker Move.proceed) ++
            [Action.client 0 Move.proceed])).isSome by decide)
  have client : ((s.clients 0).phase == .readResponse 0 &&
      (s.clients 0).call == .getRequest 5 [1] && (s.clients 0).pid == 7 &&
      decide ((s.clients 0).frame.length ≤ 32) &&
      getRequestResult (s.responseQueue 0) == some [2]) = true := by
    have mapped := congrArg (Option.map fun (s : State 1 WorkerTables) =>
      (s.clients 0).phase == .readResponse 0 && (s.clients 0).call == .getRequest 5 [1] &&
        (s.clients 0).pid == 7 && decide ((s.clients 0).frame.length ≤ 32) &&
        getRequestResult (s.responseQueue 0) == some [2]) ran
    rw [Option.map_some'] at mapped
    exact Option.some_injective _ (mapped.symm.trans (by decide))
  simp only [Bool.and_eq_true, beq_iff_eq, decide_eq_true_eq] at client
  obtain ⟨⟨⟨⟨reading, call⟩, pid⟩, fits⟩, read⟩ := client
  have reachable := (NormalReachable.of_run _ ran).reachable
  exact ⟨s, reachable, reading, call, read,
    requests_read_relation_records Storage.records_keepsRecords reachable reading fits
      (by rw [call, pid]; decide) (by decide)⟩

end Runs

end KvFdw.Shm
