import KvFdw.Shm.Handlers
import KvFdw.Shm.Responses

/-!
# What the request functions return

`KVWorkerMain`'s switch over parametric handlers, and what a client reading its slot
returns.
-/

set_option autoImplicit false

namespace KvFdw.Shm

variable {n : Nat} {σ : Type}

/-! ## `KVWorkerMain`'s switch -/

/-- What the handlers' calls of the storage engine and of the worker's hash tables give:
a new worker state, and for the handlers that answer what they write from; `none` where
a handler raises an error with `ereport`. -/
structure Handlers (σ : Type) where
  /-- `OpenResponse`: `Open` on the path, through `kvTableHash`. -/
  openRelation : σ → Bool → Int → List UInt8 → Option σ
  /-- `CloseResponse`: the relation's entry of `kvTableHash`. -/
  closeRelation : σ → Nat → Option σ
  /-- `CountResponse`: `Count(entry->db)`. -/
  count : σ → Nat → Option (σ × Nat)
  /-- `GetIterResponse`: `GetIter` into the entry of `kvIterHash`. -/
  getIter : σ → IterKey → Option σ
  /-- `DelIterResponse`: `DelIter` on the entry's iterator. -/
  delIter : σ → IterKey → Option σ
  /-- `NextResponse`: `Next` on the entry's iterator, with its key and value when it
  returns true. -/
  next : σ → IterKey → Option (σ × Option (List UInt8 × List UInt8))
  /-- `GetResponse`: `Get`, with the value when it returns true. -/
  get : σ → Nat → List UInt8 → Option (σ × Option (List UInt8))
  /-- `PutResponse`: `Put`. -/
  put : σ → Nat → List UInt8 → List UInt8 → Option σ
  /-- `DeleteResponse`: `Delete`. -/
  delete : σ → Nat → List UInt8 → Option σ
  /-- `RangeQueryResponse`: `RangeQuery` with the entry of `kvReadOptionsHash`, with its
  `bufLen` and its return value. -/
  rangeQuery : σ → IterKey → DecodedOptions → Option (σ × Nat × Bool)

/-- A handler run on the fields it decoded: the new state, and what it writes at the start
of `ResponseQueue[responseId]`, nothing for the handlers that do not answer. -/
def Handlers.respond (handlers : Handlers σ) (store : σ) : Command → Option (σ × List UInt8)
  | .openResponse useColumn attrCount path =>
      (handlers.openRelation store useColumn attrCount path).map (·, [])
  | .closeResponse relationId => (handlers.closeRelation store relationId).map (·, [])
  | .countResponse _ relationId =>
      (handlers.count store relationId).map fun (next, count) => (next, countReply count)
  | .getIterResponse key => (handlers.getIter store key).map (·, [])
  | .delIterResponse key => (handlers.delIter store key).map (·, [])
  | .nextResponse _ key =>
      (handlers.next store key).map fun (next, item) => (next, nextReply item)
  | .getResponse _ relationId key =>
      (handlers.get store relationId key).map fun (next, result) => (next, getReply result)
  | .putResponse relationId key val => (handlers.put store relationId key val).map (·, [])
  | .deleteResponse relationId key => (handlers.delete store relationId key).map (·, [])
  | .rangeQueryResponse _ key options =>
      (handlers.rangeQuery store key options).map fun (next, bufLen, ret) =>
        (next, rangeQueryReply bufLen ret)

/-- The `FuncName` constant with value `code`, if there is one. -/
def FuncName.ofCode (code : Nat) : Option FuncName :=
  [FuncName.OPEN, .CLOSE, .COUNT, .GETITER, .DELITER, .NEXT, .GET, .PUT, .DELETE, .RANGEQUERY,
    .TERMINATE].find? (·.code == code)

@[simp] theorem FuncName.ofCode_code (func : FuncName) : FuncName.ofCode func.code = some func := by
  cases func <;> rfl

theorem FuncName.code_of_ofCode {code : Nat} {name : FuncName}
    (named : FuncName.ofCode code = some name) : name.code = code := by
  simpa using List.find?_some named

/-- `switch (func)` in `KVWorkerMain`: the case of the handler `func` names, handed `buf` or
`buf + sizeof(responseId)`; the `default` case raises an error. -/
def Handlers.dispatch (handlers : Handlers σ) (store : σ) (func : Nat) (buf : List UInt8) :
    Option (σ × List UInt8) :=
  (FuncName.ofCode func).bind fun name =>
    (name.decode buf).bind (handlers.respond store)

/-- The protocol whose worker runs these handlers, from the state `KVWorkerMain` builds
before its loop. -/
def Handlers.protocol (handlers : Handlers σ) (C : ShmConfig) (initStore : σ) : Protocol σ :=
  { C with dispatch := handlers.dispatch, initStore := initStore }

@[simp] theorem Handlers.protocol_toShmConfig (handlers : Handlers σ) (C : ShmConfig)
    (initStore : σ) : (handlers.protocol C initStore).toShmConfig = C := rfl

/-! ## The recorded responses -/

/-- Each recorded response is what the worker's `dispatch` wrote for the command of the
same position, as the worker copied it, from some state of the worker. -/
def Answers (P : Protocol σ) (s : State n σ) : Prop :=
  ∀ (k : Nat) (response : List UInt8), s.responses[k]? = some response →
    ∃ frame snapshot store next, s.posted[k]? = some frame ∧ s.copied[k]? = some snapshot ∧
      P.dispatch store (frameFunc frame) (handlerBuf P.toShmConfig snapshot) =
        some (next, response)

section Preservation

variable {P : Protocol σ} {pids : Fin n → Nat} {s t : State n σ}

theorem Answers.of_append (inv : Answers P s) {postedMore copiedMore : List (List UInt8)}
    (responses : t.responses = s.responses) (posted : t.posted = s.posted ++ postedMore)
    (copied : t.copied = s.copied ++ copiedMore) : Answers P t := by
  intro k response found
  rw [responses] at found
  obtain ⟨frame, snapshot, store, next, framed, snapped, handled⟩ := inv k response found
  exact ⟨frame, snapshot, store, next, posted ▸ getElem?_append_of_eq_some framed _,
    copied ▸ getElem?_append_of_eq_some snapped _, handled⟩

theorem WorkerTransition.answers (reachable : Reachable P pids s) (inv : Answers P s)
    {move : Move} (tr : WorkerTransition P s move t) : Answers P t := by
  have ledger := reachable.ledger
  cases tr with
  | copyOut => exact inv.of_append rfl (List.append_nil _).symm rfl
  | postFullTerminate current terminate =>
      obtain ⟨frame, _, found, -, func, -⟩ := current ▸ ledger.serves
      exact absurd (func ▸ terminate) (ledger.framed frame (List.getElem?_mem found)).2
  | dispatch current handled =>
      have progress := ledger.progress
      have serves := ledger.serves
      rw [current] at progress serves
      obtain ⟨frame, snapshot, framed, snapped, rfl, -, rfl⟩ := serves
      intro k response found
      rcases getElem?_concat_eq_some found with old | ⟨position, rfl⟩
      · exact inv k response old
      · rw [position, progress.2.symm]
        exact ⟨frame, snapshot, s.store, _, framed, snapped, handled⟩
  | _ => exact inv.of_append rfl (List.append_nil _).symm (List.append_nil _).symm

theorem Transition.answers (reachable : Reachable P pids s) (inv : Answers P s)
    {action : Action n} (tr : Transition P s action t) : Answers P t := by
  cases tr with
  | client tr =>
      have responses : t.responses = s.responses := by cases tr <;> rfl
      have copied : t.copied = s.copied := by cases tr <;> rfl
      rcases tr.posted_cases with ⟨posted, -⟩ | ⟨_, _, posted, -⟩
      · exact inv.of_append responses (posted.trans (List.append_nil _).symm)
          (copied.trans (List.append_nil _).symm)
      · exact inv.of_append responses posted (copied.trans (List.append_nil _).symm)
  | kvWorker tr => exact tr.answers reachable inv
  | starter tr =>
      cases tr <;> exact inv.of_append rfl (List.append_nil _).symm (List.append_nil _).symm

theorem Reachable.answers (reachable : Reachable P pids s) : Answers P s :=
  reachable.induction (fun _ _ found => by simp [State.init] at found)
    fun earlier inv tr _ => tr.answers earlier inv

theorem Region.read_of_fits {reply : Region} {response : List UInt8} {bufSize : Nat}
    (holds : reply.read 0 (response.take bufSize).length = response.take bufSize)
    (fits : response.length ≤ bufSize) : reply.read 0 response.length = response := by
  rwa [List.take_of_length_le fits] at holds

theorem Reachable.call_frame_fits (reachable : Reachable P pids s) {c : Fin n} {slot : Nat}
    (reading : (s.clients c).phase = .readResponse slot)
    (fits : (s.clients c).frame.length ≤ P.bufSize) :
    ∃ path, ((s.clients c).call.frame (s.clients c).pid slot path).length ≤ P.bufSize := by
  have whole := reachable.commanded.clients c
  rw [reading] at whole
  obtain ⟨path, whole⟩ := whole
  exact ⟨path, whole ▸ fits⟩

/-- A client reading its slot finds there the response `dispatch` wrote for its own
command, as the worker's handler was handed it: the whole command past `func`, and
whatever the area held after it. -/
theorem Reachable.reading_reply (reachable : Reachable P pids s) {c : Fin n} {slot : Nat}
    (reading : (s.clients c).phase = .readResponse slot)
    (fits : (s.clients c).frame.length ≤ P.bufSize) :
    ∃ path rest store next response,
      (s.clients c).frame = (s.clients c).call.frame (s.clients c).pid slot path ∧
      P.dispatch store (s.clients c).call.funcName.code
          ((s.clients c).frame.drop wordSize ++ rest) = some (next, response) ∧
      (s.responseQueue slot).read 0 (response.take P.bufSize).length =
        response.take P.bufSize := by
  obtain ⟨posted, response, answered, holds⟩ := reachable.reading_response reading
  obtain ⟨frame, snapshot, store, next, framed, snapped, handled⟩ :=
    reachable.answers _ response answered
  obtain rfl : frame = (s.clients c).frame := Option.some_injective _ (framed.symm.trans posted)
  have whole := reachable.commanded.clients c
  rw [reading] at whole
  obtain ⟨path, whole⟩ := whole
  have agrees := reachable.ledger.copies _ _ _ framed snapped
  rw [List.take_of_length_le fits] at agrees
  obtain ⟨rest, handed⟩ := handlerBuf_of_prefix P.toShmConfig agrees
    (by rw [whole]; exact le_trans (by decide) (Call.frame_long _ _ _ _))
  refine ⟨path, rest, store, next, response, whole, ?_, holds⟩
  rwa [handed, whole, frameFunc_eq (Call.frame_header _ _ _ _) (FuncName.code_lt _), ← whole]
    at handled

end Preservation

/-! ## What the request functions return -/

theorem Handlers.dispatch_frame (handlers : Handlers σ) (store : σ) {call : Call}
    {pid slot : Nat} (path : List UInt8) (notRange : call.isRangeQuery = false)
    (representable : call.Representable pid) (slotSmall : slot < 2 ^ 31) (rest : List UInt8) :
    handlers.dispatch store call.funcName.code ((call.frame pid slot path).drop wordSize ++ rest) =
      handlers.respond store (call.command pid slot path) := by
  rw [Handlers.dispatch, FuncName.ofCode_code, Option.some_bind,
    Call.decode_frame path notRange representable slotSmall rest, Option.some_bind]

theorem Handlers.dispatch_rangeQuery_frame (handlers : Handlers σ) (store : σ)
    {relationId pid slot : Nat} {options : RangeQueryOptions}
    (representable : (Call.rangeQueryRequest relationId options).Representable pid)
    (slotSmall : slot < 2 ^ 32) (path rest : List UInt8) :
    handlers.dispatch store FuncName.RANGEQUERY.code
        (((Call.rangeQueryRequest relationId options).frame pid slot path).drop wordSize ++ rest) =
      (handlers.rangeQuery store ⟨relationId, pid⟩
        { options.fields with start := none, limit := none }).map fun (next, bufLen, ret) =>
          (next, rangeQueryReply bufLen ret) := by
  rw [Handlers.dispatch, FuncName.ofCode_code, Option.some_bind,
    Call.decode_rangeQuery_frame representable slotSmall path rest, Option.some_bind]
  rfl

section Returns

variable {handlers : Handlers σ} {C : ShmConfig} {initStore : σ} {pids : Fin n → Nat}
  {s : State n σ} {c : Fin n} {slot : Nat}

theorem Handlers.reading_respond (reachable : Reachable (handlers.protocol C initStore) pids s)
    (reading : (s.clients c).phase = .readResponse slot)
    (fits : (s.clients c).frame.length ≤ C.bufSize)
    (representable : (s.clients c).call.Representable (s.clients c).pid) (slotSmall : slot < 2 ^ 31)
    (notRange : (s.clients c).call.isRangeQuery = false) :
    ∃ path store next response,
      handlers.respond store ((s.clients c).call.command (s.clients c).pid slot path) =
        some (next, response) ∧
      (s.responseQueue slot).read 0 (response.take C.bufSize).length =
        response.take C.bufSize := by
  obtain ⟨path, rest, store, next, response, whole, handled, holds⟩ :=
    reachable.reading_reply reading fits
  rw [whole] at handled
  exact ⟨path, store, next, response,
    (handlers.dispatch_frame store path notRange representable slotSmall rest).symm.trans handled,
    holds⟩

theorem Handlers.reading_rangeQuery (reachable : Reachable (handlers.protocol C initStore) pids s)
    (reading : (s.clients c).phase = .readResponse slot)
    (fits : (s.clients c).frame.length ≤ C.bufSize) {relationId : Nat}
    {options : RangeQueryOptions} (call : (s.clients c).call = .rangeQueryRequest relationId options)
    (representable : (s.clients c).call.Representable (s.clients c).pid) (slotSmall : slot < 2 ^ 32) :
    ∃ store next bufLen ret, handlers.rangeQuery store ⟨relationId, (s.clients c).pid⟩
        { options.fields with start := none, limit := none } = some (next, bufLen, ret) ∧
      (s.responseQueue slot).read 0 ((rangeQueryReply bufLen ret).take C.bufSize).length =
        (rangeQueryReply bufLen ret).take C.bufSize := by
  obtain ⟨path, rest, store, next, response, whole, handled, holds⟩ :=
    reachable.reading_reply reading fits
  rw [whole, call] at handled
  rw [call] at representable
  obtain ⟨⟨_, bufLen, ret⟩, queried, written⟩ := Option.map_eq_some'.mp
    ((handlers.dispatch_rangeQuery_frame store representable slotSmall path rest).symm.trans handled)
  cases written
  exact ⟨store, _, bufLen, ret, queried, holds⟩

/-- What each request function that reads its slot returns, in every run of the worker's
handlers: for every client reading its slot whose command fits in `BUFSIZE`, with
arguments of their C types and a slot below `2 ^ 31`, there is a state of the worker from
which the handler of its own call got, from its storage call, what the request function
then returns, when the response fits in the slot. `CountRequest` returns the count as a
`uint64`, and `GetRequest` the result of `Get`; `NextRequest` returns no item when `Next`
found none, and the key and the value of the item `Next` found, unless its key is empty,
when it returns no item either; `RangeQueryRequest` returns `ret` and `bufLen` of a chunk
that is not empty, and `false` for an empty chunk whatever `ret` says. -/
theorem requests_return_handler_results (reachable : Reachable (handlers.protocol C initStore) pids s)
    (reading : (s.clients c).phase = .readResponse slot)
    (fits : (s.clients c).frame.length ≤ C.bufSize)
    (representable : (s.clients c).call.Representable (s.clients c).pid) (slotSmall : slot < 2 ^ 31) :
    (∀ relationId, (s.clients c).call = .countRequest relationId →
      ∃ store next count, handlers.count store relationId = some (next, count) ∧
        countRequestResult (s.responseQueue slot) = count % 2 ^ 64) ∧
    (∀ relationId, (s.clients c).call = .nextRequest relationId →
      ∃ store next item, handlers.next store ⟨relationId, (s.clients c).pid⟩ = some (next, item) ∧
        (item = none → nextRequestResult (s.responseQueue slot) = none) ∧
        (∀ key val, item = some (key, val) → key.length < 2 ^ 64 → val.length < 2 ^ 64 →
          16 + key.length + val.length ≤ C.bufSize →
          nextRequestResult (s.responseQueue slot) = if key = [] then none else some (key, val))) ∧
    (∀ relationId key, (s.clients c).call = .getRequest relationId key →
      ∃ store next result, handlers.get store relationId key = some (next, result) ∧
        ((∀ val ∈ result, val.length < 2 ^ 64 ∧ 9 + val.length ≤ C.bufSize) →
          getRequestResult (s.responseQueue slot) = result)) ∧
    (∀ relationId options, (s.clients c).call = .rangeQueryRequest relationId options →
      ∃ store next bufLen ret, handlers.rangeQuery store ⟨relationId, (s.clients c).pid⟩
          { options.fields with start := none, limit := none } = some (next, bufLen, ret) ∧
        (bufLen < 2 ^ 64 → rangeQueryRequestResult (s.responseQueue slot) =
          if bufLen = 0 then (false, 0) else (ret, bufLen))) := by
  have responded := Handlers.reading_respond reachable reading fits representable slotSmall
  obtain ⟨path, framed⟩ := reachable.call_frame_fits reading fits
  have long : 8 ≤ C.bufSize := (Call.frame_long _ _ _ _).trans framed
  refine ⟨fun relationId call => ?_, fun relationId call => ?_, fun relationId key call => ?_,
    fun relationId options call => ?_⟩
  · obtain ⟨path, store, next, response, handled, holds⟩ := responded (by rw [call]; rfl)
    rw [call] at handled
    obtain ⟨⟨_, count⟩, counted, written⟩ := Option.map_eq_some'.mp handled
    cases written
    refine ⟨store, _, count, counted, ?_⟩
    rw [countRequestResult, ← decodeLE_encodeU64_eq_mod]
    exact congrArg decodeLE (Region.read_of_fits holds (by simpa [countReply] using long))
  · obtain ⟨path, store, next, response, handled, holds⟩ := responded (by rw [call]; rfl)
    rw [call] at handled
    obtain ⟨⟨_, item⟩, advanced, written⟩ := Option.map_eq_some'.mp handled
    cases written
    refine ⟨store, _, item, advanced, fun ended => ?_,
      fun key val found keySmall valSmall replyFits => ?_⟩
    · subst ended
      exact nextRequestResult_empty [] (Region.read_of_fits holds (by simpa [nextReply] using long))
    · subst found
      have whole := Region.read_of_fits holds (by simp [nextReply]; omega)
      split_ifs with empty
      · subst empty
        exact nextRequestResult_empty (encodeU64 val.length ++ val)
          (by simpa [nextReply, List.append_assoc] using whole)
      · exact nextRequestResult_some empty keySmall valSmall whole
  · obtain ⟨path, store, next, response, handled, holds⟩ := responded (by rw [call]; rfl)
    rw [call] at handled
    obtain ⟨⟨_, result⟩, found, written⟩ := Option.map_eq_some'.mp handled
    cases written
    refine ⟨store, _, result, found, fun small =>
      getRequestResult_eq (fun val member => (small val member).1) (Region.read_of_fits holds ?_)⟩
    cases result with
    | none => simp only [getReply, length_encodeBool]; omega
    | some val =>
        have := (small val rfl).2
        simp only [getReply, List.length_append, length_encodeBool, length_encodeU64]
        omega
  · obtain ⟨store, next, bufLen, ret, queried, holds⟩ :=
      Handlers.reading_rangeQuery reachable reading fits call representable (by omega)
    have longer : 9 ≤ C.bufSize := by
      rw [call] at framed
      simp only [Call.frame, frameHeader, Call.body, List.length_append, length_encodeU32,
        Handlers.protocol_toShmConfig] at framed
      omega
    refine ⟨store, next, bufLen, ret, queried, fun small =>
      rangeQueryRequestResult_eq small (Region.read_of_fits holds ?_)⟩
    simp only [rangeQueryReply, List.length_append, length_encodeU64]
    split_ifs <;> simp only [List.length_nil, length_encodeBool] <;> omega

end Returns

/-- Handlers on which every call succeeds, with `Count` finding three records, `Get`
finding nothing, `RangeQuery` an empty last chunk, and `Next` an item with an empty key and
the value `[7]`. -/
def Handlers.emptyKeys : Handlers Unit where
  openRelation _ _ _ _ := some ()
  closeRelation _ _ := some ()
  count _ _ := some ((), 3)
  getIter _ _ := some ()
  delIter _ _ := some ()
  next _ _ := some ((), some ([], [7]))
  get _ _ _ := some ((), none)
  put _ _ _ _ := some ()
  delete _ _ _ := some ()
  rangeQuery _ _ _ := some ((), 0, false)

/-- A backend that has opened a relation calls `NextRequest` on a worker whose `Next`
finds an item with an empty key: reading its slot, it gets no item. -/
theorem next_empty_key_read_as_end :
    ∃ s : State 1 Unit,
      Reachable (Handlers.emptyKeys.protocol ⟨1, 32, by decide, by decide⟩ ()) (fun _ => 7) s ∧
      (s.clients 0).phase = .readResponse 0 ∧ (s.clients 0).call = .nextRequest 0 ∧
      nextRequestResult (s.responseQueue 0) = none := by
  obtain ⟨s, ran⟩ := Option.isSome_iff_exists.mp (show (runWith (Action.normal
      (Handlers.emptyKeys.protocol ⟨1, 32, by decide, by decide⟩ ()))
      (Handlers.emptyKeys.protocol ⟨1, 32, by decide, by decide⟩ ())
      (State.init (Handlers.emptyKeys.protocol ⟨1, 32, by decide, by decide⟩ ())
        fun (_ : Fin 1) => 7)
      (openScript 0 [47, 107, 118] ++ Action.client 0 (Move.invoke (Call.nextRequest 0)) ::
        List.replicate 7 (Action.client 0 Move.proceed) ++
          List.replicate 5 (Action.kvWorker Move.proceed) ++
            [Action.client 0 Move.proceed])).isSome by decide)
  have client : ((s.clients 0).phase == .readResponse 0 && (s.clients 0).call == .nextRequest 0 &&
      (s.clients 0).pid == 7 && decide ((s.clients 0).frame.length ≤ 32)) = true := by
    have mapped := congrArg (Option.map fun (s : State 1 Unit) => (s.clients 0).phase ==
      .readResponse 0 && (s.clients 0).call == .nextRequest 0 && (s.clients 0).pid == 7 &&
        decide ((s.clients 0).frame.length ≤ 32)) ran
    rw [Option.map_some'] at mapped
    exact Option.some_injective _ (mapped.symm.trans (by decide))
  simp only [Bool.and_eq_true, beq_iff_eq, decide_eq_true_eq] at client
  obtain ⟨⟨⟨reading, call⟩, pid⟩, fits⟩ := client
  have reachable := (NormalReachable.of_run _ ran).reachable
  obtain ⟨-, nexts, -, -⟩ := requests_return_handler_results reachable reading fits
    (by rw [call, pid]; decide) (by decide)
  obtain ⟨store, next, item, advanced, -, found⟩ := nexts 0 call
  obtain rfl : item = some ([], [7]) := (Prod.ext_iff.mp (Option.some_injective _ advanced)).2.symm
  exact ⟨s, reachable, reading, call,
    by rw [found [] [7] rfl (by decide) (by decide) (by decide), if_pos rfl]⟩

end KvFdw.Shm
