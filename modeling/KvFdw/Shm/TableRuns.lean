import KvFdw.Shm.TableInvariants

/-!
# Databases, reference counts and iterators over a run

What `WorkerTables.Consistent` and the iterator model say about the worker's calls in
every run.
-/

set_option autoImplicit false

namespace KvFdw.Shm

namespace WorkerTables

variable {t : WorkerTables}

/-! ## The exit loop -/

/-- The loop after `KVWorkerMain`'s: `Close(entry->db)` for each entry `hash_seq_search`
visits, once each; the model visits them in the order they were entered. -/
def exitCalls (t : WorkerTables) : List StorageCall :=
  t.relations.filterMap fun relationId => (t.dbOf relationId).map .close

theorem Consistent.exitCalls_nodup (inv : t.Consistent) : t.exitCalls.Nodup :=
  inv.relations_nodup.filterMap fun relationId other call closes closes' => by
    obtain ⟨db, found, rfl⟩ := Option.map_eq_some'.mp closes
    obtain ⟨db', found', same⟩ := Option.map_eq_some'.mp closes'
    cases same
    exact Option.some_injective _ ((inv.db_index _ _ found).symm.trans (inv.db_index _ _ found'))

theorem Consistent.close_mem_exitCalls (inv : t.Consistent) (db : Nat) :
    StorageCall.close db ∈ t.exitCalls ↔ db < t.opened := by
  constructor
  · intro member
    obtain ⟨relationId, -, closes⟩ := List.mem_filterMap.mp member
    obtain ⟨db', found, same⟩ := Option.map_eq_some'.mp closes
    cases same
    exact inv.opened_eq ▸ (List.getElem?_eq_some_iff.mp (inv.db_index _ _ found)).1
  · intro below
    rw [← inv.opened_eq] at below
    have member := List.getElem_mem below
    obtain ⟨db', found⟩ := inv.entered _ member
    obtain ⟨inside, placed⟩ := List.getElem?_eq_some_iff.mp (inv.db_index _ _ found)
    obtain rfl : db' = db := (inv.relations_nodup.getElem_inj_iff).mp placed
    exact List.mem_filterMap.mpr ⟨_, member, by rw [found]; rfl⟩

theorem Consistent.count_close (inv : t.Consistent) (db : Nat) :
    (t.calls ++ t.exitCalls).count (.close db) =
      if db ∈ t.calls.filterMap StorageCall.openedDb then 1 else 0 := by
  simp only [List.count_append, List.count_eq_zero_of_not_mem (inv.no_close db), Nat.zero_add,
    inv.open_dbs, List.mem_range]
  split_ifs with below
  · exact List.count_eq_one_of_mem inv.exitCalls_nodup ((inv.close_mem_exitCalls db).mpr below)
  · exact List.count_eq_zero_of_not_mem fun member =>
      below ((inv.close_mem_exitCalls db).mp member)

/-! ## Reference counts -/

/-- A relation's `ref`, `0` without an entry. -/
def refOf (t : WorkerTables) (relationId : Nat) : Nat :=
  ((t.kvTableHash relationId).map TableEntry.ref).getD 0

theorem refOf_of_found {relationId : Nat} {entry : TableEntry}
    (found : t.kvTableHash relationId = some entry) : t.refOf relationId = entry.ref := by
  simp [refOf, found]

@[simp] theorem refOf_setRef_same (relationId : Nat) (entry : TableEntry) (ref : Nat) :
    (t.setRef relationId entry ref).refOf relationId = ref := by
  simp [refOf]

end WorkerTables

/-- An OPEN whose path names the relation. -/
def Command.opens (relationId : Nat) : Command → Bool
  | .openResponse _ _ path => pathRelationId path == some relationId
  | _ => false

/-- A CLOSE of the relation. -/
def Command.closes (relationId : Nat) : Command → Bool
  | .closeResponse closed => closed == relationId
  | _ => false

theorem Command.opens_of_request {command : Command} {asked : Nat × DbRequest}
    (requested : command.request = some asked) (relationId : Nat) :
    command.opens relationId = false := by
  cases command <;> simp_all [Command.request, Command.opens]

theorem Command.closes_of_request {command : Command} {asked : Nat × DbRequest}
    (requested : command.request = some asked) (relationId : Nat) :
    command.closes relationId = false := by
  cases command <;> simp_all [Command.request, Command.closes]

namespace WorkerTables

variable {t : WorkerTables} {S : Storage} {command : Command} {next : WorkerTables}
  {response : List UInt8}

theorem refOf_respond (handled : S.handlers.respond t command = some (next, response))
    {relationId : Nat} (bounded : t.refOf relationId < 2 ^ 32) :
    next.refOf relationId < 2 ^ 32 ∧ (next.refOf relationId : Int) =
      (t.refOf relationId + (if command.opens relationId then 1 else 0) -
        (if command.closes relationId then 1 else 0)) % 2 ^ 32 := by
  have unchanged : next.refOf relationId = t.refOf relationId → command.opens relationId = false →
      command.closes relationId = false → next.refOf relationId < 2 ^ 32 ∧
        (next.refOf relationId : Int) = (t.refOf relationId +
          (if command.opens relationId then 1 else 0) -
            (if command.closes relationId then 1 else 0)) % 2 ^ 32 := fun same opens closes => by
    rw [same, opens, closes]
    omega
  rcases respond_cases handled with
    ⟨entered, useColumn, attrCount, path, rfl, named, absent, rfl⟩ |
    ⟨opened, useColumn, attrCount, path, entry, rfl, named, found, rfl⟩ |
    ⟨closed, entry, rfl, found, rfl⟩ | ⟨key, entry, rfl, -, rfl⟩ | ⟨key, iter, rfl, -, rfl⟩ |
    ⟨key, rfl, -, rfl⟩ | ⟨responseId, key, entry, iter, rfl, -, -, rfl⟩ |
    ⟨responseId, key, options, entry, left, rfl, -, rfl⟩ |
    ⟨_, _, _, _, requested, -, -, -, rfl⟩
  · by_cases same : relationId = entered
    · subst same
      simp [refOf, Command.opens, Command.closes, named, absent]
    · exact unchanged (by simp [refOf, Function.update_apply, same])
        (by simp [Command.opens, named, Ne.symm same]) rfl
  · by_cases same : relationId = opened
    · subst same
      rw [refOf_setRef_same, refOf_of_found found] at *
      simp only [Command.opens, Command.closes, named, beq_self_eq_true, if_true,
        Bool.false_eq_true, if_false]
      omega
    · exact unchanged (by simp [refOf, Function.update_apply, same])
        (by simp [Command.opens, named, Ne.symm same]) rfl
  · by_cases same : relationId = closed
    · subst same
      rw [refOf_setRef_same, refOf_of_found found] at *
      simp only [Command.opens, Command.closes, beq_self_eq_true, if_true, Bool.false_eq_true,
        if_false]
      omega
    · exact unchanged (by simp [refOf, Function.update_apply, same]) rfl
        (by simp [Command.closes, Ne.symm same])
  · exact unchanged rfl rfl rfl
  · exact unchanged rfl rfl rfl
  · exact unchanged rfl rfl rfl
  · exact unchanged rfl rfl rfl
  · exact unchanged rfl rfl rfl
  · exact unchanged rfl (Command.opens_of_request requested _)
      (Command.closes_of_request requested _)

/-- Over a run of the handlers, a relation's `ref` moves by the OPENs naming it less the
CLOSEs of it, modulo `2 ^ 32`. -/
theorem refOf_run (relationId : Nat) :
    ∀ {t final : WorkerTables} {commands : List Command}, S.handlers.run t commands = some final →
      t.refOf relationId < 2 ^ 32 → final.refOf relationId < 2 ^ 32 ∧
        (final.refOf relationId : Int) = (t.refOf relationId +
          commands.countP (·.opens relationId) - commands.countP (·.closes relationId)) % 2 ^ 32
  | _, _, [], ran, bounded => by
      cases ran
      refine ⟨bounded, ?_⟩
      simp only [List.countP_nil, Nat.cast_zero, add_zero, sub_zero]
      omega
  | _, _, command :: rest, ran, bounded => by
      obtain ⟨⟨next, response⟩, handled, ran⟩ := Option.bind_eq_some.mp ran
      obtain ⟨nextBounded, step⟩ := refOf_respond handled bounded
      obtain ⟨finalBounded, steps⟩ := refOf_run relationId ran nextBounded
      refine ⟨finalBounded, ?_⟩
      rw [steps, step, List.countP_cons, List.countP_cons]
      split_ifs <;> push_cast <;> omega

end WorkerTables

/-! ## Iterators -/

/-- The worker's tables as the Iterators module models them: the relations with an entry,
`kvIterHash`, and the iterators `GetIter` returned, `DelIter` released and `Next`
advanced. -/
def WorkerTables.iterTables (t : WorkerTables) : IterTables where
  opened relationId := (t.kvTableHash relationId).isSome
  iters := t.kvIterHash
  issued := t.issued
  released := t.calls.filterMap StorageCall.releasedIter
  advanced := t.calls.filterMap StorageCall.advancedIter

/-- The `func` an iterator command is posted with. -/
def IterCommand.func : IterCommand → FuncName
  | .getIter _ => .GETITER
  | .delIter _ => .DELITER
  | .next _ => .NEXT

/-- The `buf` `KVWorkerMain` copied for an iterator command. -/
def IterCommand.buf : IterCommand → List UInt8
  | .getIter buf | .delIter buf | .next buf => buf

namespace WorkerTables

variable {t : WorkerTables}

/-! The worker's GETITER, DELITER and NEXT handlers act on its iterator bookkeeping as the
Iterators module's handlers do, errors included. -/

theorem getIterResponse_iterTables (t : WorkerTables) (key : IterKey) :
    (t.getIterResponse key).map iterTables = t.iterTables.getIter key := by
  cases found : t.kvTableHash key.relationId <;>
    simp [getIterResponse, IterTables.getIter, iterTables, newIter, found,
      StorageCall.releasedIter, StorageCall.advancedIter]

theorem delIterResponse_iterTables (t : WorkerTables) (key : IterKey) :
    (t.delIterResponse key).map iterTables = t.iterTables.delIter key := by
  cases held : t.kvIterHash key with
  | none => simp [delIterResponse, IterTables.delIter, iterTables, held]
  | some iter =>
      cases iter <;> simp [delIterResponse, IterTables.delIter, iterTables, dropIter, held,
        StorageCall.releasedIter, StorageCall.advancedIter]

theorem nextResponse_iterTables (S : Storage) (t : WorkerTables) (key : IterKey) :
    (t.nextResponse S key).map (·.1.iterTables) = t.iterTables.next key := by
  cases found : t.kvTableHash key.relationId <;> cases held : t.kvIterHash key <;>
    simp [nextResponse, IterTables.next, iterTables, record, found, held,
      StorageCall.releasedIter, StorageCall.advancedIter]

end WorkerTables

/-- On GETITER, DELITER and NEXT, `KVWorkerMain`'s switch acts on the worker's iterator
bookkeeping as the Iterators module's model does, errors included. -/
theorem dispatch_iterTables (S : Storage) (t : WorkerTables) (command : IterCommand) :
    (S.handlers.dispatch t command.func.code command.buf).map (·.1.iterTables) =
      t.iterTables.handle command := by
  cases command <;>
    simp only [IterCommand.func, IterCommand.buf, Handlers.dispatch, FuncName.ofCode_code,
      Option.some_bind, FuncName.decode, Handlers.respond, Storage.handlers, IterTables.handle,
      getIterResponse, delIterResponse, nextResponse, wordSize, Option.map_map, Function.comp_def]
  · exact WorkerTables.getIterResponse_iterTables t _
  · exact WorkerTables.delIterResponse_iterTables t _
  · exact WorkerTables.nextResponse_iterTables S t _

theorem StorageCall.releasedIter_of_quiet {call : StorageCall} (quiet : call.quiet = true) :
    call.releasedIter = none := by
  cases call <;> simp_all [StorageCall.quiet, StorageCall.releasedIter]

namespace WorkerTables

variable {t next : WorkerTables} {S : Storage} {command : Command} {response : List UInt8}

theorem iterTables_respond (handled : S.handlers.respond t command = some (next, response)) :
    (∃ key, command = .getIterResponse key) ∨ (∃ key, command = .delIterResponse key) ∨
    (∃ responseId key, command = .nextResponse responseId key) ∨
    (next.iterTables.iters = t.iterTables.iters ∧ next.iterTables.issued = t.iterTables.issued ∧
      next.iterTables.released = t.iterTables.released) := by
  rcases respond_cases handled with
    ⟨_, _, _, _, -, -, -, rfl⟩ | ⟨_, _, _, _, _, -, -, -, rfl⟩ | ⟨_, _, -, -, rfl⟩ |
    ⟨key, _, rfl, -, -⟩ | ⟨key, _, rfl, -, -⟩ | ⟨key, rfl, -, -⟩ | ⟨_, key, _, _, rfl, -, -, -⟩ |
    ⟨_, _, _, _, _, -, -, rfl⟩ | ⟨_, _, _, call, -, -, -, quiet, rfl⟩
  · exact .inr (.inr (.inr ⟨rfl, rfl, by simp [iterTables, StorageCall.releasedIter]⟩))
  · exact .inr (.inr (.inr ⟨rfl, rfl, rfl⟩))
  · exact .inr (.inr (.inr ⟨rfl, rfl, rfl⟩))
  · exact .inl ⟨key, rfl⟩
  · exact .inr (.inl ⟨key, rfl⟩)
  · exact .inr (.inl ⟨key, rfl⟩)
  · exact .inr (.inr (.inl ⟨_, key, rfl⟩))
  · exact .inr (.inr (.inr ⟨rfl, rfl, by simp [iterTables, StorageCall.releasedIter]⟩))
  · exact .inr (.inr (.inr ⟨rfl, rfl, by simp [iterTables, StorageCall.releasedIter_of_quiet quiet]⟩))

theorem tidy_respond (tidy : t.iterTables.Tidy)
    (handled : S.handlers.respond t command = some (next, response)) : next.iterTables.Tidy := by
  have modelled : ∀ {result : Option WorkerTables} {model : Option IterTables},
      result.map iterTables = model → result = some next → model = some next.iterTables :=
    fun mapped found => by rw [← mapped, found]; rfl
  rcases iterTables_respond handled with ⟨key, rfl⟩ | ⟨key, rfl⟩ | ⟨_, key, rfl⟩ | kept
  · obtain ⟨_, found, ⟨⟩⟩ := Option.map_eq_some'.mp handled
    exact tidy.of_effect (IterTables.getIter_effect (modelled (getIterResponse_iterTables t key) found))
  · obtain ⟨_, found, ⟨⟩⟩ := Option.map_eq_some'.mp handled
    exact tidy.of_effect (IterTables.delIter_effect (modelled (delIterResponse_iterTables t key) found))
  · obtain ⟨⟨_, item⟩, found, ⟨⟩⟩ := Option.map_eq_some'.mp handled
    have mapped := nextResponse_iterTables S t key
    rw [show nextResponse S t key = some (next, item) from found, Option.map_some'] at mapped
    exact tidy.of_effect (IterTables.next_effect mapped.symm)
  · exact tidy.of_effect (.inr (.inr kept))

/-- `KVWorkerMain`'s switch keeps the iterator bookkeeping tidy: on GETITER, DELITER and NEXT
because it acts as the Iterators module's model does, on every other command because it
leaves the bookkeeping as it was. -/
theorem tidy_dispatch {func : Nat} {buf : List UInt8} (tidy : t.iterTables.Tidy)
    (handled : S.handlers.dispatch t func buf = some (next, response)) : next.iterTables.Tidy := by
  obtain ⟨name, named, decoded⟩ := Option.bind_eq_some.mp handled
  obtain ⟨command, decodedCommand, responded⟩ := Option.bind_eq_some.mp decoded
  have modelled : ∀ iter : IterCommand, iter.func = name → iter.buf = buf → next.iterTables.Tidy := by
    rintro iter rfl rfl
    have mapped := dispatch_iterTables S t iter
    rw [FuncName.code_of_ofCode named, handled, Option.map_some'] at mapped
    exact tidy.handle mapped.symm
  cases name
  case GETITER => exact modelled (.getIter buf) rfl rfl
  case DELITER => exact modelled (.delIter buf) rfl rfl
  case NEXT => exact modelled (.next buf) rfl rfl
  case TERMINATE => cases decodedCommand
  all_goals
    simp only [FuncName.decode, Option.some.injEq] at decodedCommand
    subst decodedCommand
    rcases iterTables_respond responded with ⟨_, ⟨⟩⟩ | ⟨_, ⟨⟩⟩ | ⟨_, _, ⟨⟩⟩ | kept
    exact tidy.of_effect (.inr (.inr kept))

end WorkerTables

theorem Reachable.iterTables_tidy {n : Nat} {S : Storage} {C : ShmConfig} {pids : Fin n → Nat}
    {s : State n WorkerTables} (reachable : Reachable (S.handlers.protocol C .init) pids s) :
    s.store.iterTables.Tidy :=
  reachable.store_invariant (I := fun t => t.iterTables.Tidy) (IterTables.Tidy.init fun _ => false)
    fun _ _ _ _ _ tidy handled => WorkerTables.tidy_dispatch tidy handled

/-! ## Every run -/

/-- An engine that finds nothing: `Count` finds no record, `Next` and `Get` nothing, `Put`
and `Delete` succeed, and `RangeQuery` returns an empty last chunk and leaves its
`readOptions` as they were. -/
def Storage.empty : Storage where
  count _ _ := 0
  next _ _ _ := none
  get _ _ _ := none
  put _ _ _ _ := true
  delete _ _ _ := true
  rangeQuery _ _ readOptions _ _ := (readOptions, 0, false)

/-- The kv_shm.c handlers over `Storage.empty`, with one response slot and a 32-byte
area. -/
def Storage.emptyProtocol : Protocol WorkerTables :=
  Storage.empty.handlers.protocol ⟨1, 32, by decide, by decide⟩ .init

set_option maxRecDepth 8000 in
/-- A backend opens the relation at "/kv/5" and counts its records: the worker has entered
relation 5 and made two calls, `Open` and `Count`. -/
theorem open_count_run : ∃ s : State 1 WorkerTables,
    Reachable Storage.emptyProtocol (fun _ => 7) s ∧ s.store.relations = [5] ∧
      s.store.calls.length = 2 := by
  obtain ⟨s, ran⟩ := Option.isSome_iff_exists.mp (show (runWith
      (Action.normal Storage.emptyProtocol) Storage.emptyProtocol
      (State.init Storage.emptyProtocol fun (_ : Fin 1) => 7)
      (openScript 0 [47, 107, 118, 47, 53] ++ Action.client 0 (Move.invoke (Call.countRequest 5)) ::
        List.replicate 7 (Action.client 0 Move.proceed) ++
          List.replicate 5 (Action.kvWorker Move.proceed))).isSome by decide)
  have facts : (s.store.relations == [5] && s.store.calls.length == 2) = true := by
    have mapped := congrArg (Option.map fun (s : State 1 WorkerTables) =>
      s.store.relations == [5] && s.store.calls.length == 2) ran
    rw [Option.map_some'] at mapped
    exact Option.some_injective _ (mapped.symm.trans (by decide))
  simp only [Bool.and_eq_true, beq_iff_eq] at facts
  exact ⟨s, (NormalReachable.of_run _ ran).reachable, facts⟩

set_option maxRecDepth 8000 in
/-- A backend opens the relation at "/kv/5" and starts a scan of it: the worker's second
call is a `RangeQuery` on database 0, handed NULL `readOptions`. -/
theorem open_rangeQuery_run : ∃ s : State 1 WorkerTables,
    Reachable Storage.emptyProtocol (fun _ => 7) s ∧ s.store.relations = [5] ∧
      ∃ options pid left, s.store.calls[1]? = some (.rangeQuery 0 none options pid left) := by
  obtain ⟨s, ran, facts⟩ := Option.map_eq_some'.mp (show (runWith
      (fun _ action => !action.interrupts) Storage.emptyProtocol
      (State.init Storage.emptyProtocol fun (_ : Fin 1) => 7)
      (openScript 0 [47, 107, 118, 47, 53] ++
        Action.client 0 (Move.invoke (Call.rangeQueryRequest 5 ⟨[], [], 0, []⟩)) ::
        List.replicate 7 (Action.client 0 Move.proceed) ++
          List.replicate 5 (Action.kvWorker Move.proceed) ++
          List.replicate 3 (Action.client 0 Move.proceed))).map (fun s =>
      s.store.relations == [5] && match s.store.calls[1]? with
        | some (StorageCall.rangeQuery 0 none _ _ _) => true
        | _ => false) = some true by decide)
  simp only [Bool.and_eq_true, beq_iff_eq] at facts
  obtain ⟨entered, scanned⟩ := facts
  refine ⟨s, step_of_run _ ran, entered, ?_⟩
  split at scanned
  next _ options pid left found => exact ⟨options, pid, left, found⟩
  next => cases scanned

set_option maxRecDepth 8000 in
/-- A backend opens the relation at "/kv/5", asks for an iterator and deletes it: after
`Open` the worker has called `GetIter` and then `DelIter` on iterator 0. The run is decided
up to the DELITER dispatch, which is taken by hand. -/
theorem open_getIter_delIter_run : ∃ s : State 1 WorkerTables,
    Reachable Storage.emptyProtocol (fun _ => 7) s ∧ s.store.relations = [5] ∧
      s.store.calls.drop 1 = [.getIter 0 0, .delIter 0] := by
  obtain ⟨s, ran, facts⟩ := Option.map_eq_some'.mp (show (runWith
      (fun _ action => !action.interrupts) Storage.emptyProtocol
      (State.init Storage.emptyProtocol fun (_ : Fin 1) => 7)
      (openScript 0 [47, 107, 118, 47, 53] ++ Action.client 0 (Move.invoke (Call.getIterRequest 5)) ::
        List.replicate 7 (Action.client 0 Move.proceed) ++
          List.replicate 5 (Action.kvWorker Move.proceed) ++
          List.replicate 2 (Action.client 0 Move.proceed) ++
        Action.client 0 (Move.invoke (Call.delIterRequest 5)) ::
          List.replicate 7 (Action.client 0 Move.proceed) ++
          List.replicate 3 (Action.kvWorker Move.proceed))).map (fun s =>
      (match s.kvWorker with
        | .dispatch func _ buf => func == 4 && IterKey.read (buf.drop 4) == ⟨5, 7⟩
        | _ => false) &&
      s.store.kvIterHash ⟨5, 7⟩ == some (some 0) && s.store.relations == [5] &&
      s.store.calls.drop 1 == [.getIter 0 0]) = some true by decide)
  simp only [Bool.and_eq_true, beq_iff_eq] at facts
  obtain ⟨⟨⟨dispatching, held⟩, relations⟩, calls⟩ := facts
  split at dispatching
  next func responseId buf current =>
    simp only [Bool.and_eq_true, beq_iff_eq] at dispatching
    obtain ⟨rfl, keyed⟩ := dispatching
    have handled : Storage.emptyProtocol.dispatch s.store FuncName.DELITER.code buf =
        some (s.store.dropIter ⟨5, 7⟩ 0, []) := by
      simp [Storage.emptyProtocol, Handlers.protocol, Handlers.dispatch, FuncName.ofCode_code,
        FuncName.decode, Handlers.respond, Storage.handlers, WorkerTables.delIterResponse,
        wordSize, keyed, held]
    have stepped : step Storage.emptyProtocol s (.kvWorker .proceed) = some { s with
        store := s.store.dropIter ⟨5, 7⟩ 0
        responseQueue := writeSlot Storage.emptyProtocol.toShmConfig s.responseQueue responseId []
        responses := s.responses ++ [[]]
        kvWorker := .postSync responseId false } := by
      simp only [step, workerStep, current, show Storage.emptyProtocol.dispatch s.store 4 buf = _
        from handled]
    have long : 1 ≤ s.store.calls.length := by
      by_contra short
      rw [List.drop_eq_nil_of_le (by omega)] at calls
      cases calls
    refine ⟨_, (step_of_run _ ran).tail ⟨.kvWorker .proceed, rfl, stepped⟩, relations, ?_⟩
    show (s.store.calls ++ [StorageCall.delIter 0]).drop 1 = _
    rw [List.drop_append_of_le_length long, calls]
    rfl
  next => cases dispatching

section Runs

variable {n : Nat} {S : Storage} {C : ShmConfig} {pids : Fin n → Nat} {s : State n WorkerTables}

/-- In every run of the kv_shm.c handlers the worker has called `Open` once per relation
`kvTableHash` has an entry for, and for no other: the `i`-th `Open` call returned
database `i`, on a path naming the `i`-th relation `HASH_ENTER` added, no relation was
added twice, and the relations added are those with an entry. Every call handed a
database comes after the `Open` call that returned it. -/
theorem opens_once_per_relation (reachable : Reachable (S.handlers.protocol C .init) pids s) :
    s.store.relations.Nodup ∧
    s.store.calls.filterMap StorageCall.openedDb = List.range s.store.relations.length ∧
    (∀ db path useColumn attrCount, StorageCall.open db path useColumn attrCount ∈ s.store.calls →
      ∃ relationId, pathRelationId path = some relationId ∧
        s.store.relations[db]? = some relationId) ∧
    (∀ relationId, relationId ∈ s.store.relations ↔
      ∃ entry, s.store.kvTableHash relationId = some entry) ∧
    ∀ k call db, s.store.calls[k]? = some call → call.handedDb = some db →
      ∃ path useColumn attrCount,
        StorageCall.open db path useColumn attrCount ∈ s.store.calls.take k := by
  have inv := reachable.consistent
  refine ⟨inv.relations_nodup, inv.opened_eq ▸ inv.open_dbs, inv.open_paths,
    fun relationId => ⟨fun member => ?_, fun ⟨entry, found⟩ => ?_⟩,
    fun k call db found handed => inv.after_open k call found db handed⟩
  · obtain ⟨db, found⟩ := inv.entered relationId member
    obtain ⟨entry, found, -⟩ := Option.map_eq_some'.mp found
    exact ⟨entry, found⟩
  · exact List.getElem?_mem (inv.db_index relationId entry.db (by simp [WorkerTables.dbOf, found]))

/-- The run of `open_count_run` has opened database 0 once, for relation 5. -/
theorem open_count_opens_once : ∃ s : State 1 WorkerTables,
    Reachable Storage.emptyProtocol (fun _ => 7) s ∧ s.store.relations = [5] ∧
    s.store.relations.Nodup ∧
    s.store.calls.filterMap StorageCall.openedDb = List.range s.store.relations.length ∧
    (∀ db path useColumn attrCount, StorageCall.open db path useColumn attrCount ∈ s.store.calls →
      ∃ relationId, pathRelationId path = some relationId ∧
        s.store.relations[db]? = some relationId) ∧
    (∀ relationId, relationId ∈ s.store.relations ↔
      ∃ entry, s.store.kvTableHash relationId = some entry) ∧
    ∀ k call db, s.store.calls[k]? = some call → call.handedDb = some db →
      ∃ path useColumn attrCount,
        StorageCall.open db path useColumn attrCount ∈ s.store.calls.take k := by
  obtain ⟨s, reachable, entered, -⟩ := open_count_run
  exact ⟨s, reachable, entered, opens_once_per_relation reachable⟩

/-- No handler of kv_shm.c calls `Close`, CLOSE included: in every run the worker has
closed no database, and the loop after `KVWorkerMain`'s closes each database an `Open`
call returned exactly once, and no other. -/
theorem databases_closed_once_at_exit
    (reachable : Reachable (S.handlers.protocol C .init) pids s) :
    (∀ db, StorageCall.close db ∉ s.store.calls) ∧
    ∀ db, (s.store.calls ++ s.store.exitCalls).count (.close db) =
      if db ∈ s.store.calls.filterMap StorageCall.openedDb then 1 else 0 :=
  ⟨reachable.consistent.no_close, reachable.consistent.count_close⟩

/-- In the run of `open_count_run`, exiting would close database 0 once. -/
theorem open_count_closed_at_exit : ∃ s : State 1 WorkerTables,
    Reachable Storage.emptyProtocol (fun _ => 7) s ∧ s.store.relations = [5] ∧
    (∀ db, StorageCall.close db ∉ s.store.calls) ∧
    ∀ db, (s.store.calls ++ s.store.exitCalls).count (.close db) =
      if db ∈ s.store.calls.filterMap StorageCall.openedDb then 1 else 0 := by
  obtain ⟨s, reachable, entered, -⟩ := open_count_run
  exact ⟨s, reachable, entered, databases_closed_once_at_exit reachable⟩

/-- In every run, each `RangeQuery` call is handed the `readOptions` the last `RangeQuery`
call on the same database for the same process left, NULL at the first: the worker keeps
them from one call to the next, across scans, and never resets them. -/
theorem rangeQuery_readOptions_threaded
    (reachable : Reachable (S.handlers.protocol C .init) pids s) :
    ∀ k db readOptions options pid left,
      s.store.calls[k]? = some (.rangeQuery db readOptions options pid left) →
        readOptions = leftOptions db pid (s.store.calls.take k) :=
  fun k _ _ _ _ _ found => reachable.consistent.threaded k _ found

/-- The scan of `open_rangeQuery_run` hands its first `RangeQuery` NULL `readOptions`, the
options no earlier call left. -/
theorem open_rangeQuery_threaded : ∃ s : State 1 WorkerTables,
    Reachable Storage.emptyProtocol (fun _ => 7) s ∧
    (∃ options pid left, s.store.calls[1]? = some (.rangeQuery 0 none options pid left)) ∧
    ∀ k db readOptions options pid left,
      s.store.calls[k]? = some (.rangeQuery db readOptions options pid left) →
        readOptions = leftOptions db pid (s.store.calls.take k) := by
  obtain ⟨s, reachable, -, scanned⟩ := open_rangeQuery_run
  exact ⟨s, reachable, scanned, rangeQuery_readOptions_threaded reachable⟩

/-- In every run, a relation's `ref` is the number of handled OPEN commands whose path
names it less the number of handled CLOSE commands of it, modulo `2 ^ 32`. -/
theorem refs_count_opens_and_closes
    (reachable : Reachable (S.handlers.protocol C .init) pids s) (relationId : Nat) :
    s.store.refOf relationId < 2 ^ 32 ∧
    (s.store.refOf relationId : Int) =
      (((s.handled.filterMap C.handledCommand).countP (·.opens relationId) : Int) -
        (s.handled.filterMap C.handledCommand).countP (·.closes relationId)) % 2 ^ 32 := by
  obtain ⟨bounded, counted⟩ := WorkerTables.refOf_run relationId
    (S.handlers.run_of_replay C .init reachable.replayed)
    (by simp [WorkerTables.refOf, WorkerTables.init, Handlers.protocol])
  refine ⟨bounded, ?_⟩
  simpa [WorkerTables.refOf, WorkerTables.init, Handlers.protocol] using counted

/-- In the run of `open_count_run`, relation 5's `ref` counts its one OPEN. -/
theorem open_count_refs : ∃ s : State 1 WorkerTables,
    Reachable Storage.emptyProtocol (fun _ => 7) s ∧ s.store.relations = [5] ∧
    s.store.refOf 5 < 2 ^ 32 ∧
    (s.store.refOf 5 : Int) =
      (((s.handled.filterMap Storage.emptyProtocol.handledCommand).countP (·.opens 5) : Int) -
        (s.handled.filterMap Storage.emptyProtocol.handledCommand).countP (·.closes 5)) %
          2 ^ 32 := by
  obtain ⟨s, reachable, entered, -⟩ := open_count_run
  exact ⟨s, reachable, entered, refs_count_opens_and_closes reachable 5⟩

/-- In every run, `DelIter` has released no iterator twice and none `GetIter` did not
return; no two entries of `kvIterHash` hold one iterator; and an entry holds only an
iterator `GetIter` returned and `DelIter` has not released. -/
theorem worker_releases_iterators_once
    (reachable : Reachable (S.handlers.protocol C .init) pids s) :
    (s.store.calls.filterMap StorageCall.releasedIter).Nodup ∧
    (∀ iter ∈ s.store.calls.filterMap StorageCall.releasedIter, iter < s.store.issued) ∧
    (∀ key other iter, s.store.kvIterHash key = some (some iter) →
      s.store.kvIterHash other = some (some iter) → key = other) ∧
    ∀ key iter, s.store.kvIterHash key = some (some iter) →
      iter < s.store.issued ∧ iter ∉ s.store.calls.filterMap StorageCall.releasedIter :=
  have tidy := reachable.iterTables_tidy
  ⟨tidy.released_nodup, tidy.released_issued, tidy.held_unique,
    fun key iter held => ⟨tidy.held_issued key iter held, tidy.held_live key iter held⟩⟩

/-- The run of `open_getIter_delIter_run` has released iterator 0 and keeps its iterators
tidy. -/
theorem getIter_delIter_tidy : ∃ s : State 1 WorkerTables,
    Reachable Storage.emptyProtocol (fun _ => 7) s ∧
    StorageCall.getIter 0 0 ∈ s.store.calls ∧ StorageCall.delIter 0 ∈ s.store.calls ∧
    (s.store.calls.filterMap StorageCall.releasedIter).Nodup ∧
    (∀ iter ∈ s.store.calls.filterMap StorageCall.releasedIter, iter < s.store.issued) ∧
    (∀ key other iter, s.store.kvIterHash key = some (some iter) →
      s.store.kvIterHash other = some (some iter) → key = other) ∧
    ∀ key iter, s.store.kvIterHash key = some (some iter) →
      iter < s.store.issued ∧ iter ∉ s.store.calls.filterMap StorageCall.releasedIter := by
  obtain ⟨s, reachable, -, calls⟩ := open_getIter_delIter_run
  have made : ∀ call ∈ [StorageCall.getIter 0 0, .delIter 0], call ∈ s.store.calls :=
    fun call member => List.mem_of_mem_drop (calls ▸ member)
  exact ⟨s, reachable, made _ (by simp), made _ (by simp),
    worker_releases_iterators_once reachable⟩

end Runs

end KvFdw.Shm
