import KvFdw.Shm.TableRuns

/-!
# What the storage engine is asked

The requests each relation's database gets, and that the worker hands the engine only live
iterators.
-/

set_option autoImplicit false

namespace KvFdw.Shm

/-! ## The requests of a log -/

/-- The requests of a log made of `target`, in order. -/
def requestsTo {α : Type} (request : α → Option (Nat × DbRequest)) (target : Nat)
    (log : List α) : List DbRequest :=
  log.filterMap fun entry => (request entry).bind fun asked =>
    if asked.1 = target then some asked.2 else none

section Requests

variable {α : Type} {request : α → Option (Nat × DbRequest)} {target : Nat}

@[simp] theorem requestsTo_append (log more : List α) :
    requestsTo request target (log ++ more) =
      requestsTo request target log ++ requestsTo request target more :=
  List.filterMap_append _ _ _

theorem requestsTo_singleton_of_none {entry : α} (unasked : request entry = none) :
    requestsTo request target [entry] = [] := by
  simp [requestsTo, unasked]

theorem requestsTo_singleton {entry : α} {db : Nat} {asked : DbRequest}
    (asks : request entry = some (db, asked)) :
    requestsTo request target [entry] = if db = target then [asked] else [] := by
  by_cases same : db = target <;> simp [requestsTo, asks, same]

theorem requestsTo_eq_nil {log : List α}
    (elsewhere : ∀ entry ∈ log, ∀ db asked, request entry = some (db, asked) → db ≠ target) :
    requestsTo request target log = [] := by
  refine List.filterMap_eq_nil_iff.mpr fun entry member => ?_
  cases asks : request entry with
  | none => rfl
  | some asked =>
      obtain ⟨db, asked⟩ := asked
      simp [elsewhere entry member db asked asks]

end Requests

namespace WorkerTables

variable {t next : WorkerTables} {S : Storage} {command : Command} {response : List UInt8}

theorem Consistent.dbOf_inj (inv : t.Consistent) {relationId other db : Nat}
    (found : t.dbOf relationId = some db) (found' : t.dbOf other = some db) :
    relationId = other :=
  Option.some_injective _ ((inv.db_index _ _ found).symm.trans (inv.db_index _ _ found'))

theorem dbOf_respond (handled : S.handlers.respond t command = some (next, response))
    {relationId db : Nat} (found : t.dbOf relationId = some db) :
    next.dbOf relationId = some db := by
  rcases respond_cases handled with
    ⟨entered, _, _, _, -, -, absent, rfl⟩ | ⟨_, _, _, _, _, -, -, known, rfl⟩ |
    ⟨_, _, -, known, rfl⟩ | ⟨_, _, -, -, rfl⟩ | ⟨_, _, -, -, rfl⟩ | ⟨_, -, -, rfl⟩ |
    ⟨_, _, _, _, -, -, -, rfl⟩ | ⟨_, _, _, _, _, -, -, rfl⟩ | ⟨_, _, _, _, -, -, -, -, rfl⟩
  · have distinct : relationId ≠ entered := by rintro rfl; simp [dbOf, absent] at found
    rw [dbOf_enter, if_neg distinct, found]
  · rw [dbOf_setRef known, found]
  · rw [dbOf_setRef known, found]
  all_goals exact found

/-! ## Each relation's requests reach its database -/

/-- Each relation's requests among the commands handled are, in order, the requests the
database of its entry got; a relation without an entry has had none. -/
def Forwards (commands : List Command) (t : WorkerTables) : Prop :=
  ∀ relationId, requestsTo Command.request relationId commands =
    ((t.dbOf relationId).map fun db => requestsTo StorageCall.request db t.calls).getD []

theorem forwards_init : Forwards [] init := fun _ => rfl

variable {commands : List Command}

theorem Forwards.unasked (forwards : Forwards commands t) (unasked : command.request = none)
    (sameDbs : next.dbOf = t.dbOf) (added : List StorageCall)
    (logged : next.calls = t.calls ++ added) (silent : ∀ call ∈ added, call.request = none) :
    Forwards (commands ++ [command]) next := by
  intro relationId
  rw [requestsTo_append, requestsTo_singleton_of_none unasked, List.append_nil, forwards,
    sameDbs, logged]
  have quiet : ∀ db, requestsTo StorageCall.request db added = [] := fun _ =>
    requestsTo_eq_nil fun call member _ _ asks => by simp [silent call member] at asks
  cases t.dbOf relationId <;> simp [quiet]

theorem Forwards.enter (forwards : Forwards commands t) (inv : t.Consistent)
    (unasked : command.request = none) {relationId : Nat} {path : List UInt8} (useColumn : Bool)
    (attrCount : Int) (absent : t.kvTableHash relationId = none) :
    Forwards (commands ++ [command]) (t.enter relationId path useColumn attrCount) := by
  have opened : ∀ db, requestsTo StorageCall.request db
      (t.enter relationId path useColumn attrCount).calls =
        requestsTo StorageCall.request db t.calls := fun db => by
    rw [enter_calls, record_calls, requestsTo_append, requestsTo_singleton_of_none rfl,
      List.append_nil]
  intro other
  simp only [requestsTo_append, requestsTo_singleton_of_none unasked, List.append_nil,
    forwards other, dbOf_enter, opened]
  split_ifs with same
  · subst same
    rw [show t.dbOf other = none by simp [dbOf, absent]]
    exact (requestsTo_eq_nil fun call member _ _ asks same =>
      absurd (inv.handed_lt member (StorageCall.handedDb_of_request asks)) (same ▸ lt_irrefl _)).symm
  · rfl

theorem Forwards.asked (forwards : Forwards commands t) (inv : t.Consistent)
    {relationId : Nat} {asked : DbRequest} (requested : command.request = some (relationId, asked))
    {entry : TableEntry} (found : t.kvTableHash relationId = some entry) (call : StorageCall)
    (sameDbs : next.dbOf = t.dbOf) (logged : next.calls = t.calls ++ [call])
    (calls : call.request = some (entry.db, asked)) : Forwards (commands ++ [command]) next := by
  have entered : t.dbOf relationId = some entry.db := by simp [dbOf, found]
  intro other
  rw [requestsTo_append, requestsTo_singleton requested, forwards, sameDbs, logged]
  cases known : t.dbOf other with
  | none =>
      have distinct : relationId ≠ other := by rintro rfl; rw [entered] at known; cases known
      simp [distinct]
  | some db =>
      have routed : relationId = other ↔ entry.db = db :=
        ⟨by rintro rfl; rw [entered] at known; cases known; rfl,
          fun same => inv.dbOf_inj entered (same ▸ known)⟩
      simp [requestsTo_singleton calls, routed]

theorem Forwards.respond (forwards : Forwards commands t) (inv : t.Consistent)
    (handled : S.handlers.respond t command = some (next, response)) :
    Forwards (commands ++ [command]) next := by
  rcases respond_cases handled with
    ⟨_, useColumn, attrCount, _, rfl, -, absent, rfl⟩ | ⟨_, _, _, _, _, rfl, -, found, rfl⟩ |
    ⟨_, _, rfl, found, rfl⟩ | ⟨_, entry, rfl, found, rfl⟩ | ⟨_, iter, rfl, -, rfl⟩ |
    ⟨_, rfl, -, rfl⟩ | ⟨_, _, entry, iter, rfl, found, -, rfl⟩ |
    ⟨_, key, options, entry, left, rfl, found, rfl⟩ | ⟨_, _, _, call, requested, found, calls, -, rfl⟩
  · exact forwards.enter inv (by rfl) useColumn attrCount absent
  · exact forwards.unasked rfl (dbOf_setRef found _) [] (List.append_nil _).symm (by simp)
  · exact forwards.unasked rfl (dbOf_setRef found _) [] (List.append_nil _).symm (by simp)
  · exact forwards.asked inv rfl found (.getIter entry.db t.issued) rfl rfl rfl
  · exact forwards.unasked rfl rfl [.delIter iter] rfl (by simp [StorageCall.request])
  · exact forwards.unasked rfl rfl [] (List.append_nil _).symm (by simp)
  · exact forwards.asked inv rfl found (.next entry.db iter) rfl rfl rfl
  · exact forwards.asked inv rfl found
      (.rangeQuery entry.db ((t.kvReadOptionsHash key).getD none) options key.pid left) rfl rfl rfl
  · exact forwards.asked inv requested found call rfl rfl calls

theorem Forwards.run : ∀ {t final : WorkerTables} {done commands : List Command},
    S.handlers.run t commands = some final → t.Consistent → Forwards done t →
      Forwards (done ++ commands) final
  | _, _, _, [], ran, _, forwards => by cases ran; rwa [List.append_nil]
  | _, _, _, _ :: _, ran, inv, forwards => by
      obtain ⟨⟨_, _⟩, handled, ran⟩ := Option.bind_eq_some.mp ran
      rw [← List.singleton_append, ← List.append_assoc]
      exact Forwards.run ran (inv.respond handled) (forwards.respond inv handled)

end WorkerTables

/-! ## Iterators are used while they live -/

/-- A `Next` call is handed NULL or an iterator an earlier `GetIter` call on the same
database returned and no earlier `DelIter` call released; a `DelIter` call an iterator an
earlier `GetIter` call returned and no earlier `DelIter` call released. -/
def StorageCall.Live (before : List StorageCall) : StorageCall → Prop
  | .next db (some iter) =>
      StorageCall.getIter db iter ∈ before ∧ StorageCall.delIter iter ∉ before
  | .delIter iter =>
      (∃ db, StorageCall.getIter db iter ∈ before) ∧ StorageCall.delIter iter ∉ before
  | _ => True

namespace WorkerTables

variable {t next : WorkerTables} {S : Storage} {command : Command} {response : List UInt8}

/-- Where the iterators of `kvIterHash` come from. -/
structure IterLive (t : WorkerTables) : Prop where
  /-- An entry's iterator came from `GetIter` on the database of the entry's relation, -/
  held_from : ∀ key iter, t.kvIterHash key = some (some iter) →
    ∃ db, t.dbOf key.relationId = some db ∧ StorageCall.getIter db iter ∈ t.calls
  /-- `GetIter` returned iterators below `issued`, -/
  issued_lt : ∀ db iter, StorageCall.getIter db iter ∈ t.calls → iter < t.issued
  /-- and every `Next` and `DelIter` call was handed a live one. -/
  live : Prefixwise StorageCall.Live t.calls

theorem IterLive.init : init.IterLive where
  held_from _ _ := nofun
  issued_lt _ _ := nofun
  live _ _ := nofun

theorem delIter_not_mem_of_held (tidy : t.iterTables.Tidy) {key : IterKey} {iter : Nat}
    (held : t.kvIterHash key = some (some iter)) : StorageCall.delIter iter ∉ t.calls :=
  fun member => tidy.held_live key iter held (List.mem_filterMap.mpr ⟨_, member, rfl⟩)

theorem IterLive.congr (live : t.IterLive) (logged : next.calls = t.calls)
    (iters : next.kvIterHash = t.kvIterHash) (issued : next.issued = t.issued)
    (kept : ∀ relationId db, t.dbOf relationId = some db → next.dbOf relationId = some db) :
    next.IterLive where
  held_from key iter held := by
    obtain ⟨db, found, member⟩ := live.held_from key iter (iters ▸ held)
    exact ⟨db, kept _ _ found, logged ▸ member⟩
  issued_lt db iter member := issued ▸ live.issued_lt db iter (logged ▸ member)
  live := logged ▸ live.live

theorem IterLive.record (live : t.IterLive) {call : StorageCall}
    (logged : next.calls = t.calls ++ [call]) (handed : StorageCall.Live t.calls call)
    (fresh : ∀ db iter, call ≠ .getIter db iter) (iters : next.kvIterHash = t.kvIterHash)
    (issued : next.issued = t.issued)
    (kept : ∀ relationId db, t.dbOf relationId = some db → next.dbOf relationId = some db) :
    next.IterLive where
  held_from key iter held := by
    obtain ⟨db, found, member⟩ := live.held_from key iter (iters ▸ held)
    exact ⟨db, kept _ _ found, logged ▸ List.mem_append_left _ member⟩
  issued_lt db iter member := by
    rw [logged] at member
    rcases List.mem_append.mp member with old | new
    · exact issued ▸ live.issued_lt db iter old
    · exact absurd (List.mem_singleton.mp new).symm (fresh db iter)
  live := logged ▸ live.live.append handed

theorem IterLive.newIter (live : t.IterLive) {key : IterKey} {entry : TableEntry}
    (found : t.kvTableHash key.relationId = some entry) : (t.newIter key entry.db).IterLive where
  held_from other iter held := by
    simp only [newIter_kvIterHash, Function.update_apply] at held
    split_ifs at held with same
    · cases held; subst same
      exact ⟨entry.db, by simp [dbOf, found], by simp⟩
    · obtain ⟨db, known, member⟩ := live.held_from other iter held
      exact ⟨db, known, List.mem_append_left _ member⟩
  issued_lt db iter member := by
    rcases List.mem_append.mp member with old | new
    · exact Nat.lt_succ_of_lt (live.issued_lt db iter old)
    · cases List.mem_singleton.mp new; exact Nat.lt_succ_self _
  live := live.live.append trivial

theorem IterLive.dropIter (live : t.IterLive) (tidy : t.iterTables.Tidy) {key : IterKey}
    {iter : Nat} (held : t.kvIterHash key = some (some iter)) : (t.dropIter key iter).IterLive where
  held_from other released found := by
    simp only [dropIter_kvIterHash, Function.update_apply] at found
    split_ifs at found
    · cases found
    obtain ⟨db, known, member⟩ := live.held_from other released found
    exact ⟨db, known, List.mem_append_left _ member⟩
  issued_lt db released member := by
    rcases List.mem_append.mp member with old | new
    · exact live.issued_lt db released old
    · cases List.mem_singleton.mp new
  live := by
    obtain ⟨db, -, member⟩ := live.held_from key iter held
    exact live.live.append ⟨⟨db, member⟩, delIter_not_mem_of_held tidy held⟩

theorem IterLive.respond (live : t.IterLive) (tidy : t.iterTables.Tidy)
    (handled : S.handlers.respond t command = some (next, response)) : next.IterLive := by
  have kept : ∀ relationId db, t.dbOf relationId = some db → next.dbOf relationId = some db :=
    fun _ _ found => dbOf_respond handled found
  rcases respond_cases handled with
    ⟨_, _, _, _, -, -, -, rfl⟩ | ⟨_, _, _, _, _, -, -, -, rfl⟩ | ⟨_, _, -, -, rfl⟩ |
    ⟨_, _, -, found, rfl⟩ | ⟨_, _, -, held, rfl⟩ | ⟨_, -, -, rfl⟩ |
    ⟨_, key, entry, iter, -, found, held, rfl⟩ | ⟨_, _, _, _, _, -, -, rfl⟩ |
    ⟨_, _, _, call, -, -, -, quiet, rfl⟩
  · exact live.record rfl trivial nofun rfl rfl kept
  · exact live.congr rfl rfl rfl kept
  · exact live.congr rfl rfl rfl kept
  · exact live.newIter found
  · exact live.dropIter tidy held
  · exact live
  · refine live.record rfl ?_ nofun rfl rfl kept
    cases iter with
    | none => trivial
    | some iter =>
        obtain ⟨db, known, member⟩ := live.held_from key iter held
        rw [show db = entry.db by simpa [dbOf, found] using known.symm] at member
        exact ⟨member, delIter_not_mem_of_held tidy held⟩
  · exact live.record rfl trivial nofun rfl rfl kept
  · exact live.record rfl (by cases call <;> trivial) (by rintro _ _ rfl; cases quiet) rfl rfl kept

variable {commands : List Command}

/-- What a run of the handlers from `KVWorkerMain`'s tables keeps, with the commands it
handled. -/
structure Tracked (commands : List Command) (t : WorkerTables) : Prop where
  consistent : t.Consistent
  forwards : Forwards commands t
  tidy : t.iterTables.Tidy
  live : t.IterLive

theorem Tracked.init : Tracked [] init :=
  ⟨Consistent.init, forwards_init, IterTables.Tidy.init fun _ => false, IterLive.init⟩

theorem Tracked.respond (tracked : Tracked commands t)
    (handled : S.handlers.respond t command = some (next, response)) :
    Tracked (commands ++ [command]) next :=
  ⟨tracked.consistent.respond handled, tracked.forwards.respond tracked.consistent handled,
    tidy_respond tracked.tidy handled, tracked.live.respond tracked.tidy handled⟩

end WorkerTables

theorem Reachable.iterLive {n : Nat} {S : Storage} {C : ShmConfig} {pids : Fin n → Nat}
    {s : State n WorkerTables} (reachable : Reachable (S.handlers.protocol C .init) pids s) :
    s.store.IterLive :=
  (reachable.respond_invariant (I := fun t => t.iterTables.Tidy ∧ t.IterLive)
    ⟨IterTables.Tidy.init fun _ => false, WorkerTables.IterLive.init⟩
    fun _ _ _ _ inv handled =>
      ⟨WorkerTables.tidy_respond inv.1 handled, inv.2.respond inv.1 handled⟩).2

section Runs

variable {n : Nat} {S : Storage} {C : ShmConfig} {pids : Fin n → Nat} {s : State n WorkerTables}

/-- The worker sends each relation's requests to that relation's own database: in every
run, the requests the database of a relation's entry got (`Count`, `GetIter`, `Next`,
`Get`, `Put`, `Delete` and `RangeQuery`, with their keys, values, options and processes)
are, in order, those of the commands handled for that relation, and a relation without an
entry has had no such command handled. -/
theorem relation_requests_reach_its_database
    (reachable : Reachable (S.handlers.protocol C .init) pids s) (relationId : Nat) :
    requestsTo Command.request relationId (s.handled.filterMap C.handledCommand) =
      ((s.store.dbOf relationId).map fun db =>
        requestsTo StorageCall.request db s.store.calls).getD [] :=
  WorkerTables.Forwards.run (S.handlers.run_of_replay C .init reachable.replayed)
    WorkerTables.Consistent.init WorkerTables.forwards_init relationId

/-- In the run of `open_count_run`, relation 5's requests reached its database. -/
theorem open_count_forwarded : ∃ s : State 1 WorkerTables,
    Reachable Storage.emptyProtocol (fun _ => 7) s ∧ s.store.relations = [5] ∧
    requestsTo Command.request 5 (s.handled.filterMap Storage.emptyProtocol.handledCommand) =
      ((s.store.dbOf 5).map fun db => requestsTo StorageCall.request db s.store.calls).getD [] := by
  obtain ⟨s, reachable, entered, -⟩ := open_count_run
  exact ⟨s, reachable, entered, relation_requests_reach_its_database reachable 5⟩

/-- The worker hands the engine only live iterators: in every run, each `Next` call is
handed NULL or an iterator that an earlier `GetIter` call on the same database returned
and no earlier `DelIter` call released, and each `DelIter` call an iterator that an
earlier `GetIter` call returned and no earlier `DelIter` call released. -/
theorem iterators_used_while_live (reachable : Reachable (S.handlers.protocol C .init) pids s) :
    (∀ k db iter, s.store.calls[k]? = some (.next db (some iter)) →
      StorageCall.getIter db iter ∈ s.store.calls.take k ∧
        StorageCall.delIter iter ∉ s.store.calls.take k) ∧
    ∀ k iter, s.store.calls[k]? = some (.delIter iter) →
      (∃ db, StorageCall.getIter db iter ∈ s.store.calls.take k) ∧
        StorageCall.delIter iter ∉ s.store.calls.take k :=
  have live := reachable.iterLive.live
  ⟨fun k _ _ found => live k _ found, fun k _ found => live k _ found⟩

/-- The run of `open_getIter_delIter_run` deletes only the iterator it got, while live. -/
theorem getIter_delIter_live : ∃ s : State 1 WorkerTables,
    Reachable Storage.emptyProtocol (fun _ => 7) s ∧
    StorageCall.getIter 0 0 ∈ s.store.calls ∧ StorageCall.delIter 0 ∈ s.store.calls ∧
    (∀ k db iter, s.store.calls[k]? = some (.next db (some iter)) →
      StorageCall.getIter db iter ∈ s.store.calls.take k ∧
        StorageCall.delIter iter ∉ s.store.calls.take k) ∧
    ∀ k iter, s.store.calls[k]? = some (.delIter iter) →
      (∃ db, StorageCall.getIter db iter ∈ s.store.calls.take k) ∧
        StorageCall.delIter iter ∉ s.store.calls.take k := by
  obtain ⟨s, reachable, -, calls⟩ := open_getIter_delIter_run
  have made : ∀ call ∈ [StorageCall.getIter 0 0, .delIter 0], call ∈ s.store.calls :=
    fun call member => List.mem_of_mem_drop (calls ▸ member)
  exact ⟨s, reachable, made _ (by simp), made _ (by simp), iterators_used_while_live reachable⟩

end Runs

end KvFdw.Shm
