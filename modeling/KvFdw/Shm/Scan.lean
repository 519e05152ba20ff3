import KvFdw.Shm.Service

/-!
# A backend's scan

Over an engine whose iterators read a snapshot, each NEXT gets the next record of its
relation as it was at the key's GETITER.
-/

set_option autoImplicit false

namespace KvFdw.Shm

/-! ## A scan as the commands make it -/

/-- A scan of a key: the requests of its relation before its GETITER, and how many records
NEXT has read since. -/
structure Scan where
  snapshot : List DbRequest
  read : Nat
  deriving DecidableEq, Repr

/-- What a command does to the scan of `key`, given the requests of the key's relation
before it: GETITER of the key starts a scan of those, NEXT of the key reads one more
record, and DELITER of the key ends the scan, leaving NULL. -/
def Command.scan (key : IterKey) (requests : List DbRequest) (scan : Option (Option Scan)) :
    Command → Option (Option Scan)
  | .getIterResponse other => if other = key then some (some ⟨requests, 0⟩) else scan
  | .nextResponse _ other =>
      if other = key then scan.map (Option.map fun scan => ⟨scan.snapshot, scan.read + 1⟩)
      else scan
  | .delIterResponse other => if other = key then scan.map fun _ => none else scan
  | _ => scan

/-- A command's step on the requests of the key's relation and on its scan. -/
def Command.scanStep (key : IterKey) (state : List DbRequest × Option (Option Scan))
    (command : Command) : List DbRequest × Option (Option Scan) :=
  (state.1 ++ requestsTo Command.request key.relationId [command], command.scan key state.1 state.2)

/-- The scan of `key` after the commands: `none` before the key's first GETITER, as its
entry is, and NULL once a DELITER ended it. -/
def scanAfter (key : IterKey) (commands : List Command) : Option (Option Scan) :=
  (commands.foldl (Command.scanStep key) ([], none)).2

theorem foldl_scanStep_fst (key : IterKey) :
    ∀ (state : List DbRequest × Option (Option Scan)) (commands : List Command),
      (commands.foldl (Command.scanStep key) state).1 =
        state.1 ++ requestsTo Command.request key.relationId commands
  | _, [] => by simp [requestsTo]
  | state, command :: commands => by
      rw [List.foldl_cons, foldl_scanStep_fst key _ commands]
      simp only [Command.scanStep, List.append_assoc, ← requestsTo_append, List.singleton_append]

@[simp] theorem scanAfter_nil (key : IterKey) : scanAfter key [] = none := rfl

theorem scanAfter_concat (key : IterKey) (commands : List Command) (command : Command) :
    scanAfter key (commands ++ [command]) =
      command.scan key (requestsTo Command.request key.relationId commands)
        (scanAfter key commands) := by
  simp only [scanAfter, List.foldl_concat, Command.scanStep, foldl_scanStep_fst, List.nil_append]

theorem Command.scan_of_quiet {command : Command} {call : StorageCall} {relationId db : Nat}
    {request : DbRequest} (requested : command.request = some (relationId, request))
    (calls : call.request = some (db, request)) (quiet : call.quiet = true) (key : IterKey)
    (requests : List DbRequest) (scan : Option (Option Scan)) :
    command.scan key requests scan = scan := by
  cases command <;> try rfl
  all_goals simp only [Command.request, Option.some.injEq, Prod.mk.injEq, reduceCtorEq] at requested
  all_goals
    obtain ⟨-, rfl⟩ := requested
    cases call <;> simp_all [StorageCall.request, StorageCall.quiet]

/-! ## What the iterators read -/

namespace WorkerTables

variable {S : Storage} {t next : WorkerTables} {command : Command} {response : List UInt8}
  {commands : List Command}

/-- The iterator of a scan in the tables: the key's entry holds it, `GetIter` returned it
on the database of the key's relation after the requests of the scan's snapshot, and
`Next` has been handed it once per record read. -/
def ScanHeld (t : WorkerTables) (key : IterKey) (scan : Scan) : Prop :=
  ∃ iter db before after, t.kvIterHash key = some (some iter) ∧
    t.dbOf key.relationId = some db ∧ t.calls = before ++ .getIter db iter :: after ∧
    StorageCall.getIter db iter ∉ before ∧ requestsTo StorageCall.request db before = scan.snapshot ∧
    after.count (.next db (some iter)) = scan.read

/-- Every scan of the commands that has not ended has its iterator in the tables. -/
def Scanning (commands : List Command) (t : WorkerTables) : Prop :=
  ∀ key scan, scanAfter key commands = some (some scan) → t.ScanHeld key scan

theorem scanning_init : Scanning [] init := fun _ _ scanned => by cases scanned

theorem ScanHeld.keep {key : IterKey} {scan : Scan} (held : t.ScanHeld key scan)
    (iters : next.kvIterHash key = t.kvIterHash key)
    (dbs : ∀ db, t.dbOf key.relationId = some db → next.dbOf key.relationId = some db)
    (added : List StorageCall) (logged : next.calls = t.calls ++ added)
    (untouched : ∀ db iter, t.kvIterHash key = some (some iter) →
      added.count (.next db (some iter)) = 0) : next.ScanHeld key scan := by
  obtain ⟨iter, db, before, after, holds, found, calls, fresh, snapshot, reads⟩ := held
  refine ⟨iter, db, before, after ++ added, iters.trans holds, dbs db found, ?_, fresh, snapshot, ?_⟩
  · rw [logged, calls, List.append_assoc, List.cons_append]
  · rw [List.count_append, untouched db iter holds, reads, Nat.add_zero]

theorem count_next_of_quiet {call : StorageCall} (quiet : call.quiet = true) (db : Nat)
    (iter : Option Nat) : [call].count (.next db iter) = 0 := by
  cases call <;> simp_all [StorageCall.quiet]

theorem Scanning.respond (tracked : Tracked commands t) (scanning : Scanning commands t)
    (handled : S.handlers.respond t command = some (next, response)) :
    Scanning (commands ++ [command]) next := by
  intro key scan scanned
  rw [scanAfter_concat] at scanned
  have dbs : ∀ db, t.dbOf key.relationId = some db → next.dbOf key.relationId = some db :=
    fun _ found => dbOf_respond handled found
  rcases respond_cases handled with
    ⟨_, _, _, _, rfl, -, -, rfl⟩ | ⟨_, _, _, _, _, rfl, -, -, rfl⟩ | ⟨_, _, rfl, -, rfl⟩ |
    ⟨other, entry, rfl, found, rfl⟩ | ⟨other, iter, rfl, -, rfl⟩ | ⟨other, rfl, -, rfl⟩ |
    ⟨_, other, entry, iter, rfl, found, held, rfl⟩ | ⟨_, _, _, _, _, rfl, -, rfl⟩ |
    ⟨_, _, _, call, requested, -, calls, quiet, rfl⟩
  · exact (scanning key scan scanned).keep rfl dbs _ rfl fun _ _ _ => by simp
  · exact (scanning key scan scanned).keep rfl dbs [] (List.append_nil _).symm fun _ _ _ => rfl
  · exact (scanning key scan scanned).keep rfl dbs [] (List.append_nil _).symm fun _ _ _ => rfl
  · by_cases same : other = key
    · subst same
      simp only [Command.scan, ↓reduceIte, Option.some.injEq] at scanned
      subst scanned
      exact ⟨t.issued, entry.db, t.calls, [], by simp, by simp [dbOf, found], by simp,
        fun member => lt_irrefl _ (tracked.live.issued_lt _ _ member),
        (tracked.forwards.requests_of_entry found).symm, rfl⟩
    · simp only [Command.scan, if_neg same] at scanned
      exact (scanning key scan scanned).keep (by simp [Function.update_noteq (Ne.symm same)])
        dbs _ rfl fun _ _ _ => by simp
  · by_cases same : other = key
    · subst same
      cases scanAfter other commands <;> simp [Command.scan] at scanned
    · simp only [Command.scan, if_neg same] at scanned
      exact (scanning key scan scanned).keep (by simp [Function.update_noteq (Ne.symm same)])
        dbs _ rfl fun _ _ _ => by simp
  · by_cases same : other = key
    · subst same
      cases scanAfter other commands <;> simp [Command.scan] at scanned
    · simp only [Command.scan, if_neg same] at scanned
      exact scanning key scan scanned
  · by_cases same : other = key
    · subst same
      simp only [Command.scan, ↓reduceIte] at scanned
      obtain ⟨_, live, bumped⟩ := Option.map_eq_some'.mp scanned
      obtain ⟨earlier, rfl, rfl⟩ := Option.map_eq_some'.mp bumped
      obtain ⟨iter', db, before, after, holds, known, calls, fresh, snapshot, reads⟩ :=
        scanning other earlier live
      obtain rfl : iter = some iter' := Option.some_injective _ (held.symm.trans holds)
      obtain rfl : db = entry.db := by simpa [dbOf, found] using known.symm
      exact ⟨iter', entry.db, before, after ++ [.next entry.db (some iter')], holds, known,
        by simp [calls], fresh, snapshot, by simp [reads]⟩
    · simp only [Command.scan, if_neg same] at scanned
      refine (scanning key scan scanned).keep rfl dbs _ rfl fun db iter' holds => ?_
      have distinct : StorageCall.next entry.db iter ≠ .next db (some iter') := by
        rintro ⟨⟨⟩, ⟨⟩⟩
        exact same (tracked.tidy.held_unique other key iter' held holds)
      simp [List.count_singleton, distinct]
  · exact (scanning key scan scanned).keep (by simp) dbs _ rfl fun _ _ _ => by simp
  · rw [Command.scan_of_quiet requested calls quiet] at scanned
    exact (scanning key scan scanned).keep rfl dbs _ rfl
      fun db iter' _ => count_next_of_quiet quiet db (some iter')

end WorkerTables

section Runs

variable {n : Nat} {S : Storage} {C : ShmConfig} {pids : Fin n → Nat} {s : State n WorkerTables}

/-- In every run, every scan that the handled commands started and did not end has its
iterator in the worker's tables: the key's `kvIterHash` entry holds the iterator that the
`GetIter` call of the scan's GETITER returned on the database of the key's relation, and
`Next` has been handed it once per NEXT of the key since. -/
theorem Reachable.scanning (reachable : Reachable (S.handlers.protocol C .init) pids s) :
    WorkerTables.Scanning (s.handled.filterMap C.handledCommand) s.store := by
  have held := S.handlers.runAnswers_end
    (I := fun done t => WorkerTables.Tracked done t ∧ WorkerTables.Scanning done t)
    (fun _ _ _ _ _ holds handled => ⟨holds.1.respond handled, holds.2.respond holds.1 handled⟩)
    reachable.runAnswers ⟨.init, WorkerTables.scanning_init⟩
  rw [List.nil_append] at held
  exact held.2

end Runs

end KvFdw.Shm
