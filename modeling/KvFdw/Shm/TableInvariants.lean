import KvFdw.Shm.Tables

/-!
# The kv worker's tables over every run

`WorkerTables.Consistent`, kept by every handler and so true of the worker in every run.
-/

set_option autoImplicit false

namespace KvFdw.Shm

/-! ## Properties of the calls -/

/-- A property of every call together with the calls made before it. -/
def Prefixwise (P : List StorageCall → StorageCall → Prop) (calls : List StorageCall) : Prop :=
  ∀ k call, calls[k]? = some call → P (calls.take k) call

theorem Prefixwise.append {P : List StorageCall → StorageCall → Prop} {calls : List StorageCall}
    {call : StorageCall} (holds : Prefixwise P calls) (last : P calls call) :
    Prefixwise P (calls ++ [call]) := by
  intro k found member
  rcases getElem?_concat_eq_some member with old | ⟨rfl, rfl⟩
  · rw [List.take_append_of_le_length (List.getElem?_eq_some_iff.mp old).1.le]
    exact holds k found old
  · rw [List.take_left' rfl]
    exact last

/-- A call is handed only a database an `Open` call before it returned. -/
def StorageCall.AfterOpen (before : List StorageCall) (call : StorageCall) : Prop :=
  ∀ db, call.handedDb = some db →
    ∃ path useColumn attrCount, StorageCall.open db path useColumn attrCount ∈ before

/-- A `RangeQuery` call is handed the `readOptions` the last call on its database for its
process left, NULL at the first. -/
def StorageCall.Threaded (before : List StorageCall) : StorageCall → Prop
  | .rangeQuery db readOptions _ pid _ => readOptions = leftOptions db pid before
  | _ => True

/-- The calls that neither open nor close a database nor run a range query. -/
def StorageCall.plain : StorageCall → Bool
  | .count _ | .getIter .. | .delIter _ | .next .. | .get .. | .put .. | .delete .. => true
  | _ => false

theorem StorageCall.plain_of_quiet {call : StorageCall} (quiet : call.quiet = true) :
    call.plain = true := by
  cases call <;> simp_all [StorageCall.quiet, StorageCall.plain]

theorem StorageCall.leaves_of_plain {call : StorageCall} (plain : call.plain = true)
    (db pid : Nat) (left : Option Nat) : call.leaves db pid left = left := by
  cases call <;> simp_all [StorageCall.plain, StorageCall.leaves]

theorem StorageCall.leaves_of_handedDb_ne {call : StorageCall} {db : Nat}
    (other : call.handedDb ≠ some db) (pid : Nat) (left : Option Nat) :
    call.leaves db pid left = left := by
  cases call <;> simp_all [StorageCall.handedDb, StorageCall.leaves]

theorem leftOptions_of_unhanded {db : Nat} (pid : Nat) :
    ∀ {calls : List StorageCall}, (∀ call ∈ calls, call.handedDb ≠ some db) →
      leftOptions db pid calls = none := by
  intro calls
  induction calls using List.reverseRecOn with
  | nil => intro _; rfl
  | append_singleton calls call ih =>
      intro unhanded
      rw [leftOptions_append_singleton, StorageCall.leaves_of_handedDb_ne
        (unhanded call (List.mem_append_right _ (List.mem_singleton_self _))),
        ih fun other member => unhanded other (List.mem_append_left _ member)]

namespace WorkerTables

/-! ## What the handlers keep true -/

/-- The tables and the calls as the handlers leave them. -/
structure Consistent (t : WorkerTables) : Prop where
  /-- `HASH_ENTER` adds each relation once, -/
  relations_nodup : t.relations.Nodup
  /-- and each relation added has an entry, -/
  entered : ∀ relationId ∈ t.relations, ∃ db, t.dbOf relationId = some db
  /-- whose database is numbered by the relation's place. -/
  db_index : ∀ relationId db, t.dbOf relationId = some db → t.relations[db]? = some relationId
  opened_eq : t.relations.length = t.opened
  /-- The `Open` calls returned databases `0, 1, …` in order, -/
  open_dbs : t.calls.filterMap StorageCall.openedDb = List.range t.opened
  /-- each for a path naming the relation of that place. -/
  open_paths : ∀ db path useColumn attrCount, StorageCall.open db path useColumn attrCount ∈ t.calls →
    ∃ relationId, pathRelationId path = some relationId ∧ t.relations[db]? = some relationId
  after_open : Prefixwise StorageCall.AfterOpen t.calls
  no_close : ∀ db, StorageCall.close db ∉ t.calls
  threaded : Prefixwise StorageCall.Threaded t.calls
  /-- The entries of `kvReadOptionsHash` hold what the last `RangeQuery` call left, -/
  options_left : ∀ key db, t.dbOf key.relationId = some db →
    (t.kvReadOptionsHash key).getD none = leftOptions db key.pid t.calls
  /-- and there are none for a relation without an entry. -/
  options_unentered : ∀ key, t.dbOf key.relationId = none → t.kvReadOptionsHash key = none

theorem Consistent.init : init.Consistent where
  relations_nodup := List.nodup_nil
  entered _ := nofun
  db_index _ _ := nofun
  opened_eq := rfl
  open_dbs := rfl
  open_paths _ _ _ _ := nofun
  after_open _ _ := nofun
  no_close _ := nofun
  threaded _ _ := nofun
  options_left _ _ := nofun
  options_unentered _ _ := rfl

variable {t : WorkerTables}

theorem Consistent.open_mem (inv : t.Consistent) {relationId db : Nat}
    (found : t.dbOf relationId = some db) :
    ∃ path useColumn attrCount, StorageCall.open db path useColumn attrCount ∈ t.calls := by
  have below : db < t.opened :=
    inv.opened_eq ▸ (List.getElem?_eq_some_iff.mp (inv.db_index _ _ found)).1
  have listed : db ∈ t.calls.filterMap StorageCall.openedDb := by
    rw [inv.open_dbs]; exact List.mem_range.mpr below
  obtain ⟨call, member, opened⟩ := List.mem_filterMap.mp listed
  cases call <;> simp only [StorageCall.openedDb, Option.some.injEq, reduceCtorEq] at opened
  exact ⟨_, _, _, opened ▸ member⟩

theorem Consistent.handed_lt (inv : t.Consistent) {call : StorageCall} (member : call ∈ t.calls)
    {db : Nat} (handed : call.handedDb = some db) : db < t.opened := by
  obtain ⟨k, found⟩ := List.mem_iff_getElem?.mp member
  obtain ⟨path, useColumn, attrCount, opened⟩ := inv.after_open k call found db handed
  have listed : db ∈ t.calls.filterMap StorageCall.openedDb :=
    List.mem_filterMap.mpr ⟨_, List.mem_of_mem_take opened, rfl⟩
  rw [inv.open_dbs] at listed
  exact List.mem_range.mp listed

theorem Consistent.congr (inv : t.Consistent) {next : WorkerTables}
    (relations : next.relations = t.relations) (dbOf : next.dbOf = t.dbOf)
    (opened : next.opened = t.opened) (calls : next.calls = t.calls)
    (options : next.kvReadOptionsHash = t.kvReadOptionsHash) : next.Consistent := by
  obtain ⟨_, _, _, _, _, _, _, _, _, _, _⟩ := inv
  constructor <;> simp only [relations, dbOf, opened, calls, options] <;> assumption

theorem Consistent.record (inv : t.Consistent) (call : StorageCall) (plain : call.plain = true)
    (handed : ∀ db, call.handedDb = some db → ∃ relationId, t.dbOf relationId = some db) :
    (t.record call).Consistent where
  relations_nodup := inv.relations_nodup
  entered := inv.entered
  db_index := inv.db_index
  opened_eq := inv.opened_eq
  open_dbs := by
    cases call <;> simp_all [StorageCall.plain, StorageCall.openedDb, inv.open_dbs]
  open_paths db path useColumn attrCount member := by
    rcases List.mem_append.mp member with old | new
    · exact inv.open_paths db path useColumn attrCount old
    · rw [← List.mem_singleton.mp new] at plain; cases plain
  after_open := inv.after_open.append fun db given => by
    obtain ⟨relationId, found⟩ := handed db given
    exact inv.open_mem found
  no_close db member := by
    rcases List.mem_append.mp member with old | new
    · exact inv.no_close db old
    · rw [← List.mem_singleton.mp new] at plain; cases plain
  threaded := inv.threaded.append (by cases call <;> simp_all [StorageCall.plain, StorageCall.Threaded])
  options_left key db found := by
    rw [record_calls, leftOptions_append_singleton, StorageCall.leaves_of_plain plain]
    exact inv.options_left key db found
  options_unentered := inv.options_unentered

theorem dbOf_enter (t : WorkerTables) (relationId : Nat) (path : List UInt8) (useColumn : Bool)
    (attrCount : Int) (other : Nat) :
    (t.enter relationId path useColumn attrCount).dbOf other =
      if other = relationId then some t.opened else t.dbOf other := by
  simp only [dbOf, enter_kvTableHash, Function.update_apply]
  split_ifs <;> rfl

theorem dbOf_setRef {relationId : Nat} {entry : TableEntry}
    (found : t.kvTableHash relationId = some entry) (ref : Nat) :
    (t.setRef relationId entry ref).dbOf = t.dbOf := by
  funext other
  simp only [dbOf, setRef_kvTableHash, Function.update_apply]
  split_ifs with same
  · subst same; simp [found]
  · rfl

theorem Consistent.setRef (inv : t.Consistent) {relationId : Nat} {entry : TableEntry}
    (found : t.kvTableHash relationId = some entry) (ref : Nat) :
    (t.setRef relationId entry ref).Consistent :=
  inv.congr rfl (dbOf_setRef found ref) rfl rfl rfl

theorem Consistent.newIter (inv : t.Consistent) {key : IterKey} {entry : TableEntry}
    (found : t.kvTableHash key.relationId = some entry) : (t.newIter key entry.db).Consistent :=
  (inv.record (.getIter entry.db t.issued) rfl fun _ handed =>
    ⟨key.relationId, by cases handed; simp [dbOf, found]⟩).congr rfl rfl rfl rfl rfl

theorem Consistent.dropIter (inv : t.Consistent) (key : IterKey) (iter : Nat) :
    (t.dropIter key iter).Consistent :=
  (inv.record (.delIter iter) rfl nofun).congr rfl rfl rfl rfl rfl

theorem Consistent.enter (inv : t.Consistent) {relationId : Nat} {path : List UInt8}
    (useColumn : Bool) (attrCount : Int) (named : pathRelationId path = some relationId)
    (absent : t.kvTableHash relationId = none) :
    (t.enter relationId path useColumn attrCount).Consistent := by
  have unentered : relationId ∉ t.relations := fun member => by
    obtain ⟨db, found⟩ := inv.entered relationId member
    simp [dbOf, absent] at found
  have place : (t.relations ++ [relationId])[t.opened]? = some relationId :=
    inv.opened_eq ▸ List.getElem?_concat_length _ _
  have fresh : ∀ pid, leftOptions t.opened pid t.calls = none := fun pid =>
    leftOptions_of_unhanded pid fun _ member handed =>
      absurd (inv.handed_lt member handed) (lt_irrefl _)
  constructor
  case relations_nodup =>
    exact List.nodup_append.mpr ⟨inv.relations_nodup, List.nodup_singleton _,
      List.disjoint_singleton.mpr unentered⟩
  case entered =>
    intro other member
    rw [dbOf_enter]
    split_ifs with same
    · exact ⟨_, rfl⟩
    · rcases List.mem_append.mp member with old | new
      · exact inv.entered other old
      · exact absurd (List.mem_singleton.mp new) same
  case db_index =>
    intro other db found
    rw [dbOf_enter] at found
    split_ifs at found with same
    · cases found; subst same; exact place
    · exact getElem?_append_of_eq_some (inv.db_index other db found) _
  case opened_eq => simp [inv.opened_eq]
  case open_dbs => simp [StorageCall.openedDb, inv.open_dbs, List.range_succ]
  case open_paths =>
    intro db other useColumn' attrCount' member
    rcases List.mem_append.mp member with old | new
    · obtain ⟨named', name, placed⟩ := inv.open_paths db other useColumn' attrCount' old
      exact ⟨named', name, getElem?_append_of_eq_some placed _⟩
    · obtain ⟨rfl, rfl, -, -⟩ := StorageCall.open.inj (List.mem_singleton.mp new)
      exact ⟨relationId, named, place⟩
  case after_open => exact inv.after_open.append nofun
  case no_close =>
    intro db member
    rcases List.mem_append.mp member with old | new
    · exact inv.no_close db old
    · cases List.mem_singleton.mp new
  case threaded => exact inv.threaded.append trivial
  case options_left =>
    intro key db found
    rw [dbOf_enter] at found
    rw [enter_calls, record_calls, leftOptions_append_singleton]
    change (t.kvReadOptionsHash key).getD none = _
    split_ifs at found with same
    · cases found
      rw [inv.options_unentered key (by simp [dbOf, same, absent]), fresh]
      rfl
    · exact inv.options_left key db found
  case options_unentered =>
    intro key unentered'
    rw [dbOf_enter] at unentered'
    by_cases same : key.relationId = relationId
    · rw [if_pos same] at unentered'; cases unentered'
    · rw [if_neg same] at unentered'; exact inv.options_unentered key unentered'

theorem Consistent.rangeQueried (inv : t.Consistent) {key : IterKey} {entry : TableEntry}
    (found : t.kvTableHash key.relationId = some entry) (options : DecodedOptions)
    (left : Option Nat) :
    (t.rangeQueried key entry.db ((t.kvReadOptionsHash key).getD none) options left).Consistent := by
  have entered : t.dbOf key.relationId = some entry.db := by simp [dbOf, found]
  have sameKey : ∀ other : IterKey, t.dbOf other.relationId = some entry.db →
      other.pid = key.pid → other = key := fun other found' samePid => by
    have relation := (inv.db_index _ _ found').symm.trans (inv.db_index _ _ entered)
    cases other; cases key
    simp_all
  constructor
  case relations_nodup => exact inv.relations_nodup
  case entered => exact inv.entered
  case db_index => exact inv.db_index
  case opened_eq => exact inv.opened_eq
  case open_dbs => simp [StorageCall.openedDb, inv.open_dbs]
  case open_paths =>
    intro db path useColumn attrCount member
    rcases List.mem_append.mp member with old | new
    · exact inv.open_paths db path useColumn attrCount old
    · cases List.mem_singleton.mp new
  case after_open =>
    exact inv.after_open.append fun db handed => by cases handed; exact inv.open_mem entered
  case no_close =>
    intro db member
    rcases List.mem_append.mp member with old | new
    · exact inv.no_close db old
    · cases List.mem_singleton.mp new
  case threaded => exact inv.threaded.append (inv.options_left key entry.db entered)
  case options_left =>
    intro other db found'
    change t.dbOf other.relationId = some db at found'
    rw [rangeQueried_kvReadOptionsHash, rangeQueried_calls, record_calls,
      leftOptions_append_singleton]
    simp only [Function.update_apply, StorageCall.leaves]
    by_cases same : other = key
    · subst same
      rw [entered] at found'
      cases found'
      simp
    · rw [if_neg same, if_neg fun (both : entry.db = db ∧ key.pid = other.pid) =>
        same (sameKey other (both.1 ▸ found') both.2.symm)]
      exact inv.options_left other db found'
  case options_unentered =>
    intro other unentered
    change t.dbOf other.relationId = none at unentered
    have distinct : other ≠ key := fun same => by rw [same, entered] at unentered; cases unentered
    simp only [rangeQueried_kvReadOptionsHash, Function.update_apply, if_neg distinct]
    exact inv.options_unentered other unentered

variable {S : Storage} {command : Command} {next : WorkerTables} {response : List UInt8}

theorem Consistent.respond (inv : t.Consistent)
    (handled : S.handlers.respond t command = some (next, response)) : next.Consistent := by
  rcases respond_cases handled with
    ⟨relationId, useColumn, attrCount, path, -, named, absent, rfl⟩ |
    ⟨relationId, -, -, -, entry, -, -, found, rfl⟩ | ⟨relationId, entry, -, found, rfl⟩ |
    ⟨key, entry, -, found, rfl⟩ | ⟨key, iter, -, -, rfl⟩ | ⟨-, -, -, rfl⟩ |
    ⟨-, key, entry, iter, -, found, -, rfl⟩ | ⟨-, key, options, entry, left, -, found, rfl⟩ |
    ⟨relationId, _, entry, call, -, found, requested, quiet, rfl⟩
  · exact inv.enter useColumn attrCount named absent
  · exact inv.setRef found _
  · exact inv.setRef found _
  · exact inv.newIter found
  · exact inv.dropIter key iter
  · exact inv
  · exact inv.record (.next entry.db iter) rfl fun _ handed =>
      ⟨key.relationId, by cases handed; simp [dbOf, found]⟩
  · exact inv.rangeQueried found options left
  · exact inv.record _ (StorageCall.plain_of_quiet quiet) fun db given =>
      ⟨relationId, by
        rw [StorageCall.handedDb_of_request requested] at given; cases given; simp [dbOf, found]⟩

end WorkerTables

/-- In every run of the kv_shm.c handlers, the worker's tables are consistent. -/
theorem Reachable.consistent {n : Nat} {S : Storage} {C : ShmConfig} {pids : Fin n → Nat}
    {s : State n WorkerTables} (reachable : Reachable (S.handlers.protocol C .init) pids s) :
    s.store.Consistent :=
  reachable.respond_invariant .init fun _ _ _ _ inv handled => inv.respond handled

end KvFdw.Shm
