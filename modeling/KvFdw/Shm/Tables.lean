import KvFdw.Shm.Replay
import Mathlib.Data.Nat.Digits

/-!
# The kv worker's tables

`kvTableHash`, `kvIterHash` and `kvReadOptionsHash`, the handlers over them, and the log
of the storage calls they make.
-/

set_option autoImplicit false

namespace KvFdw.Shm

/-! ## The relation a path names -/

/-- `isspace` in the C locale. -/
def isSpace (byte : UInt8) : Bool :=
  byte.toNat == 32 || (9 ≤ byte.toNat && byte.toNat ≤ 13)

/-- `isdigit`. -/
def isDigit (byte : UInt8) : Bool :=
  48 ≤ byte.toNat && byte.toNat ≤ 57

/-- The value of the decimal digits at the start of a string. -/
def decimalValue (s : List UInt8) : Nat :=
  (s.takeWhile isDigit).foldl (fun value digit => 10 * value + (digit.toNat - 48)) 0

/-- `strtol(s, NULL, 10)`: white space, an optional sign, then decimal digits, the value
clamped to a `long`. -/
def strtol (s : List UInt8) : Int :=
  let rest := s.dropWhile isSpace
  let value : Int :=
    if rest.head? = some 45 then -(decimalValue rest.tail : Int)
    else if rest.head? = some 43 then decimalValue rest.tail
    else decimalValue rest
  max (-2 ^ 63) (min value (2 ^ 63 - 1))

/-- glibc's `atoi`: `(int) strtol(s, NULL, 10)`, the `long` cut to 32 bits. -/
def atoi (s : List UInt8) : Int :=
  (strtol s + 2 ^ 31) % 2 ^ 32 - 2 ^ 31

/-- `Oid relationId = atoi(pos + 1)` in `OpenResponse`, where `pos = strrchr(path, '/')`.
A path without `/` makes `strrchr` return NULL and `atoi` read address 1, which the model
takes as the handler failing. -/
def pathRelationId (path : List UInt8) : Option Nat :=
  if (47 : UInt8) ∈ path then
    some (atoi (path.reverse.takeWhile (· != 47)).reverse % 2 ^ 32).toNat
  else none

/-- The decimal digits `%u` writes for a number. -/
def decimalDigits (value : Nat) : List UInt8 :=
  if value = 0 then [48] else (Nat.digits 10 value).reverse.map fun digit => (48 + digit).toUInt8

theorem toNat_decimalDigit {digit : Nat} (small : digit < 10) : (48 + digit).toUInt8.toNat = 48 + digit :=
  UInt8.toNat_ofNat_of_lt (by unfold UInt8.size; omega)

theorem decimalDigits_isDigit (value : Nat) :
    ∀ byte ∈ decimalDigits value, 48 ≤ byte.toNat ∧ byte.toNat ≤ 57 := by
  unfold decimalDigits
  split_ifs
  · intro byte member
    rw [List.mem_singleton.mp member]
    decide
  · simp only [List.mem_map, List.mem_reverse, forall_exists_index, and_imp]
    rintro _ digit member rfl
    rw [toNat_decimalDigit (Nat.digits_lt_base (by norm_num) member)]
    have := Nat.digits_lt_base (by norm_num) member
    omega

theorem foldr_decimalDigit : ∀ digits : List Nat, (∀ digit ∈ digits, digit < 10) →
    digits.foldr (fun digit value => 10 * value + ((48 + digit).toUInt8.toNat - 48)) 0 =
      Nat.ofDigits 10 digits
  | [], _ => rfl
  | digit :: rest, small => by
      rw [List.foldr_cons, Nat.ofDigits_cons,
        foldr_decimalDigit rest fun other member => small other (List.mem_cons_of_mem _ member),
        toNat_decimalDigit (small digit (List.mem_cons_self _ _))]
      omega

theorem decimalValue_decimalDigits (value : Nat) : decimalValue (decimalDigits value) = value := by
  rw [decimalValue, List.takeWhile_eq_self_iff.mpr fun byte member => by
    simpa [isDigit] using decimalDigits_isDigit value byte member]
  unfold decimalDigits
  split_ifs with zero
  · subst zero; rfl
  · rw [List.foldl_map, List.foldl_reverse, foldr_decimalDigit _ fun digit member =>
      Nat.digits_lt_base (by norm_num) member, Nat.ofDigits_digits]

/-- `OpenResponse` takes the relation a path names from what follows its last `/`: a path
that ends in `/` and the decimal digits of an `Oid` names that relation, whatever
directory comes before. -/
theorem pathRelationId_decimal (directory : List UInt8) {relationId : Nat}
    (small : relationId < 2 ^ 32) :
    pathRelationId (directory ++ 47 :: decimalDigits relationId) = some relationId := by
  have bounds := decimalDigits_isDigit relationId
  have noSlash : ∀ byte ∈ (decimalDigits relationId).reverse, (byte != 47) = true :=
    fun byte member => by
      have := bounds byte (List.mem_reverse.mp member)
      simp only [bne_iff_ne, ne_eq]
      rintro rfl
      exact absurd this.1 (by decide)
  have suffix : ((directory ++ 47 :: decimalDigits relationId).reverse.takeWhile (· != 47)).reverse =
      decimalDigits relationId := by
    rw [List.reverse_append, List.reverse_cons, List.append_assoc,
      List.takeWhile_append_of_pos noSlash]
    simp
  obtain ⟨first, rest, split⟩ : ∃ first rest, decimalDigits relationId = first :: rest := by
    unfold decimalDigits
    split_ifs with zero
    · exact ⟨48, [], rfl⟩
    · cases digits : (Nat.digits 10 relationId).reverse with
      | nil => simp_all [Nat.digits_eq_nil_iff_eq_zero]
      | cons digit others => exact ⟨_, _, rfl⟩
  have firstBounds := bounds first (split ▸ List.mem_cons_self _ _)
  have value := decimalValue_decimalDigits relationId
  have notSpace : isSpace first = false := by
    simp only [isSpace, Bool.or_eq_false_iff, beq_eq_false_iff_ne, Bool.and_eq_false_iff,
      decide_eq_false_iff_not]
    omega
  have notMinus : first ≠ 45 := fun same => by rw [same] at firstBounds; exact absurd firstBounds.1 (by decide)
  have notPlus : first ≠ 43 := fun same => by rw [same] at firstBounds; exact absurd firstBounds.1 (by decide)
  have dropped : (first :: rest).dropWhile isSpace = first :: rest :=
    List.dropWhile_cons_of_neg (by simp [notSpace])
  rw [split] at suffix value ⊢
  simp only [pathRelationId, List.mem_append, List.mem_cons, true_or, or_true, if_true, suffix,
    atoi, strtol, dropped, List.head?_cons, Option.some.injEq, notMinus, notPlus, if_false, value]
  omega

/-- The path "/kv/16385" names relation 16385. -/
theorem kv_path_names_relation :
    16385 < 2 ^ 32 ∧ pathRelationId ([47, 107, 118] ++ 47 :: decimalDigits 16385) = some 16385 :=
  ⟨by decide, pathRelationId_decimal [47, 107, 118] (by decide)⟩

/-! ## The storage engine -/

/-- A call of the storage engine, with the handles the worker passes it: databases and
iterators by number, `readOptions` by the engine's own handle, `none` for NULL. An
`«open»` call records the database it returned, and a `rangeQuery` call the
`readOptions` it left. -/
inductive StorageCall
  | «open» (db : Nat) (path : List UInt8) (useColumn : Bool) (attrCount : Int)
  | close (db : Nat)
  | count (db : Nat)
  | getIter (db iter : Nat)
  | delIter (iter : Nat)
  | next (db : Nat) (iter : Option Nat)
  | get (db : Nat) (key : List UInt8)
  | put (db : Nat) (key val : List UInt8)
  | delete (db : Nat) (key : List UInt8)
  | rangeQuery (db : Nat) (readOptions : Option Nat) (options : DecodedOptions) (pid : Nat)
      (left : Option Nat)
  deriving DecidableEq, Repr

/-- The database a call is handed. -/
def StorageCall.handedDb : StorageCall → Option Nat
  | .close db | .count db | .getIter db _ | .next db _ | .get db _ | .put db _ _ | .delete db _
  | .rangeQuery db .. => some db
  | .«open» .. | .delIter _ => none

/-- The database an `Open` call returned. -/
def StorageCall.openedDb : StorageCall → Option Nat
  | .«open» db .. => some db
  | _ => none

/-- The iterator a `DelIter` call released. -/
def StorageCall.releasedIter : StorageCall → Option Nat
  | .delIter iter => some iter
  | _ => none

/-- The iterator, NULL or not, a `Next` call advanced. -/
def StorageCall.advancedIter : StorageCall → Option (Option Nat)
  | .next _ iter => some iter
  | _ => none

/-- The calls whose handler changes no table and hands the engine no iterator: `Count`,
`Get`, `Put` and `Delete`. -/
def StorageCall.quiet : StorageCall → Bool
  | .count _ | .get .. | .put .. | .delete .. => true
  | _ => false

/-- The `readOptions` a call leaves for the scans of `pid` on `db`, given those the calls
before it left. -/
def StorageCall.leaves (db pid : Nat) (left : Option Nat) : StorageCall → Option Nat
  | .rangeQuery db' _ _ pid' left' => if db' = db ∧ pid' = pid then left' else left
  | _ => left

/-- The `readOptions` the last `RangeQuery` call on `db` for `pid` left, NULL before the
first. -/
def leftOptions (db pid : Nat) (calls : List StorageCall) : Option Nat :=
  calls.foldl (fun left call => call.leaves db pid left) none

@[simp] theorem leftOptions_append_singleton (db pid : Nat) (calls : List StorageCall)
    (call : StorageCall) :
    leftOptions db pid (calls ++ [call]) = call.leaves db pid (leftOptions db pid calls) := by
  simp [leftOptions]

/-- What a handler asks of its relation's database, the handles it passes apart. -/
inductive DbRequest
  | count
  | getIter
  | next
  | get (key : List UInt8)
  | put (key val : List UInt8)
  | delete (key : List UInt8)
  | rangeQuery (options : DecodedOptions) (pid : Nat)
  deriving DecidableEq, Repr

/-- The database a call is made on and what it asks of it; `none` for `Open`, `Close` and
`DelIter`, which ask nothing of a database's records. -/
def StorageCall.request : StorageCall → Option (Nat × DbRequest)
  | .count db => some (db, .count)
  | .getIter db _ => some (db, .getIter)
  | .next db _ => some (db, .next)
  | .get db key => some (db, .get key)
  | .put db key val => some (db, .put key val)
  | .delete db key => some (db, .delete key)
  | .rangeQuery db _ options pid _ => some (db, .rangeQuery options pid)
  | .«open» .. | .close _ | .delIter _ => none

theorem StorageCall.handedDb_of_request {call : StorageCall} {db : Nat} {request : DbRequest}
    (requested : call.request = some (db, request)) : call.handedDb = some db := by
  cases call <;> cases requested <;> rfl

/-- The relation a command is for and what its handler asks of that relation's database;
`none` for OPEN, CLOSE and DELITER. -/
def Command.request : Command → Option (Nat × DbRequest)
  | .countResponse _ relationId => some (relationId, .count)
  | .getIterResponse key => some (key.relationId, .getIter)
  | .nextResponse _ key => some (key.relationId, .next)
  | .getResponse _ relationId key => some (relationId, .get key)
  | .putResponse relationId key val => some (relationId, .put key val)
  | .deleteResponse relationId key => some (relationId, .delete key)
  | .rangeQueryResponse _ key options => some (key.relationId, .rangeQuery options key.pid)
  | .openResponse .. | .closeResponse _ | .delIterResponse _ => none

/-- What the engine's calls return, as functions of the calls made before them: `Count`,
`Next` (the key and value when it returns true), `Get` (the value when it returns true),
`Put`, `Delete`, and `RangeQuery` (the `readOptions` it leaves, `bufLen` and its return
value). `Open` and `GetIter` return fresh handles, and `DelIter` and `Close` nothing. -/
structure Storage where
  count : List StorageCall → Nat → Nat
  next : List StorageCall → Nat → Option Nat → Option (List UInt8 × List UInt8)
  get : List StorageCall → Nat → List UInt8 → Option (List UInt8)
  put : List StorageCall → Nat → List UInt8 → List UInt8 → Bool
  delete : List StorageCall → Nat → List UInt8 → Bool
  rangeQuery : List StorageCall → Nat → Option Nat → DecodedOptions → Nat →
    Option Nat × Nat × Bool

/-! ## The tables -/

/-- `KVHashEntry` past its key: `ref`, a `uint32`, and the database. -/
structure TableEntry where
  ref : Nat
  db : Nat
  deriving DecidableEq, Repr

/-- What `KVWorkerMain` keeps across commands: its three hash tables, the keys of
`kvTableHash` in the order `HASH_ENTER` added them, how many databases and iterators the
engine has returned, and the calls made. An entry's `iter` or `readOptions` is `none`
when NULL. -/
structure WorkerTables where
  kvTableHash : Nat → Option TableEntry
  relations : List Nat
  kvIterHash : IterKey → Option (Option Nat)
  kvReadOptionsHash : IterKey → Option (Option Nat)
  opened : Nat
  issued : Nat
  calls : List StorageCall

namespace WorkerTables

/-- The tables `hash_create` gives `KVWorkerMain` before its loop. -/
def init : WorkerTables where
  kvTableHash _ := none
  relations := []
  kvIterHash _ := none
  kvReadOptionsHash _ := none
  opened := 0
  issued := 0
  calls := []

/-- The database of a relation's entry. -/
def dbOf (t : WorkerTables) (relationId : Nat) : Option Nat :=
  (t.kvTableHash relationId).map TableEntry.db

/-- A call of the engine. -/
@[simps]
def record (t : WorkerTables) (call : StorageCall) : WorkerTables :=
  { t with calls := t.calls ++ [call] }

/-- `HASH_ENTER` of a relation without an entry, `ref = 1`, and the database `Open`
returns for the path. -/
@[simps]
def enter (t : WorkerTables) (relationId : Nat) (path : List UInt8) (useColumn : Bool)
    (attrCount : Int) : WorkerTables :=
  { t.record (.open t.opened path useColumn attrCount) with
    kvTableHash := Function.update t.kvTableHash relationId (some ⟨1, t.opened⟩)
    relations := t.relations ++ [relationId]
    opened := t.opened + 1 }

/-- A relation's entry with a new `ref`. -/
@[simps]
def setRef (t : WorkerTables) (relationId : Nat) (entry : TableEntry) (ref : Nat) :
    WorkerTables :=
  { t with kvTableHash := Function.update t.kvTableHash relationId (some { entry with ref := ref }) }

/-- `iterEntry->iter = GetIter(entry->db)`. -/
@[simps]
def newIter (t : WorkerTables) (key : IterKey) (db : Nat) : WorkerTables :=
  { t.record (.getIter db t.issued) with
    kvIterHash := Function.update t.kvIterHash key (some (some t.issued))
    issued := t.issued + 1 }

/-- `DelIter(entry->iter); entry->iter = NULL;`. -/
@[simps]
def dropIter (t : WorkerTables) (key : IterKey) (iter : Nat) : WorkerTables :=
  { t.record (.delIter iter) with kvIterHash := Function.update t.kvIterHash key (some none) }

/-- `RangeQuery(entry->db, &(optionEntry->readOptions), &options, pid, &bufLen)`, and the
`readOptions` it leaves in the entry. -/
@[simps]
def rangeQueried (t : WorkerTables) (key : IterKey) (db : Nat) (readOptions : Option Nat)
    (options : DecodedOptions) (left : Option Nat) : WorkerTables :=
  { t.record (.rangeQuery db readOptions options key.pid left) with
    kvReadOptionsHash := Function.update t.kvReadOptionsHash key (some left) }

/-! ## The handlers -/

/-- `OpenResponse` on its fields: the relation its path names gets an entry with `ref = 1`
and the database `Open` returns, or `ref++` when it has one. -/
def openResponse (t : WorkerTables) (useColumn : Bool) (attrCount : Int) (path : List UInt8) :
    Option WorkerTables :=
  (pathRelationId path).map fun relationId =>
    match t.kvTableHash relationId with
    | none => t.enter relationId path useColumn attrCount
    | some entry => t.setRef relationId entry ((entry.ref + 1) % 2 ^ 32)

/-- `CloseResponse`: `entry->ref--`, an error without an entry. -/
def closeResponse (t : WorkerTables) (relationId : Nat) : Option WorkerTables :=
  (t.kvTableHash relationId).map fun entry =>
    t.setRef relationId entry ((entry.ref + 2 ^ 32 - 1) % 2 ^ 32)

/-- `CountResponse`: `Count(entry->db)`. -/
def countResponse (S : Storage) (t : WorkerTables) (relationId : Nat) :
    Option (WorkerTables × Nat) :=
  (t.kvTableHash relationId).map fun entry => (t.record (.count entry.db), S.count t.calls entry.db)

/-- `GetIterResponse`: `HASH_ENTER` of the key in `kvIterHash`, and `GetIter` on the
relation's database into its entry. -/
def getIterResponse (t : WorkerTables) (key : IterKey) : Option WorkerTables :=
  (t.kvTableHash key.relationId).map fun entry => t.newIter key entry.db

/-- `DelIterResponse`: `DelIter` on the entry's iterator unless it is NULL. -/
def delIterResponse (t : WorkerTables) (key : IterKey) : Option WorkerTables :=
  (t.kvIterHash key).map fun
    | none => t
    | some iter => t.dropIter key iter

/-- `NextResponse`: `Next` on the relation's database and the entry's iterator. -/
def nextResponse (S : Storage) (t : WorkerTables) (key : IterKey) :
    Option (WorkerTables × Option (List UInt8 × List UInt8)) :=
  (t.kvTableHash key.relationId).bind fun entry =>
    (t.kvIterHash key).map fun iter =>
      (t.record (.next entry.db iter), S.next t.calls entry.db iter)

/-- `GetResponse`: `Get` on the relation's database. -/
def getResponse (S : Storage) (t : WorkerTables) (relationId : Nat) (key : List UInt8) :
    Option (WorkerTables × Option (List UInt8)) :=
  (t.kvTableHash relationId).map fun entry =>
    (t.record (.get entry.db key), S.get t.calls entry.db key)

/-- `PutResponse`: `Put` on the relation's database, an error when it returns false. -/
def putResponse (S : Storage) (t : WorkerTables) (relationId : Nat) (key val : List UInt8) :
    Option WorkerTables :=
  (t.kvTableHash relationId).bind fun entry =>
    if S.put t.calls entry.db key val then some (t.record (.put entry.db key val)) else none

/-- `DeleteResponse`: `Delete` on the relation's database, an error when it returns
false. -/
def deleteResponse (S : Storage) (t : WorkerTables) (relationId : Nat) (key : List UInt8) :
    Option WorkerTables :=
  (t.kvTableHash relationId).bind fun entry =>
    if S.delete t.calls entry.db key then some (t.record (.delete entry.db key)) else none

/-- `RangeQueryResponse`: `HASH_ENTER` of the key in `kvReadOptionsHash`, NULL in a new
entry, and `RangeQuery` with the entry's `readOptions`, which it may change. -/
def rangeQueryResponse (S : Storage) (t : WorkerTables) (key : IterKey)
    (options : DecodedOptions) : Option (WorkerTables × Nat × Bool) :=
  (t.kvTableHash key.relationId).map fun entry =>
    let readOptions := (t.kvReadOptionsHash key).getD none
    let result := S.rangeQuery t.calls entry.db readOptions options key.pid
    (t.rangeQueried key entry.db readOptions options result.1, result.2)

end WorkerTables

/-- The handlers of kv_shm.c on the worker's tables, over an engine. -/
def Storage.handlers (S : Storage) : Handlers WorkerTables where
  openRelation := WorkerTables.openResponse
  closeRelation := WorkerTables.closeResponse
  count := WorkerTables.countResponse S
  getIter := WorkerTables.getIterResponse
  delIter := WorkerTables.delIterResponse
  next := WorkerTables.nextResponse S
  get := WorkerTables.getResponse S
  put := WorkerTables.putResponse S
  delete := WorkerTables.deleteResponse S
  rangeQuery := WorkerTables.rangeQueryResponse S

/-! ## What each command does to the tables -/

namespace WorkerTables

variable {S : Storage} {t next : WorkerTables} {command : Command} {response : List UInt8}

theorem respond_cases (handled : S.handlers.respond t command = some (next, response)) :
    (∃ relationId useColumn attrCount path, command = .openResponse useColumn attrCount path ∧
      pathRelationId path = some relationId ∧ t.kvTableHash relationId = none ∧
      next = t.enter relationId path useColumn attrCount) ∨
    (∃ relationId useColumn attrCount path entry,
      command = .openResponse useColumn attrCount path ∧ pathRelationId path = some relationId ∧
      t.kvTableHash relationId = some entry ∧
      next = t.setRef relationId entry ((entry.ref + 1) % 2 ^ 32)) ∨
    (∃ relationId entry, command = .closeResponse relationId ∧
      t.kvTableHash relationId = some entry ∧
      next = t.setRef relationId entry ((entry.ref + 2 ^ 32 - 1) % 2 ^ 32)) ∨
    (∃ key entry, command = .getIterResponse key ∧ t.kvTableHash key.relationId = some entry ∧
      next = t.newIter key entry.db) ∨
    (∃ key iter, command = .delIterResponse key ∧ t.kvIterHash key = some (some iter) ∧
      next = t.dropIter key iter) ∨
    (∃ key, command = .delIterResponse key ∧ t.kvIterHash key = some none ∧ next = t) ∨
    (∃ responseId key entry iter, command = .nextResponse responseId key ∧
      t.kvTableHash key.relationId = some entry ∧ t.kvIterHash key = some iter ∧
      next = t.record (.next entry.db iter)) ∨
    (∃ responseId key options entry left, command = .rangeQueryResponse responseId key options ∧
      t.kvTableHash key.relationId = some entry ∧
      next = t.rangeQueried key entry.db ((t.kvReadOptionsHash key).getD none) options left) ∨
    (∃ relationId request entry call, command.request = some (relationId, request) ∧
      t.kvTableHash relationId = some entry ∧ call.request = some (entry.db, request) ∧
      call.quiet = true ∧ next = t.record call) := by
  cases command with
  | openResponse useColumn attrCount path =>
      obtain ⟨_, opened, ⟨⟩⟩ := Option.map_eq_some'.mp handled
      obtain ⟨relationId, named, rfl⟩ := Option.map_eq_some'.mp opened
      cases found : t.kvTableHash relationId with
      | none => exact .inl ⟨relationId, useColumn, attrCount, path, rfl, named, found, rfl⟩
      | some entry =>
          exact .inr (.inl ⟨relationId, useColumn, attrCount, path, entry, rfl, named, found, rfl⟩)
  | closeResponse relationId =>
      obtain ⟨_, closed, ⟨⟩⟩ := Option.map_eq_some'.mp handled
      obtain ⟨entry, found, rfl⟩ := Option.map_eq_some'.mp closed
      exact .inr (.inr (.inl ⟨relationId, entry, rfl, found, rfl⟩))
  | countResponse responseId relationId =>
      obtain ⟨_, counted, ⟨⟩⟩ := Option.map_eq_some'.mp handled
      obtain ⟨entry, found, ⟨⟩⟩ := Option.map_eq_some'.mp counted
      exact .inr (.inr (.inr (.inr (.inr (.inr (.inr (.inr
        ⟨relationId, .count, entry, .count entry.db, rfl, found, rfl, rfl, rfl⟩)))))))
  | getIterResponse key =>
      obtain ⟨_, entered, ⟨⟩⟩ := Option.map_eq_some'.mp handled
      obtain ⟨entry, found, rfl⟩ := Option.map_eq_some'.mp entered
      exact .inr (.inr (.inr (.inl ⟨key, entry, rfl, found, rfl⟩)))
  | delIterResponse key =>
      obtain ⟨_, dropped, ⟨⟩⟩ := Option.map_eq_some'.mp handled
      obtain ⟨iter, found, rfl⟩ := Option.map_eq_some'.mp dropped
      cases iter with
      | none => exact .inr (.inr (.inr (.inr (.inr (.inl ⟨key, rfl, found, rfl⟩)))))
      | some iter => exact .inr (.inr (.inr (.inr (.inl ⟨key, iter, rfl, found, rfl⟩))))
  | nextResponse responseId key =>
      obtain ⟨_, advanced, ⟨⟩⟩ := Option.map_eq_some'.mp handled
      obtain ⟨entry, found, advanced⟩ := Option.bind_eq_some.mp advanced
      obtain ⟨iter, held, ⟨⟩⟩ := Option.map_eq_some'.mp advanced
      exact .inr (.inr (.inr (.inr (.inr (.inr (.inl
        ⟨responseId, key, entry, iter, rfl, found, held, rfl⟩))))))
  | getResponse responseId relationId key =>
      obtain ⟨_, got, ⟨⟩⟩ := Option.map_eq_some'.mp handled
      obtain ⟨entry, found, ⟨⟩⟩ := Option.map_eq_some'.mp got
      exact .inr (.inr (.inr (.inr (.inr (.inr (.inr (.inr
        ⟨relationId, .get key, entry, .get entry.db key, rfl, found, rfl, rfl, rfl⟩)))))))
  | putResponse relationId key val =>
      obtain ⟨_, stored, ⟨⟩⟩ := Option.map_eq_some'.mp handled
      obtain ⟨entry, found, stored⟩ := Option.bind_eq_some.mp stored
      split_ifs at stored
      cases stored
      exact .inr (.inr (.inr (.inr (.inr (.inr (.inr (.inr
        ⟨relationId, .put key val, entry, .put entry.db key val, rfl, found, rfl, rfl, rfl⟩)))))))
  | deleteResponse relationId key =>
      obtain ⟨_, deleted, ⟨⟩⟩ := Option.map_eq_some'.mp handled
      obtain ⟨entry, found, deleted⟩ := Option.bind_eq_some.mp deleted
      split_ifs at deleted
      cases deleted
      exact .inr (.inr (.inr (.inr (.inr (.inr (.inr (.inr
        ⟨relationId, .delete key, entry, .delete entry.db key, rfl, found, rfl, rfl, rfl⟩)))))))
  | rangeQueryResponse responseId key options =>
      obtain ⟨_, queried, ⟨⟩⟩ := Option.map_eq_some'.mp handled
      obtain ⟨entry, found, ⟨⟩⟩ := Option.map_eq_some'.mp queried
      exact .inr (.inr (.inr (.inr (.inr (.inr (.inr (.inl ⟨responseId, key, options, entry, _, rfl,
        found, rfl⟩)))))))

end WorkerTables

end KvFdw.Shm
