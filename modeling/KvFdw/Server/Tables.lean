import KvFdw.Server.Worker

/-!
# The worker's scan tables and its connection

What each handler of `KVWorker` does to `cursors_`, `ranges_` and `conn_`, and what follows
over every sequence of messages.
-/

set_option autoImplicit false

namespace KvFdw.Server

variable {σ χ κ ρ : Type}

/-! ## The scan tables -/

/-- `cursors_` and `ranges_`, with what was done to their entries: how many iterators
`GetIter` handed out, the iterators passed to `DelIter`, how often
`ParseRangeQueryOptions` was called, and the read options passed to
`ClearRangeQueryMeta`. -/
structure Tables (κ ρ : Type) where
  cursors : CursorKey → Option Nat
  issued : Nat
  deleted : List Nat
  ranges : CursorKey → Option (κ × ρ)
  parsed : Nat
  cleared : List ρ

/-- A worker's scan tables. -/
def Worker.tables (worker : Worker σ χ κ ρ) : Tables κ ρ :=
  ⟨worker.cursors, worker.issued, worker.deleted, worker.ranges.ranges, worker.parsed,
    worker.ranges.cleared⟩

/-- What one message does to the scan tables, for a message of operation `op` whose
entity starts with `key`. -/
inductive TableEffect (tables next : Tables κ ρ) (op : Nat) (key : CursorKey) : Prop
  /-- A `ReadBatch` for a key with no iterator: `GetIter`, stored under the key. -/
  | getIter (readBatch : op = 8) (absent : tables.cursors key = none)
      (effect : next = { tables with
        cursors := Function.update tables.cursors key (some tables.issued)
        issued := tables.issued + 1 })
  /-- A `CloseCursor` for a key with an iterator: `DelIter` on it, and the entry erased. -/
  | delIter (iter : Nat) (closeCursor : op = 9) (held : tables.cursors key = some iter)
      (effect : next = { tables with
        cursors := Function.update tables.cursors key none
        deleted := tables.deleted ++ [iter] })
  /-- A `RangeQuery` for a key with no entry: `ParseRangeQueryOptions`, stored. -/
  | parse (entry : κ × ρ) (rangeQuery : op = 10) (absent : tables.ranges key = none)
      (effect : next = { tables with
        ranges := Function.update tables.ranges key (some entry)
        parsed := tables.parsed + 1 })
  /-- A `ClearRangeQuery` for a key with an entry: `ClearRangeQueryMeta` on it, and the
  entry erased. -/
  | clear (entry : κ × ρ) (clearRangeQuery : op = 11) (held : tables.ranges key = some entry)
      (effect : next = { tables with
        ranges := Function.update tables.ranges key none
        cleared := tables.cleared ++ [entry.2] })
  /-- Every other message: a `ReadBatch` or `RangeQuery` for a key that has an entry, a
  `CloseCursor` or `ClearRangeQuery` for a key that has none, and every other operation. -/
  | kept (effect : next = tables) (readBatch : op = 8 → tables.cursors key ≠ none)
      (closeCursor : op = 9 → tables.cursors key = none)
      (rangeQuery : op = 10 → tables.ranges key ≠ none)
      (clearRangeQuery : op = 11 → tables.ranges key = none)

theorem TableEffect.of_other {tables : Tables κ ρ} {op : Nat} (key : CursorKey)
    (other : op ≠ 8 ∧ op ≠ 9 ∧ op ≠ 10 ∧ op ≠ 11) : TableEffect tables tables op key :=
  .kept rfl (absurd · other.1) (absurd · other.2.1) (absurd · other.2.2.1) (absurd · other.2.2.2)

theorem Worker.cursor_tableEffect (worker : Worker σ χ κ ρ) (key : CursorKey) :
    TableEffect worker.tables (worker.cursor key).1.tables 8 key := by
  unfold Worker.cursor
  split
  case h_1 held => exact .kept rfl (by simp [Worker.tables, held]) nofun nofun nofun
  case h_2 absent => exact .getIter rfl absent rfl

theorem Worker.closeCursor_tableEffect (worker : Worker σ χ κ ρ) (entity : List UInt8) :
    TableEffect worker.tables (worker.closeCursor entity).tables 9 (CursorKey.read entity) := by
  unfold Worker.closeCursor
  split
  case h_1 absent => exact .kept rfl nofun (fun _ => absent) nofun nofun
  case h_2 iter held => exact .delIter iter rfl held rfl

theorem Worker.clearRangeQuery_tableEffect (worker : Worker σ χ κ ρ) (entity : List UInt8) :
    TableEffect worker.tables (worker.clearRangeQuery entity).tables 11 (CursorKey.read entity) := by
  unfold Worker.clearRangeQuery RangeWorker.clearRangeQuery
  split
  case h_1 absent => exact .kept rfl nofun nofun nofun (fun _ => absent)
  case h_2 range readOpts held => exact .clear (range, readOpts) rfl held rfl

theorem Worker.rangeQuery_tableEffect {storage : Storage σ χ κ ρ} {fuel : Nat}
    {worker next : Worker σ χ κ ρ} {rpsId : Nat} {entity : List UInt8}
    (answered : worker.rangeQuery storage fuel rpsId entity = some next) :
    TableEffect worker.tables next.tables 10 (CursorKey.read entity) := by
  obtain ⟨⟨ranges, chunk⟩, replied, rfl⟩ := Option.map_eq_some'.mp answered
  obtain ⟨stored, -, -, -, -, reads⟩ := RangeWorker.rangeQuery_entry replied
  obtain ⟨_, -, found⟩ := Option.map_eq_some'.mp replied
  cases found
  cases held : worker.ranges.ranges (CursorKey.read entity) with
  | none =>
      refine .parse (storage.range.parse (readRangeQueryOpts (entity.drop 12))) rfl held ?_
      simp [Worker.tables, Worker.reply, RangeWorker.entry, held]
  | some entry =>
      refine .kept ?_ nofun nofun (by simp [Worker.tables, held]) nofun
      simp [Worker.tables, Worker.reply, RangeWorker.entry, held]

theorem Worker.handle_tableEffect {storage : Storage σ χ κ ρ} {optsSize fuel : Nat}
    {worker next : Worker σ χ κ ρ} {hdr : Header} {entity : List UInt8}
    (handled : worker.handle storage optsSize fuel hdr entity = some next) :
    TableEffect worker.tables next.tables hdr.op (CursorKey.read entity) := by
  unfold Worker.handle at handled
  split at handled
  case h_1 op =>
    obtain ⟨_, -, rfl⟩ := Option.map_eq_some'.mp handled
    rw [op]
    unfold Worker.open
    split <;> exact .of_other _ (by decide)
  case h_8 op =>
    cases handled
    rw [op]
    exact Worker.cursor_tableEffect worker _
  case h_9 op =>
    cases handled
    rw [op]
    exact Worker.closeCursor_tableEffect worker entity
  case h_10 op =>
    rw [op]
    exact Worker.rangeQuery_tableEffect handled
  case h_11 op =>
    cases handled
    rw [op]
    exact Worker.clearRangeQuery_tableEffect worker entity
  case h_2 op | h_5 op =>
    cases handled
    rw [op]
    simp only [Worker.close, Worker.get]
    split <;> exact .of_other _ (by decide)
  case h_13 =>
    cases handled
    exact .of_other _ ⟨by assumption, by assumption, by assumption, by assumption⟩
  all_goals
    cases handled
    rename_i op
    rw [op]
    refine .of_other _ ?_
    decide

/-! ## What every run keeps -/

/-- The scan tables account for every storage call on their entries: each iterator
`GetIter` handed out is held under exactly one key or was passed to `DelIter`, once and
not while held; and each result of `ParseRangeQueryOptions` is still in `ranges_` or was
passed to `ClearRangeQueryMeta`. -/
structure Tables.Books (tables : Tables κ ρ) : Prop where
  issued_iff : ∀ iter, iter < tables.issued ↔
    iter ∈ tables.deleted ∨ ∃ key, tables.cursors key = some iter
  deleted_free : ∀ iter ∈ tables.deleted, ∀ key, tables.cursors key ≠ some iter
  deleted_nodup : tables.deleted.Nodup
  held_once : ∀ key key' iter, tables.cursors key = some iter → tables.cursors key' = some iter →
    key = key'
  ranges_counted : ∃ live : List CursorKey, live.Nodup ∧
    (∀ key, (tables.ranges key).isSome ↔ key ∈ live) ∧
    tables.parsed = tables.cleared.length + live.length

theorem Tables.Books.getIter {tables : Tables κ ρ} {key : CursorKey} (books : tables.Books)
    (absent : tables.cursors key = none) :
    ({ tables with cursors := Function.update tables.cursors key (some tables.issued)
                   issued := tables.issued + 1 } : Tables κ ρ).Books where
  issued_iff iter := by
    simp only [Function.update_apply]
    rw [Nat.lt_succ_iff_lt_or_eq, books.issued_iff]
    constructor
    · rintro ((deleted | ⟨other, held⟩) | rfl)
      · exact .inl deleted
      · refine .inr ⟨other, ?_⟩
        rwa [if_neg (by rintro rfl; simp [absent] at held)]
      · exact .inr ⟨key, by simp⟩
    · rintro (deleted | ⟨other, held⟩)
      · exact .inl (.inl deleted)
      · split_ifs at held
        · exact .inr (Option.some_inj.mp held).symm
        · exact .inl (.inr ⟨other, held⟩)
  deleted_free iter member other := by
    have old := (books.issued_iff iter).mpr (.inl member)
    simp only [Function.update_apply]
    split_ifs
    · simpa using old.ne'
    · exact books.deleted_free iter member other
  deleted_nodup := books.deleted_nodup
  held_once first second iter := by
    simp only [Function.update_apply]
    split_ifs with same same' same' <;> intro held held'
    · exact same.trans same'.symm
    · cases held
      have := (books.issued_iff _).mpr (.inr ⟨second, held'⟩)
      omega
    · cases held'
      have := (books.issued_iff _).mpr (.inr ⟨first, held⟩)
      omega
    · exact books.held_once first second iter held held'
  ranges_counted := books.ranges_counted

theorem Tables.Books.delIter {tables : Tables κ ρ} {key : CursorKey} {iter : Nat}
    (books : tables.Books) (held : tables.cursors key = some iter) :
    ({ tables with cursors := Function.update tables.cursors key none
                   deleted := tables.deleted ++ [iter] } : Tables κ ρ).Books where
  issued_iff other := by
    simp only [Function.update_apply, List.mem_append, List.mem_singleton]
    rw [books.issued_iff]
    constructor
    · rintro (deleted | ⟨owner, owned⟩)
      · exact .inl (.inl deleted)
      · by_cases same : owner = key
        · subst same
          rw [held] at owned
          exact .inl (.inr (Option.some_inj.mp owned).symm)
        · exact .inr ⟨owner, by rwa [if_neg same]⟩
    · rintro ((deleted | rfl) | ⟨owner, owned⟩)
      · exact .inl deleted
      · exact .inr ⟨key, held⟩
      · split_ifs at owned
        exact .inr ⟨owner, owned⟩
  deleted_free other member owner := by
    simp only [Function.update_apply, List.mem_append, List.mem_singleton] at member ⊢
    split_ifs with same
    · exact Option.noConfusion
    · rcases member with member | rfl
      · exact books.deleted_free other member owner
      · exact fun owned => same (books.held_once owner key other owned held)
  deleted_nodup := List.nodup_append.mpr ⟨books.deleted_nodup, List.nodup_singleton iter,
    fun other member single => by
      rw [List.mem_singleton] at single
      subst single
      exact books.deleted_free other member key held⟩
  held_once first second other := by
    simp only [Function.update_apply]
    split_ifs <;> intro owned owned' <;>
      first | cases owned | cases owned' | exact books.held_once first second other owned owned'
  ranges_counted := books.ranges_counted

theorem Tables.Books.parse {tables : Tables κ ρ} {key : CursorKey} {entry : κ × ρ}
    (books : tables.Books) (absent : tables.ranges key = none) :
    ({ tables with ranges := Function.update tables.ranges key (some entry)
                   parsed := tables.parsed + 1 } : Tables κ ρ).Books where
  issued_iff := books.issued_iff
  deleted_free := books.deleted_free
  deleted_nodup := books.deleted_nodup
  held_once := books.held_once
  ranges_counted := by
    obtain ⟨live, nodup, mem, counted⟩ := books.ranges_counted
    have fresh : key ∉ live := fun member => by simpa [absent] using (mem key).mpr member
    refine ⟨key :: live, List.nodup_cons.mpr ⟨fresh, nodup⟩, fun other => ?_, ?_⟩
    · by_cases same : other = key
      · subst same
        simp
      · simp [Function.update_noteq same, same, mem]
    · simp only [counted, List.length_cons]
      omega

theorem Tables.Books.clear {tables : Tables κ ρ} {key : CursorKey} {entry : κ × ρ}
    (books : tables.Books) (held : tables.ranges key = some entry) :
    ({ tables with ranges := Function.update tables.ranges key none
                   cleared := tables.cleared ++ [entry.2] } : Tables κ ρ).Books where
  issued_iff := books.issued_iff
  deleted_free := books.deleted_free
  deleted_nodup := books.deleted_nodup
  held_once := books.held_once
  ranges_counted := by
    obtain ⟨live, nodup, mem, counted⟩ := books.ranges_counted
    have present : key ∈ live := (mem key).mp (by simp [held])
    refine ⟨live.erase key, nodup.erase key, fun other => ?_, ?_⟩
    · by_cases same : other = key
      · subst same
        simp [nodup.not_mem_erase]
      · simp [Function.update_noteq same, mem, List.mem_erase_of_ne same]
    · have := List.length_pos_of_mem present
      simp only [List.length_erase_of_mem present, List.length_append, List.length_singleton,
        counted]
      omega

theorem Tables.Books.effect {tables next : Tables κ ρ} {op : Nat} {key : CursorKey}
    (books : tables.Books) (effect : TableEffect tables next op key) : next.Books := by
  cases effect with
  | getIter _ absent effect => exact effect ▸ books.getIter absent
  | delIter _ _ held effect => exact effect ▸ books.delIter held
  | parse _ _ absent effect => exact effect ▸ books.parse absent
  | clear _ _ held effect => exact effect ▸ books.clear held
  | kept effect => exact effect ▸ books

theorem Worker.init_books (store : σ) : (Worker.init store : Worker σ χ κ ρ).tables.Books where
  issued_iff _ := by simp [Worker.init, Worker.tables]
  deleted_free _ member := by simp [Worker.init, Worker.tables] at member
  deleted_nodup := List.nodup_nil
  held_once _ _ _ held := by simp [Worker.init, Worker.tables] at held
  ranges_counted := ⟨[], List.nodup_nil, by simp [Worker.init, Worker.tables], rfl⟩

theorem Worker.handleAll_books {storage : Storage σ χ κ ρ} {optsSize fuel : Nat} :
    ∀ {worker final : Worker σ χ κ ρ} {messages : List (Header × List UInt8)},
      worker.tables.Books → worker.handleAll storage optsSize fuel messages = some final →
        final.tables.Books
  | _, _, [], books, handled => by cases handled; exact books
  | worker, _, (hdr, entity) :: rest, books, handled => by
      simp only [Worker.handleAll] at handled
      split_ifs at handled
      · obtain ⟨next, stepped, later⟩ := Option.bind_eq_some.mp handled
        exact Worker.handleAll_books (books.effect (Worker.handle_tableEffect stepped)) later
      · cases handled
        exact books

/-- The iterators and range scans of a worker's clients are released once. Every message
changes the scan tables in one of the ways `TableEffect` lists: `GetIter` only for a
`ReadBatch` whose key has no iterator, `ParseRangeQueryOptions` only for a `RangeQuery`
whose key has no entry, `DelIter` only for a `CloseCursor`, on the iterator its key
holds, and `ClearRangeQueryMeta` only for a `ClearRangeQuery`, on the entry its key
holds, both entries then erased; a `CloseCursor` or `ClearRangeQuery` for an absent key
and every other message change nothing. And after every sequence of messages a worker
handles, every iterator `GetIter` handed out is either held under exactly one key or was
passed to `DelIter`, once, and every range scan parsed is either in `ranges_` or was
cleared. -/
theorem scans_released_once (storage : Storage σ χ κ ρ) (optsSize fuel : Nat) :
    (∀ (worker next : Worker σ χ κ ρ) (hdr : Header) (entity : List UInt8),
      worker.handle storage optsSize fuel hdr entity = some next →
        TableEffect worker.tables next.tables hdr.op (CursorKey.read entity)) ∧
    ∀ (store : σ) (messages : List (Header × List UInt8)) (final : Worker σ χ κ ρ),
      (Worker.init store).handleAll storage optsSize fuel messages = some final →
        final.tables.Books :=
  ⟨fun _ _ _ _ => Worker.handle_tableEffect,
    fun store _ _ => Worker.handleAll_books (Worker.init_books store)⟩


/-- A client reads a batch of operation 1 and closes the cursor twice: the second close
finds no entry, and the iterator is released once. -/
theorem double_close_releases_once :
    ∃ final, (Worker.init () : Worker Unit Unit Unit Nat).handleAll Storage.empty 0 1
        [((Request.readBatch 4123 1).header 3 5 2, (Request.readBatch 4123 1).write),
          ((Request.closeCursor 4123 1).header 3 5 0, (Request.closeCursor 4123 1).write),
          ((Request.closeCursor 4123 1).header 3 5 0, (Request.closeCursor 4123 1).write)] =
        some final ∧ final.deleted = [0] ∧ final.tables.Books :=
  ⟨_, rfl, rfl, (scans_released_once Storage.empty 0 1).2 ()
    [((Request.readBatch 4123 1).header 3 5 2, (Request.readBatch 4123 1).write),
      ((Request.closeCursor 4123 1).header 3 5 0, (Request.closeCursor 4123 1).write),
      ((Request.closeCursor 4123 1).header 3 5 0, (Request.closeCursor 4123 1).write)] _ rfl⟩

/-! ## The connection -/

theorem Worker.handle_connection {storage : Storage σ χ κ ρ} {optsSize fuel : Nat}
    {worker next : Worker σ χ κ ρ} {hdr : Header} {entity : List UInt8}
    (handled : worker.handle storage optsSize fuel hdr entity = some next) :
    (hdr.op = 1 → ∃ args, (readOpenArgs optsSize hdr.etySize entity).map (·.1) = some args ∧
      next = worker.open storage args) ∧
    (hdr.op = 2 → next = worker.close) ∧
    (hdr.op ≠ 1 → hdr.op ≠ 2 →
      next.conn = worker.conn ∧ next.connects = worker.connects ∧ next.ref = worker.ref) := by
  unfold Worker.handle at handled
  split at handled
  case h_1 op =>
    obtain ⟨⟨args, _⟩, read, rfl⟩ := Option.map_eq_some'.mp handled
    exact ⟨fun _ => ⟨args, by rw [read]; rfl, rfl⟩, fun two => absurd (op.symm.trans two) (by decide),
      fun notOpen => absurd op notOpen⟩
  case h_2 op =>
    cases handled
    exact ⟨fun one => absurd (op.symm.trans one) (by decide), fun _ => rfl,
      fun _ notClose => absurd op notClose⟩
  case h_10 op =>
    obtain ⟨_, -, rfl⟩ := Option.map_eq_some'.mp handled
    exact ⟨fun one => absurd (op.symm.trans one) (by decide),
      fun two => absurd (op.symm.trans two) (by decide), fun _ _ => ⟨rfl, rfl, rfl⟩⟩
  case h_13 =>
    cases handled
    exact ⟨fun one => absurd one (by assumption), fun two => absurd two (by assumption),
      fun _ _ => ⟨rfl, rfl, rfl⟩⟩
  all_goals
    cases handled
    refine ⟨fun one => by omega, fun two => by omega, fun _ _ => ?_⟩
    simp only [Worker.count, Worker.put, Worker.get, Worker.delete, Worker.load,
      Worker.readBatch, Worker.cursor, Worker.closeCursor, Worker.clearRangeQuery,
      Worker.terminate, Worker.reply]
    repeat' split
    all_goals trivial

theorem processed_cons {message : Header × List UInt8} {rest : List (Header × List UInt8)}
    (processed : ∀ other ∈ (message :: rest).dropLast, other.1.op ≠ 13) :
    (message.1.op ≠ 13 ∨ rest = []) ∧ ∀ other ∈ rest.dropLast, other.1.op ≠ 13 := by
  cases rest with
  | nil => exact ⟨.inr rfl, nofun⟩
  | cons following others =>
      rw [List.dropLast_cons_of_ne_nil (List.cons_ne_nil _ _)] at processed
      exact ⟨.inl (processed _ (List.mem_cons_self _ _)),
        fun other member => processed other (List.mem_cons_of_mem _ member)⟩

theorem Worker.handle_running {storage : Storage σ χ κ ρ} {optsSize fuel : Nat}
    {worker next : Worker σ χ κ ρ} {hdr : Header} {entity : List UInt8}
    {rest : List (Header × List UInt8)}
    (handled : worker.handle storage optsSize fuel hdr entity = some next)
    (running : worker.running = true) (notLast : hdr.op ≠ 13 ∨ rest = []) :
    next.running = true ∨ rest = [] := by
  rw [(Worker.handle_sent handled).1, running]
  rcases notLast with notTerminate | last
  · exact .inl (by simpa using notTerminate)
  · exact .inr last

theorem countP_cons_op (hdr : Header) (entity : List UInt8) (rest : List (Header × List UInt8))
    (op : Nat) : ((hdr, entity) :: rest).countP (·.1.op == op) =
      rest.countP (·.1.op == op) + if hdr.op = op then 1 else 0 := by
  simp [List.countP_cons]

theorem Worker.handleAll_connected {storage : Storage σ χ κ ρ} {optsSize fuel : Nat}
    {connection : χ} :
    ∀ {worker final : Worker σ χ κ ρ} {messages : List (Header × List UInt8)},
      worker.conn = some connection → worker.running = true ∨ messages = [] →
      (∀ message ∈ messages.dropLast, message.1.op ≠ 13) →
      worker.handleAll storage optsSize fuel messages = some final →
      final.conn = some connection ∧ final.connects = worker.connects ∧
        final.ref = worker.ref + messages.countP (·.1.op == 1) - messages.countP (·.1.op == 2)
  | _, _, [], held, _, _, handled => by
      cases handled
      simp [held]
  | worker, final, (hdr, entity) :: rest, held, running, processed, handled => by
      obtain ⟨notLast, processedRest⟩ := processed_cons processed
      have isRunning := running.resolve_right (List.cons_ne_nil _ _)
      simp only [Worker.handleAll, isRunning, if_true] at handled
      obtain ⟨next, stepped, later⟩ := Option.bind_eq_some.mp handled
      obtain ⟨opening, closing, other⟩ := Worker.handle_connection stepped
      have step : next.conn = some connection ∧ next.connects = worker.connects ∧
          next.ref = worker.ref + (if hdr.op = 1 then 1 else 0) - (if hdr.op = 2 then 1 else 0) := by
        by_cases one : hdr.op = 1
        · obtain ⟨args, -, rfl⟩ := opening one
          simp [Worker.open, held, one]
        · by_cases two : hdr.op = 2
          · rw [closing two]
            simp [Worker.close, held, two]
          · obtain ⟨conn, connects, ref⟩ := other one two
            simp [conn, connects, ref, held, one, two]
      obtain ⟨conn, connects, ref⟩ := Worker.handleAll_connected step.1
        (Worker.handle_running stepped isRunning notLast) processedRest later
      refine ⟨conn, connects.trans step.2.1, ?_⟩
      rw [ref, step.2.2, countP_cons_op, countP_cons_op]
      push_cast
      split_ifs <;> omega

theorem Worker.handleAll_unconnected {storage : Storage σ χ κ ρ} {optsSize fuel : Nat}
    (nonNull : ∀ path useColumn attrCount opts,
      (storage.openConn path useColumn attrCount opts).isSome) :
    ∀ {worker final : Worker σ χ κ ρ} {messages : List (Header × List UInt8)},
      worker.conn = none → worker.running = true ∨ messages = [] →
      (∀ message ∈ messages.dropLast, message.1.op ≠ 13) →
      worker.handleAll storage optsSize fuel messages = some final →
      final.connects = worker.connects + min 1 (messages.countP (·.1.op == 1)) ∧
      (∀ pre hdr entity post, messages = pre ++ (hdr, entity) :: post →
        (∀ message ∈ pre, message.1.op ≠ 1) → hdr.op = 1 →
        ∃ args, (readOpenArgs optsSize hdr.etySize entity).map (·.1) = some args ∧
          final.conn = storage.openConn args.path args.useColumn args.attrCount args.opts) ∧
      ((∀ count, (messages.take count).countP (·.1.op == 2) ≤
          (messages.take count).countP (·.1.op == 1)) →
        final.ref = worker.ref + messages.countP (·.1.op == 1) - messages.countP (·.1.op == 2))
  | _, _, [], _, _, _, handled => by
      cases handled
      refine ⟨by simp, fun pre _ _ _ split => absurd split.symm (by simp), fun _ => by simp⟩
  | worker, final, (hdr, entity) :: rest, null, running, processed, handled => by
      obtain ⟨notLast, processedRest⟩ := processed_cons processed
      have isRunning := running.resolve_right (List.cons_ne_nil _ _)
      simp only [Worker.handleAll, isRunning, if_true] at handled
      obtain ⟨next, stepped, later⟩ := Option.bind_eq_some.mp handled
      have nextRunning := Worker.handle_running stepped isRunning notLast
      obtain ⟨opening, closing, other⟩ := Worker.handle_connection stepped
      by_cases one : hdr.op = 1
      case pos =>
        obtain ⟨args, read, rfl⟩ := opening one
        obtain ⟨connection, opened⟩ := Option.isSome_iff_exists.mp
          (nonNull args.path args.useColumn args.attrCount args.opts)
        have connected : (worker.open storage args).conn = some connection := by
          simp [Worker.open, null, opened]
        obtain ⟨conn, connects, ref⟩ :=
          Worker.handleAll_connected connected nextRunning processedRest later
        refine ⟨?_, fun pre hdr' entity' post split noOpen _ => ?_, fun _ => ?_⟩
        · simp only [connects, Worker.open, null, countP_cons_op, one, if_true]
          omega
        · cases pre with
          | nil =>
              obtain ⟨⟨rfl, rfl⟩, -⟩ := List.cons.inj split
              exact ⟨args, read, conn.trans opened.symm⟩
          | cons first _ =>
              obtain ⟨rfl, -⟩ := List.cons.inj split
              exact absurd one (noOpen _ (List.mem_cons_self _ _))
        · rw [ref, countP_cons_op, countP_cons_op]
          simp only [Worker.open, null, one, if_true, show (1 : Nat) ≠ 2 by decide, if_false]
          push_cast
          omega
      case neg =>
        have stays : next.conn = none ∧ next.connects = worker.connects ∧ next.ref = worker.ref := by
          by_cases two : hdr.op = 2
          · rw [closing two]
            simp [Worker.close, null]
          · rw [← null]
            exact other one two
        obtain ⟨connects, firstOpen, refs⟩ :=
          Worker.handleAll_unconnected nonNull stays.1 nextRunning processedRest later
        refine ⟨?_, fun pre hdr' entity' post split noOpen opening => ?_, fun prefixes => ?_⟩
        · rw [connects, stays.2.1, countP_cons_op, if_neg one, Nat.add_zero]
        · cases pre with
          | nil =>
              obtain ⟨⟨rfl, rfl⟩, -⟩ := List.cons.inj split
              exact absurd opening one
          | cons first pre =>
              obtain ⟨-, split⟩ := List.cons.inj split
              exact firstOpen pre hdr' entity' post split
                (fun message member => noOpen message (List.mem_cons_of_mem _ member)) opening
        · have two : hdr.op ≠ 2 := fun two => by
            have := prefixes 1
            simp [two, one] at this
          have restPrefixes : ∀ count, (rest.take count).countP (·.1.op == 2) ≤
              (rest.take count).countP (·.1.op == 1) := fun count => by
            have := prefixes (count + 1)
            simpa only [List.take_succ_cons, countP_cons_op, if_neg one, if_neg two] using this
          rw [refs restPrefixes, stays.2.2, countP_cons_op, countP_cons_op, if_neg one, if_neg two]
          simp

/-- `OpenConn` is called once, at the first `Open`, and `conn_` is never replaced or
closed by a handler. For every storage engine whose `OpenConn` returns a connection and
every sequence of messages a worker handles from its start (no message follows a
`Terminate`): `OpenConn` was called once if there was an `Open` and never otherwise; at
the end `conn_` is what `OpenConn` returned for the first `Open`, whatever came after it;
and when no prefix of the sequence has more `Close`s than `Open`s, `ref_` is the number of
`Open`s less the number of `Close`s. -/
theorem conn_opened_once (storage : Storage σ χ κ ρ) (optsSize fuel : Nat) (store : σ)
    (nonNull : ∀ path useColumn attrCount opts,
      (storage.openConn path useColumn attrCount opts).isSome)
    (messages : List (Header × List UInt8)) (final : Worker σ χ κ ρ)
    (processed : ∀ message ∈ messages.dropLast, message.1.op ≠ 13)
    (handled : (Worker.init store).handleAll storage optsSize fuel messages = some final) :
    final.connects = min 1 (messages.countP (·.1.op == 1)) ∧
    (∀ pre hdr entity post, messages = pre ++ (hdr, entity) :: post →
      (∀ message ∈ pre, message.1.op ≠ 1) → hdr.op = 1 →
      ∃ args, (readOpenArgs optsSize hdr.etySize entity).map (·.1) = some args ∧
        final.conn = storage.openConn args.path args.useColumn args.attrCount args.opts) ∧
    ((∀ count, (messages.take count).countP (·.1.op == 2) ≤
        (messages.take count).countP (·.1.op == 1)) →
      final.ref = (messages.countP (·.1.op == 1) : Int) - messages.countP (·.1.op == 2)) := by
  obtain ⟨connects, firstOpen, refs⟩ :=
    Worker.handleAll_unconnected nonNull rfl (.inl rfl) processed handled
  refine ⟨by simpa [Worker.init] using connects, firstOpen, fun prefixes => ?_⟩
  simpa [Worker.init] using refs prefixes

/-- Two backends open the relation and one closes it: one `OpenConn`, and `ref_` is one. -/
theorem opened_twice_closed_once :
    ∃ final, (Worker.init () : Worker Unit Unit Unit Nat).handleAll Storage.empty 0 1
        [((Request.openArgs [] true 5 [47]).header 3 5 0, (Request.openArgs [] true 5 [47]).write),
          ((Request.openArgs [] true 5 [47]).header 3 5 0, (Request.openArgs [] true 5 [47]).write),
          (Request.close.header 3 5 0, Request.close.write)] =
        some final ∧ final.connects = 1 ∧ final.ref = 1 := by
  obtain ⟨connects, -, refs⟩ := conn_opened_once Storage.empty 0 1 () (fun _ _ _ _ => rfl)
    [((Request.openArgs [] true 5 [47]).header 3 5 0, (Request.openArgs [] true 5 [47]).write),
      ((Request.openArgs [] true 5 [47]).header 3 5 0, (Request.openArgs [] true 5 [47]).write),
      (Request.close.header 3 5 0, Request.close.write)] _ (by decide) rfl
  refine ⟨_, rfl, connects.trans (by decide), (refs fun count => ?_).trans (by decide)⟩
  rcases count with _ | _ | _ | count
  iterate 3 decide
  rw [List.take_of_length_le (by simp)]
  decide

end KvFdw.Server
