import KvFdw.Server.Message

/-!
# Cursors and range queries of the kv worker

The segment names of src/server/kv_worker.cc and the scans `RangeQuery` keeps in `ranges_`;
the storage calls are parameters.
-/

set_option autoImplicit false

namespace KvFdw.Server

/-! ## Segment names -/

/-- `READBATCHPATH`. -/
def readBatchPath : String := "/KVReadBatch"

/-- `RANGEQUERYPATH`. -/
def rangeQueryPath : String := "/KVRangeQuery"

/-- `%d` of a 32-bit value: the decimal digits of the value read as a signed `int`. -/
def formatD (value : Nat) : String :=
  toString (if value % 2 ^ 32 < 2 ^ 31 then (value % 2 ^ 32 : Int) else (value % 2 ^ 32 : Int) - 2 ^ 32)

/-- `%lu` of a 64-bit value. -/
def formatLU (value : Nat) : String :=
  toString (value % 2 ^ 64)

/-- `snprintf(name, MAXPATHLENGTH, "%s%d%d%lu", path, pid, id, opid)`, for names shorter
than `MAXPATHLENGTH`. -/
def segmentName (path : String) (pid id opid : Nat) : String :=
  path ++ formatD pid ++ formatD id ++ formatLU opid

theorem formatD_mod (value : Nat) : formatD (value % 2 ^ 32) = formatD value := by
  simp [formatD, Nat.mod_mod]

theorem formatLU_mod (value : Nat) : formatLU (value % 2 ^ 64) = formatLU value := by
  simp [formatLU, Nat.mod_mod]

/-- `KVCursorKey` as the worker reads it from the start of an entity: the `pid_t`, then
the `KVOpId`. -/
structure CursorKey where
  pid : Nat
  opid : Nat
  deriving DecidableEq, Repr

/-- `key.pid = *static_cast<pid_t*>(msg.ety)` and the `KVOpId` after it. -/
def CursorKey.read (entity : List UInt8) : CursorKey where
  pid := decodeLE (entity.take 4)
  opid := decodeLE ((entity.drop 4).take 8)

/-- The name `KVWorker::ReadBatch`, `KVWorker::RangeQuery` and `KVWorker::ClearRangeQuery`
build from a received message: the key from the entity and `msg.hdr.relId`. -/
def workerSegmentName (path : String) (hdr : Header) (entity : List UInt8) : String :=
  segmentName path (CursorKey.read entity).pid hdr.relId (CursorKey.read entity).opid

theorem CursorKey.read_append (pid opid : Nat) (rest : List UInt8) :
    CursorKey.read (encodeU32 pid ++ encodeU64 opid ++ rest) = ⟨pid % 2 ^ 32, opid % 2 ^ 64⟩ := by
  simp [CursorKey.read, List.append_assoc, List.take_append_of_le_length,
    decodeLE_encodeU32_eq_mod, decodeLE_encodeU64_eq_mod]

/-- The worker names a cursor's segment as its client does: for every cursor request the
client sends on worker `workerId` (`ReadBatch`, `RangeQuery` with or without options,
`ClearRangeQuery`), the name the worker builds from the message it receives is the name
the client builds from its pid, `workerId` and the operation id. -/
theorem workerSegmentName_received (path : String) (workerId dbId rpsId pid opid : Nat)
    (request : Request) (rest : List UInt8)
    (cursor : request = .readBatch pid opid ∨ request = .clearRangeQuery pid opid ∨
      ∃ opts, request = .rangeQuery pid opid opts)
    (fits : request.write.length < 2 ^ 64) (counted : request.attrsCounted = true) :
    ∃ hdr entity, receive (send (request.header workerId dbId rpsId) request.write ++ rest) =
        some (hdr, entity, rest) ∧
      workerSegmentName path hdr entity = segmentName path pid workerId opid := by
  refine ⟨_, _, receive_send (request.framed workerId dbId rpsId fits counted) rest, ?_⟩
  have written : ∃ body, request.write = encodeU32 pid ++ encodeU64 opid ++ body := by
    rcases cursor with rfl | rfl | ⟨opts, rfl⟩
    · exact ⟨[], by simp [Request.write]⟩
    · exact ⟨[], by simp [Request.write]⟩
    · exact ⟨_, rfl⟩
  obtain ⟨body, written⟩ := written
  simp only [workerSegmentName, written, CursorKey.read_append, segmentName, Header.truncate,
    Request.header, formatD_mod, formatLU_mod]

/-- Client 4123 reads a batch of operation 1 on worker 45. -/
theorem readBatch_segment_names_agree :
    ∃ hdr entity, receive (send ((Request.readBatch 4123 1).header 45 5 2)
        (Request.readBatch 4123 1).write ++ []) = some (hdr, entity, []) ∧
      workerSegmentName readBatchPath hdr entity = segmentName readBatchPath 4123 45 1 :=
  workerSegmentName_received readBatchPath 45 5 2 4123 1 (.readBatch 4123 1) [] (.inl rfl)
    (by decide) rfl

/-- The numbers stand in the name with nothing between them: the client of pid 4123 on
worker 45 and the client of pid 41234 on worker 5 get one name for the same operation id,
as a batch segment or as a range-query segment. -/
theorem segmentName_collides (path : String) (opid : Nat) :
    segmentName path 4123 45 opid = segmentName path 41234 5 opid := by
  have digits : formatD 4123 ++ formatD 45 = formatD 41234 ++ formatD 5 := by decide
  simp only [segmentName, String.append_assoc]
  rw [← String.append_assoc (formatD 4123), digits, String.append_assoc]

/-! ## Range queries -/

/-- What one `RangeQueryRead` reports: `next`, `size`, and the bytes of `result`. -/
structure Chunk where
  next : Bool
  size : Nat
  result : List UInt8
  deriving DecidableEq, Repr

/-- The storage calls of `KVWorker::RangeQuery`: `parse` is `ParseRangeQueryOptions` on
the options decoded from the entity, giving the range and the read options; `read` is
`RangeQueryRead`, given the range and the address of the read options, which it may
update. -/
structure RangeStorage (κ ρ : Type) where
  parse : ReceivedOpts → κ × ρ
  read : κ → ρ → ρ × Chunk

variable {κ ρ : Type}

/-- The `do ... while (state.next && state.size == 0)` loop of `KVWorker::RangeQuery`:
reads until a chunk is not empty or is the last, passing each read the read options the
one before left. It returns the read options each read was given, those the last read
left, and the last chunk; `none` when `fuel` reads were all empty with more to come. -/
def readLoop (read : κ → ρ → ρ × Chunk) (range : κ) : Nat → ρ → Option (List ρ × ρ × Chunk)
  | 0, _ => none
  | fuel + 1, readOpts =>
      if (read range readOpts).2.next && (read range readOpts).2.size == 0 then
        (readLoop read range fuel (read range readOpts).1).map fun (given, last, chunk) =>
          (readOpts :: given, last, chunk)
      else some ([readOpts], (read range readOpts).1, (read range readOpts).2)

/-- The worker's `ranges_`, with what its storage calls were given (ghost): the read
options of each `RangeQueryRead`, in order, and those `ClearRangeQueryMeta` released. -/
structure RangeWorker (κ ρ : Type) where
  ranges : CursorKey → Option (κ × ρ)
  reads : List ρ
  cleared : List ρ

/-- The entry `KVWorker::RangeQuery` reads with: the one `ranges_` holds for the key, or,
on the first call, the options decoded after the key and parsed. -/
def RangeWorker.entry (storage : RangeStorage κ ρ) (worker : RangeWorker κ ρ)
    (entity : List UInt8) : κ × ρ :=
  (worker.ranges (CursorKey.read entity)).getD (storage.parse (readRangeQueryOpts (entity.drop 12)))

/-- `KVWorker::RangeQuery` on a request's entity. On the first call for the key the
parsed entry goes into `ranges_` before any read (`ranges_.insert({key, entry})`); the
reads then update `entry.readOpts`, a copy (`entry = it->second` on later calls), and
nothing writes it back. The reply carries the last chunk's `next` and `size`. -/
def RangeWorker.rangeQuery (storage : RangeStorage κ ρ) (fuel : Nat) (worker : RangeWorker κ ρ)
    (entity : List UInt8) : Option (RangeWorker κ ρ × Chunk) :=
  (readLoop storage.read (worker.entry storage entity).1 fuel (worker.entry storage entity).2).map
    fun (given, _, chunk) =>
      ({ worker with
          ranges := Function.update worker.ranges (CursorKey.read entity)
            (some (worker.entry storage entity))
          reads := worker.reads ++ given }, chunk)

/-- `KVWorker::ClearRangeQuery`: `ClearRangeQueryMeta` on the stored entry and its
removal; nothing when the key has none. -/
def RangeWorker.clearRangeQuery (worker : RangeWorker κ ρ) (entity : List UInt8) :
    RangeWorker κ ρ :=
  match worker.ranges (CursorKey.read entity) with
  | none => worker
  | some (_, readOpts) =>
      { worker with
        ranges := Function.update worker.ranges (CursorKey.read entity) none
        cleared := worker.cleared ++ [readOpts] }

theorem readLoop_head {read : κ → ρ → ρ × Chunk} {range : κ} :
    ∀ {fuel : Nat} {readOpts : ρ} {given : List ρ} {last : ρ} {chunk : Chunk},
      readLoop read range fuel readOpts = some (given, last, chunk) → given.head? = some readOpts
  | 0, _, _, _, _, looped => by cases looped
  | fuel + 1, readOpts, given, last, chunk, looped => by
      unfold readLoop at looped
      split_ifs at looped
      · obtain ⟨_, -, found⟩ := Option.map_eq_some'.mp looped
        cases found
        rfl
      · cases looped
        rfl

theorem readLoop_unique {read : κ → ρ → ρ × Chunk} {range : κ} :
    ∀ {first second : Nat} {readOpts : ρ} {one other : List ρ × ρ × Chunk},
      readLoop read range first readOpts = some one →
        readLoop read range second readOpts = some other → one = other
  | 0, _, _, _, _, looped, _ => by cases looped
  | _ + 1, 0, _, _, _, _, looped => by cases looped
  | first + 1, second + 1, readOpts, one, other, looped, again => by
      unfold readLoop at looped again
      split_ifs at looped again
      · obtain ⟨rest, restLooped, rfl⟩ := Option.map_eq_some'.mp looped
        obtain ⟨rest', restAgain, rfl⟩ := Option.map_eq_some'.mp again
        rw [readLoop_unique restLooped restAgain]
      · cases looped; cases again; rfl

theorem readLoop_reply {read : κ → ρ → ρ × Chunk} {range : κ} :
    ∀ {fuel : Nat} {readOpts : ρ} {given : List ρ} {last : ρ} {chunk : Chunk},
      readLoop read range fuel readOpts = some (given, last, chunk) →
        chunk.next = false ∨ chunk.size ≠ 0
  | 0, _, _, _, _, looped => by cases looped
  | fuel + 1, readOpts, given, last, chunk, looped => by
      unfold readLoop at looped
      split_ifs at looped with empty
      · obtain ⟨⟨_, _, _⟩, restLooped, found⟩ := Option.map_eq_some'.mp looped
        cases found
        exact readLoop_reply restLooped
      · cases looped
        cases more : (read range readOpts).2.next
        · exact .inl rfl
        · exact .inr (by simpa [more] using empty)

theorem RangeWorker.rangeQuery_entry {storage : RangeStorage κ ρ} {fuel : Nat}
    {worker next : RangeWorker κ ρ} {entity : List UInt8} {chunk : Chunk}
    (replied : worker.rangeQuery storage fuel entity = some (next, chunk)) :
    next.ranges (CursorKey.read entity) = some (worker.entry storage entity) ∧
      (next.reads.drop worker.reads.length).head? = some (worker.entry storage entity).2 ∧
      ∃ given last, readLoop storage.read (worker.entry storage entity).1 fuel
        (worker.entry storage entity).2 = some (given, last, chunk) ∧
        next.reads = worker.reads ++ given := by
  obtain ⟨⟨given, last, chunk'⟩, looped, found⟩ := Option.map_eq_some'.mp replied
  cases found
  exact ⟨by simp, by simpa using readLoop_head looped, given, last, looped, rfl⟩

/-- `KVWorker::RangeQuery` reads on a copy of the `ranges_` entry and never stores the
read options back. So the second call for a key gives its first read the read options
the first call's first read was given, not those the first call's reads left, and
returns the same batch again. -/
theorem rangeQuery_restarts_scan {storage : RangeStorage κ ρ} {first second : Nat}
    {worker worker₁ worker₂ : RangeWorker κ ρ} {entity entity' : List UInt8}
    {chunk₁ chunk₂ : Chunk}
    (called : worker.rangeQuery storage first entity = some (worker₁, chunk₁))
    (sameKey : CursorKey.read entity' = CursorKey.read entity)
    (calledAgain : worker₁.rangeQuery storage second entity' = some (worker₂, chunk₂)) :
    (worker₂.reads.drop worker₁.reads.length).head? =
        (worker₁.reads.drop worker.reads.length).head? ∧
      chunk₂ = chunk₁ ∧ worker₂.ranges (CursorKey.read entity) = worker₁.ranges (CursorKey.read entity) := by
  obtain ⟨stored, firstRead, given, last, looped, reads⟩ := RangeWorker.rangeQuery_entry called
  obtain ⟨stored', firstRead', given', last', looped', reads'⟩ :=
    RangeWorker.rangeQuery_entry calledAgain
  have sameEntry : worker₁.entry storage entity' = worker.entry storage entity := by
    simp [RangeWorker.entry, sameKey, stored]
  rw [sameEntry] at firstRead' looped' stored'
  rw [sameKey] at stored'
  refine ⟨firstRead'.trans firstRead.symm, ?_, stored'.trans stored.symm⟩
  have := readLoop_unique looped' looped
  simp only [Prod.mk.injEq] at this
  exact this.2.2

/-- A storage whose reads move the read options on by one and always have more: every
call on one cursor key returns the first batch again. -/
def RangeStorage.counting : RangeStorage Unit Nat where
  parse _ := ((), 0)
  read _ readOpts := (readOpts + 1, ⟨true, 1, [UInt8.ofNat readOpts]⟩)

theorem rangeQuery_counting_repeats :
    ∃ (worker₁ worker₂ : RangeWorker Unit Nat) (chunk₁ chunk₂ : Chunk),
      (RangeWorker.mk (fun _ => none) [] []).rangeQuery .counting 1
          (encodeU32 4123 ++ encodeU64 1) = some (worker₁, chunk₁) ∧
        worker₁.rangeQuery .counting 1 (encodeU32 4123 ++ encodeU64 1) = some (worker₂, chunk₂) ∧
        worker₂.reads = [0, 0] ∧ chunk₂ = chunk₁ ∧ chunk₁.next = true :=
  have called : (RangeWorker.mk (fun _ => none) [] []).rangeQuery .counting 1
      (encodeU32 4123 ++ encodeU64 1) = some _ := rfl
  have calledAgain : RangeWorker.rangeQuery .counting 1 _ (encodeU32 4123 ++ encodeU64 1) =
      some _ := rfl
  ⟨_, _, _, _, called, calledAgain, rfl, (rangeQuery_restarts_scan called rfl calledAgain).2.1, rfl⟩

end KvFdw.Server
