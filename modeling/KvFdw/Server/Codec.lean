import KvFdw.Server.Worker

/-!
# What each side of a kv message decodes

Each decoder of `KVWorker` gives back the arguments its `KVWorkerClient` encoder pushed.
-/

set_option autoImplicit false

namespace KvFdw.Server

theorem CursorKey.read_write {pid opid : Nat} (pidSmall : pid < 2 ^ 32) (opidSmall : opid < 2 ^ 64)
    (opts : Option RangeQueryOpts) :
    ∀ request ∈ [Request.readBatch pid opid, .closeCursor pid opid, .rangeQuery pid opid opts,
      .clearRangeQuery pid opid], CursorKey.read request.write = ⟨pid, opid⟩ := by
  have key (rest : List UInt8) : CursorKey.read (encodeU32 pid ++ encodeU64 opid ++ rest) =
      ⟨pid, opid⟩ := by
    rw [CursorKey.read_append, Nat.mod_eq_of_lt pidSmall, Nat.mod_eq_of_lt opidSmall]
  simp only [List.mem_cons, List.mem_singleton, List.not_mem_nil, or_false, forall_eq_or_imp,
    forall_eq, Request.write]
  exact ⟨key [], key [], key _, key []⟩

/-- Every decoder on the receiving side of a kv message gives back what the encoder on
the sending side pushed, for every argument value within its C type:
`ReadOpenArgs` after `WriteOpenArgs`, with the path up to its NUL; `Put` and `Load` after
`WritePutArgs`, with `valLen = etySize - keyLen - sizeof(keyLen)`; the key of `Get` and
`Delete` with its length; the cursor key of `ReadBatch`, `CloseCursor`, `RangeQuery` and
`ClearRangeQuery`; the options of a first `RangeQuery`, for every combination of empty
and non-empty bounds and attributes; and on the client's side the count of `Count`, the
value and status of `Get`, and the `next` and `size` of `WriteReadBatchState`, whatever
bytes follow them in the client's buffer. -/
theorem arguments_recovered (optsSize : Nat) :
    (∀ opts useColumn attrCount path, opts.length = optsSize →
      -2 ^ 31 ≤ attrCount ∧ attrCount < 2 ^ 31 →
      (Request.openArgs opts useColumn attrCount path).write.length < 2 ^ 64 →
      readOpenArgs optsSize (Request.openArgs opts useColumn attrCount path).etySize
          (Request.openArgs opts useColumn attrCount path).write =
        some (⟨opts, useColumn, attrCount, cString path⟩, [])) ∧
    (∀ key val, key.length + val.length + 8 < 2 ^ 64 →
      putArgs (Request.put key val).etySize (Request.put key val).write = (key, val) ∧
        putArgs (Request.load key val).etySize (Request.load key val).write = (key, val)) ∧
    (∀ key : List UInt8, key.length < 2 ^ 64 →
      (Request.get key).write = key ∧ (Request.get key).etySize = key.length ∧
        (Request.delete key).write = key ∧ (Request.delete key).etySize = key.length) ∧
    (∀ pid opid opts, pid < 2 ^ 32 → opid < 2 ^ 64 →
      ∀ request ∈ [Request.readBatch pid opid, .closeCursor pid opid, .rangeQuery pid opid opts,
        .clearRangeQuery pid opid], CursorKey.read request.write = ⟨pid, opid⟩) ∧
    (∀ pid opid (opts : RangeQueryOpts),
      opts.start.length < 2 ^ 64 ∧ opts.limit.length < 2 ^ 64 ∧ opts.batchCapacity < 2 ^ 64 →
      (∀ attr ∈ opts.attrs, -2 ^ 15 ≤ attr ∧ attr < 2 ^ 15) →
      readRangeQueryOpts ((Request.rangeQuery pid opid (some opts)).write.drop 12) =
        opts.received) ∧
    (∀ count, count < 2 ^ 64 → decodeLE (Reply.count count).write = count) ∧
    (∀ (val : List UInt8) rpsId, val.length < 2 ^ 64 →
      (Reply.value val).write = val ∧ ((Reply.value val).header rpsId).etySize = val.length ∧
        ((Reply.value val).header rpsId).status = 1) ∧
    (∀ next size, size < 2 ^ 64 → ∀ rest,
      readBatchState ((Reply.batch next size).write ++ rest) = (next, size)) := by
  refine ⟨fun opts useColumn attrCount path sized inRange fits =>
      readOpenArgs_write sized inRange fits,
    fun key val fits => ⟨putArgs_write fits, putArgs_write fits⟩,
    fun key fits => ⟨rfl, Nat.mod_eq_of_lt fits, rfl, Nat.mod_eq_of_lt fits⟩,
    fun pid opid opts pidSmall opidSmall => CursorKey.read_write pidSmall opidSmall opts,
    fun pid opid opts fits attrsInRange => ?_,
    fun count small => decodeLE_encodeU64 small,
    fun val rpsId fits => ⟨rfl, Nat.mod_eq_of_lt fits, rfl⟩,
    fun next size small rest => readBatchState_write next small rest⟩
  have options : (Request.rangeQuery pid opid (some opts)).write.drop 12 = opts.write ++ [] := by
    simp only [Request.write, Option.map_some', Option.getD_some, List.append_nil]
    exact List.drop_left' rfl
  rw [options, readRangeQueryOpts_write opts fits attrsInRange]

/-- The path of an `Open` comes back up to its NUL, here with no options. -/
theorem openArgs_path_recovered :
    readOpenArgs 0 (Request.openArgs [] true 5 [47, 116, 0, 9]).etySize
        (Request.openArgs [] true 5 [47, 116, 0, 9]).write =
      some (⟨[], true, 5, [47, 116]⟩, []) :=
  (arguments_recovered 0).1 [] true 5 [47, 116, 0, 9] rfl (by decide) (by decide)

end KvFdw.Server
