import KvFdw.Shm.Protocol

/-!
# What the client reads back from a response slot

Each handler's write as a function of its storage call's result, and each request
function's read of the slot.
-/

set_option autoImplicit false

namespace KvFdw.Shm

/-! ## What the handlers write -/

/-- `CountResponse`: the `uint64` count. -/
def countReply (count : Nat) : List UInt8 :=
  encodeU64 count

/-- `NextResponse` for what `Next` returned: `keyLen`, still 0, when it found no item;
otherwise `keyLen`, the key, `valLen` and the value. -/
def nextReply : Option (List UInt8 × List UInt8) → List UInt8
  | none => encodeU64 0
  | some (key, val) => encodeU64 key.length ++ key ++ encodeU64 val.length ++ val

/-- `GetResponse` for what `Get` returned: `res`, then `valLen` and the value when `res`
holds. -/
def getReply : Option (List UInt8) → List UInt8
  | none => encodeBool false
  | some val => encodeBool true ++ encodeU64 val.length ++ val

/-- `RangeQueryResponse` for what `RangeQuery` returned: `bufLen`, then `ret` unless
`bufLen` is 0. -/
def rangeQueryReply (bufLen : Nat) (ret : Bool) : List UInt8 :=
  encodeU64 bufLen ++ if bufLen = 0 then [] else encodeBool ret

/-! ## What the request functions read -/

/-- `CountRequest`: the count at the start of the slot. -/
def countRequestResult (reply : Region) : Nat :=
  decodeLE (reply.read 0 8)

/-- `NextRequest`: `false` when `*keyLen == 0`, otherwise the key after `keyLen` and the
value after `valLen`. -/
def nextRequestResult (reply : Region) : Option (List UInt8 × List UInt8) :=
  let keyLen := decodeLE (reply.read 0 8)
  if keyLen = 0 then none
  else
    let valLen := decodeLE (reply.read (8 + keyLen) 8)
    some (reply.read 8 keyLen, reply.read (8 + keyLen + 8) valLen)

/-- `GetRequest`: `false` when `res` does not hold, otherwise the value after `valLen`. -/
def getRequestResult (reply : Region) : Option (List UInt8) :=
  if decodeLE (reply.read 0 1) != 0 then
    some (reply.read (1 + 8) (decodeLE (reply.read 1 8)))
  else none

/-- `RangeQueryRequest`: its return value and `*bufLen`; `false` when `*bufLen == 0`,
otherwise `hasNext`. -/
def rangeQueryRequestResult (reply : Region) : Bool × Nat :=
  if replyBufLen reply = 0 then (false, replyBufLen reply)
  else (decodeLE (reply.read 8 1) != 0, replyBufLen reply)

/-! ## Each format read back -/

theorem countRequestResult_eq {reply : Region} {count : Nat} (small : count < 2 ^ 64)
    (holds : reply.read 0 (countReply count).length = countReply count) :
    countRequestResult reply = count := by
  rw [countRequestResult, ← decodeLE_encodeU64 small]
  exact congrArg decodeLE holds

theorem nextRequestResult_some {reply : Region} {key val : List UInt8} (nonEmpty : key ≠ [])
    (keySmall : key.length < 2 ^ 64) (valSmall : val.length < 2 ^ 64)
    (holds : reply.read 0 (nextReply (some (key, val))).length = nextReply (some (key, val))) :
    nextRequestResult reply = some (key, val) := by
  have length : (nextReply (some (key, val))).length = 8 + key.length + 8 + val.length := by
    simp only [nextReply, List.length_append, length_encodeU64]
  have read (offset count : Nat) (within : offset + count ≤ 8 + key.length + 8 + val.length) :=
    Region.read_of_holds holds offset count (by rw [length]; exact within)
  have keyLen : reply.read 0 8 = encodeU64 key.length := by
    rw [read 0 8 (by omega)]; simp [nextReply]
  have keyBytes : reply.read 8 key.length = key := by
    rw [read 8 key.length (by omega)]; simp [nextReply]
  have valLen : reply.read (8 + key.length) 8 = encodeU64 val.length := by
    rw [read _ 8 (by omega), ← List.drop_drop]; simp [nextReply]
  have valBytes : reply.read (8 + key.length + 8) val.length = val := by
    rw [read _ val.length (by omega), ← List.drop_drop, ← List.drop_drop]; simp [nextReply]
  simp [nextRequestResult, keyLen, keyBytes, valLen, valBytes, decodeLE_encodeU64 keySmall,
    decodeLE_encodeU64 valSmall, nonEmpty]

theorem nextRequestResult_empty {reply : Region} (rest : List UInt8)
    (holds : reply.read 0 (encodeU64 0 ++ rest).length = encodeU64 0 ++ rest) :
    nextRequestResult reply = none := by
  have keyLen := Region.read_prefix holds
  simp only [length_encodeU64] at keyLen
  simp [nextRequestResult, keyLen, decodeLE_encodeU64]

theorem getRequestResult_eq {reply : Region} {result : Option (List UInt8)}
    (small : ∀ val ∈ result, val.length < 2 ^ 64)
    (holds : reply.read 0 (getReply result).length = getReply result) :
    getRequestResult reply = result := by
  cases result with
  | none =>
      have res : reply.read 0 1 = encodeBool false := holds
      simp [getRequestResult, res, encodeBool]
  | some val =>
      have valSmall := small val rfl
      have read (offset count : Nat) (within : offset + count ≤ 1 + 8 + val.length) :=
        Region.read_of_holds holds offset count (by simp [getReply]; omega)
      have res : reply.read 0 1 = encodeBool true := by
        rw [read 0 1 (by omega)]; simp [getReply]
      have valLen : reply.read 1 8 = encodeU64 val.length := by
        rw [read 1 8 (by omega)]; simp [getReply]
      have valBytes : reply.read (1 + 8) val.length = val := by
        rw [read _ val.length (by omega), ← List.drop_drop]; simp [getReply]
      simp [getRequestResult, res, valLen, valBytes, decodeLE_encodeU64 valSmall, encodeBool]

theorem rangeQueryRequestResult_eq {reply : Region} {bufLen : Nat} {ret : Bool}
    (small : bufLen < 2 ^ 64)
    (holds : reply.read 0 (rangeQueryReply bufLen ret).length = rangeQueryReply bufLen ret) :
    rangeQueryRequestResult reply = if bufLen = 0 then (false, 0) else (ret, bufLen) := by
  have bufLenRead : replyBufLen reply = bufLen := by
    rw [replyBufLen, Region.read_of_holds holds 0 8 (by simp [rangeQueryReply])]
    simp [rangeQueryReply, decodeLE_encodeU64 small]
  by_cases empty : bufLen = 0
  · simp [rangeQueryRequestResult, bufLenRead, empty]
  · have hasNext : reply.read 8 1 = encodeBool ret := by
      rw [Region.read_of_holds holds 8 1 (by simp [rangeQueryReply, empty])]
      simp [rangeQueryReply, empty]
    simp [rangeQueryRequestResult, bufLenRead, empty, hasNext, decodeLE_encodeBool]

/-- What a request function returns from a slot that starts with its handler's response,
for every result of the storage call within its C types. `CountRequest` returns the
count and `GetRequest` the result of `Get`; `NextRequest` returns the key and value of
`Next` when the key is not empty, and `false` when `Next` found no item, but also `false`
when it found an item whose key is empty. `RangeQueryRequest` returns `ret` and `bufLen`
for a chunk that is not empty, and `false` for an empty chunk even when `ret` says that
more follows. -/
theorem replies_lose_empty_results :
    (∀ (reply : Region) (count : Nat), count < 2 ^ 64 →
      reply.read 0 (countReply count).length = countReply count →
      countRequestResult reply = count) ∧
    (∀ (reply : Region) (result : Option (List UInt8)), (∀ val ∈ result, val.length < 2 ^ 64) →
      reply.read 0 (getReply result).length = getReply result →
      getRequestResult reply = result) ∧
    (∀ (reply : Region) (key val : List UInt8), key ≠ [] → key.length < 2 ^ 64 →
      val.length < 2 ^ 64 →
      reply.read 0 (nextReply (some (key, val))).length = nextReply (some (key, val)) →
      nextRequestResult reply = some (key, val)) ∧
    (∀ reply : Region, reply.read 0 (nextReply none).length = nextReply none →
      nextRequestResult reply = none) ∧
    (∀ (reply : Region) (val : List UInt8),
      reply.read 0 (nextReply (some ([], val))).length = nextReply (some ([], val)) →
      nextRequestResult reply = none) ∧
    (∀ (reply : Region) (bufLen : Nat) (ret : Bool), 0 < bufLen → bufLen < 2 ^ 64 →
      reply.read 0 (rangeQueryReply bufLen ret).length = rangeQueryReply bufLen ret →
      rangeQueryRequestResult reply = (ret, bufLen)) ∧
    (∀ (reply : Region) (ret : Bool),
      reply.read 0 (rangeQueryReply 0 ret).length = rangeQueryReply 0 ret →
      rangeQueryRequestResult reply = (false, 0)) := by
  refine ⟨fun _ _ small holds => countRequestResult_eq small holds,
    fun _ _ small holds => getRequestResult_eq small holds,
    fun _ _ _ nonEmpty keySmall valSmall holds =>
      nextRequestResult_some nonEmpty keySmall valSmall holds,
    fun _ holds => nextRequestResult_empty [] holds,
    fun _ val holds => nextRequestResult_empty (encodeU64 val.length ++ val) ?_,
    fun _ _ _ positive small holds => ?_, fun _ _ holds => ?_⟩
  · simpa [nextReply, List.append_assoc] using holds
  · rw [rangeQueryRequestResult_eq small holds, if_neg (by omega)]
  · rw [rangeQueryRequestResult_eq (by decide) holds, if_pos rfl]

/-- An item with an empty key and the value `[7]` reads as the end of the iteration, and
an empty chunk with more to come as the end of the scan. -/
theorem empty_key_reported_as_end :
    nextRequestResult (Region.write (fun _ => 0) 0 (nextReply (some ([], [7])))) = none ∧
      rangeQueryRequestResult (Region.write (fun _ => 0) 0 (rangeQueryReply 0 true)) =
        (false, 0) :=
  ⟨replies_lose_empty_results.2.2.2.2.1 _ [7] (Region.read_write_self _ _ _),
    replies_lose_empty_results.2.2.2.2.2.2 _ true (Region.read_write_self _ _ _)⟩

end KvFdw.Shm
