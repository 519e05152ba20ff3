import Mathlib.Data.UInt
import Mathlib.Data.List.Basic
import Mathlib.Tactic.Ring

/-!
# Bytes and shared regions

Little-endian fields as `memcpy` lays out a C integer, and the `memcpy` reads and writes
of a shared region.
-/

set_option autoImplicit false

namespace KvFdw

/-! ## Little-endian fields -/

/-- The `width` little-endian bytes of `value`, as `memcpy(dst, &value, width)` stores a
C integer of that width on the platform; bits above `8 * width` are dropped. -/
def encodeLE : Nat → Nat → List UInt8
  | 0, _ => []
  | width + 1, value => UInt8.ofNat (value % 256) :: encodeLE width (value / 256)

/-- The natural number whose little-endian bytes are given. -/
def decodeLE : List UInt8 → Nat
  | [] => 0
  | byte :: rest => byte.toNat + 256 * decodeLE rest

@[simp] theorem encodeLE_zero (value : Nat) : encodeLE 0 value = [] := rfl

@[simp] theorem encodeLE_succ (width value : Nat) :
    encodeLE (width + 1) value = UInt8.ofNat (value % 256) :: encodeLE width (value / 256) :=
  rfl

@[simp] theorem decodeLE_nil : decodeLE [] = 0 := rfl

@[simp] theorem decodeLE_cons (byte : UInt8) (rest : List UInt8) :
    decodeLE (byte :: rest) = byte.toNat + 256 * decodeLE rest := rfl

@[simp] theorem length_encodeLE (width value : Nat) : (encodeLE width value).length = width := by
  induction width generalizing value with
  | zero => rfl
  | succ width ih => simp [ih]

theorem toNat_ofNat_byte (value : Nat) : (UInt8.ofNat value).toNat = value % 256 := by
  simp [UInt8.toNat, UInt8.ofNat]

theorem decodeLE_encodeLE (width value : Nat) :
    decodeLE (encodeLE width value) = value % 256 ^ width := by
  induction width generalizing value with
  | zero => simp [Nat.mod_one]
  | succ width ih =>
      rw [encodeLE_succ, decodeLE_cons, ih, toNat_ofNat_byte, Nat.mod_mod, pow_succ',
        Nat.mod_mul]

theorem decodeLE_encodeLE_of_lt {width value : Nat} (small : value < 256 ^ width) :
    decodeLE (encodeLE width value) = value := by
  rw [decodeLE_encodeLE, Nat.mod_eq_of_lt small]

/-- The four bytes of a `uint32`, an `Oid` or an `int` (two's complement) field. -/
def encodeU32 (value : Nat) : List UInt8 := encodeLE 4 value

/-- The eight bytes of a `uint64` or `size_t` field. -/
def encodeU64 (value : Nat) : List UInt8 := encodeLE 8 value

/-- The four bytes of a signed `int` or `pid_t`, in two's complement. -/
def encodeI32 (value : Int) : List UInt8 := encodeLE 4 (value % 2 ^ 32).toNat

/-- The two bytes of an `AttrNumber` (`int16`), in two's complement. -/
def encodeI16 (value : Int) : List UInt8 := encodeLE 2 (value % 2 ^ 16).toNat

/-- A signed `int` read from its four bytes, in two's complement. -/
def decodeI32 (bytes : List UInt8) : Int :=
  if decodeLE bytes < 2 ^ 31 then decodeLE bytes else decodeLE bytes - 2 ^ 32

/-- A signed `int16` read from its two bytes, in two's complement. -/
def decodeI16 (bytes : List UInt8) : Int :=
  if decodeLE bytes < 2 ^ 15 then decodeLE bytes else decodeLE bytes - 2 ^ 16

/-- `count` `int16` values read one after the other. -/
def decodeI16s : Nat → List UInt8 → List Int
  | 0, _ => []
  | count + 1, bytes => decodeI16 (bytes.take 2) :: decodeI16s count (bytes.drop 2)

/-- A C `bool` occupies one byte holding 0 or 1. -/
def encodeBool (value : Bool) : List UInt8 := [if value then 1 else 0]

@[simp] theorem length_encodeU32 (value : Nat) : (encodeU32 value).length = 4 := rfl
@[simp] theorem length_encodeU64 (value : Nat) : (encodeU64 value).length = 8 := rfl
@[simp] theorem length_encodeI32 (value : Int) : (encodeI32 value).length = 4 := rfl
@[simp] theorem length_encodeI16 (value : Int) : (encodeI16 value).length = 2 := rfl
@[simp] theorem length_encodeBool (value : Bool) : (encodeBool value).length = 1 := rfl

theorem decodeLE_encodeU32 {value : Nat} (small : value < 2 ^ 32) :
    decodeLE (encodeU32 value) = value :=
  decodeLE_encodeLE_of_lt (by simpa using small)

theorem decodeLE_encodeU32_eq_mod (value : Nat) : decodeLE (encodeU32 value) = value % 2 ^ 32 :=
  decodeLE_encodeLE 4 value

theorem decodeLE_encodeU64_eq_mod (value : Nat) : decodeLE (encodeU64 value) = value % 2 ^ 64 :=
  decodeLE_encodeLE 8 value

theorem decodeLE_encodeU64 {value : Nat} (small : value < 2 ^ 64) :
    decodeLE (encodeU64 value) = value :=
  decodeLE_encodeLE_of_lt (by simpa using small)

theorem decodeI32_encodeI32 {value : Int} (inRange : -2 ^ 31 ≤ value ∧ value < 2 ^ 31) :
    decodeI32 (encodeI32 value) = value := by
  have nonneg : 0 ≤ value % 2 ^ 32 := Int.emod_nonneg _ (by decide)
  unfold decodeI32 encodeI32
  rw [decodeLE_encodeLE_of_lt (by omega)]
  split_ifs <;> omega

theorem decodeI16_encodeI16 {value : Int} (inRange : -2 ^ 15 ≤ value ∧ value < 2 ^ 15) :
    decodeI16 (encodeI16 value) = value := by
  have nonneg : 0 ≤ value % 2 ^ 16 := Int.emod_nonneg _ (by decide)
  unfold decodeI16 encodeI16
  rw [decodeLE_encodeLE_of_lt (by omega)]
  split_ifs <;> omega

theorem decodeI16s_flatMap (values : List Int)
    (inRange : ∀ value ∈ values, -2 ^ 15 ≤ value ∧ value < 2 ^ 15) (rest : List UInt8) :
    decodeI16s values.length (values.flatMap encodeI16 ++ rest) = values := by
  induction values with
  | nil => rfl
  | cons value others ih =>
      simp only [List.mem_cons, forall_eq_or_imp] at inRange
      simp only [List.length_cons, List.flatMap_cons, List.append_assoc, decodeI16s,
        List.take_left' (length_encodeI16 value), List.drop_left' (length_encodeI16 value),
        decodeI16_encodeI16 inRange.1, ih inRange.2]

theorem decodeI32_encodeU32 {value : Nat} (small : value < 2 ^ 31) :
    decodeI32 (encodeU32 value) = value := by
  rw [decodeI32, decodeLE_encodeU32 (by omega), if_pos (by exact_mod_cast small)]

theorem ite_length_pos {α : Type} (values : List α) :
    (if values.length > 0 then values else []) = values := by
  split_ifs with positive
  · rfl
  · exact (List.eq_nil_of_length_eq_zero (by omega)).symm

theorem decodeLE_encodeBool (value : Bool) : (decodeLE (encodeBool value) != 0) = value := by
  cases value <;> rfl

/-! ## Shared regions -/

/-- A byte-addressed shared-memory region, such as `ptr->area` or one `ResponseQueue[i]`.
Offsets past the region's declared size stand for the memory that follows it. -/
abbrev Region := Nat → UInt8

/-- `memcpy(region + offset, bytes, length)`. -/
def Region.write (region : Region) (offset : Nat) (bytes : List UInt8) : Region :=
  fun position =>
    if offset ≤ position ∧ position < offset + bytes.length then
      bytes.getD (position - offset) 0
    else region position

/-- `memcpy(dst, region + offset, length)`: the `length` bytes read from `offset`. -/
def Region.read (region : Region) (offset length : Nat) : List UInt8 :=
  (List.range length).map fun index => region (offset + index)

@[simp] theorem Region.length_read (region : Region) (offset length : Nat) :
    (region.read offset length).length = length := by
  simp [Region.read]

theorem Region.write_apply_of_lt {region : Region} {offset position : Nat}
    {bytes : List UInt8} (before : position < offset) :
    region.write offset bytes position = region position := by
  simp [Region.write, show ¬offset ≤ position by omega]

theorem Region.write_apply_of_le {region : Region} {offset position : Nat}
    {bytes : List UInt8} (after : offset + bytes.length ≤ position) :
    region.write offset bytes position = region position := by
  simp [Region.write, show ¬position < offset + bytes.length by omega]

theorem Region.write_apply_inside {region : Region} {offset index : Nat}
    {bytes : List UInt8} (inside : index < bytes.length) :
    region.write offset bytes (offset + index) = bytes[index] := by
  simp [Region.write, inside]

/-- Reading exactly the written range returns the written bytes. -/
@[simp] theorem Region.read_write_self (region : Region) (offset : Nat) (bytes : List UInt8) :
    (region.write offset bytes).read offset bytes.length = bytes := by
  apply List.ext_getElem (by simp)
  intro index inRead inBytes
  simp [Region.read, Region.write_apply_inside inBytes]

theorem Region.read_getElem (region : Region) {offset length index : Nat}
    (inside : index < (region.read offset length).length) :
    (region.read offset length)[index] = region (offset + index) := by
  simp [Region.read]

theorem Region.read_add (region : Region) (offset first second : Nat) :
    region.read offset (first + second) =
      region.read offset first ++ region.read (offset + first) second := by
  simp only [Region.read, List.range_add, List.map_append, List.map_map]
  congr 1
  exact List.map_congr_left fun index _ => by simp [Nat.add_assoc]

theorem Region.take_read (region : Region) (offset length count : Nat) :
    (region.read offset length).take count = region.read offset (min count length) := by
  rw [Region.read, Region.read, ← List.map_take, List.take_range]

theorem Region.drop_read (region : Region) (offset length count : Nat) :
    (region.read offset length).drop count = region.read (offset + count) (length - count) := by
  by_cases short : length ≤ count
  · simp [Region.read, List.drop_eq_nil_of_le, short, Nat.sub_eq_zero_of_le short]
  · obtain ⟨rest, rfl⟩ : ∃ rest, length = count + rest := ⟨length - count, by omega⟩
    rw [Region.read_add, List.drop_left' (by simp), Nat.add_sub_cancel_left]

theorem Region.read_write_of_le {region : Region} {offset length position : Nat}
    {bytes : List UInt8} (before : offset + length ≤ position) :
    (region.write position bytes).read offset length = region.read offset length := by
  simp only [Region.read]
  exact List.map_congr_left fun index member => by
    rw [Region.write_apply_of_lt (by simp at member; omega)]

theorem Region.read_write_append {region : Region} {frame : List UInt8}
    (holds : region.read 0 frame.length = frame) (bytes : List UInt8) :
    (region.write frame.length bytes).read 0 (frame ++ bytes).length = frame ++ bytes := by
  rw [List.length_append, Region.read_add, Region.read_write_of_le (by omega), holds,
    Nat.zero_add, Region.read_write_self]

theorem Region.take_read_of_holds {region : Region} {frame : List UInt8}
    (holds : region.read 0 frame.length = frame) (bound : Nat) :
    (region.read 0 bound).take frame.length = frame.take bound := by
  rw [Region.take_read, ← holds, Region.take_read, Nat.min_comm]
  simp [holds]

theorem Region.read_of_holds {region : Region} {frame : List UInt8}
    (holds : region.read 0 frame.length = frame) (offset length : Nat)
    (within : offset + length ≤ frame.length) :
    region.read offset length = (frame.drop offset).take length := by
  rw [← holds, Region.drop_read, Region.take_read, Nat.zero_add, Nat.min_eq_left (by omega)]

theorem Region.read_prefix {region : Region} {first second : List UInt8}
    (holds : region.read 0 (first ++ second).length = first ++ second) :
    region.read 0 first.length = first := by
  rw [Region.read_of_holds holds 0 first.length (by simp)]
  simp

end KvFdw
