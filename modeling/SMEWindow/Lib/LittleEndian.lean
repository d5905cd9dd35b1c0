import Mathlib.Data.Nat.Digits.Defs
import Mathlib.Tactic.Common

/-!
# Little-endian fields

Fixed-width integers as little-endian bytes, in the two directions a binary
protocol needs. Signed values go through their two's complement pattern, and a
32-bit read looks at no more than four bytes.

## Main results

* `value_bytes` — reading back a field gives its value modulo the field's range
* `toInt32_getBytes32` — a signed field round-trips
-/

set_option autoImplicit false

namespace Lib.LittleEndian

/-- The `width` low bytes of `n`, least significant first. -/
def bytes : ℕ → ℕ → List UInt8
  | 0, _ => []
  | width + 1, n => UInt8.ofNat n :: bytes width (n / 256)

/-- The number whose base-256 digits are the given bytes. -/
def value (bs : List UInt8) : ℕ := Nat.ofDigits 256 (bs.map UInt8.toNat)

@[simp] theorem length_bytes (width n : ℕ) : (bytes width n).length = width := by
  induction width generalizing n with
  | zero => rfl
  | succ width ih => rw [bytes, List.length_cons, ih]

@[simp] theorem value_nil : value [] = 0 := rfl

theorem value_cons (b : UInt8) (bs : List UInt8) : value (b :: bs) = b.toNat + 256 * value bs := by
  rw [value, List.map_cons, Nat.ofDigits_cons]
  rfl

theorem value_append (xs ys : List UInt8) :
    value (xs ++ ys) = value xs + 256 ^ xs.length * value ys := by
  rw [value, List.map_append, Nat.ofDigits_append, List.length_map]
  rfl

theorem value_bytes (width n : ℕ) : value (bytes width n) = n % 256 ^ width := by
  induction width generalizing n with
  | zero => simp [bytes, Nat.mod_one]
  | succ width ih =>
    have hlow : (UInt8.ofNat n).toNat = n % 256 := UInt8.toNat_ofNat'
    rw [bytes, value_cons, ih, hlow, pow_succ' 256 width, Nat.mod_mul]

theorem value_lt (bs : List UInt8) : value bs < 256 ^ bs.length := by
  induction bs with
  | nil => simp
  | cons b bs ih =>
    have hb : b.toNat < 256 := b.toNat_lt
    rw [value_cons, List.length_cons, pow_succ']
    omega

/-! ### Signed fields -/

/-- The four bytes of a 32-bit integer. -/
def getBytes32 (n : Int32) : List UInt8 := bytes 4 n.toBitVec.toNat

/-- The eight bytes of a 64-bit integer. -/
def getBytes64 (n : Int64) : List UInt8 := bytes 8 n.toBitVec.toNat

/-- The 32-bit integer in the first four bytes. -/
def toInt32 (bs : List UInt8) : Int32 := Int32.ofBitVec (BitVec.ofNat 32 (value (bs.take 4)))

/-- The 64-bit integer in the first eight bytes. -/
def toInt64 (bs : List UInt8) : Int64 := Int64.ofBitVec (BitVec.ofNat 64 (value (bs.take 8)))

@[simp] theorem length_getBytes32 (n : Int32) : (getBytes32 n).length = 4 := length_bytes _ _

@[simp] theorem length_getBytes64 (n : Int64) : (getBytes64 n).length = 8 := length_bytes _ _

theorem toInt32_getBytes32 (n : Int32) : toInt32 (getBytes32 n) = n := by
  rw [toInt32, List.take_of_length_le (by simp), getBytes32, value_bytes,
    Nat.mod_eq_of_lt (show n.toBitVec.toNat < 256 ^ 4 from n.toBitVec.isLt),
    BitVec.ofNat_toNat, BitVec.setWidth_eq, Int32.ofBitVec_toBitVec]

/-- Only the low 32 bits of a longer field are looked at. -/
theorem toInt32_eq_ofNat_value (bs : List UInt8) : toInt32 bs = Int32.ofNat (value bs) := by
  have hsplit : value bs % 2 ^ 32 = value (bs.take 4) % 2 ^ 32 := by
    rcases Nat.lt_or_ge bs.length 4 with hshort | hlong
    · rw [List.take_of_length_le hshort.le]
    · have hlength : (bs.take 4).length = 4 := by
        rw [List.length_take, min_eq_left hlong]
      conv_lhs => rw [← List.take_append_drop 4 bs, value_append, hlength]
      exact Nat.add_mul_mod_self_left _ _ _
  rw [toInt32, ← Int32.toBitVec_inj, Int32.toBitVec_ofBitVec, Int32.toBitVec_ofNat',
    ← BitVec.toNat_inj, BitVec.toNat_ofNat, BitVec.toNat_ofNat, hsplit]

theorem toInt64_eq_ofNat_value {bs : List UInt8} (hlength : bs.length ≤ 8) :
    toInt64 bs = Int64.ofNat (value bs) := by
  rw [toInt64, List.take_of_length_le hlength, Int64.ofBitVec_ofNat]

end Lib.LittleEndian
