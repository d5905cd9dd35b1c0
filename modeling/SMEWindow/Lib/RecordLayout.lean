import SMEWindow.Lib.LittleEndian

/-!
# Records in a fixed number of bytes

A layout says how the values of a type stand in memory: in how many bytes, which they are,
and which value is read from a place. What is read from the place of a value is this value,
whatever comes behind it. Layouts of records are put together from the layouts of their
fields, and the laws come with them.

## Main definitions

* `Lib.RecordLayout.Layout` — bytes of a value and value of bytes
* `Layout.uint16`, `Layout.uint32`, `Layout.uint64` — little-endian fields
* `Layout.prod`, `Layout.array`, `Layout.map` — fields one after the other, arrays, and
  records of such fields

## Main results

* `Layout.decode_encode` — a value is read back
-/

set_option autoImplicit false

namespace Lib.RecordLayout

open Lib.LittleEndian

/-- Values that take a fixed number of bytes. -/
structure Layout (α : Type*) where
  size : ℕ
  encode : α → List UInt8
  /-- The value at the beginning of a list of bytes. -/
  decode : List UInt8 → α
  length_encode : ∀ a, (encode a).length = size
  decode_append : ∀ a rest, decode (encode a ++ rest) = a

namespace Layout

variable {α β : Type*}

theorem decode_encode (x : Layout α) (a : α) : x.decode (x.encode a) = a := by
  have h := x.decode_append a []
  rwa [List.append_nil] at h

/-- An unsigned number of `width` bytes. -/
def unsigned (width : ℕ) (toNat : α → ℕ) (ofNat : ℕ → α)
    (law : ∀ a, ofNat (toNat a % 256 ^ width) = a) : Layout α where
  size := width
  encode a := bytes width (toNat a)
  decode bs := ofNat (value (bs.take width))
  length_encode a := length_bytes width (toNat a)
  decode_append a rest := by
    rw [List.take_append_of_le_length (by rw [length_bytes]),
      List.take_of_length_le (by rw [length_bytes]), value_bytes]
    exact law a

def uint16 : Layout UInt16 := unsigned 2 UInt16.toNat UInt16.ofNat fun a => by
  rw [Nat.mod_eq_of_lt (show a.toNat < 256 ^ 2 from a.toNat_lt), UInt16.ofNat_toNat]

def uint32 : Layout UInt32 := unsigned 4 UInt32.toNat UInt32.ofNat fun a => by
  rw [Nat.mod_eq_of_lt (show a.toNat < 256 ^ 4 from a.toNat_lt), UInt32.ofNat_toNat]

def uint64 : Layout UInt64 := unsigned 8 UInt64.toNat UInt64.ofNat fun a => by
  rw [Nat.mod_eq_of_lt (show a.toNat < 256 ^ 8 from a.toNat_lt), UInt64.ofNat_toNat]

/-- One field, and then another. -/
def prod (x : Layout α) (y : Layout β) : Layout (α × β) where
  size := x.size + y.size
  encode a := x.encode a.1 ++ y.encode a.2
  decode bs := (x.decode bs, y.decode (bs.drop x.size))
  length_encode a := by rw [List.length_append, x.length_encode, y.length_encode]
  decode_append a rest := by
    rw [List.append_assoc, x.decode_append, ← x.length_encode a.1, List.drop_left,
      y.decode_append]

/-- A record that is made of fields. -/
def map (x : Layout α) (record : α → β) (fields : β → α) (law : ∀ b, record (fields b) = b) :
    Layout β where
  size := x.size
  encode b := x.encode (fields b)
  decode bs := record (x.decode bs)
  length_encode b := x.length_encode (fields b)
  decode_append b rest := by rw [x.decode_append, law]

/-! ### Arrays -/

/-- Values one after the other. -/
def decodeMany (x : Layout α) : ℕ → List UInt8 → List α
  | 0, _ => []
  | count + 1, bs => x.decode bs :: decodeMany x count (bs.drop x.size)

theorem length_decodeMany (x : Layout α) (count : ℕ) (bs : List UInt8) :
    (decodeMany x count bs).length = count := by
  induction count generalizing bs with
  | zero => rfl
  | succ count ih => rw [decodeMany, List.length_cons, ih]

theorem decodeMany_flatMap (x : Layout α) (values : List α) (rest : List UInt8) :
    decodeMany x values.length (values.flatMap x.encode ++ rest) = values := by
  induction values with
  | nil => rfl
  | cons a values ih =>
    rw [List.length_cons, decodeMany, List.flatMap_cons, List.append_assoc, x.decode_append,
      ← x.length_encode a, List.drop_left, ih]

theorem length_flatMap_encode (x : Layout α) (values : List α) :
    (values.flatMap x.encode).length = values.length * x.size := by
  induction values with
  | nil => rw [List.flatMap_nil, List.length_nil, List.length_nil, Nat.zero_mul]
  | cons a values ih =>
    rw [List.flatMap_cons, List.length_append, ih, x.length_encode, List.length_cons,
      Nat.succ_mul, Nat.add_comm]

/-- An array of a fixed length. -/
def array (x : Layout α) (count : ℕ) : Layout { values : List α // values.length = count } where
  size := count * x.size
  encode values := values.1.flatMap x.encode
  decode bs := ⟨decodeMany x count bs, length_decodeMany x count bs⟩
  length_encode values := by rw [length_flatMap_encode, values.2]
  decode_append values rest := by
    obtain ⟨values, rfl⟩ := values
    exact Subtype.ext (decodeMany_flatMap x values rest)

end Layout

end Lib.RecordLayout
