import Mathlib.Algebra.Ring.Nat
import Mathlib.Data.List.Basic
import Mathlib.Tactic.Common

/-!
# Hexadecimal numbers of a fixed width

A number is written with leading zeros up to a width. Where it has no more digits than
that, the text determines the number; and texts of known widths can be written one after
the other without losing this.

## Main definitions

* `Lib.Hexadecimal.hex` — the digits of a number, up to a width

## Main results

* `hex_inj` — a number that fits is determined by its digits
-/

set_option autoImplicit false

namespace Lib.Hexadecimal

/-- The `width` last digits of a number in base 16, with leading zeros. For a number below
`16 ^ width` these are all of its digits. -/
def hex : ℕ → ℕ → List Char
  | 0, _ => []
  | width + 1, n => hex width (n / 16) ++ [Nat.digitChar (n % 16)]

@[simp] theorem length_hex (width n : ℕ) : (hex width n).length = width := by
  induction width generalizing n with
  | zero => rfl
  | succ width ih => rw [hex, List.length_append, ih, List.length_singleton]

theorem digitChar_inj {m n : ℕ} (hm : m < 16) (hn : n < 16)
    (h : Nat.digitChar m = Nat.digitChar n) : m = n := by
  have hfin : ∀ a b : Fin 16, Nat.digitChar a = Nat.digitChar b → a = b := by decide
  exact congrArg Fin.val (hfin ⟨m, hm⟩ ⟨n, hn⟩ h)

/-- **The digits determine the number.** -/
theorem hex_inj {width m n : ℕ} (hm : m < 16 ^ width) (hn : n < 16 ^ width)
    (h : hex width m = hex width n) : m = n := by
  induction width generalizing m n with
  | zero => omega
  | succ width ih =>
    obtain ⟨hhigh, hlow⟩ := List.append_inj' h rfl
    rw [Nat.pow_succ] at hm hn
    have hdiv := ih (Nat.div_lt_of_lt_mul (by omega)) (Nat.div_lt_of_lt_mul (by omega)) hhigh
    have hmod := digitChar_inj (Nat.mod_lt m (by decide)) (Nat.mod_lt n (by decide))
      (List.cons.inj hlow).1
    omega

/-- A bit vector of whole digits. -/
theorem toNat_inj_of_hex (width : ℕ) {x y : BitVec (4 * width)}
    (h : hex width x.toNat = hex width y.toNat) : x = y := by
  have hlt : ∀ z : BitVec (4 * width), z.toNat < 16 ^ width := fun z => by
    have hpow : (16 : ℕ) ^ width = 2 ^ (4 * width) := by rw [Nat.pow_mul]
    rw [hpow]
    exact z.isLt
  exact BitVec.eq_of_toNat_eq (hex_inj (hlt x) (hlt y) h)

end Lib.Hexadecimal
