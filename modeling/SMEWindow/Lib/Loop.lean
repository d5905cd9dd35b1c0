import Mathlib.Data.Nat.Find
import Mathlib.Logic.Function.Iterate
import Mathlib.Tactic.Common

/-!
# Loops with fuel

A `while` loop as a computable function: it runs its body as long as the test
holds, and answers `none` if the fuel ends before the loop does. A loop ends at
the first iterate of its body that fails the test, so what it computes and
whether it ends are both statements about iterates.

## Main results

* `whileFuel_eq_some_iff` — a loop ends at the first iterate that fails the test
* `exists_endsAfter_iff` — a loop ends if and only if some iterate fails the test
-/

set_option autoImplicit false

namespace Lib.Loop

variable {σ : Type*} {test : σ → Bool} {body : σ → σ} {s t : σ} {fuel : ℕ}

/-- Run `body` while `test` holds, for fewer than `fuel` iterations. -/
def whileFuel (test : σ → Bool) (body : σ → σ) : ℕ → σ → Option σ
  | 0, _ => none
  | fuel + 1, s => if test s then whileFuel test body fuel (body s) else some s

/-- The loop ends after `k` iterations. -/
def EndsAfter (test : σ → Bool) (body : σ → σ) (s : σ) (k : ℕ) : Prop :=
  (∀ j < k, test (body^[j] s) = true) ∧ test (body^[k] s) = false

theorem endsAfter_succ_iff {k : ℕ} :
    EndsAfter test body s (k + 1) ↔ test s = true ∧ EndsAfter test body (body s) k := by
  constructor
  · rintro ⟨hbefore, hend⟩
    exact ⟨hbefore 0 k.succ_pos, fun j hj => hbefore (j + 1) (Nat.succ_lt_succ hj), hend⟩
  · rintro ⟨hfirst, hbefore, hend⟩
    refine ⟨fun j hj => ?_, hend⟩
    cases j with
    | zero => exact hfirst
    | succ j => exact hbefore j (Nat.lt_of_succ_lt_succ hj)

/-- A loop ends at the first iterate that fails the test. -/
theorem whileFuel_eq_some_iff :
    whileFuel test body fuel s = some t ↔
      ∃ k < fuel, EndsAfter test body s k ∧ t = body^[k] s := by
  induction fuel generalizing s with
  | zero => simp [whileFuel]
  | succ fuel ih =>
    rw [whileFuel]
    by_cases htest : test s = true
    · -- one iteration, then the loop from there
      rw [if_pos htest, ih]
      constructor
      · rintro ⟨k, hk, hends, rfl⟩
        exact ⟨k + 1, Nat.succ_lt_succ hk, endsAfter_succ_iff.mpr ⟨htest, hends⟩, rfl⟩
      · rintro ⟨k, hk, hends, rfl⟩
        cases k with
        | zero => exact absurd htest (by simpa using hends.2)
        | succ k =>
          exact ⟨k, Nat.lt_of_succ_lt_succ hk, (endsAfter_succ_iff.mp hends).2, rfl⟩
    · rw [if_neg htest, Option.some.injEq]
      constructor
      · rintro rfl
        exact ⟨0, fuel.succ_pos, ⟨fun j hj => absurd hj j.not_lt_zero, by simpa using htest⟩, rfl⟩
      · rintro ⟨k, -, hends, rfl⟩
        cases k with
        | zero => rfl
        | succ k => exact absurd (hends.1 0 k.succ_pos) htest

/-- A loop ends if and only if some iterate fails the test. -/
theorem exists_endsAfter_iff :
    (∃ k, EndsAfter test body s k) ↔ ∃ k, test (body^[k] s) = false := by
  constructor
  · rintro ⟨k, -, hend⟩
    exact ⟨k, hend⟩
  · intro hstops
    -- the first iterate that fails the test
    refine ⟨Nat.find hstops, fun j hj => ?_, Nat.find_spec hstops⟩
    simpa using Nat.find_min hstops hj

/-- A loop ends after one number of iterations at most. -/
theorem EndsAfter.eq {j k : ℕ} (hj : EndsAfter test body s j) (hk : EndsAfter test body s k) :
    j = k := by
  rcases lt_trichotomy j k with hlt | heq | hgt
  · exact absurd hj.2 (by simpa using hk.1 j hlt)
  · exact heq
  · exact absurd hk.2 (by simpa using hj.1 k hgt)

end Lib.Loop
