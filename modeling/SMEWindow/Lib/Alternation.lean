import Mathlib.Data.List.Basic
import Mathlib.Tactic.Common

/-!
# Uses and renewals

A thing that is used up by an action, and renewed by another. Going through a list of
actions, it is there whenever it is used if and only if between any two uses lies a
renewal.

## Main definitions

* `Lib.Alternation.Alternates` — it is there whenever it is used
* `Lib.Alternation.Spaced` — between two uses lies a renewal

## Main results

* `alternates_iff_spaced` — these are the same
-/

set_option autoImplicit false

namespace Lib.Alternation

variable {α : Type*} (uses renews : α → Bool)

/-- Whether it is used up after an action. -/
def after (used : Bool) (a : α) : Bool := !renews a && (used || uses a)

/-- It is there whenever it is used; `used` says whether it is used up at first. -/
def Alternates : Bool → List α → Prop
  | _, [] => True
  | used, a :: as => (uses a = true → used = false) ∧ Alternates (after uses renews used a) as

/-- Every use comes after a renewal. -/
def Renewed (as : List α) : Prop :=
  ∀ y b z, as = y ++ b :: z → uses b = true → ∃ k ∈ y, renews k = true

/-- Between any two uses lies a renewal. -/
def Spaced (as : List α) : Prop :=
  ∀ x a y b z, as = x ++ a :: (y ++ b :: z) → uses a = true → uses b = true →
    ∃ k ∈ y, renews k = true

variable {uses renews} {a : α} {as : List α}

theorem renewed_cons : Renewed uses renews (a :: as) ↔
    uses a = false ∧ (renews a = false → Renewed uses renews as) := by
  constructor
  · intro h
    refine ⟨Bool.eq_false_iff.mpr fun huses => ?_, fun hrenews y b z heq huses => ?_⟩
    · obtain ⟨k, hk, -⟩ := h [] a as rfl huses
      cases hk
    · obtain ⟨k, hk, hrenews'⟩ := h (a :: y) b z (congrArg (a :: ·) heq) huses
      rcases List.mem_cons.mp hk with rfl | hk
      · exact absurd hrenews' (Bool.eq_false_iff.mp hrenews)
      · exact ⟨k, hk, hrenews'⟩
  · rintro ⟨huses, h⟩ (_ | ⟨a', y⟩) b z heq hb
    · obtain ⟨rfl, -⟩ := List.cons.inj heq
      exact absurd hb (Bool.eq_false_iff.mp huses)
    · obtain ⟨rfl, htail⟩ := List.cons.inj heq
      cases hrenews : renews a with
      | true => exact ⟨a, List.mem_cons_self, hrenews⟩
      | false =>
        obtain ⟨k, hk, hrenews'⟩ := h hrenews y b z htail hb
        exact ⟨k, List.mem_cons_of_mem a hk, hrenews'⟩

theorem spaced_cons : Spaced uses renews (a :: as) ↔
    (uses a = true → Renewed uses renews as) ∧ Spaced uses renews as := by
  constructor
  · intro h
    exact ⟨fun huses y b z heq => h [] a y b z (congrArg (a :: ·) heq) huses,
      fun x a' y b z heq => h (a :: x) a' y b z (congrArg (a :: ·) heq)⟩
  · rintro ⟨hrenewed, h⟩ (_ | ⟨a', x⟩) a'' y b z heq huses
    · obtain ⟨rfl, htail⟩ := List.cons.inj heq
      exact hrenewed huses y b z htail
    · obtain ⟨rfl, htail⟩ := List.cons.inj heq
      exact h x a'' y b z htail huses

theorem alternates_iff (hdisjoint : ∀ a, uses a = true → renews a = false) (used : Bool)
    (as : List α) : Alternates uses renews used as ↔
      (used = true → Renewed uses renews as) ∧ Spaced uses renews as := by
  induction as generalizing used with
  | nil =>
    refine ⟨fun _ => ⟨fun _ y b z heq => ?_, fun x a y b z heq => ?_⟩, fun _ => trivial⟩
    · exact absurd heq.symm (List.append_ne_nil_of_right_ne_nil _ (List.cons_ne_nil _ _))
    · exact absurd heq.symm (List.append_ne_nil_of_right_ne_nil _ (List.cons_ne_nil _ _))
  | cons a as ih =>
    rw [Alternates, ih, renewed_cons, spaced_cons, after]
    have hdisjoint := hdisjoint a
    cases huses : uses a <;> cases hrenews : renews a <;> cases used <;>
      simp_all

/-- **Uses alternate with renewals exactly when they are spaced by them.** -/
theorem alternates_iff_spaced (hdisjoint : ∀ a, uses a = true → renews a = false)
    (as : List α) : Alternates uses renews false as ↔ Spaced uses renews as := by
  rw [alternates_iff hdisjoint]
  exact and_iff_right fun h => nomatch h

end Lib.Alternation
