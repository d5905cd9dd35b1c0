import Mathlib.Data.List.Basic

/-!
# Lists of texts with a mark behind each

Texts are put one behind the other with the same mark at the end of each. Whether they
can be found again depends on the mark alone: without it in the texts there is one way
to read them, and with it in one of several texts there is always a second way.

## Main definitions

* `Lib.Terminated.terminated` — the texts with the mark behind each

## Main results

* `eq_of_terminated_eq` — texts without the mark are determined, also in their number
* `forall_terminated_iff` — among lists of the same length, a list is determined exactly
  when it has at most one text or none with the mark
-/

set_option autoImplicit false

namespace Lib.Terminated

variable {α : Type*} {c : α} {xs ys : List (List α)}

/-- The texts with the mark `c` behind each. -/
def terminated (c : α) (xs : List (List α)) : List α := xs.flatMap (· ++ [c])

@[simp] theorem terminated_nil (c : α) : terminated c [] = [] := rfl

@[simp] theorem terminated_cons (c : α) (x : List α) (xs : List (List α)) :
    terminated c (x :: xs) = x ++ c :: terminated c xs := by
  simp [terminated]

/-- What is in one of the texts is in the whole. -/
theorem mem_terminated {a : α} {x : List α} (hx : x ∈ xs) (ha : a ∈ x) : a ∈ terminated c xs :=
  List.mem_flatMap.mpr ⟨x, hx, List.mem_append_left _ ha⟩

theorem notMem_terminated {a : α} (hne : a ≠ c) (h : ∀ x ∈ xs, a ∉ x) : a ∉ terminated c xs := by
  intro ha
  obtain ⟨x, hx, ha⟩ := List.mem_flatMap.mp ha
  rcases List.mem_append.mp ha with ha | ha
  · exact h x hx ha
  · exact hne (List.mem_singleton.mp ha)

/-- There are as many marks as texts, and those in the texts. -/
theorem length_le_count [DecidableEq α] (c : α) (xs : List (List α)) :
    xs.length ≤ (terminated c xs).count c ∧
      ((terminated c xs).count c = xs.length ↔ ∀ x ∈ xs, c ∉ x) := by
  induction xs with
  | nil => simp
  | cons x xs ih =>
    obtain ⟨hle, hiff⟩ := ih
    rw [terminated_cons, List.count_append, List.count_cons_self, List.length_cons,
      List.forall_mem_cons, ← hiff, ← List.count_eq_zero]
    omega

/-- The first mark ends the first text. -/
theorem eq_and_eq_of_append_cons {x y rest rest' : List α} (hx : c ∉ x) (hy : c ∉ y)
    (h : x ++ c :: rest = y ++ c :: rest') : x = y ∧ rest = rest' := by
  induction x generalizing y with
  | nil =>
    cases y with
    | nil => exact ⟨rfl, (List.cons.inj h).2⟩
    | cons b y => exact absurd ((List.cons.inj h).1 ▸ List.mem_cons_self) hy
  | cons a x ih =>
    cases y with
    | nil => exact absurd ((List.cons.inj h).1 ▸ List.mem_cons_self) hx
    | cons b y =>
      obtain ⟨rfl, htail⟩ := List.cons.inj h
      obtain ⟨rfl, hrest⟩ := ih (List.not_mem_of_not_mem_cons hx)
        (List.not_mem_of_not_mem_cons hy) htail
      exact ⟨rfl, hrest⟩

/-- Texts without the mark are determined by the whole, also in their number. -/
theorem eq_of_terminated_eq (hxs : ∀ x ∈ xs, c ∉ x) (hys : ∀ y ∈ ys, c ∉ y)
    (h : terminated c ys = terminated c xs) : ys = xs := by
  induction xs generalizing ys with
  | nil =>
    cases ys with
    | nil => rfl
    | cons y ys => simp at h
  | cons x xs ih =>
    cases ys with
    | nil => simp at h
    | cons y ys =>
      rw [List.forall_mem_cons] at hxs hys
      rw [terminated_cons, terminated_cons] at h
      obtain ⟨rfl, htail⟩ := eq_and_eq_of_append_cons hys.1 hxs.1 h
      rw [ih hxs.2 hys.2 htail]

/-- A mark inside a text can be read as its end, and the end as a mark inside the next
text, or the other way round with the text before it. -/
theorem exists_ne_of_mem (hlength : 2 ≤ xs.length) (hmem : ∃ x ∈ xs, c ∈ x) :
    ∃ ys, ys.length = xs.length ∧ terminated c ys = terminated c xs ∧ ys ≠ xs := by
  induction xs with
  | nil => exact absurd hlength (by simp)
  | cons x xs ih =>
    cases xs with
    | nil => exact absurd hlength (by simp)
    | cons next xs =>
      by_cases hx : c ∈ x
      · obtain ⟨before, after, rfl⟩ := List.append_of_mem hx
        refine ⟨before :: (after ++ c :: next) :: xs, rfl, by simp, ?_⟩
        intro heq
        exact absurd (congrArg List.length (List.cons.inj heq).1) (by simp)
      by_cases hnext : c ∈ next
      · obtain ⟨before, after, rfl⟩ := List.append_of_mem hnext
        refine ⟨(x ++ c :: before) :: after :: xs, rfl, by simp, ?_⟩
        intro heq
        exact absurd (congrArg List.length (List.cons.inj heq).1) (by simp)
      -- the mark stands further back, so there are at least two texts behind this one
      have hrest : ∃ y ∈ xs, c ∈ y := by
        obtain ⟨y, hy, hc⟩ := hmem
        rcases List.mem_cons.mp hy with rfl | hy
        · exact absurd hc hx
        rcases List.mem_cons.mp hy with rfl | hy
        · exact absurd hc hnext
        · exact ⟨y, hy, hc⟩
      obtain ⟨y, hy, hc⟩ := hrest
      have hpos : 0 < xs.length := List.length_pos_of_mem hy
      obtain ⟨ys, hys, heq, hne⟩ :=
        ih (by rw [List.length_cons]; omega) ⟨y, List.mem_cons_of_mem _ hy, hc⟩
      refine ⟨x :: ys, by simp [hys], by simp [heq], ?_⟩
      intro hcons
      exact hne (List.cons.inj hcons).2

/-- Among the lists of its length, a list of texts is determined by the whole exactly when
it has at most one text, or none with the mark. -/
theorem forall_terminated_iff (c : α) (xs : List (List α)) :
    (∀ ys : List (List α), ys.length = xs.length → terminated c ys = terminated c xs → ys = xs) ↔
      xs.length ≤ 1 ∨ ∀ x ∈ xs, c ∉ x := by
  classical
  constructor
  · intro h
    by_contra hneg
    obtain ⟨hlength, hmark⟩ := not_or.mp hneg
    simp only [not_forall, not_not, exists_prop] at hmark
    obtain ⟨ys, hys, heq, hne⟩ := exists_ne_of_mem (by omega) hmark
    exact hne (h ys hys heq)
  · rintro (hlength | hxs) ys hys heq
    · match xs, ys, hys with
      | [], [], _ => rfl
      | [x], [y], _ =>
        simp only [terminated_cons, terminated_nil] at heq
        rw [List.append_cancel_right heq]
      | _ :: _ :: _, _, _ => exact absurd hlength (by simp)
    · refine eq_of_terminated_eq hxs ?_ heq
      -- there are no more marks than texts
      rw [← (length_le_count c ys).2, heq, hys]
      exact (length_le_count c xs).2.mpr hxs

end Lib.Terminated
