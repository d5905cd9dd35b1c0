import Mathlib.Tactic.Common

/-!
# Chains

A value that may wrap another of its kind, which may wrap another, and so on to
an innermost one: a nonempty list seen from its outermost element.

## Main definitions

* `Lib.Chain` — an element and the chain it wraps, if it wraps one
* `Chain.inner`, `Chain.toList`, `Chain.map` — the wrapped chain, all elements,
  and the same chain over other elements
-/

set_option autoImplicit false

namespace Lib

/-- An element that wraps nothing, or one around a chain. -/
inductive Chain (α : Type*)
  | innermost (a : α)
  | wrapping (a : α) (inner : Chain α)

namespace Chain

variable {α β : Type*}

/-- The outermost element. -/
def outermost : Chain α → α
  | .innermost a => a
  | .wrapping a _ => a

/-- What the outermost element wraps. -/
def inner : Chain α → Option (Chain α)
  | .innermost _ => none
  | .wrapping _ inner => some inner

/-- All elements, the outermost first. -/
def toList : Chain α → List α
  | .innermost a => [a]
  | .wrapping a inner => a :: inner.toList

/-- The chain of the images. -/
def map (f : α → β) : Chain α → Chain β
  | .innermost a => .innermost (f a)
  | .wrapping a inner => .wrapping (f a) (inner.map f)

theorem outermost_mem_toList (c : Chain α) : c.outermost ∈ c.toList := by
  cases c <;> simp [outermost, toList]

theorem toList_map (f : α → β) (c : Chain α) : (c.map f).toList = c.toList.map f := by
  induction c with
  | innermost a => rfl
  | wrapping a inner ih => rw [map, toList, toList, List.map_cons, ih]

theorem map_map {γ : Type*} (g : β → γ) (f : α → β) (c : Chain α) :
    (c.map f).map g = c.map (g ∘ f) := by
  induction c with
  | innermost a => rfl
  | wrapping a inner ih => rw [map, map, map, ih]; rfl

end Chain

end Lib
