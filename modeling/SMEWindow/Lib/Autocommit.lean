import Mathlib.Data.List.Basic
import Mathlib.Data.List.TakeWhile
import Mathlib.Tactic.Common

/-!
# Programs whose statements are committed one by one

A session is a program over a database that may throw; what it has stored by then
stays stored. It goes through positions, each of which may fail, and some of which
store a row. How much of its rows a session leaves behind is then a matter of the
first position that fails.

## Main definitions

* `Lib.Autocommit.Session` — a program that keeps its database when it throws
* `Lib.Autocommit.Follows` — a session stops at the first position of a plan that
  fails, and the rows of the positions before are what it has stored

## Main results

* `Follows.bind` — one session after another follows one plan after the other
-/

set_option autoImplicit false

namespace Lib.Autocommit

variable {δ π ρ α β : Type}

/-- A program over a database of type `δ` that throws the position at which it fails. -/
abbrev Session (δ π : Type) := ExceptT π (StateM δ)

/-- What a session returns or throws, and the database afterwards. -/
def Session.runOn (x : Session δ π α) (d : δ) : Except π α × δ := StateT.run (ExceptT.run x) d

/-- The position fails. -/
def failAt (p : π) : Session δ π α := throw p

/-- How a database stores rows, and at which positions. -/
structure Scheme (δ π ρ : Type) where
  /-- The database with one more row. -/
  store : δ → ρ → δ
  /-- The position at which a row is stored. -/
  place : ρ → π
  /-- A row is stored at this position. -/
  stores : π → Bool

variable (S : Scheme δ π ρ)

/-! ### Running a session -/

section Run

variable {x : Session δ π α} {f : α → Session δ π β} {d d' : δ}

@[simp] theorem runOn_pure (a : α) : (pure a : Session δ π α).runOn d = (.ok a, d) := rfl

@[simp] theorem runOn_failAt (p : π) : (failAt p : Session δ π α).runOn d = (.error p, d) := rfl

@[simp] theorem runOn_get : (get : Session δ π δ).runOn d = (.ok d, d) := rfl

theorem runOn_bind : (x >>= f).runOn d =
    match x.runOn d with
    | (.ok a, d') => (f a).runOn d'
    | (.error p, d') => (.error p, d') := by
  show ExceptT.bindCont f (x d).1 (x d).2 = _
  simp only [Session.runOn, ExceptT.run, StateT.run]
  rcases x d with ⟨a | p, d'⟩ <;> rfl

theorem runOn_bind_of_ok {a : α} (h : x.runOn d = (.ok a, d')) :
    (x >>= f).runOn d = (f a).runOn d' := by
  rw [runOn_bind, h]

theorem runOn_bind_of_error {p : π} (h : x.runOn d = (.error p, d')) :
    (x >>= f).runOn d = (.error p, d') := by
  rw [runOn_bind, h]

end Run

/-! ### Plans -/

/-- The positions before the first that fails. -/
def reached (fails : π → Bool) (plan : List π) : List π := plan.takeWhile fun p => !fails p

/-- The session stops at the first position of the plan that fails, if there is one, and the
rows of the positions before are what it has stored. -/
structure Follows (fails : π → Bool) (Own : ρ → Prop) (plan : List π) (d : δ)
    (result : Except π α × δ) : Prop where
  stops : match result.1 with
    | .ok _ => plan.find? fails = none
    | .error p => plan.find? fails = some p
  stored : ∃ rows : List ρ, result.2 = rows.foldl S.store d ∧
    rows.map S.place = (reached fails plan).filter S.stores ∧ ∀ row ∈ rows, Own row

variable {S} {fails : π → Bool} {plan plan' : List π}

theorem reached_eq_self (h : plan.find? fails = none) : reached fails plan = plan := by
  refine List.takeWhile_eq_self_iff.mpr fun p hp => ?_
  simpa using List.find?_eq_none.mp h p hp

theorem reached_append_of_none (h : plan.find? fails = none) :
    reached fails (plan ++ plan') = plan ++ reached fails plan' := by
  refine List.takeWhile_append_of_pos fun p hp => ?_
  simpa using List.find?_eq_none.mp h p hp

theorem reached_of_fails {before : List π} {p : π} (hbefore : ∀ q ∈ before, (!fails q) = true)
    (hp : fails p = true) (behind : List π) : reached fails (before ++ p :: behind) = before := by
  rw [reached, List.takeWhile_append_of_pos hbefore]
  simp [hp]

theorem reached_append_of_some {p : π} (h : plan.find? fails = some p) :
    reached fails (plan ++ plan') = reached fails plan := by
  obtain ⟨hp, before, behind, rfl, hbefore⟩ := List.find?_eq_some_iff_append.mp h
  rw [List.append_assoc, List.cons_append, reached_of_fails hbefore hp,
    reached_of_fails hbefore hp]

/-- If the last position stores a row, then all rows are there only if nothing fails. -/
theorem find?_eq_none_of_length {stores : π → Bool} {p : π} (hp : stores p = true)
    (h : ((reached fails (plan ++ [p])).filter stores).length =
      ((plan ++ [p]).filter stores).length) : (plan ++ [p]).find? fails = none := by
  cases hfind : (plan ++ [p]).find? fails with
  | none => rfl
  | some q =>
    -- the last position is among those behind the failure
    obtain ⟨hq, before, behind, hplan, hbefore⟩ := List.find?_eq_some_iff_append.mp hfind
    have hlast : p ∈ q :: behind := by
      have hgetLast : (before ++ q :: behind).getLast? = some p := by
        rw [← hplan, List.getLast?_concat]
      rw [List.getLast?_append_cons] at hgetLast
      exact List.mem_of_getLast? hgetLast
    rw [hplan, reached_of_fails hbefore hq, List.filter_append, List.length_append] at h
    have hmem : p ∈ (q :: behind).filter stores := List.mem_filter.mpr ⟨hlast, hp⟩
    have hpos := List.length_pos_of_mem hmem
    omega

namespace Follows

variable {Own : ρ → Prop} {d : δ} {x : Session δ π α} {f : α → Session δ π β}

theorem nil (a : α) : Follows S fails Own [] d (.ok a, d) := ⟨rfl, [], rfl, rfl, by simp⟩

section Position

variable {p : π}

/-- A position that fails. -/
theorem error (hp : fails p = true) :
    Follows S fails Own [p] d ((.error p, d) : Except π α × δ) :=
  ⟨by simp [hp], [], rfl, by simp [reached, hp], by simp⟩

/-- A position at which nothing is stored. -/
theorem ok (hp : fails p = false) (hstores : S.stores p = false) (a : α) :
    Follows S fails Own [p] d (.ok a, d) :=
  ⟨by simp [hp], [], rfl, by simp [reached, hp, hstores], by simp⟩

/-- A position at which a row is stored. -/
theorem store {row : ρ} (hplace : S.place row = p) (hp : fails p = false)
    (hstores : S.stores p = true) (hown : Own row) (a : α) :
    Follows S fails Own [p] d (.ok a, S.store d row) :=
  ⟨by simp [hp], [row], rfl, by simp [reached, hp, hstores, hplace], by simpa using hown⟩

end Position

/-- What comes behind a failure is not reached. -/
theorem append_of_error {p : π} {d' : δ}
    (h : Follows S fails Own plan d ((.error p, d') : Except π α × δ)) (plan' : List π) :
    Follows S fails Own (plan ++ plan') d ((.error p, d') : Except π β × δ) := by
  have hp : plan.find? fails = some p := h.stops
  refine ⟨?_, ?_⟩
  · simp [List.find?_append, hp]
  · rw [reached_append_of_some hp]
    exact h.stored

/-- **One after another.** The plan of a session is that of its first part, followed by that
of whatever it goes on with. -/
theorem bind (hx : Follows S fails Own plan d (x.runOn d))
    (hf : ∀ a d', x.runOn d = (.ok a, d') → Follows S fails Own plan' d' ((f a).runOn d')) :
    Follows S fails Own (plan ++ plan') d ((x >>= f).runOn d) := by
  rcases hresult : x.runOn d with ⟨p | a, d'⟩
  · rw [hresult] at hx
    rw [runOn_bind_of_error hresult]
    exact hx.append_of_error plan'
  · rw [hresult] at hx
    rw [runOn_bind_of_ok hresult]
    have hnone : plan.find? fails = none := hx.stops
    obtain ⟨rows, rfl, hplaces, hown⟩ := hx.stored
    obtain ⟨hstops, rows', hstored', hplaces', hown'⟩ := hf a _ hresult
    refine ⟨?_, rows ++ rows', ?_, ?_, ?_⟩
    · rw [List.find?_append, hnone, Option.none_or]
      exact hstops
    · rw [List.foldl_append]
      exact hstored'
    · rw [reached_append_of_none hnone, List.map_append, List.filter_append, hplaces, hplaces',
        reached_eq_self hnone]
    · intro row hrow
      rcases List.mem_append.mp hrow with hrow | hrow
      · exact hown row hrow
      · exact hown' row hrow

end Follows

end Lib.Autocommit
