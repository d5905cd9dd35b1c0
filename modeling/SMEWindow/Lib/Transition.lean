import Mathlib.Data.Set.Basic

/-!
# Labelled transition systems

A system is an initial state and a partial step function: a label names one
atomic action, and `none` says that the action is not enabled. A run is a list
of labels, so an interleaving of several threads is a list whose labels name
the thread that moves.

Reachability is relative to a set of permitted labels. The same system then
speaks about the runs in which nothing fails and about the runs in which some
chosen steps may fail. Where it depends on the state whether an action is
permitted, a run may also be asked to meet a condition at each of its steps.

## Main definitions

* `Lib.Transition.System` — an initial state and a labelled partial step
* `System.run` — the state after a list of labels
* `System.Reachable` — the states reached by runs over permitted labels
* `System.Meets` — a run whose every step meets a condition

## Main results

* `System.run_invariant` — a property that every step under a condition keeps is
  kept by a run that meets it
* `System.Reachable.invariant` — a property of the initial state that every
  permitted step keeps holds in every reachable state
-/

set_option autoImplicit false

namespace Lib.Transition

/-- A deterministic labelled system: nondeterminism is the choice of label. -/
structure System (State Label : Type*) where
  /-- The state every run starts from. -/
  init : State
  /-- The effect of one action, `none` where it is not enabled. -/
  step : State → Label → Option State

namespace System

variable {State Label : Type*} (S : System State Label)

/-- The state after a list of actions, `none` if one of them is not enabled. -/
def run : State → List Label → Option State
  | s, [] => some s
  | s, l :: ls => (S.step s l).bind fun t => run t ls

@[simp] theorem run_nil (s : State) : S.run s [] = some s := rfl

@[simp] theorem run_cons (s : State) (l : Label) (ls : List Label) :
    S.run s (l :: ls) = (S.step s l).bind fun t => S.run t ls := rfl

theorem run_append (s : State) (ls ks : List Label) :
    S.run s (ls ++ ks) = (S.run s ls).bind fun t => S.run t ks := by
  induction ls generalizing s with
  | nil => rfl
  | cons l ls ih =>
    rw [List.cons_append, run_cons, run_cons, Option.bind_assoc]
    exact congrArg _ (funext fun t => ih t)

/-- Every action of the run meets a condition on the state in which it is taken. -/
def Meets (condition : State → Label → Prop) : State → List Label → Prop
  | _, [] => True
  | s, l :: ls => condition s l ∧ ∀ t, S.step s l = some t → Meets condition t ls

/-- Some run over permitted labels leads from the initial state to `s`. -/
def Reachable (permitted : Set Label) (s : State) : Prop :=
  ∃ ls : List Label, (∀ l ∈ ls, l ∈ permitted) ∧ S.run S.init ls = some s

variable {S} {permitted : Set Label} {s t : State} {l : Label}

theorem Reachable.init : S.Reachable permitted S.init := ⟨[], by simp, rfl⟩

theorem Reachable.step (h : S.Reachable permitted s) (hl : l ∈ permitted)
    (hstep : S.step s l = some t) : S.Reachable permitted t := by
  obtain ⟨ls, hls, hrun⟩ := h
  refine ⟨ls ++ [l], ?_, ?_⟩
  · intro k hk
    rcases List.mem_append.mp hk with hk | hk
    · exact hls k hk
    · rw [List.mem_singleton.mp hk]
      exact hl
  · simp [run_append, hrun, hstep]

variable {condition : State → Label → Prop} {ls : List Label}

theorem meets_of_forall_mem (h : ∀ l ∈ ls, ∀ s, condition s l) : S.Meets condition s ls := by
  induction ls generalizing s with
  | nil => trivial
  | cons l ls ih =>
    exact ⟨h l List.mem_cons_self s, fun t _ => ih fun k hk => h k (List.mem_cons_of_mem l hk)⟩

/-- A property that one step under a condition keeps is kept by a whole run. -/
theorem run_invariant (Good : State → Prop)
    (keeps : ∀ s l t, Good s → condition s l → S.step s l = some t → Good t)
    (hls : S.Meets condition s ls) (hs : Good s) (hrun : S.run s ls = some t) : Good t := by
  induction ls generalizing s with
  | nil =>
    obtain rfl := Option.some.inj hrun
    exact hs
  | cons l ls ih =>
    obtain ⟨u, hu, hrest⟩ := Option.bind_eq_some_iff.mp hrun
    exact ih (hls.2 u hu) (keeps s l u hs hls.1 hu) hrest

/-- **Invariant rule.** A property of the initial state that every permitted
step keeps holds in every reachable state. -/
theorem Reachable.invariant (h : S.Reachable permitted s) (Good : State → Prop)
    (hinit : Good S.init)
    (keeps : ∀ s l t, Good s → l ∈ permitted → S.step s l = some t → Good t) : Good s := by
  obtain ⟨ls, hls, hrun⟩ := h
  exact run_invariant Good keeps (meets_of_forall_mem fun l hl _ => hls l hl) hinit hrun

end System

end Lib.Transition
