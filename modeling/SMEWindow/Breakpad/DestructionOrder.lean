import SMEWindow.Breakpad.HandlerStack
import Mathlib.Data.List.Nodup

/-!
# Destroying handlers in another order

The destructor of an `ExceptionHandler` installs what was there before the handler was
constructed, whether the handler is the newest or not. The stack is put in order, with a
warning, but what is installed may then belong to handlers that no longer exist.

## Main definitions

* `HandlerStack.afterAll` — handlers constructed in one order and destroyed in another

## Main results

* `raise_afterAll_iff` — a process survives the next exception exactly when its oldest
  handler was destroyed last
-/

set_option autoImplicit false

namespace SMEWindow.Breakpad

namespace HandlerStack

variable {ι φ : Type} [DecidableEq ι]

/-- Handlers are constructed one after the other. -/
def constructAll (types : ι → HandlerType) (order : List ι) (p : Process ι φ) : Process ι φ :=
  order.foldl (fun p i => construct p i (types i)) p

/-- Handlers are destroyed one after the other. -/
def destroyAll (order : List ι) (p : Process ι φ) : Process ι φ := order.foldl destroy p

variable {types : ι → HandlerType} {order : List ι} {k : Kind} {p : Process ι φ}

theorem constructAll_handler_of_notMem {j : ι} (hj : j ∉ order) :
    (constructAll types order p).handler j = p.handler j := by
  induction order generalizing p with
  | nil => rfl
  | cons i rest ih =>
    obtain ⟨hne, hj⟩ := not_or.mp (mt List.mem_cons.mpr hj)
    exact (ih hj).trans (Function.update_of_ne hne ..)

theorem constructAll_handler_types {j : ι} (hj : j ∈ order) :
    ((constructAll types order p).handler j).handler_types_ = types j := by
  induction order generalizing p with
  | nil => exact absurd hj List.not_mem_nil
  | cons i rest ih =>
    by_cases hrest : j ∈ rest
    · exact ih hrest
    · obtain rfl : j = i := (List.mem_cons.mp hj).resolve_right hrest
      change ((constructAll types rest _).handler j).handler_types_ = _
      rw [constructAll_handler_of_notMem hrest]
      simp [construct]

/-- Only the first handler keeps what was there before; all others keep the function of
the class. -/
theorem constructAll_previous (hnodup : order.Nodup) (htypes : ∀ i ∈ order, types i k = true)
    {j : ι} (hj : j ∈ order) :
    ((constructAll types order p).handler j).previous k =
      if order.head? = some j then p.installed k else .own := by
  induction order generalizing p with
  | nil => exact absurd hj List.not_mem_nil
  | cons i rest ih =>
    obtain ⟨hi, hrest⟩ := List.nodup_cons.mp hnodup
    rw [List.head?_cons]
    rcases List.mem_cons.mp hj with rfl | hj
    · rw [if_pos rfl]
      change ((constructAll types rest _).handler j).previous k = _
      rw [constructAll_handler_of_notMem hi]
      simp [construct, htypes j List.mem_cons_self]
    · rw [if_neg fun heq : some i = some j => hi (Option.some.inj heq ▸ hj)]
      refine (ih hrest (fun m hm => htypes m (List.mem_cons_of_mem i hm)) hj).trans ?_
      simp [construct, htypes i List.mem_cons_self]

theorem constructAll_stack (htypes : ∀ i ∈ order, (types i).isSome = true) :
    (constructAll types order p).handler_stack_ = order.reverse ++ p.handler_stack_ := by
  induction order generalizing p with
  | nil => rfl
  | cons i rest ih =>
    refine (ih fun j hj => htypes j (List.mem_cons_of_mem i hj)).trans ?_
    simp [construct, htypes i List.mem_cons_self]

/-- The last handler to go decides what is installed. -/
theorem destroyAll_installed (htypes : ∀ i ∈ order, (p.handler i).handler_types_ k = true)
    {j : ι} (hlast : order.getLast? = some j) :
    (destroyAll order p).installed k = (p.handler j).previous k := by
  induction order generalizing p with
  | nil => cases hlast
  | cons i rest ih =>
    cases rest with
    | nil =>
      obtain rfl : i = j := Option.some.inj hlast
      exact if_pos (htypes i List.mem_cons_self)
    | cons m rest =>
      rw [List.getLast?_cons_cons] at hlast
      exact ih (p := destroy p i) (fun n hn => htypes n (List.mem_cons_of_mem i hn)) hlast

theorem mem_remove {i j : ι} {stack : List ι} (hnodup : stack.Nodup) :
    j ∈ remove i stack ↔ j ∈ stack ∧ j ≠ i := by
  unfold remove
  split_ifs with hhead
  · obtain ⟨rest, rfl⟩ := List.head?_eq_some_iff.mp hhead
    have hi := (List.nodup_cons.mp hnodup).1
    rw [List.tail_cons, List.mem_cons]
    constructor
    · intro hj
      exact ⟨.inr hj, fun heq => hi (heq ▸ hj)⟩
    · rintro ⟨hj | hj, hne⟩
      · exact absurd hj hne
      · exact hj
  · simp [List.mem_filter]

theorem nodup_remove {i : ι} {stack : List ι} (hnodup : stack.Nodup) : (remove i stack).Nodup := by
  unfold remove
  split_ifs with hhead
  · exact hnodup.tail
  · exact hnodup.filter _

theorem mem_destroyAll_stack (htypes : ∀ i ∈ order, (p.handler i).handler_types_.isSome = true)
    (hnodup : p.handler_stack_.Nodup) {j : ι} (hj : j ∈ (destroyAll order p).handler_stack_) :
    j ∈ p.handler_stack_ ∧ j ∉ order := by
  induction order generalizing p with
  | nil => exact ⟨hj, List.not_mem_nil⟩
  | cons i rest ih =>
    have hstack : (destroy p i).handler_stack_ = remove i p.handler_stack_ :=
      if_pos (htypes i List.mem_cons_self)
    obtain ⟨hmem, hrest⟩ := ih (p := destroy p i)
      (fun n hn => htypes n (List.mem_cons_of_mem i hn)) (hstack ▸ nodup_remove hnodup) hj
    rw [hstack, mem_remove hnodup] at hmem
    exact ⟨hmem.1, fun h => (List.mem_cons.mp h).elim hmem.2 hrest⟩

/-- A process whose handlers have all been destroyed. -/
def afterAll (original : Kind → Option φ) (types : ι → HandlerType) (order destroyed : List ι) :
    Process ι φ :=
  destroyAll destroyed (constructAll types order (start original))

section AfterAll

variable {original : Kind → Option φ} {destroyed : List ι}

theorem afterAll_installed (original : Kind → Option φ) (hnodup : order.Nodup)
    (hperm : destroyed.Perm order) (htypes : ∀ i ∈ order, types i k = true) :
    (afterAll original types order destroyed).installed k =
      if destroyed.getLast? = order.head? then originalSlot original k else .own := by
  cases hlast : destroyed.getLast? with
  | none =>
    obtain rfl := List.getLast?_eq_none_iff.mp hlast
    obtain rfl := hperm.nil_eq
    rfl
  | some j =>
    have hj : j ∈ order := hperm.mem_iff.mp (List.mem_of_getLast? hlast)
    rw [afterAll, destroyAll_installed (fun i hi => ?_) hlast,
      constructAll_previous hnodup htypes hj]
    · simp only [eq_comm, start]
    · rw [constructAll_handler_types (hperm.mem_iff.mp hi)]
      exact htypes i (hperm.mem_iff.mp hi)

theorem HandlerType.isSome_of_apply {t : HandlerType} (h : t k = true) : t.isSome = true := by
  cases k <;> simp [isSome, h]

theorem afterAll_stack (original : Kind → Option φ) (hnodup : order.Nodup)
    (hperm : destroyed.Perm order) (htypes : ∀ i ∈ order, types i k = true) :
    (afterAll original types order destroyed).handler_stack_ = [] := by
  have hsome : ∀ i ∈ order, (types i).isSome = true := fun i hi =>
    HandlerType.isSome_of_apply (htypes i hi)
  have hstack : (constructAll types order (start original)).handler_stack_ = order.reverse := by
    rw [constructAll_stack hsome, start, List.append_nil]
  rw [List.eq_nil_iff_forall_not_mem]
  intro j hj
  obtain ⟨hmem, hnot⟩ := mem_destroyAll_stack
    (fun i hi => by
      rw [constructAll_handler_types (hperm.mem_iff.mp hi)]
      exact hsome i (hperm.mem_iff.mp hi))
    (hstack ▸ List.nodup_reverse.mpr hnodup) hj
  rw [hstack, List.mem_reverse] at hmem
  exact hnot (hperm.mem_iff.mpr hmem)

/-- **The oldest handler has to go last.** However many handlers for exceptions a process
constructs, with any other kinds of failures, and in whatever order it destroys them: an
exception after that does not crash, and gets to the filter from before them, if and only
if the first handler that was constructed was the last to be destroyed. -/
theorem raise_afterAll_iff (hnodup : order.Nodup) (hperm : destroyed.Perm order)
    (htypes : ∀ i ∈ order, types i .exception = true) :
    (∀ writes code, raise writes code (afterAll original types order destroyed) =
      some ⟨(deliver (start original).handler writes code (original .exception) []).1, [],
        afterAll original types order destroyed⟩) ↔
      destroyed.getLast? = order.head? := by
  have hinstalled := afterAll_installed original hnodup hperm htypes
  have hstack := afterAll_stack original hnodup hperm htypes
  constructor
  · intro h
    by_contra hne
    rw [if_neg hne] at hinstalled
    have hcrash := h (fun _ => false) 0
    rw [raise, hinstalled, hstack] at hcrash
    simp only [handleException, enter, hstack, List.getElem?_nil, Option.map_none,
      Option.some.injEq, Handled.mk.injEq, deliver] at hcrash
    cases horiginal : original .exception with
    | none => simp [horiginal] at hcrash
    | some f => simp [horiginal] at hcrash
  · intro heq writes code
    rw [if_pos heq, originalSlot] at hinstalled
    rw [raise, hinstalled]
    cases original .exception with
    | none => rfl
    | some f => rfl

/-- Two handlers, of which the older is destroyed first: the next exception crashes. -/
theorem raise_afterAll_two : ¬ ∀ writes code,
    raise writes code (afterAll (fun _ => some ()) (fun _ => HandlerType.ALL) [0, 1] [0, 1]) =
      some ⟨(deliver (start fun _ => some ()).handler writes code (some ()) []).1, [],
        afterAll (fun _ => some ()) (fun _ => HandlerType.ALL) [0, 1] [0, 1]⟩ := by
  rw [raise_afterAll_iff (by decide) (List.Perm.refl _) fun _ _ => rfl]
  decide

end AfterAll

end HandlerStack

end SMEWindow.Breakpad
