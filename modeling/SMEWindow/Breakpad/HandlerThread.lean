import SMEWindow.Lib.Refinement
import Mathlib.Logic.Function.Basic
import Mathlib.Tactic.Common

/-!
# The thread that writes minidumps

An `ExceptionHandler` that works in its own process has a thread for writing dumps. A
thread that crashes, or that asks for a dump, calls `WriteMinidumpOnHandlerThread`: it
enters a critical section, leaves its thread id and the two pointers in fields of the
handler, releases one semaphore and waits for another. The handler's thread waits for
the first, writes the dump, leaves the result in a field and releases the second.

The threads are interleaved one action at a time. A label names the thread that moves;
what `WriteMinidumpWithException` answers is in the label, too. The destructor of the
handler may terminate the handler's thread anywhere.

What this is for is an atomic service: every call is answered at one moment between its
beginning and its end, with a dump of its own.

## Main definitions

* `HandlerThread.State`, `HandlerThread.system` — the handler and its threads
* `HandlerThread.Atomic.system` — the atomic service

## Main results

* `refines_atomic` — calls, dumps and returns are those of a run of the atomic service
-/

set_option autoImplicit false

namespace SMEWindow.Breakpad

open Lib.Transition

namespace HandlerThread

/-- The arguments of `WriteMinidumpOnHandlerThread`, two pointers. -/
structure Request (ExInfo Assertion : Type) where
  exinfo : Option ExInfo
  assertion : Option Assertion
  deriving DecidableEq, Repr

/-- A call of `WriteMinidumpWithException` and what it returned. -/
structure Dump (ι ExInfo Assertion : Type) where
  requesting_thread_id : Option ι
  exinfo : Option ExInfo
  assertion : Option Assertion
  status : Bool
  deriving DecidableEq, Repr

/-- What can be seen of a run. -/
inductive Event (ι ExInfo Assertion : Type)
  | call (i : ι) (r : Request ExInfo Assertion)
  | dump (d : Dump ι ExInfo Assertion)
  | ret (i : ι) (status : Bool)
  deriving DecidableEq, Repr

variable {ι ExInfo Assertion : Type}

/-- The dump that belongs to a request. -/
def Request.dump (i : ι) (r : Request ExInfo Assertion) (status : Bool) :
    Dump ι ExInfo Assertion :=
  ⟨some i, r.exinfo, r.assertion, status⟩

/-! ### The atomic service -/

namespace Atomic

/-- How far a thread is. -/
inductive Phase (ExInfo Assertion : Type)
  | idle
  | called (r : Request ExInfo Assertion)
  | answered (status : Bool)
  deriving DecidableEq, Repr

structure State (ι ExInfo Assertion : Type) where
  phase : ι → Phase ExInfo Assertion

inductive Label (ι ExInfo Assertion : Type)
  | call (i : ι) (r : Request ExInfo Assertion)
  /-- One dump, for the thread that asked. -/
  | serve (i : ι) (r : Request ExInfo Assertion) (status : Bool)
  /-- Nobody writes dumps. -/
  | refuse (i : ι) (r : Request ExInfo Assertion)
  | ret (i : ι) (status : Bool)

variable [DecidableEq ι]

/-- The state with one thread in another phase. -/
def State.goto (s : State ι ExInfo Assertion) (i : ι) (phase : Phase ExInfo Assertion) :
    State ι ExInfo Assertion :=
  ⟨Function.update s.phase i phase⟩

@[simp] theorem State.goto_phase_self (s : State ι ExInfo Assertion) (i : ι)
    (phase : Phase ExInfo Assertion) : (s.goto i phase).phase i = phase :=
  Function.update_self ..

theorem State.goto_phase_of_ne (s : State ι ExInfo Assertion) {i j : ι} (hne : j ≠ i)
    (phase : Phase ExInfo Assertion) : (s.goto i phase).phase j = s.phase j :=
  Function.update_of_ne hne ..

@[simp] theorem State.goto_same (s : State ι ExInfo Assertion) (i : ι) :
    s.goto i (s.phase i) = s := by
  rw [goto, Function.update_eq_self]

variable [DecidableEq ExInfo] [DecidableEq Assertion]

/-- A service that is there or not. -/
def step (available : Bool) (s : State ι ExInfo Assertion) :
    Label ι ExInfo Assertion → Option (State ι ExInfo Assertion)
  | .call i r => if s.phase i = .idle then some (s.goto i (.called r)) else none
  | .serve i r status =>
    if available ∧ s.phase i = .called r then some (s.goto i (.answered status)) else none
  | .refuse i r =>
    if ¬ available ∧ s.phase i = .called r then some (s.goto i (.answered false)) else none
  | .ret i status => if s.phase i = .answered status then some (s.goto i .idle) else none

def system (available : Bool) : System (State ι ExInfo Assertion) (Label ι ExInfo Assertion) where
  init := ⟨fun _ => .idle⟩
  step := step available

def observe : Label ι ExInfo Assertion → Option (Event ι ExInfo Assertion)
  | .call i r => some (.call i r)
  | .serve i r status => some (.dump (r.dump i status))
  | .refuse _ _ => none
  | .ret i status => some (.ret i status)

end Atomic

/-! ### The handler -/

/-- The next action of a thread in `WriteMinidumpOnHandlerThread`. -/
inductive Pc (ExInfo Assertion : Type)
  | outside
  | enter (r : Request ExInfo Assertion)
  /-- `handler_thread_ == NULL`. -/
  | testThread (r : Request ExInfo Assertion)
  | setThread (r : Request ExInfo Assertion)
  | setException (r : Request ExInfo Assertion)
  | setAssertion (r : Request ExInfo Assertion)
  | releaseStart (r : Request ExInfo Assertion)
  | waitFinish (r : Request ExInfo Assertion)
  | readStatus
  | clearThread (status : Bool)
  | clearException (status : Bool)
  | clearAssertion (status : Bool)
  | leave (status : Bool)
  deriving DecidableEq, Repr

/-- The next action of `ExceptionHandlerThreadMain`. -/
inductive HandlerPc (ι ExInfo Assertion : Type)
  | waitStart
  /-- The arguments of the call are read from the fields. -/
  | readFields
  | write (thread : Option ι) (exinfo : Option ExInfo) (assertion : Option Assertion)
  /-- The result is stored. -/
  | assign (status : Bool)
  | releaseFinish
  | terminated
  deriving DecidableEq, Repr

/-- A handler with its threads. -/
structure State (ι ExInfo Assertion : Type) where
  pc : ι → Pc ExInfo Assertion
  handlerPc : HandlerPc ι ExInfo Assertion
  /-- The thread inside `handler_critical_section_`. -/
  owner : Option ι
  /-- The count of `handler_start_semaphore_`. -/
  startCount : ℕ
  /-- The count of `handler_finish_semaphore_`. -/
  finishCount : ℕ
  /-- Zero is no thread. -/
  requesting_thread_id_ : Option ι
  exception_info_ : Option ExInfo
  assertion_ : Option Assertion
  handler_return_value_ : Bool

/-- The maximum count of both semaphores. -/
def maximumCount : ℕ := 1

/-- `ReleaseSemaphore`, which leaves a full semaphore as it is; nobody looks at its
result. -/
def releaseSemaphore (count : ℕ) : ℕ := if count < maximumCount then count + 1 else count

/-- What `Initialize` leaves, once its thread waits. -/
def initial : State ι ExInfo Assertion where
  pc _ := .outside
  handlerPc := .waitStart
  owner := none
  startCount := 0
  finishCount := 0
  requesting_thread_id_ := none
  exception_info_ := none
  assertion_ := none
  handler_return_value_ := false

inductive Label (ι ExInfo Assertion : Type)
  /-- A thread calls `WriteMinidumpOnHandlerThread`. -/
  | call (i : ι) (r : Request ExInfo Assertion)
  /-- A thread takes its next action inside. -/
  | thread (i : ι)
  /-- A thread leaves the critical section and returns. -/
  | ret (i : ι) (status : Bool)
  /-- The handler's thread takes its next action. -/
  | handler
  /-- The handler's thread runs `WriteMinidumpWithException`. -/
  | dump (d : Dump ι ExInfo Assertion)
  /-- `TerminateThread` in the destructor. -/
  | terminate

section Step

variable [DecidableEq ι]

/-- The state with a thread at another action. -/
def State.goto (s : State ι ExInfo Assertion) (i : ι) (pc : Pc ExInfo Assertion) :
    State ι ExInfo Assertion :=
  { s with pc := Function.update s.pc i pc }

@[simp] theorem State.goto_pc_self (s : State ι ExInfo Assertion) (i : ι)
    (pc : Pc ExInfo Assertion) : (s.goto i pc).pc i = pc :=
  Function.update_self ..

theorem State.goto_pc_of_ne (s : State ι ExInfo Assertion) {i j : ι} (hne : j ≠ i)
    (pc : Pc ExInfo Assertion) : (s.goto i pc).pc j = s.pc j :=
  Function.update_of_ne hne ..

/-- `WriteMinidumpOnHandlerThread`, one action at a time, up to the return. `created` says
that `handler_thread_` is not null. -/
def threadStep (created : Bool) (s : State ι ExInfo Assertion) (i : ι) :
    Option (State ι ExInfo Assertion) :=
  match s.pc i with
  | .outside => none
  | .enter r =>
    match s.owner with
    | none => some { s.goto i (.testThread r) with owner := some i }
    | some _ => none
  | .testThread r => some (s.goto i (if created then .setThread r else .leave false))
  | .setThread r => some { s.goto i (.setException r) with requesting_thread_id_ := some i }
  | .setException r => some { s.goto i (.setAssertion r) with exception_info_ := r.exinfo }
  | .setAssertion r => some { s.goto i (.releaseStart r) with assertion_ := r.assertion }
  | .releaseStart r =>
    some { s.goto i (.waitFinish r) with startCount := releaseSemaphore s.startCount }
  | .waitFinish _ =>
    match s.finishCount with
    | 0 => none
    | count + 1 => some { s.goto i .readStatus with finishCount := count }
  | .readStatus => some (s.goto i (.clearThread s.handler_return_value_))
  | .clearThread status =>
    some { s.goto i (.clearException status) with requesting_thread_id_ := none }
  | .clearException status =>
    some { s.goto i (.clearAssertion status) with exception_info_ := none }
  | .clearAssertion status => some { s.goto i (.leave status) with assertion_ := none }
  | .leave _ => none

/-- `ExceptionHandlerThreadMain`, one action at a time, but for the dump. In this build
`is_shutdown_` is never set. -/
def handlerStep (s : State ι ExInfo Assertion) : Option (State ι ExInfo Assertion) :=
  match s.handlerPc with
  | .waitStart =>
    match s.startCount with
    | 0 => none
    | count + 1 => some { s with handlerPc := .readFields, startCount := count }
  | .readFields =>
    some { s with
      handlerPc := .write s.requesting_thread_id_ s.exception_info_ s.assertion_ }
  | .write _ _ _ => none
  | .assign status => some { s with handlerPc := .releaseFinish, handler_return_value_ := status }
  | .releaseFinish =>
    some { s with handlerPc := .waitStart, finishCount := releaseSemaphore s.finishCount }
  | .terminated => none

variable [DecidableEq ExInfo] [DecidableEq Assertion]

def step (created : Bool) (s : State ι ExInfo Assertion) :
    Label ι ExInfo Assertion → Option (State ι ExInfo Assertion)
  | .call i r => if s.pc i = .outside then some (s.goto i (.enter r)) else none
  | .thread i => threadStep created s i
  | .ret i status =>
    if s.pc i = .leave status then some { s.goto i .outside with owner := none } else none
  | .handler => handlerStep s
  | .dump d =>
    if s.handlerPc = .write d.requesting_thread_id d.exinfo d.assertion then
      some { s with handlerPc := .assign d.status }
    else none
  | .terminate => some { s with handlerPc := .terminated }

/-- The interleaving of all threads. -/
def system (created : Bool) : System (State ι ExInfo Assertion) (Label ι ExInfo Assertion) where
  init := initial
  step := step created

end Step

def observe : Label ι ExInfo Assertion → Option (Event ι ExInfo Assertion)
  | .call i r => some (.call i r)
  | .thread _ => none
  | .ret i status => some (.ret i status)
  | .handler => none
  | .dump d => some (.dump d)
  | .terminate => none

/-! ### Answers belong to their calls -/

section Related

open Atomic

/-- Nothing is under way between a thread inside and the handler's thread. -/
def State.Resting (s : State ι ExInfo Assertion) : Prop :=
  s.startCount = 0 ∧ s.finishCount = 0 ∧
    (s.handlerPc = .waitStart ∨ s.handlerPc = .terminated)

/-- The fields hold the request of a thread. -/
def State.Holds (s : State ι ExInfo Assertion) (i : ι) (r : Request ExInfo Assertion) : Prop :=
  s.requesting_thread_id_ = some i ∧ s.exception_info_ = r.exinfo ∧ s.assertion_ = r.assertion

/-- A thread waits: how far the handler's thread is with its request. If the handler's
thread was terminated, nobody will know. -/
def State.Serving (s : State ι ExInfo Assertion) (i : ι) (r : Request ExInfo Assertion)
    (phase : Phase ExInfo Assertion) : Prop :=
  match s.handlerPc with
  | .waitStart =>
    (s.startCount = 1 ∧ s.finishCount = 0 ∧ phase = .called r) ∨
      (s.startCount = 0 ∧ s.finishCount = 1 ∧ phase = .answered s.handler_return_value_)
  | .readFields => s.startCount = 0 ∧ s.finishCount = 0 ∧ phase = .called r
  | .write thread exinfo assertion =>
    s.startCount = 0 ∧ s.finishCount = 0 ∧ phase = .called r ∧
      thread = some i ∧ exinfo = r.exinfo ∧ assertion = r.assertion
  | .assign status => s.startCount = 0 ∧ s.finishCount = 0 ∧ phase = .answered status
  | .releaseFinish =>
    s.startCount = 0 ∧ s.finishCount = 0 ∧ phase = .answered s.handler_return_value_
  | .terminated =>
    s.finishCount = 0 ∨
      (s.startCount = 0 ∧ s.finishCount = 1 ∧ phase = .answered s.handler_return_value_)

/-- What holds while a thread is inside, at each of its actions. -/
def State.Inside (created : Bool) (s : State ι ExInfo Assertion) (i : ι)
    (phase : Phase ExInfo Assertion) : Pc ExInfo Assertion → Prop
  | .outside | .enter _ => False
  | .testThread r => s.Resting ∧ phase = .called r
  | .setThread r => created ∧ s.Resting ∧ phase = .called r
  | .setException r =>
    created ∧ s.Resting ∧ phase = .called r ∧ s.requesting_thread_id_ = some i
  | .setAssertion r =>
    created ∧ s.Resting ∧ phase = .called r ∧
      s.requesting_thread_id_ = some i ∧ s.exception_info_ = r.exinfo
  | .releaseStart r => created ∧ s.Resting ∧ phase = .called r ∧ s.Holds i r
  | .waitFinish r => created ∧ s.Holds i r ∧ s.Serving i r phase
  | .readStatus => s.Resting ∧ phase = .answered s.handler_return_value_
  | .clearThread status | .clearException status | .clearAssertion status | .leave status =>
    s.Resting ∧ phase = .answered status

/-- A thread that is not inside. -/
def Pc.Outside (phase : Phase ExInfo Assertion) : Pc ExInfo Assertion → Prop
  | .outside => phase = .idle
  | .enter r => phase = .called r
  | _ => False

/-- The state of the handler and that of the atomic service. -/
structure Related (created : Bool) (s : State ι ExInfo Assertion)
    (t : Atomic.State ι ExInfo Assertion) : Prop where
  outside : ∀ i, s.owner ≠ some i → (s.pc i).Outside (t.phase i)
  inside : ∀ i, s.owner = some i → s.Inside created i (t.phase i) (s.pc i)
  resting : s.owner = none → s.Resting

variable {created : Bool} {s s' : State ι ExInfo Assertion} {t : Atomic.State ι ExInfo Assertion}
  {i : ι} {r : Request ExInfo Assertion} {status : Bool}

/-- Where the second semaphore is released, the dump is written and its result is
there. -/
theorem State.Serving.finished {phase : Phase ExInfo Assertion} (h : s.Serving i r phase)
    (hfinish : 0 < s.finishCount) :
    (s.handlerPc = .waitStart ∨ s.handlerPc = .terminated) ∧ s.startCount = 0 ∧
      s.finishCount = 1 ∧ phase = .answered s.handler_return_value_ := by
  unfold State.Serving at h
  cases hhandler : s.handlerPc with
  | waitStart =>
    simp only [hhandler] at h
    rcases h with h | h
    · omega
    · exact ⟨.inl rfl, h⟩
  | terminated =>
    simp only [hhandler] at h
    rcases h with h | h
    · omega
    · exact ⟨.inr rfl, h⟩
  | _ =>
    simp only [hhandler] at h
    omega

/-- The handler's thread moves on, and the threads stay where they are. -/
theorem Related.handler (h : Related created s t) (hpc : s'.pc = s.pc)
    (howner : s'.owner = s.owner)
    (hinside : ∀ i, s.owner = some i → s'.Inside created i (t.phase i) (s.pc i))
    (hresting : s.owner = none → s'.Resting) : Related created s' t where
  outside j hj := by
    rw [hpc]
    exact h.outside j (howner ▸ hj)
  inside j hj := by
    rw [hpc]
    exact hinside j (howner ▸ hj)
  resting hnone := hresting (howner ▸ hnone)

/-- Either nothing is under way, or the owner waits for its dump. -/
theorem Related.resting_or_serving (h : Related created s t) :
    s.Resting ∨ ∃ i r, s.owner = some i ∧ s.pc i = .waitFinish r ∧ created = true ∧
      s.Holds i r ∧ s.Serving i r (t.phase i) := by
  cases howner : s.owner with
  | none => exact .inl (h.resting howner)
  | some i =>
    have hinside := h.inside i howner
    cases hpc : s.pc i with
    | outside | enter r =>
      simp only [hpc] at hinside
      exact hinside.elim
    | testThread r | readStatus | clearThread status | clearException status
    | clearAssertion status | leave status =>
      simp only [hpc] at hinside
      exact .inl hinside.1
    | setThread r | setException r | setAssertion r | releaseStart r =>
      simp only [hpc] at hinside
      exact .inl hinside.2.1
    | waitFinish r =>
      simp only [hpc] at hinside
      exact .inr ⟨i, r, rfl, hpc, hinside⟩

/-- The handler's thread ends, wherever it is. -/
theorem Related.terminate (h : Related created s t) :
    Related created { s with handlerPc := .terminated } t := by
  have hresting : s.Resting → State.Resting { s with handlerPc := .terminated } :=
    fun hrest => ⟨hrest.1, hrest.2.1, .inr rfl⟩
  refine h.handler rfl rfl (fun i howner => ?_) fun hnone => hresting (h.resting hnone)
  have hinside := h.inside i howner
  cases hpc : s.pc i with
  | outside | enter r =>
    simp only [hpc] at hinside
    exact hinside.elim
  | testThread r | readStatus | clearThread status | clearException status
  | clearAssertion status | leave status =>
    simp only [hpc] at hinside
    exact ⟨hresting hinside.1, hinside.2⟩
  | setThread r | setException r | setAssertion r | releaseStart r =>
    simp only [hpc] at hinside
    exact ⟨hinside.1, hresting hinside.2.1, hinside.2.2⟩
  | waitFinish r =>
    simp only [hpc] at hinside
    obtain ⟨hcreated, hholds, hserving⟩ := hinside
    refine ⟨hcreated, hholds, ?_⟩
    rcases Nat.eq_zero_or_pos s.finishCount with hfinish | hfinish
    · exact .inl hfinish
    · exact .inr (hserving.finished hfinish).2

variable [DecidableEq ι]

/-- The owner moves on, and the atomic service with it. -/
theorem Related.advance (h : Related created s t) (howner : s.owner = some i)
    {pc : Pc ExInfo Assertion} {phase : Phase ExInfo Assertion}
    (hpc : s'.pc = Function.update s.pc i pc) (howner' : s'.owner = some i)
    (hinside : s'.Inside created i phase pc) : Related created s' (t.goto i phase) where
  outside j hj := by
    have hne : j ≠ i := fun heq => hj (heq ▸ howner')
    rw [hpc, Function.update_of_ne hne, t.goto_phase_of_ne hne]
    exact h.outside j fun hj => hne (Option.some.inj (hj.symm.trans howner))
  inside j hj := by
    obtain rfl : j = i := Option.some.inj (hj.symm.trans howner')
    rw [hpc, Function.update_self, t.goto_phase_self]
    exact hinside
  resting hnone := absurd (hnone.symm.trans howner') (Option.some_ne_none i).symm

/-- A thread enters the critical section. -/
theorem Related.enter (h : Related created s t) (hpc : s.pc i = .enter r)
    (hfree : s.owner = none) :
    Related created { s.goto i (.testThread r) with owner := some i } t where
  outside j hj := by
    have hne : j ≠ i := fun heq => hj (heq ▸ rfl)
    dsimp only
    rw [s.goto_pc_of_ne hne]
    exact h.outside j (by rw [hfree]; exact (Option.some_ne_none j).symm)
  inside j hj := by
    obtain rfl : j = i := (Option.some.inj hj).symm
    have hphase := h.outside j (by rw [hfree]; exact (Option.some_ne_none j).symm)
    rw [hpc] at hphase
    dsimp only
    rw [s.goto_pc_self]
    exact ⟨h.resting hfree, hphase⟩
  resting hnone := absurd hnone (Option.some_ne_none i)

/-- The owner goes on waiting while the handler's thread moves. -/
theorem Related.wait (h : Related created s t) (howner : s.owner = some i)
    (hpc : s.pc i = .waitFinish r) {phase : Phase ExInfo Assertion} (hpc' : s'.pc = s.pc)
    (howner' : s'.owner = s.owner) (hcreated : created = true) (hholds : s'.Holds i r)
    (hserving : s'.Serving i r phase) : Related created s' (t.goto i phase) := by
  have hupdate : s'.pc = Function.update s.pc i (.waitFinish r) := by
    rw [hpc', ← hpc, Function.update_eq_self]
  exact h.advance howner hupdate (howner'.trans howner) ⟨hcreated, hholds, hserving⟩

variable [DecidableEq ExInfo] [DecidableEq Assertion]

/-- The atomic service answers with a run that shows nothing. -/
def Silent (created : Bool) (s' : State ι ExInfo Assertion)
    (t : Atomic.State ι ExInfo Assertion) : Prop :=
  ∃ ks t', (Atomic.system created).run t ks = some t' ∧ Related created s' t' ∧
    ks.filterMap Atomic.observe = []

theorem Related.silent (h : Related created s' t) : Silent created s' t := ⟨[], t, rfl, h, rfl⟩

/-- The owner moves on, and the atomic service does not. -/
theorem Related.stay (h : Related created s t) (howner : s.owner = some i)
    {pc : Pc ExInfo Assertion} (hpc : s'.pc = Function.update s.pc i pc)
    (howner' : s'.owner = some i) (hinside : s'.Inside created i (t.phase i) pc) :
    Silent created s' t := by
  have hadvance := h.advance howner hpc howner' hinside
  rw [t.goto_same] at hadvance
  exact hadvance.silent

/-- The owner takes an action inside. The atomic service only moves where the owner finds
no thread to write dumps. -/
theorem Related.ownerStep (h : Related created s t) (howner : s.owner = some i)
    (hstep : threadStep created s i = some s') : Silent created s' t := by
  have hinside := h.inside i howner
  unfold threadStep at hstep
  cases hpc : s.pc i with
  | outside => simp [hpc] at hstep
  | leave status => simp [hpc] at hstep
  | enter r => simp [hpc, howner] at hstep
  | testThread r =>
    simp only [hpc, Option.some.injEq] at hstep hinside
    obtain rfl := hstep
    obtain ⟨hresting, hphase⟩ := hinside
    cases created with
    | true => exact h.stay howner rfl howner ⟨rfl, hresting, hphase⟩
    -- without its thread the handler refuses, an action of the atomic service
    | false =>
      refine ⟨[.refuse i r], t.goto i (.answered false), ?_,
        h.advance howner rfl howner ⟨hresting, rfl⟩, rfl⟩
      simp [System.run, Atomic.system, Atomic.step, hphase]
  | setThread r =>
    simp only [hpc, Option.some.injEq] at hstep hinside
    obtain rfl := hstep
    obtain ⟨hcreated, hresting, hphase⟩ := hinside
    exact h.stay howner rfl howner ⟨hcreated, hresting, hphase, rfl⟩
  | setException r =>
    simp only [hpc, Option.some.injEq] at hstep hinside
    obtain rfl := hstep
    obtain ⟨hcreated, hresting, hphase, hthread⟩ := hinside
    exact h.stay howner rfl howner ⟨hcreated, hresting, hphase, hthread, rfl⟩
  | setAssertion r =>
    simp only [hpc, Option.some.injEq] at hstep hinside
    obtain rfl := hstep
    obtain ⟨hcreated, hresting, hphase, hthread, hexinfo⟩ := hinside
    exact h.stay howner rfl howner
      ⟨hcreated, hresting, hphase, hthread, hexinfo, rfl⟩
  | releaseStart r =>
    simp only [hpc, Option.some.injEq] at hstep hinside
    obtain rfl := hstep
    obtain ⟨hcreated, ⟨hstart, hfinish, hhandler⟩, hphase, hholds⟩ := hinside
    refine h.stay howner rfl howner ⟨hcreated, hholds, ?_⟩
    -- the handler's thread waits for the call, or was terminated
    rcases hhandler with hhandler | hhandler
    · simp [State.Serving, State.goto, hhandler, hstart, hfinish, hphase, releaseSemaphore,
        maximumCount]
    · simp [State.Serving, State.goto, hhandler, hfinish]
  | waitFinish r =>
    simp only [hpc] at hstep hinside
    obtain ⟨-, -, hserving⟩ := hinside
    cases hcount : s.finishCount with
    | zero => simp [hcount] at hstep
    | succ count =>
      simp only [hcount, Option.some.injEq] at hstep
      obtain rfl := hstep
      -- a count above 0 says that the dump of this very call is finished
      obtain ⟨hhandler, hstart, hone, hphase⟩ := hserving.finished (by omega)
      exact h.stay howner rfl howner
        ⟨⟨hstart, by rw [hcount] at hone; exact Nat.succ.inj hone, hhandler⟩, hphase⟩
  | readStatus =>
    simp only [hpc, Option.some.injEq] at hstep hinside
    obtain rfl := hstep
    exact h.stay howner rfl howner hinside
  | clearThread status =>
    simp only [hpc, Option.some.injEq] at hstep hinside
    obtain rfl := hstep
    exact h.stay howner rfl howner hinside
  | clearException status =>
    simp only [hpc, Option.some.injEq] at hstep hinside
    obtain rfl := hstep
    exact h.stay howner rfl howner hinside
  | clearAssertion status =>
    simp only [hpc, Option.some.injEq] at hstep hinside
    obtain rfl := hstep
    exact h.stay howner rfl howner hinside

/-- A thread that is not the owner can only enter. -/
theorem Related.threadStep (h : Related created s t)
    (hstep : HandlerThread.threadStep created s i = some s') : Silent created s' t := by
  by_cases howner : s.owner = some i
  · exact h.ownerStep howner hstep
  · have houtside := h.outside i howner
    unfold HandlerThread.threadStep at hstep
    cases hpc : s.pc i with
    | enter r =>
      simp only [hpc] at hstep
      cases hfree : s.owner with
      | some j => simp [hfree] at hstep
      | none =>
        simp only [hfree, Option.some.injEq] at hstep
        obtain rfl := hstep
        exact (h.enter hpc hfree).silent
    | outside => simp [hpc] at hstep
    | _ => exact absurd houtside (by simp [hpc, Pc.Outside])

/-- The handler's thread moves without the atomic service. -/
theorem Related.handlerStep (h : Related created s t)
    (hstep : HandlerThread.handlerStep s = some s') : Silent created s' t := by
  unfold HandlerThread.handlerStep at hstep
  rcases h.resting_or_serving with ⟨hstart, -, hhandler | hhandler⟩ |
    ⟨i, r, howner, hpc, hcreated, hholds, hserving⟩
  · simp [hhandler, hstart] at hstep
  · simp [hhandler] at hstep
  · unfold State.Serving at hserving
    -- the call's phase stays, only the handler's thread moves
    suffices hrelated : Related created s' (t.goto i (t.phase i)) by
      rw [t.goto_same] at hrelated
      exact hrelated.silent
    cases hhandler : s.handlerPc with
    | terminated => simp [hhandler] at hstep
    | write thread exinfo assertion => simp [hhandler] at hstep
    | waitStart =>
      simp only [hhandler] at hstep hserving
      rcases hserving with ⟨hstart, hfinish, hphase⟩ | ⟨hstart, -, -⟩
      · simp only [hstart, Option.some.injEq] at hstep
        obtain rfl := hstep
        exact h.wait howner hpc rfl rfl hcreated hholds ⟨rfl, hfinish, hphase⟩
      · simp [hstart] at hstep
    | readFields =>
      simp only [hhandler, Option.some.injEq] at hstep hserving
      obtain rfl := hstep
      obtain ⟨hstart, hfinish, hphase⟩ := hserving
      exact h.wait howner hpc rfl rfl hcreated hholds ⟨hstart, hfinish, hphase, hholds⟩
    | assign status =>
      simp only [hhandler, Option.some.injEq] at hstep hserving
      obtain rfl := hstep
      exact h.wait howner hpc rfl rfl hcreated hholds hserving
    | releaseFinish =>
      simp only [hhandler, Option.some.injEq] at hstep hserving
      obtain rfl := hstep
      obtain ⟨hstart, hfinish, hphase⟩ := hserving
      refine h.wait howner hpc rfl rfl hcreated hholds (.inr ⟨hstart, ?_, hphase⟩)
      simp [hfinish, releaseSemaphore, maximumCount]

/-- The dump is the moment at which the atomic service answers. -/
theorem Related.dump (h : Related created s t) {d : Dump ι ExInfo Assertion}
    (hwrite : s.handlerPc = .write d.requesting_thread_id d.exinfo d.assertion) :
    ∃ ks t', (Atomic.system created).run t ks = some t' ∧
      Related created { s with handlerPc := .assign d.status } t' ∧
      ks.filterMap Atomic.observe = [.dump d] := by
  rcases h.resting_or_serving with ⟨-, -, hhandler | hhandler⟩ |
    ⟨i, r, howner, hpc, hcreated, hholds, hserving⟩
  · rw [hhandler] at hwrite
    cases hwrite
  · rw [hhandler] at hwrite
    cases hwrite
  · simp only [State.Serving, hwrite] at hserving
    obtain ⟨hstart, hfinish, hphase, hthread, hexinfo, hassertion⟩ := hserving
    have hdump : r.dump i d.status = d := by
      rw [Request.dump, ← hthread, ← hexinfo, ← hassertion]
    refine ⟨[.serve i r d.status], t.goto i (.answered d.status), ?_,
      h.wait howner hpc rfl rfl hcreated hholds ⟨hstart, hfinish, rfl⟩, ?_⟩
    · simp [System.run, Atomic.system, Atomic.step, hcreated, hphase]
    · simp [Atomic.observe, hdump]

/-- A thread calls. -/
theorem Related.call (h : Related created s t) (hpc : s.pc i = .outside) :
    ∃ ks t', (Atomic.system created).run t ks = some t' ∧
      Related created (s.goto i (.enter r)) t' ∧
      ks.filterMap Atomic.observe = [.call i r] := by
  have howner : s.owner ≠ some i := fun howner => by
    have hinside := h.inside i howner
    simp only [hpc] at hinside
    exact hinside
  have hphase := h.outside i howner
  simp only [hpc] at hphase
  refine ⟨[.call i r], t.goto i (.called r), ?_, ⟨fun j hj => ?_, fun j hj => ?_, h.resting⟩,
    rfl⟩
  · simp only [Pc.Outside] at hphase
    simp [System.run, Atomic.system, Atomic.step, hphase]
  · rcases eq_or_ne j i with rfl | hne
    · rw [t.goto_phase_self, s.goto_pc_self]
      rfl
    · rw [t.goto_phase_of_ne hne, s.goto_pc_of_ne hne]
      exact h.outside j hj
  · have hne : j ≠ i := fun heq => howner (heq ▸ hj)
    rw [t.goto_phase_of_ne hne, s.goto_pc_of_ne hne]
    exact h.inside j hj

/-- A thread leaves the critical section and returns what it was answered. -/
theorem Related.ret (h : Related created s t) (hpc : s.pc i = .leave status) :
    ∃ ks t', (Atomic.system created).run t ks = some t' ∧
      Related created { s.goto i .outside with owner := none } t' ∧
      ks.filterMap Atomic.observe = [.ret i status] := by
  have howner : s.owner = some i := by
    by_contra howner
    have houtside := h.outside i howner
    simp only [hpc] at houtside
    exact houtside
  have hinside := h.inside i howner
  simp only [hpc] at hinside
  obtain ⟨hresting, hphase⟩ := hinside
  refine ⟨[.ret i status], t.goto i .idle, ?_,
    ⟨fun j _ => ?_, fun j hj => absurd hj (Option.some_ne_none j).symm, fun _ => hresting⟩, rfl⟩
  · simp [System.run, Atomic.system, Atomic.step, hphase]
  · dsimp only
    rcases eq_or_ne j i with rfl | hne
    · rw [t.goto_phase_self, s.goto_pc_self]
      rfl
    · rw [t.goto_phase_of_ne hne, s.goto_pc_of_ne hne]
      exact h.outside j fun hj => hne (Option.some.inj (hj.symm.trans howner))

theorem simulation (created : Bool) : System.Simulation
    (system created : System (State ι ExInfo Assertion) (Label ι ExInfo Assertion))
    (Atomic.system created) observe Atomic.observe (Related created) where
  init :=
    { outside _ _ := rfl
      inside i h := absurd h (Option.some_ne_none i).symm
      resting _ := ⟨rfl, rfl, .inl rfl⟩ }
  step {s l s' t} h hstep := by
    cases l with
    | call i r =>
      obtain ⟨hpc, ⟨⟩⟩ := Option.ite_none_right_eq_some.mp hstep
      exact h.call hpc
    | thread i => exact h.threadStep hstep
    | ret i status =>
      obtain ⟨hpc, ⟨⟩⟩ := Option.ite_none_right_eq_some.mp hstep
      exact h.ret hpc
    | handler => exact h.handlerStep hstep
    | dump d =>
      obtain ⟨hwrite, ⟨⟩⟩ := Option.ite_none_right_eq_some.mp hstep
      exact h.dump hwrite
    | terminate =>
      obtain rfl := Option.some.inj hstep
      exact h.terminate.silent

end Related

end HandlerThread

end SMEWindow.Breakpad
