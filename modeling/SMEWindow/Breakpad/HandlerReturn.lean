import SMEWindow.Breakpad.HandlerThread
import Mathlib.Algebra.BigOperators.Group.Finset.Basic
import Mathlib.Algebra.Order.BigOperators.Group.Finset
import Mathlib.Data.Fintype.Basic

/-!
# Calls of the handler's thread return

A call of `WriteMinidumpOnHandlerThread` waits twice: for the critical section, and
without a limit for the handler's thread. Every action of a call, and of the handler's
thread on its behalf, leaves less to do; and as long as a call is left, some thread can
move, unless the handler's thread was terminated under it.

## Main definitions

* `State.remaining` — how many actions are left of all calls
* `AnswersEveryCall` — calls that were made come to an end, and then have returned

## Main results

* `answersEveryCall_iff` — this is so exactly when there is no thread that could be
  terminated, or it never is
-/

set_option autoImplicit false

namespace SMEWindow.Breakpad

open Lib.Transition

namespace HandlerThread

variable {ι ExInfo Assertion : Type}

/-- How many actions are left of a call, with those of the handler's thread. -/
def Pc.remaining : Pc ExInfo Assertion → ℕ
  | .outside => 0
  | .leave _ => 1
  | .clearAssertion _ => 2
  | .clearException _ => 3
  | .clearThread _ => 4
  | .readStatus => 5
  | .waitFinish _ => 6
  -- five actions of the handler's thread lie between these two
  | .releaseStart _ => 12
  | .setAssertion _ => 13
  | .setException _ => 14
  | .setThread _ => 15
  | .testThread _ => 16
  | .enter _ => 17

def HandlerPc.remaining : HandlerPc ι ExInfo Assertion → ℕ
  | .waitStart | .terminated => 0
  | .releaseFinish => 1
  | .assign _ => 2
  | .write _ _ _ => 3
  | .readFields => 4

/-- How many actions are left of all calls. -/
def State.remaining [Fintype ι] (s : State ι ExInfo Assertion) : ℕ :=
  ∑ i, (s.pc i).remaining + 5 * s.startCount + s.handlerPc.remaining

/-- The action belongs to a call that was made. -/
def Label.Internal : Label ι ExInfo Assertion → Prop
  | .call _ _ | .terminate => False
  | .thread _ | .ret _ _ | .handler | .dump _ => True

variable [DecidableEq ι]

theorem remaining_goto [Fintype ι] (s : State ι ExInfo Assertion) (i : ι)
    (pc : Pc ExInfo Assertion) :
    ∑ j, ((s.goto i pc).pc j).remaining + (s.pc i).remaining =
      ∑ j, (s.pc j).remaining + pc.remaining := by
  have hsplit : ∀ f : ι → ℕ, ∑ j, f j = f i + ∑ j ∈ Finset.univ.erase i, f j := fun f =>
    (Finset.add_sum_erase _ f (Finset.mem_univ i)).symm
  have hrest : ∑ j ∈ Finset.univ.erase i, ((s.goto i pc).pc j).remaining =
      ∑ j ∈ Finset.univ.erase i, (s.pc j).remaining :=
    Finset.sum_congr rfl fun j hj => by rw [s.goto_pc_of_ne (Finset.ne_of_mem_erase hj)]
  rw [hsplit, hsplit fun j => (s.pc j).remaining, hrest, s.goto_pc_self]
  omega

variable {created : Bool} {s s' : State ι ExInfo Assertion} {i : ι}

/-- A thread moves on, and less is left. -/
theorem remaining_lt_of_goto [Fintype ι] {pc : Pc ExInfo Assertion}
    (hpc : s'.pc = (s.goto i pc).pc)
    (hlt : pc.remaining + 5 * s'.startCount + s'.handlerPc.remaining <
      (s.pc i).remaining + 5 * s.startCount + s.handlerPc.remaining) :
    s'.remaining < s.remaining := by
  have hgoto := remaining_goto s i pc
  rw [State.remaining, State.remaining, hpc]
  omega

theorem releaseSemaphore_le (count : ℕ) : releaseSemaphore count ≤ count + 1 := by
  unfold releaseSemaphore
  split_ifs <;> omega

/-- An action inside moves one thread on and leaves less of its call; the handler's thread
stays where it is. -/
theorem exists_goto_of_threadStep (hstep : threadStep created s i = some s') :
    ∃ pc, s'.pc = (s.goto i pc).pc ∧ s'.handlerPc = s.handlerPc ∧
      pc.remaining + 5 * s'.startCount < (s.pc i).remaining + 5 * s.startCount := by
  unfold threadStep at hstep
  cases hpc : s.pc i with
  | outside => simp [hpc] at hstep
  | leave status => simp [hpc] at hstep
  | enter r =>
    cases hfree : s.owner with
    | some j => simp [hpc, hfree] at hstep
    | none =>
      simp only [hpc, hfree, Option.some.injEq] at hstep
      obtain rfl := hstep
      exact ⟨_, rfl, rfl, by simp [State.goto, Pc.remaining]⟩
  | testThread r =>
    simp only [hpc, Option.some.injEq] at hstep
    obtain rfl := hstep
    refine ⟨_, rfl, rfl, ?_⟩
    cases created <;> simp [State.goto, Pc.remaining]
  | releaseStart r =>
    simp only [hpc, Option.some.injEq] at hstep
    obtain rfl := hstep
    -- the semaphore's count weighs less than the actions that are done
    have hle := releaseSemaphore_le s.startCount
    refine ⟨_, rfl, rfl, ?_⟩
    simp only [Pc.remaining]
    omega
  | waitFinish r =>
    cases hcount : s.finishCount with
    | zero => simp [hpc, hcount] at hstep
    | succ count =>
      simp only [hpc, hcount, Option.some.injEq] at hstep
      obtain rfl := hstep
      exact ⟨_, rfl, rfl, by simp [State.goto, Pc.remaining]⟩
  | setThread r | setException r | setAssertion r | readStatus | clearThread status
  | clearException status | clearAssertion status =>
    simp only [hpc, Option.some.injEq] at hstep
    obtain rfl := hstep
    exact ⟨_, rfl, rfl, by simp [State.goto, Pc.remaining]⟩

omit [DecidableEq ι] in
theorem remaining_lt_of_handlerStep [Fintype ι] (hstep : handlerStep s = some s') :
    s'.remaining < s.remaining := by
  unfold handlerStep at hstep
  unfold State.remaining
  cases hhandler : s.handlerPc with
  | write thread exinfo assertion => simp [hhandler] at hstep
  | terminated => simp [hhandler] at hstep
  | waitStart =>
    cases hcount : s.startCount with
    | zero => simp [hhandler, hcount] at hstep
    | succ count =>
      simp only [hhandler, hcount, Option.some.injEq] at hstep
      obtain rfl := hstep
      simp only [HandlerPc.remaining]
      omega
  | readFields | assign status | releaseFinish =>
    simp only [hhandler, Option.some.injEq] at hstep
    obtain rfl := hstep
    simp only [HandlerPc.remaining]
    omega

omit [DecidableEq ι] in
theorem terminated_of_handlerStep (hstep : handlerStep s = some s') :
    s'.handlerPc ≠ .terminated := by
  unfold handlerStep at hstep
  cases hhandler : s.handlerPc with
  | write thread exinfo assertion => simp [hhandler] at hstep
  | terminated => simp [hhandler] at hstep
  | waitStart =>
    cases hcount : s.startCount with
    | zero => simp [hhandler, hcount] at hstep
    | succ count =>
      simp only [hhandler, hcount, Option.some.injEq] at hstep
      obtain rfl := hstep
      exact fun h => nomatch h
  | _ =>
    simp only [hhandler, Option.some.injEq] at hstep
    obtain rfl := hstep
    exact fun h => nomatch h

variable [DecidableEq ExInfo] [DecidableEq Assertion]

/-- Every action of a call leaves less to do. -/
theorem remaining_lt_of_step [Fintype ι] {l : Label ι ExInfo Assertion} (hl : l.Internal)
    (hstep : step created s l = some s') : s'.remaining < s.remaining := by
  cases l with
  | call i r => exact hl.elim
  | terminate => exact hl.elim
  | thread i =>
    obtain ⟨pc, hpc, hhandler, hlt⟩ := exists_goto_of_threadStep hstep
    exact remaining_lt_of_goto hpc (by rw [hhandler]; omega)
  | handler => exact remaining_lt_of_handlerStep hstep
  | ret i status =>
    obtain ⟨hpc, ⟨⟩⟩ := Option.ite_none_right_eq_some.mp hstep
    exact remaining_lt_of_goto rfl (by simp [hpc, State.goto, Pc.remaining])
  | dump d =>
    obtain ⟨hwrite, ⟨⟩⟩ := Option.ite_none_right_eq_some.mp hstep
    simp [State.remaining, hwrite, HandlerPc.remaining]

/-- No call that was made can go on. -/
def State.Stopped (created : Bool) (s : State ι ExInfo Assertion) : Prop :=
  ∀ l : Label ι ExInfo Assertion, l.Internal → step created s l = none

/-- While a thread waits, the handler's thread has something to do. -/
theorem State.Serving.not_stopped {r : Request ExInfo Assertion}
    {phase : Atomic.Phase ExInfo Assertion} (h : s.Serving i r phase)
    (hpc : s.pc i = .waitFinish r) (hhandler : s.handlerPc ≠ .terminated) :
    ¬ s.Stopped created := by
  intro hstopped
  have hhandlerStep := hstopped .handler trivial
  have hthreadStep := hstopped (.thread i) trivial
  unfold State.Serving at h
  cases hcase : s.handlerPc with
  | terminated => exact hhandler hcase
  | write thread exinfo assertion =>
    have hdump := hstopped (.dump ⟨thread, exinfo, assertion, true⟩) trivial
    simp [step, hcase] at hdump
  | waitStart =>
    simp only [hcase] at h
    rcases h with ⟨hstart, -, -⟩ | ⟨-, hfinish, -⟩
    · simp [step, handlerStep, hcase, hstart] at hhandlerStep
    · simp [step, threadStep, hpc, hfinish] at hthreadStep
  | readFields | assign status | releaseFinish =>
    simp [step, handlerStep, hcase] at hhandlerStep

/-- Calls stop only when they have returned. -/
theorem Related.outside_of_stopped {t : Atomic.State ι ExInfo Assertion}
    (h : Related created s t) (hhandler : created = true → s.handlerPc ≠ .terminated)
    (hstopped : s.Stopped created) (i : ι) : s.pc i = .outside := by
  cases howner : s.owner with
  | none =>
    -- nobody is inside, so whoever waits can enter
    have houtside := h.outside i (by rw [howner]; exact (Option.some_ne_none i).symm)
    have hthreadStep := hstopped (.thread i) trivial
    cases hpc : s.pc i with
    | outside => rfl
    | enter r => simp [step, HandlerThread.threadStep, hpc, howner] at hthreadStep
    | _ => exact absurd houtside (by simp [hpc, Pc.Outside])
  | some j =>
    -- the owner can always move, if only after the handler's thread
    exfalso
    have hinside := h.inside j howner
    have hthreadStep := hstopped (.thread j) trivial
    cases hpc : s.pc j with
    | outside | enter r =>
      simp only [hpc] at hinside
      exact hinside
    | leave status =>
      have hret := hstopped (.ret j status) trivial
      simp [step, hpc] at hret
    | waitFinish r =>
      simp only [hpc] at hinside
      exact hinside.2.2.not_stopped hpc (hhandler hinside.1) hstopped
    | _ => simp [step, HandlerThread.threadStep, hpc] at hthreadStep

/-- In every state that can be reached, with the handler's thread terminated or not, the
calls that were made take only so many actions; and once none is left that can be taken,
all of them have returned. -/
def AnswersEveryCall (ι ExInfo Assertion : Type) [DecidableEq ι] [DecidableEq ExInfo]
    [DecidableEq Assertion] [Fintype ι] (created mayTerminate : Bool) : Prop :=
  ∀ s : State ι ExInfo Assertion,
    (system created).Reachable { l | l = .terminate → mayTerminate = true } s →
    ∀ ls t, (∀ l ∈ ls, l.Internal) → (system created).run s ls = some t →
      ls.length ≤ s.remaining ∧ (t.Stopped created → ∀ i, t.pc i = .outside)

/-- What holds along a run in which a thread that is needed is not terminated. -/
def State.Sound (created : Bool) (s : State ι ExInfo Assertion) : Prop :=
  (∃ t, Related created s t) ∧ (created = true → s.handlerPc ≠ .terminated)

theorem State.Sound.step {l : Label ι ExInfo Assertion} (h : s.Sound created)
    (hl : l = .terminate → created = false) (hstep : HandlerThread.step created s l = some s') :
    s'.Sound created := by
  obtain ⟨⟨t, hrelated⟩, hhandler⟩ := h
  obtain ⟨ks, t', -, hrelated', -⟩ := (simulation created).step hrelated hstep
  refine ⟨⟨t', hrelated'⟩, fun hcreated => ?_⟩
  cases l with
  | terminate => exact absurd hcreated (by rw [hl rfl]; exact Bool.false_ne_true)
  | thread i =>
    obtain ⟨-, -, heq, -⟩ := exists_goto_of_threadStep hstep
    rw [heq]
    exact hhandler hcreated
  | handler => exact terminated_of_handlerStep hstep
  | call i r =>
    obtain ⟨-, ⟨⟩⟩ := Option.ite_none_right_eq_some.mp hstep
    exact hhandler hcreated
  | ret i status =>
    obtain ⟨-, ⟨⟩⟩ := Option.ite_none_right_eq_some.mp hstep
    exact hhandler hcreated
  | dump d =>
    obtain ⟨-, ⟨⟩⟩ := Option.ite_none_right_eq_some.mp hstep
    exact fun h => nomatch h

/-- The handler's thread is terminated, and then a thread calls. -/
theorem exists_stuck (i : ι) : ∃ s : State ι ExInfo Assertion,
    (system true).Reachable { l | l = .terminate → true = true } s ∧
      s.Stopped true ∧ s.pc i ≠ .outside := by
  let r : Request ExInfo Assertion := ⟨none, none⟩
  refine ⟨{ initial.goto i (.waitFinish r) with
      handlerPc := .terminated, owner := some i, startCount := 1, requesting_thread_id_ := some i },
    ⟨[.terminate, .call i r, .thread i, .thread i, .thread i, .thread i, .thread i, .thread i],
      fun _ _ _ => rfl, ?_⟩, fun l hl => ?_, by simp⟩
  · simp [System.run, system, step, threadStep, initial, State.goto, r, releaseSemaphore,
      maximumCount]
  · cases l with
    | call j r => exact hl.elim
    | terminate => exact hl.elim
    | handler => rfl
    | dump d => simp [step]
    | thread j =>
      rcases eq_or_ne j i with rfl | hne
      · simp [step, threadStep, initial, State.goto]
      · simp [step, threadStep, State.goto_pc_of_ne _ hne, initial]
    | ret j status =>
      rcases eq_or_ne j i with rfl | hne
      · simp [step]
      · simp [step, State.goto_pc_of_ne _ hne, initial]

/-- **Every call returns unless the handler's thread is terminated.** In every state that
can be reached, the calls that were made come to an end after finitely many actions, in
whatever order the threads move, and then all of them have returned: if and only if the
handler's thread was never created, or is never terminated. -/
theorem answersEveryCall_iff [Fintype ι] [Inhabited ι] (created mayTerminate : Bool) :
    AnswersEveryCall ι ExInfo Assertion created mayTerminate ↔
      created = false ∨ mayTerminate = false := by
  constructor
  · intro h
    cases created with
    | false => exact .inl rfl
    | true =>
      cases mayTerminate with
      | false => exact .inr rfl
      | true =>
        obtain ⟨s, hreachable, hstopped, hpc⟩ := @exists_stuck ι ExInfo Assertion _ _ _ default
        exact absurd ((h s hreachable [] s (by simp) rfl).2 hstopped default) hpc
  · intro hcases s hreachable ls t hls hrun
    have hsound : s.Sound created := by
      refine hreachable.invariant (State.Sound created) ⟨⟨_, (simulation created).init⟩, ?_⟩ ?_
      · exact fun _ h => nomatch h
      · intro s l s' hs hl hstep
        refine hs.step (fun hterminate => ?_) hstep
        rcases hcases with hcreated | hmay
        · exact hcreated
        · exact absurd (hl hterminate) (by rw [hmay]; exact Bool.false_ne_true)
    have hinternal : ∀ (s : State ι ExInfo Assertion) (l : Label ι ExInfo Assertion) s',
        s.Sound created → l.Internal → (system created).step s l = some s' → s'.Sound created :=
      fun s l s' hs hl hstep => hs.step (fun heq => (heq ▸ hl).elim) hstep
    have hmeets : (system created).Meets (fun _ l => l.Internal) s ls :=
      System.meets_of_forall_mem fun l hl _ => hls l hl
    -- every action lowers the measure, so that at most this many are left
    have hlength := System.length_add_le_of_decreases hinternal
      (fun s l t _ hl hstep => remaining_lt_of_step hl hstep) hmeets hsound hrun
    obtain ⟨⟨t', hrelated⟩, hhandler⟩ :=
      System.run_invariant (State.Sound created) hinternal hmeets hsound hrun
    exact ⟨by omega, hrelated.outside_of_stopped hhandler⟩

end HandlerThread

end SMEWindow.Breakpad
