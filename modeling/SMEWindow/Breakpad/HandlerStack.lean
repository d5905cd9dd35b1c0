import SMEWindow.Lib.Transition
import Mathlib.Data.List.Basic
import Mathlib.Logic.Function.Basic
import Mathlib.Tactic.Common

/-!
# The stack of exception handlers

Every `ExceptionHandler` that installs itself for a kind of failure is on one static
stack, and what was installed before it is kept in its fields. The system calls one
static function for a failure; which handler it belongs to is found by counting from the
top of the stack. A handler that declines passes the exception on to what was installed
before it, and if that is the same static function, the count tells it to take the next
handler down.

## Main definitions

* `HandlerStack.Process` — the stack, its index, what is installed, and the handlers
* `HandlerStack.handleException` — `HandleException` with its nested calls
* `HandlerStack.deliver` — what a list of handlers is for: the newest is asked first

## Main results

* `delivered_of_lastFirst` — handlers for every kind of failure that are destroyed last
  first are asked from the newest to the oldest, and the process is as it was
* `delivers_iff` — handlers for some kinds get each other's exceptions exactly when one
  without exceptions is above one with them
-/

set_option autoImplicit false

namespace SMEWindow.Breakpad

open Lib.Transition

namespace HandlerStack

/-- The kinds of failures, a bit each of `HandlerType`. -/
inductive Kind
  /-- `HANDLER_EXCEPTION`, with `SetUnhandledExceptionFilter`. -/
  | exception
  /-- `HANDLER_INVALID_PARAMETER`, with `_set_invalid_parameter_handler`. -/
  | invalidParameter
  /-- `HANDLER_PURECALL`, with `_set_purecall_handler`. -/
  | purecall
  deriving DecidableEq, Repr

/-- A set of kinds. -/
abbrev HandlerType := Kind → Bool

def HandlerType.NONE : HandlerType := fun _ => false

def HandlerType.ALL : HandlerType := fun _ => true

/-- What is installed for a kind of failure: nothing, the function of this class, or one of
somebody else. -/
inductive Slot (φ : Type)
  | null
  | own
  | foreign (f : φ)
  deriving DecidableEq, Repr

structure ExceptionHandler (φ : Type) where
  handler_types_ : HandlerType
  /-- `previous_filter_`, `previous_iph_` and `previous_pch_`. -/
  previous : Kind → Slot φ
  handle_debug_exceptions_ : Bool
  consume_invalid_handle_exceptions_ : Bool

/-- A process with handlers. -/
structure Process (ι φ : Type) where
  /-- The last element first; the null pointer where there is none. -/
  handler_stack_ : List ι
  handler_stack_index_ : ℕ
  installed : Kind → Slot φ
  /-- The handlers that exist, the newest first. -/
  alive : List ι
  handler : ι → ExceptionHandler φ

variable {ι φ : Type}

/-- What was installed before all handlers. -/
def originalSlot (original : Kind → Option φ) (k : Kind) : Slot φ :=
  match original k with
  | none => .null
  | some f => .foreign f

/-- A process without handlers, in which somebody else may have installed something. -/
def start (original : Kind → Option φ) : Process ι φ where
  handler_stack_ := []
  handler_stack_index_ := 0
  installed := originalSlot original
  alive := []
  handler _ := ⟨HandlerType.NONE, fun _ => .null, false, false⟩

section Objects

variable [DecidableEq ι]

/-- `handler_types != HANDLER_NONE`. -/
def HandlerType.isSome (types : HandlerType) : Bool :=
  types .exception || types .invalidParameter || types .purecall

/-- `Initialize`. -/
def construct (p : Process ι φ) (i : ι) (handler_types : HandlerType) : Process ι φ where
  handler_stack_ := if handler_types.isSome then i :: p.handler_stack_ else p.handler_stack_
  handler_stack_index_ := p.handler_stack_index_
  installed k := if handler_types k then .own else p.installed k
  alive := i :: p.alive
  handler := Function.update p.handler i
    ⟨handler_types, fun k => if handler_types k then p.installed k else .null, false, false⟩

/-- Take a handler off the stack: the last one, or else wherever it is. -/
def remove (i : ι) (stack : List ι) : List ι :=
  if stack.head? = some i then stack.tail else stack.filter (· ≠ i)

/-- The destructor. -/
def destroy (p : Process ι φ) (i : ι) : Process ι φ where
  handler_stack_ :=
    if (p.handler i).handler_types_.isSome then remove i p.handler_stack_ else p.handler_stack_
  handler_stack_index_ := p.handler_stack_index_
  installed k := if (p.handler i).handler_types_ k then (p.handler i).previous k
    else p.installed k
  alive := p.alive.erase i
  handler := p.handler

/-- `set_handle_debug_exceptions` and `set_consume_invalid_handle_exceptions`. -/
def configure (p : Process ι φ) (i : ι) (debug consume : Bool) : Process ι φ :=
  { p with handler := Function.update p.handler i { p.handler i with
      handle_debug_exceptions_ := debug, consume_invalid_handle_exceptions_ := consume } }

end Objects

/-! ### Delivering an exception -/

def EXCEPTION_BREAKPOINT : UInt32 := 0x80000003

def EXCEPTION_SINGLE_STEP : UInt32 := 0x80000004

def EXCEPTION_INVALID_HANDLE : UInt32 := 0xC0000008

/-- What becomes of an exception. -/
inductive Action (φ : Type)
  | continueExecution
  | executeHandler
  | continueSearch
  /-- Somebody else's filter decides. -/
  | passedTo (f : φ)
  /-- The stack is shorter than its index says. -/
  | crash
  deriving DecidableEq, Repr

def isDebugException (code : UInt32) : Bool :=
  code == EXCEPTION_BREAKPOINT || code == EXCEPTION_SINGLE_STEP

/-- What a handler makes of an exception, `none` if it declines. `success` is what its
dump returns, if it is asked for one. -/
def ExceptionHandler.reply (h : ExceptionHandler φ) (code : UInt32) (success : Bool) :
    Option (Action φ) :=
  if code = EXCEPTION_INVALID_HANDLE ∧ h.consume_invalid_handle_exceptions_ = true then
    some .continueExecution
  else if (!isDebugException code || h.handle_debug_exceptions_) && success then
    some .executeHandler
  else none

/-- The constructor of `AutoExceptionHandler`, with the handler that it finds. -/
def enter (p : Process ι φ) : Option (ι × Process ι φ) :=
  p.handler_stack_[p.handler_stack_index_]?.map fun i =>
    (i, { p with
      handler_stack_index_ := p.handler_stack_index_ + 1
      installed := (p.handler i).previous })

/-- The destructor of `AutoExceptionHandler`. -/
def leave (p : Process ι φ) : Process ι φ :=
  { p with handler_stack_index_ := p.handler_stack_index_ - 1, installed := fun _ => .own }

/-- How an exception was handled. -/
structure Handled (ι φ : Type) where
  action : Action φ
  /-- The handlers that had the exception, in order. -/
  asked : List ι
  process : Process ι φ

/-- `HandleException`; `writes` says for which handlers the dump succeeds. Every nested
call is one further down the stack. -/
def handleException (writes : ι → Bool) (code : UInt32) :
    ℕ → Process ι φ → Option (Handled ι φ)
  | 0, _ => none
  | fuel + 1, p =>
    match enter p with
    | none => some ⟨.crash, [], p⟩
    | some (i, p') =>
      match (p.handler i).reply code (writes i) with
      | some action => some ⟨action, [i], leave p'⟩
      | none =>
        match (p.handler i).previous .exception with
        | .null => some ⟨.continueSearch, [i], leave p'⟩
        | .foreign f => some ⟨.passedTo f, [i], leave p'⟩
        | .own => (handleException writes code fuel p').map fun h =>
          ⟨h.action, i :: h.asked, leave h.process⟩

/-- An exception that nobody handled, as the system delivers it. -/
def raise (writes : ι → Bool) (code : UInt32) (p : Process ι φ) : Option (Handled ι φ) :=
  match p.installed .exception with
  | .null => some ⟨.continueSearch, [], p⟩
  | .foreign f => some ⟨.passedTo f, [], p⟩
  | .own => handleException writes code (p.handler_stack_.length + 1) p

/-! ### Walking down the stack -/

section Walk

variable (handler : ι → ExceptionHandler φ) (writes : ι → Bool) (code : UInt32)

/-- Who is asked, and with what result, from a place of the stack on. -/
def walk : List ι → Action φ × List ι
  | [] => (.crash, [])
  | i :: rest =>
    match (handler i).reply code (writes i) with
    | some action => (action, [i])
    | none =>
      match (handler i).previous .exception with
      | .null => (.continueSearch, [i])
      | .foreign f => (.passedTo f, [i])
      | .own => ((walk rest).1, i :: (walk rest).2)

/-- What handlers are for: each is asked in turn until one does not decline, and then the
filter from before all of them. -/
def deliver (original : Option φ) : List ι → Action φ × List ι
  | [] => (match original with
    | none => .continueSearch
    | some f => .passedTo f, [])
  | i :: rest =>
    match (handler i).reply code (writes i) with
    | some action => (action, [i])
    | none => ((deliver original rest).1, i :: (deliver original rest).2)

end Walk

variable {writes : ι → Bool} {code : UInt32}

/-- The state in which a handler leaves the process. -/
def Process.claimed (p : Process ι φ) : Process ι φ := { p with installed := fun _ => .own }

/-- Nested calls of `HandleException` walk down the stack and come back. -/
theorem handleException_eq (writes : ι → Bool) (code : UInt32) {p : Process ι φ}
    {rest : List ι} {fuel : ℕ} (hrest : p.handler_stack_.drop p.handler_stack_index_ = rest)
    (hfuel : rest.length < fuel) :
    ∃ process, handleException writes code fuel p =
        some ⟨(walk p.handler writes code rest).1, (walk p.handler writes code rest).2, process⟩ ∧
      leave process = leave p ∧ (rest ≠ [] → process = p.claimed) := by
  induction rest generalizing p fuel with
  | nil =>
    obtain ⟨fuel, rfl⟩ := Nat.exists_eq_add_of_lt hfuel
    have hnone : p.handler_stack_[p.handler_stack_index_]? = none :=
      List.getElem?_eq_none (List.drop_eq_nil_iff.mp hrest)
    refine ⟨p, ?_, rfl, fun h => absurd rfl h⟩
    simp [handleException, enter, hnone, walk]
  | cons i rest ih =>
    obtain ⟨fuel, rfl⟩ : ∃ n, fuel = n + 1 := ⟨fuel - 1, by omega⟩
    have hlt : p.handler_stack_index_ < p.handler_stack_.length := by
      have hlength := congrArg List.length hrest
      rw [List.length_drop, List.length_cons] at hlength
      omega
    rw [List.drop_eq_getElem_cons hlt] at hrest
    obtain ⟨hi, hrest⟩ := List.cons.inj hrest
    have hsome : p.handler_stack_[p.handler_stack_index_]? = some i := by
      rw [List.getElem?_eq_getElem hlt, hi]
    -- one level down the filters are those from before the handler
    have hleave : leave { p with
        handler_stack_index_ := p.handler_stack_index_ + 1
        installed := (p.handler i).previous } = p.claimed := rfl
    simp only [handleException, enter, hsome, Option.map_some, walk]
    cases hreply : (p.handler i).reply code (writes i) with
    | some action => exact ⟨p.claimed, rfl, rfl, fun _ => rfl⟩
    | none =>
      cases hprevious : (p.handler i).previous .exception with
      | null => exact ⟨p.claimed, rfl, rfl, fun _ => rfl⟩
      | foreign f => exact ⟨p.claimed, rfl, rfl, fun _ => rfl⟩
      -- the filter below is the class's own: the induction hypothesis one level down
      | own =>
        obtain ⟨process, hnested, hleft, -⟩ := ih
          (p := { p with
            handler_stack_index_ := p.handler_stack_index_ + 1
            installed := (p.handler i).previous }) hrest
          (show rest.length < fuel by rw [List.length_cons] at hfuel; omega)
        refine ⟨leave process, ?_, ?_, fun _ => hleft.trans hleave⟩
        · simp only [hnested, Option.map_some]
        · rw [hleft, hleave]
          rfl

/-- Where the function of the class is installed, an exception walks down the whole
stack. -/
theorem raise_eq {p : Process ι φ} (hown : p.installed .exception = .own)
    (hindex : p.handler_stack_index_ = 0) (hstack : p.handler_stack_ ≠ []) :
    raise writes code p = some ⟨(walk p.handler writes code p.handler_stack_).1,
      (walk p.handler writes code p.handler_stack_).2, p.claimed⟩ := by
  have hdrop : p.handler_stack_.drop p.handler_stack_index_ = p.handler_stack_ := by
    rw [hindex, List.drop_zero]
  obtain ⟨process, hhandled, -, hclaimed⟩ :=
    handleException_eq writes code hdrop (Nat.lt_succ_self _)
  simp only [raise, hown]
  rw [hhandled, hclaimed hstack]

/-! ### Handlers that are destroyed last first -/

section Linked

variable (handler : ι → ExceptionHandler φ) (original : Kind → Option φ)

/-- What is installed for a kind once the handlers of a list are. -/
def below (k : Kind) : List ι → Slot φ
  | [] => originalSlot original k
  | i :: rest => if (handler i).handler_types_ k then .own else below k rest

/-- Every handler keeps what was installed before it. -/
def Linked : List ι → Prop
  | [] => True
  | i :: rest =>
    (∀ k, (handler i).previous k =
      if (handler i).handler_types_ k then below handler original k rest else .null) ∧
    Linked rest

variable {handler original}

theorem below_congr {handler' : ι → ExceptionHandler φ} {stack : List ι} (k : Kind)
    (h : ∀ i ∈ stack, (handler' i).handler_types_ = (handler i).handler_types_) :
    below handler' original k stack = below handler original k stack := by
  induction stack with
  | nil => rfl
  | cons i rest ih =>
    rw [below, below, h i List.mem_cons_self, ih fun j hj => h j (List.mem_cons_of_mem i hj)]

/-- The chain depends on what is installed and kept alone. -/
theorem Linked.congr {handler' : ι → ExceptionHandler φ} {stack : List ι}
    (h : Linked handler original stack)
    (htypes : ∀ i ∈ stack, (handler' i).handler_types_ = (handler i).handler_types_)
    (hprevious : ∀ i ∈ stack, (handler' i).previous = (handler i).previous) :
    Linked handler' original stack := by
  induction stack with
  | nil => trivial
  | cons i rest ih =>
    have htypes' := fun j hj => htypes j (List.mem_cons_of_mem i hj)
    refine ⟨fun k => ?_, ih h.2 htypes' fun j hj => hprevious j (List.mem_cons_of_mem i hj)⟩
    rw [hprevious i List.mem_cons_self, htypes i List.mem_cons_self, below_congr k htypes']
    exact h.1 k

theorem below_eq_own {stack : List ι} {k : Kind} {i : ι} (hi : i ∈ stack)
    (htypes : (handler i).handler_types_ k = true) : below handler original k stack = .own := by
  induction stack with
  | nil => exact absurd hi List.not_mem_nil
  | cons j rest ih =>
    rw [below]
    split_ifs with hj
    · rfl
    · rcases List.mem_cons.mp hi with rfl | hi
      · exact absurd htypes hj
      · exact ih hi

theorem below_eq_original {stack : List ι} {k : Kind}
    (h : ∀ i ∈ stack, (handler i).handler_types_ k = false) :
    below handler original k stack = originalSlot original k := by
  induction stack with
  | nil => rfl
  | cons i rest ih =>
    rw [below, h i List.mem_cons_self]
    exact ih fun j hj => h j (List.mem_cons_of_mem i hj)

end Linked

variable {original : Kind → Option φ}

/-- What holds between exceptions as long as handlers are destroyed last first. -/
structure Process.Orderly (original : Kind → Option φ) (p : Process ι φ) : Prop where
  stack : p.handler_stack_ = p.alive.filter fun i => (p.handler i).handler_types_.isSome
  index : p.handler_stack_index_ = 0
  nodup : p.alive.Nodup
  linked : Linked p.handler original p.handler_stack_
  installed : ∀ k, p.installed k = below p.handler original k p.handler_stack_

theorem orderly_start : (start original : Process ι φ).Orderly original where
  stack := rfl
  index := rfl
  nodup := List.nodup_nil
  linked := trivial
  installed _ := rfl

theorem HandlerType.eq_false_of_not_isSome {types : HandlerType} (h : types.isSome = false)
    (k : Kind) : types k = false := by
  rw [isSome, Bool.or_eq_false_iff, Bool.or_eq_false_iff] at h
  cases k with
  | exception => exact h.1.1
  | invalidParameter => exact h.1.2
  | purecall => exact h.2

namespace Process.Orderly

variable [DecidableEq ι] {p : Process ι φ} {i : ι}

omit [DecidableEq ι] in
theorem mem_alive (h : p.Orderly original) {j : ι} (hj : j ∈ p.handler_stack_) : j ∈ p.alive := by
  rw [h.stack] at hj
  exact List.mem_of_mem_filter hj

theorem construct (h : p.Orderly original) (hi : i ∉ p.alive) (types : HandlerType) :
    (HandlerStack.construct p i types).Orderly original := by
  have hother : ∀ j ∈ p.alive, (HandlerStack.construct p i types).handler j = p.handler j :=
    fun j hj => Function.update_of_ne (fun heq : j = i => hi (heq ▸ hj)) ..
  have hself : (HandlerStack.construct p i types).handler i =
      ⟨types, fun k => if types k then p.installed k else .null, false, false⟩ :=
    Function.update_self ..
  have hlinked : Linked (HandlerStack.construct p i types).handler original p.handler_stack_ :=
    h.linked.congr (fun j hj => by rw [hother j (h.mem_alive hj)])
      fun j hj => by rw [hother j (h.mem_alive hj)]
  have hbelow : ∀ k, below (HandlerStack.construct p i types).handler original k
      p.handler_stack_ = p.installed k := fun k => by
    rw [h.installed k]
    exact below_congr k fun j hj => by rw [hother j (h.mem_alive hj)]
  have hfilter : (p.alive.filter fun j =>
      ((HandlerStack.construct p i types).handler j).handler_types_.isSome) =
        p.handler_stack_ := by
    rw [h.stack]
    exact List.filter_congr fun j hj => by rw [hother j hj]
  cases hsome : types.isSome with
  | true =>
    have hstack : (HandlerStack.construct p i types).handler_stack_ = i :: p.handler_stack_ := by
      simp [HandlerStack.construct, hsome]
    refine ⟨?_, h.index, List.nodup_cons.mpr ⟨hi, h.nodup⟩, ?_, fun k => ?_⟩
    · rw [hstack]
      change _ = List.filter _ (i :: p.alive)
      rw [List.filter_cons_of_pos (by rw [hself]; exact hsome), hfilter]
    · rw [hstack]
      refine ⟨fun k => ?_, hlinked⟩
      rw [hself, hbelow]
    · rw [hstack, below, hself, hbelow]
      rfl
  | false =>
    have hstack : (HandlerStack.construct p i types).handler_stack_ = p.handler_stack_ := by
      simp [HandlerStack.construct, hsome]
    refine ⟨?_, h.index, List.nodup_cons.mpr ⟨hi, h.nodup⟩, ?_, fun k => ?_⟩
    · rw [hstack]
      change _ = List.filter _ (i :: p.alive)
      rw [List.filter_cons_of_neg (by rw [hself]; simpa using hsome), hfilter]
    · rw [hstack]
      exact hlinked
    · rw [hstack, hbelow]
      simp [HandlerStack.construct, HandlerType.eq_false_of_not_isSome hsome k]

theorem destroy (h : p.Orderly original) (hlast : p.alive.head? = some i) :
    (HandlerStack.destroy p i).Orderly original := by
  obtain ⟨rest, halive⟩ := List.head?_eq_some_iff.mp hlast
  have hnodup : (i :: rest).Nodup := halive ▸ h.nodup
  have herase : (HandlerStack.destroy p i).alive = rest := by
    change p.alive.erase i = rest
    rw [halive, List.erase_cons_head]
  have hstack := h.stack
  rw [halive] at hstack
  cases hsome : (p.handler i).handler_types_.isSome with
  | true =>
    rw [List.filter_cons_of_pos (by exact hsome)] at hstack
    have hremoved : (HandlerStack.destroy p i).handler_stack_ =
        rest.filter fun j => (p.handler j).handler_types_.isSome := by
      change (if (p.handler i).handler_types_.isSome then remove i p.handler_stack_ else _) = _
      rw [if_pos hsome, hstack, remove, List.head?_cons, if_pos rfl, List.tail_cons]
    have hlinked := h.linked
    rw [hstack] at hlinked
    refine ⟨?_, h.index, ?_, ?_, fun k => ?_⟩
    · rw [hremoved, herase]
      rfl
    · rw [herase]
      exact hnodup.of_cons
    · rw [hremoved]
      exact hlinked.2
    · rw [hremoved]
      change (if (p.handler i).handler_types_ k then (p.handler i).previous k else
        p.installed k) = below p.handler original k _
      rw [hlinked.1 k, h.installed k, hstack, below]
      split_ifs <;> rfl
  | false =>
    rw [List.filter_cons_of_neg (by simpa using hsome)] at hstack
    have hkept : (HandlerStack.destroy p i).handler_stack_ = p.handler_stack_ := by
      change (if (p.handler i).handler_types_.isSome then _ else p.handler_stack_) = _
      rw [hsome]
      rfl
    refine ⟨?_, h.index, ?_, ?_, fun k => ?_⟩
    · rw [hkept, herase]
      exact hstack
    · rw [herase]
      exact hnodup.of_cons
    · rw [hkept]
      exact h.linked
    · rw [hkept]
      change (if (p.handler i).handler_types_ k then _ else p.installed k) = _
      rw [HandlerType.eq_false_of_not_isSome hsome k]
      exact h.installed k

/-- Both settings of a handler may change at any time. -/
theorem configure (h : p.Orderly original) (debug consume : Bool) :
    (HandlerStack.configure p i debug consume).Orderly original := by
  have htypes : ∀ j, ((HandlerStack.configure p i debug consume).handler j).handler_types_ =
      (p.handler j).handler_types_ := by
    intro j
    simp only [HandlerStack.configure, Function.update_apply]
    split_ifs with heq
    · rw [heq]
    · rfl
  have hprevious : ∀ j, ((HandlerStack.configure p i debug consume).handler j).previous =
      (p.handler j).previous := by
    intro j
    simp only [HandlerStack.configure, Function.update_apply]
    split_ifs with heq
    · rw [heq]
    · rfl
  refine ⟨?_, h.index, h.nodup, h.linked.congr (fun j _ => htypes j) fun j _ => hprevious j,
    fun k => ?_⟩
  · refine h.stack.trans (List.filter_congr fun j _ => ?_)
    rw [htypes]
  · exact (h.installed k).trans (below_congr k fun j _ => htypes j).symm

end Process.Orderly

/-! ### Who gets an exception -/

section Deliver

variable {handler : ι → ExceptionHandler φ} {stack : List ι}

/-- The handler is for exceptions. -/
def ExceptionHandler.takesExceptions (h : ExceptionHandler φ) : Bool :=
  h.handler_types_ .exception

/-- No handler without exceptions is above one with them. -/
def Separated (handler : ι → ExceptionHandler φ) (stack : List ι) : Prop :=
  stack.Pairwise fun newer older =>
    (handler older).takesExceptions = true → (handler newer).takesExceptions = true

theorem walk_eq_deliver (hlinked : Linked handler original stack)
    (hseparated : Separated handler stack)
    (hsome : ∃ i ∈ stack, (handler i).takesExceptions = true) :
    walk handler writes code stack = deliver handler writes code (original .exception)
      (stack.filter fun i => (handler i).takesExceptions) := by
  induction stack with
  | nil => exact absurd hsome (by simp)
  | cons i rest ih =>
    obtain ⟨hhead, hrest⟩ := List.pairwise_cons.mp hseparated
    have hi : (handler i).takesExceptions = true := by
      obtain ⟨j, hj, htakes⟩ := hsome
      rcases List.mem_cons.mp hj with rfl | hj
      · exact htakes
      · exact hhead j hj htakes
    have hprevious : (handler i).previous .exception =
        below handler original .exception rest := by
      rw [hlinked.1 .exception]
      exact if_pos hi
    rw [List.filter_cons_of_pos (by exact hi), walk, deliver, hprevious]
    cases (handler i).reply code (writes i) with
    | some action => rfl
    | none =>
      by_cases hmore : ∃ j ∈ rest, (handler j).takesExceptions = true
      · obtain ⟨j, hj, htakes⟩ := hmore
        rw [below_eq_own hj htakes, ← ih hlinked.2 hrest ⟨j, hj, htakes⟩]
      · have hnone : ∀ j ∈ rest, (handler j).takesExceptions = false := fun j hj => by
          simpa using fun htakes => hmore ⟨j, hj, htakes⟩
        rw [below_eq_original hnone, originalSlot,
          List.filter_eq_nil_iff.mpr fun j hj => by simp [hnone j hj]]
        cases original .exception with
        | none => rfl
        | some f => rfl

theorem mem_of_mem_deliver {previous : Option φ} {i : ι}
    (h : i ∈ (deliver handler writes code previous stack).2) : i ∈ stack := by
  induction stack with
  | nil => exact absurd h List.not_mem_nil
  | cons j rest ih =>
    rw [deliver] at h
    cases hreply : (handler j).reply code (writes j) with
    | some action =>
      rw [hreply] at h
      exact List.mem_cons.mpr (.inl (List.mem_singleton.mp h))
    | none =>
      rw [hreply] at h
      rcases List.mem_cons.mp h with rfl | h
      · exact List.mem_cons_self
      · exact List.mem_cons_of_mem j (ih h)

/-- Whatever its settings, a handler whose dump fails declines an ordinary exception. -/
theorem reply_zero (h : ExceptionHandler φ) : h.reply 0 false = none := by
  simp [ExceptionHandler.reply, EXCEPTION_INVALID_HANDLE]

/-- Where a handler without exceptions is above one with them, it gets them when all in
front of it decline. -/
theorem exists_mem_walk (hlinked : Linked handler original stack)
    (hmixed : ¬ Separated handler stack) :
    ∃ i ∈ (walk handler (fun _ => false) 0 stack).2, (handler i).takesExceptions = false := by
  induction stack with
  | nil => exact absurd List.Pairwise.nil hmixed
  | cons i rest ih =>
    rw [walk, reply_zero]
    cases hi : (handler i).takesExceptions with
    | false =>
      refine ⟨i, ?_, hi⟩
      cases (handler i).previous .exception <;> exact List.mem_cons_self
    | true =>
      have hrest : ¬ Separated handler rest := fun hrest =>
        hmixed (List.pairwise_cons.mpr ⟨fun _ _ _ => hi, hrest⟩)
      have hmore : ∃ j ∈ rest, (handler j).takesExceptions = true := by
        by_contra hnone
        exact hrest (List.pairwise_of_forall_mem_list fun j _ k hk htakes =>
          absurd ⟨k, hk, htakes⟩ hnone)
      obtain ⟨j, hj, htakes⟩ := hmore
      have hown : (handler i).previous .exception = .own := by
        rw [hlinked.1 .exception, below_eq_own hj htakes]
        exact if_pos hi
      obtain ⟨k, hk, hfalse⟩ := ih hlinked.2 hrest
      rw [hown]
      exact ⟨k, List.mem_cons_of_mem i hk, hfalse⟩

end Deliver

variable {p : Process ι φ}

/-- An exception in an orderly process, by whether there is a handler for exceptions. -/
theorem Process.Orderly.raise_eq (h : p.Orderly original) :
    raise writes code p =
      if ∃ i ∈ p.handler_stack_, (p.handler i).takesExceptions = true then
        some ⟨(walk p.handler writes code p.handler_stack_).1,
          (walk p.handler writes code p.handler_stack_).2, p.claimed⟩
      else some ⟨(deliver p.handler writes code (original .exception) []).1, [], p⟩ := by
  split_ifs with hsome
  · obtain ⟨i, hi, htakes⟩ := hsome
    refine HandlerStack.raise_eq ?_ h.index (List.ne_nil_of_mem hi)
    rw [h.installed, below_eq_own hi htakes]
  · have hnone : ∀ i ∈ p.handler_stack_, (p.handler i).takesExceptions = false := fun i hi => by
      simpa using fun htakes => hsome ⟨i, hi, htakes⟩
    have hinstalled := (h.installed .exception).trans (below_eq_original hnone)
    rw [originalSlot] at hinstalled
    rw [raise, hinstalled]
    cases original .exception with
    | none => rfl
    | some f => rfl

/-- Every exception gets to the handlers that are for exceptions, the newest first, and if
all of them decline to the filter from before them. -/
def Process.Delivers (original : Kind → Option φ) (p : Process ι φ) : Prop :=
  ∀ writes code, ∃ process, raise writes code p =
    some ⟨(deliver p.handler writes code (original .exception)
        (p.handler_stack_.filter fun i => (p.handler i).takesExceptions)).1,
      (deliver p.handler writes code (original .exception)
        (p.handler_stack_.filter fun i => (p.handler i).takesExceptions)).2, process⟩

theorem Process.Orderly.delivers_of_kinds_iff (h : p.Orderly original) :
    p.Delivers original ↔ Separated p.handler p.handler_stack_ := by
  constructor
  · intro hdelivers
    by_contra hmixed
    obtain ⟨i, hi, hfalse⟩ := exists_mem_walk h.linked hmixed
    obtain ⟨process, hraise⟩ := hdelivers (fun _ => false) 0
    have hsome : ∃ i ∈ p.handler_stack_, (p.handler i).takesExceptions = true := by
      by_contra hnone
      exact hmixed (List.pairwise_of_forall_mem_list fun j _ k hk htakes =>
        absurd ⟨k, hk, htakes⟩ hnone)
    rw [h.raise_eq, if_pos hsome, Option.some.injEq, Handled.mk.injEq] at hraise
    rw [hraise.2.1] at hi
    have htakes := (List.mem_filter.mp (mem_of_mem_deliver hi)).2
    rw [hfalse] at htakes
    exact Bool.false_ne_true htakes
  · intro hseparated writes code
    rw [h.raise_eq]
    split_ifs with hsome
    · exact ⟨p.claimed, by rw [walk_eq_deliver h.linked hseparated hsome]⟩
    · refine ⟨p, ?_⟩
      rw [List.filter_eq_nil_iff.mpr fun i hi htakes => hsome ⟨i, hi, htakes⟩]
      rfl

/-! ### Runs -/

inductive Label (ι : Type)
  | construct (i : ι) (handler_types : HandlerType)
  | destroy (i : ι)
  | configure (i : ι) (debug consume : Bool)
  /-- An exception that nobody handled. -/
  | raise (writes : ι → Bool) (code : UInt32)

variable [DecidableEq ι] [DecidableEq φ]

/-- A process goes on after an exception unless delivering it crashes. -/
def step (p : Process ι φ) : Label ι → Option (Process ι φ)
  | .construct i handler_types =>
    if i ∈ p.alive then none else some (construct p i handler_types)
  | .destroy i => if i ∈ p.alive then some (destroy p i) else none
  | .configure i debug consume =>
    if i ∈ p.alive then some (configure p i debug consume) else none
  | .raise writes code =>
    (raise writes code p).bind fun h => if h.action = .crash then none else some h.process

def system (original : Kind → Option φ) : System (Process ι φ) (Label ι) where
  init := start original
  step := step

/-- Handlers are destroyed last first. -/
def LastFirst (p : Process ι φ) : Label ι → Prop
  | .destroy i => p.alive.head? = some i
  | _ => True

/-- Handlers are for every kind of failure or for none, as those of `breakpadWrapper` and
of `WriteMinidump` are. -/
def ForAll : Label ι → Prop
  | .construct _ handler_types =>
    handler_types = HandlerType.ALL ∨ handler_types = HandlerType.NONE
  | _ => True

/-- The action is not an exception. -/
def NoException : Label ι → Prop
  | .raise _ _ => False
  | _ => True

variable {q : Process ι φ} {l : Label ι} {ls : List (Label ι)}

theorem Process.Orderly.step (h : p.Orderly original) (hlast : LastFirst p l)
    (hno : NoException l) (hstep : HandlerStack.step p l = some q) : q.Orderly original := by
  cases l with
  | construct i handler_types =>
    obtain ⟨hi, ⟨⟩⟩ := Option.ite_none_left_eq_some.mp hstep
    exact h.construct hi handler_types
  | destroy i =>
    obtain ⟨-, ⟨⟩⟩ := Option.ite_none_right_eq_some.mp hstep
    exact h.destroy hlast
  | configure i debug consume =>
    obtain ⟨-, ⟨⟩⟩ := Option.ite_none_right_eq_some.mp hstep
    exact h.configure debug consume
  | raise writes code => exact hno.elim

/-- **Handlers get what they are for exactly when they are separated.** After every run
that constructs handlers for any kinds of failures and destroys them last first: every
exception gets to the handlers that are for exceptions, from the newest to the oldest,
until one takes it, and else to the filter from before them; if and only if no handler
that is not for exceptions is above one that is. -/
theorem delivers_iff
    (hls : (system original).Meets (fun p l => LastFirst p l ∧ NoException l)
      (start original) ls)
    (hrun : (system original).run (start original) ls = some p) :
    p.Delivers original ↔ Separated p.handler p.handler_stack_ := by
  have horderly : p.Orderly original :=
    System.run_invariant (Process.Orderly original)
      (fun p l q hp hl hstep => hp.step hl.1 hl.2 hstep) hls orderly_start hrun
  exact horderly.delivers_of_kinds_iff

/-- A handler for everything under one for pure calls: exceptions do not get through. -/
theorem delivers_iff_two : ∃ p : Process ℕ Unit,
    (system fun _ => none).run (start fun _ => none)
        [.construct 0 HandlerType.ALL, .construct 1 fun k => k == .purecall] = some p ∧
      ¬ p.Delivers fun _ => none := by
  have hls : (system fun _ => none).Meets (fun p l => LastFirst p l ∧ NoException l)
      (start fun _ => none : Process ℕ Unit)
      [.construct 0 HandlerType.ALL, .construct 1 fun k => k == .purecall] :=
    ⟨⟨trivial, trivial⟩, fun _ _ => ⟨⟨trivial, trivial⟩, fun _ _ => trivial⟩⟩
  refine ⟨_, rfl, ?_⟩
  rw [delivers_iff hls rfl]
  intro h
  exact absurd ((List.pairwise_cons.mp h).1 0 List.mem_cons_self rfl) Bool.false_ne_true

/-- Every handler is for all kinds of failures or for none. -/
def Process.Whole (p : Process ι φ) : Prop :=
  ∀ i ∈ p.alive, (p.handler i).handler_types_ = HandlerType.ALL ∨
    (p.handler i).handler_types_ = HandlerType.NONE

omit [DecidableEq ι] [DecidableEq φ] in
theorem Process.Whole.types_eq (hwhole : p.Whole) (h : p.Orderly original) {i : ι}
    (hi : i ∈ p.handler_stack_) : (p.handler i).handler_types_ = HandlerType.ALL := by
  rcases hwhole i (h.mem_alive hi) with htypes | htypes
  · exact htypes
  · rw [h.stack] at hi
    have hsome := (List.mem_filter.mp hi).2
    rw [htypes] at hsome
    cases hsome

omit [DecidableEq ι] [DecidableEq φ] in
/-- Handlers for everything leave the process as it was. -/
theorem Process.Orderly.raise_of_whole (h : p.Orderly original) (hwhole : p.Whole)
    (writes : ι → Bool) (code : UInt32) :
    raise writes code p =
      some ⟨(deliver p.handler writes code (original .exception) p.handler_stack_).1,
        (deliver p.handler writes code (original .exception) p.handler_stack_).2, p⟩ := by
  have htakes : ∀ i ∈ p.handler_stack_, (p.handler i).takesExceptions = true := fun i hi => by
    rw [ExceptionHandler.takesExceptions, hwhole.types_eq h hi]
    rfl
  have hseparated : Separated p.handler p.handler_stack_ :=
    List.pairwise_of_forall_mem_list fun i hi _ _ _ => htakes i hi
  rw [h.raise_eq]
  split_ifs with hsome
  · have hclaimed : p.claimed = p := by
      obtain ⟨i, hi, -⟩ := hsome
      have hown : p.installed = fun _ => .own := funext fun k => by
        rw [h.installed k, below_eq_own hi (by rw [hwhole.types_eq h hi]; rfl)]
      rw [Process.claimed, ← hown]
    rw [hclaimed, walk_eq_deliver h.linked hseparated hsome, List.filter_eq_self.mpr htakes]
  · have hempty : p.handler_stack_ = [] := List.eq_nil_iff_forall_not_mem.mpr fun i hi =>
      hsome ⟨i, hi, htakes i hi⟩
    rw [hempty]
    rfl

omit [DecidableEq φ] in
theorem Process.Whole.construct {i : ι} {handler_types : HandlerType} (h : p.Whole)
    (hi : i ∉ p.alive)
    (htypes : handler_types = HandlerType.ALL ∨ handler_types = HandlerType.NONE) :
    (HandlerStack.construct p i handler_types).Whole := by
  intro j hj
  simp only [HandlerStack.construct, Function.update_apply]
  rcases List.mem_cons.mp hj with rfl | hj
  · rw [if_pos rfl]
    exact htypes
  · rw [if_neg fun heq : j = i => hi (heq ▸ hj)]
    exact h j hj

omit [DecidableEq φ] in
theorem Process.Whole.configure {i : ι} (h : p.Whole) (debug consume : Bool) :
    (HandlerStack.configure p i debug consume).Whole := by
  intro j hj
  simp only [HandlerStack.configure, Function.update_apply]
  split_ifs with heq
  · exact heq ▸ h j hj
  · exact h j hj

theorem Process.Orderly.step_of_whole (h : p.Orderly original) (hwhole : p.Whole)
    (hlast : LastFirst p l) (hall : ForAll l) (hstep : HandlerStack.step p l = some q) :
    q.Orderly original ∧ q.Whole := by
  cases l with
  | construct i handler_types =>
    obtain ⟨hi, ⟨⟩⟩ := Option.ite_none_left_eq_some.mp hstep
    exact ⟨h.construct hi handler_types, hwhole.construct hi hall⟩
  | destroy i =>
    obtain ⟨-, ⟨⟩⟩ := Option.ite_none_right_eq_some.mp hstep
    exact ⟨h.destroy hlast, fun j hj => hwhole j (List.mem_of_mem_erase hj)⟩
  | configure i debug consume =>
    obtain ⟨-, ⟨⟩⟩ := Option.ite_none_right_eq_some.mp hstep
    exact ⟨h.configure debug consume, hwhole.configure debug consume⟩
  | raise writes code =>
    simp only [HandlerStack.step, h.raise_of_whole hwhole, Option.bind_some] at hstep
    obtain ⟨-, ⟨⟩⟩ := Option.ite_none_left_eq_some.mp hstep
    exact ⟨h, hwhole⟩

/-- **Handlers for everything are asked from the newest to the oldest.** In every run that
constructs handlers for all kinds of failures or for none, destroys them last first, and
meets exceptions in between: an exception gets to the handlers that exist, the newest
first, until one takes it, and else to the filter from before them; and whatever comes of
it, the process is as it was. -/
theorem delivered_of_lastFirst
    (hls : (system original).Meets (fun p l => LastFirst p l ∧ ForAll l) (start original) ls)
    (hrun : (system original).run (start original) ls = some p) (writes : ι → Bool)
    (code : UInt32) :
    ∃ h, raise writes code p = some h ∧ h.process = p ∧
      (h.action, h.asked) = deliver p.handler writes code (original .exception)
        (p.alive.filter fun i => (p.handler i).handler_types_.isSome) := by
  obtain ⟨horderly, hwhole⟩ : p.Orderly original ∧ p.Whole :=
    System.run_invariant (fun p => Process.Orderly original p ∧ p.Whole)
      (fun p l q hp hl hstep => hp.1.step_of_whole hp.2 hl.1 hl.2 hstep) hls
      ⟨orderly_start, fun i hi => absurd hi List.not_mem_nil⟩ hrun
  refine ⟨_, horderly.raise_of_whole hwhole writes code, rfl, ?_⟩
  rw [horderly.stack]

/-- Two handlers, the newer of which fails to write its dump: the older one takes the
exception. -/
theorem delivered_of_lastFirst_two : ∃ (p : Process ℕ Unit) (h : Handled ℕ Unit),
    (system fun _ => none).run (start fun _ => none)
        [.construct 0 HandlerType.ALL, .construct 1 HandlerType.ALL] = some p ∧
      raise (· == 0) 0xC0000005 p = some h ∧ h.process = p ∧
      h.action = .executeHandler ∧ h.asked = [1, 0] := by
  have hls : (system fun _ => none).Meets (fun p l => LastFirst p l ∧ ForAll l)
      (start fun _ => none : Process ℕ Unit)
      [.construct 0 HandlerType.ALL, .construct 1 HandlerType.ALL] :=
    ⟨⟨trivial, .inl rfl⟩, fun _ _ => ⟨⟨trivial, .inl rfl⟩, fun _ _ => trivial⟩⟩
  obtain ⟨h, hraise, hprocess, hdeliver⟩ :=
    delivered_of_lastFirst hls rfl (· == 0) 0xC0000005
  exact ⟨_, h, rfl, hraise, hprocess, congrArg Prod.fst hdeliver, congrArg Prod.snd hdeliver⟩

end HandlerStack

end SMEWindow.Breakpad
