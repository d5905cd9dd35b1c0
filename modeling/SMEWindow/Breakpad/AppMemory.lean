import Mathlib.Algebra.Ring.Nat
import Mathlib.Order.Interval.Set.Basic
import SMEWindow.Lib.Transition

/-!
# The memory that goes into a dump

A process may register regions of its memory with a handler, which are to be copied into
every dump. `app_memory_info_` is the list of these regions. Its first element is reserved:
before a dump is written, it is set to the memory around the instruction that failed, and it
is left out as long as its address is null. `MiniDumpWriteDump` asks for one region after the
other, until there is none or it gets one without bytes.

The list is searched by address, with the reserved element. Whoever unregisters the address
that this element has at the moment takes it away, and the next dump writes over a region of
the process; and a region that begins there is not registered. No lock guards the list: who
changes it while a dump goes through it breaks the process.

## Main definitions

* `AppMemory.system` — registering, unregistering and dumping
* `AppMemory.instructionMemory` — the memory around an instruction
* `AppMemory.Spec` — regions and instruction memory apart from each other

## Main results

* `coversInstruction_iff` — the memory around an instruction is what is committed of the 128
  bytes in front of it and behind it, exactly for addresses from 128 on
* `dumped_of_apart` — dumps have the memory around their instruction and the regions that are
  registered, in order, as long as nobody names the address of the reserved element or changes
  the list during a dump, and instructions are at 128 or above
-/

set_option autoImplicit false

namespace SMEWindow.Breakpad

open Lib.Transition

namespace AppMemory

/-- `AppMemory`. -/
structure Region where
  ptr : ℕ
  length : ℕ
  deriving DecidableEq, Repr

/-- `MEMORY_BASIC_INFORMATION` of a committed region. -/
structure MemoryInformation where
  BaseAddress : ℕ
  RegionSize : ℕ
  deriving DecidableEq, Repr

/-- What `VirtualQueryEx` says about an address: a region that has it, and no room for
another 128 bytes behind the last one. `BaseAddress` is the address as the cast to `ULONG64`
gives it, which on x86 is the address itself only below `2 ^ 31`. -/
structure MemoryInformation.Committed (info : MemoryInformation) (address : ℕ) : Prop where
  base : info.BaseAddress ≤ address
  inside : address < info.BaseAddress + info.RegionSize
  user : info.BaseAddress + info.RegionSize + 128 ≤ 2 ^ 64

/-! ### The memory around an instruction -/

/-- The reserved element for an instruction, in `ULONG64` up to the last cast. -/
def instructionMemory (instruction_pointer : ℕ) (info : MemoryInformation) : Region :=
  let base := max info.BaseAddress ((instruction_pointer + 2 ^ 64 - 128) % 2 ^ 64)
  let end_of_range := min ((instruction_pointer + 128) % 2 ^ 64)
    ((info.BaseAddress + info.RegionSize) % 2 ^ 64)
  ⟨base, (end_of_range + 2 ^ 64 - base) % 2 ^ 64 % 2 ^ 32⟩

/-- The bytes of a region. -/
def Region.bytes (region : Region) : Set ℕ := Set.Ico region.ptr (region.ptr + region.length)

/-- What the comment in the source says: 128 bytes before and after the instruction pointer,
up to the boundaries of the region. -/
def CoversInstruction (instruction_pointer : ℕ) (info : MemoryInformation) : Prop :=
  (instructionMemory instruction_pointer info).bytes =
    Set.Ico (instruction_pointer - 128) (instruction_pointer + 128) ∩
      Set.Ico info.BaseAddress (info.BaseAddress + info.RegionSize)

variable {ip : ℕ} {info : MemoryInformation}

theorem instructionMemory_eq (h : info.Committed ip) (hip : 128 ≤ ip) :
    instructionMemory ip info = ⟨max info.BaseAddress (ip - 128),
      min (ip + 128) (info.BaseAddress + info.RegionSize) - max info.BaseAddress (ip - 128)⟩ := by
  obtain ⟨hbase, hinside, huser⟩ := h
  have hlow : (ip + 2 ^ 64 - 128) % 2 ^ 64 = ip - 128 := by omega
  have hhigh : (ip + 128) % 2 ^ 64 = ip + 128 := Nat.mod_eq_of_lt (by omega)
  have hend : (info.BaseAddress + info.RegionSize) % 2 ^ 64 =
      info.BaseAddress + info.RegionSize := Nat.mod_eq_of_lt (by omega)
  simp only [instructionMemory, hlow, hhigh, hend, Region.mk.injEq, true_and]
  omega

/-- **The memory around an instruction.** For every address in a committed region: the dump
has the bytes of the region that are at most 128 bytes away, and no others, if and only if
there are 128 addresses below. -/
theorem coversInstruction_iff (h : info.Committed ip) : CoversInstruction ip info ↔ 128 ≤ ip := by
  constructor
  · intro hcovers
    by_contra hip
    -- the address wraps around, and the instruction itself is not in the dump
    have hmem : ip ∈ (instructionMemory ip info).bytes := by
      rw [hcovers]
      exact ⟨⟨by omega, by omega⟩, h.base, h.inside⟩
    obtain ⟨hbase, hinside, huser⟩ := h
    have hlow : (ip + 2 ^ 64 - 128) % 2 ^ 64 = ip + 2 ^ 64 - 128 := Nat.mod_eq_of_lt (by omega)
    have hptr : (instructionMemory ip info).ptr ≤ ip := hmem.1
    simp only [instructionMemory, hlow] at hptr
    omega
  · intro hip
    rw [CoversInstruction, instructionMemory_eq h hip, Region.bytes]
    obtain ⟨hbase, hinside, huser⟩ := h
    ext address
    simp only [Set.mem_Ico, Set.mem_inter_iff]
    omega

/-- An instruction in the middle of a page. -/
theorem coversInstruction_page : CoversInstruction 0x401000 ⟨0x401000, 0x1000⟩ :=
  (coversInstruction_iff ⟨by decide, by decide, by decide⟩).mpr (by decide)

/-! ### The list of regions -/

/-- A handler, and the regions that went into its dumps, the latest dump first. -/
structure State where
  app_memory_info_ : List Region
  /-- The regions from `MinidumpCallbackContext::iter` on, when a dump begins. -/
  iter : Option (List Region)
  dumped : List (List Region)
  deriving DecidableEq, Repr

inductive Label
  | register (ptr length : ℕ)
  | unregister (ptr : ℕ)
  /-- A dump begins, with the address of the instruction and its region, if there is an
  exception in committed memory. -/
  | dump (instruction : Option (ℕ × MemoryInformation))
  /-- `MiniDumpWriteDump` has asked for all regions. -/
  | written

/-- `RegisterAppMemory`. -/
def registerAppMemory (regions : List Region) (ptr length : ℕ) : List Region :=
  if regions.any (·.ptr = ptr) then regions else regions ++ [⟨ptr, length % 2 ^ 32⟩]

/-- `UnregisterAppMemory`. -/
def unregisterAppMemory (regions : List Region) (ptr : ℕ) : List Region :=
  regions.eraseP (·.ptr = ptr)

/-- `MinidumpWriteDumpCallback`, asked for memory until there is none or a region has no
bytes. -/
def collect : List Region → List Region
  | [] => []
  | region :: regions => if region.length = 0 then [] else region :: collect regions

/-- The list as `WriteMinidumpWithExceptionForProcess` leaves it; the first element of an
empty list does not exist. -/
def setInstructionMemory (regions : List Region) (instruction : Option (ℕ × MemoryInformation)) :
    Option (List Region) :=
  match instruction, regions with
  | none, regions => some regions
  | some _, [] => none
  | some (ip, info), _ :: regions => some (instructionMemory ip info :: regions)

/-- The regions that a dump is asked for. The reserved element is skipped if its address is
null. -/
def begin : List Region → Option (List Region)
  | [] => none
  | first :: regions => some (if first.ptr = 0 then regions else first :: regions)

/-- What a call does as long as no dump goes through the list. -/
def unlessDumping (s : State) (s' : Option State) : Option State :=
  match s.iter with
  | none => s'
  | some _ => none

def step (s : State) : Label → Option State
  | .register ptr length => unlessDumping s (some { s with
      app_memory_info_ := registerAppMemory s.app_memory_info_ ptr length })
  | .unregister ptr => unlessDumping s (some { s with
      app_memory_info_ := unregisterAppMemory s.app_memory_info_ ptr })
  | .dump instruction => unlessDumping s do
    let regions ← setInstructionMemory s.app_memory_info_ instruction
    let iter ← begin regions
    return { s with app_memory_info_ := regions, iter := some iter }
  | .written => s.iter.map fun iter => { s with iter := none, dumped := collect iter :: s.dumped }

/-- A handler after `Initialize`. -/
def system : System State Label where
  init := ⟨[⟨0, 0⟩], none, []⟩
  step := step

/-! ### Regions and instruction memory apart -/

/-- The regions that are registered, and the latest memory around an instruction. -/
structure Spec where
  registered : List Region
  instruction : Option Region
  dumped : List (List Region)

def Spec.step (t : Spec) : Label → Spec
  | .register ptr length => { t with registered := registerAppMemory t.registered ptr length }
  | .unregister ptr => { t with registered := unregisterAppMemory t.registered ptr }
  | .dump instruction =>
    let memory := instruction.map fun (ip, info) => instructionMemory ip info
    { t with instruction := memory.or t.instruction }
  | .written => { t with dumped := (t.instruction.toList ++ t.registered) :: t.dumped }

def Spec.start : Spec := ⟨[], none, []⟩

/-- An action that leaves the reserved element and the dump alone: nobody names the address of
this element or calls during a dump, regions have bytes, and instructions are at 128 or above,
in committed memory that does not begin at null. -/
def Apart (s : State) : Label → Prop
  | .register ptr length => s.iter = none ∧
      (∀ first ∈ s.app_memory_info_.head?, first.ptr ≠ ptr) ∧ length % 2 ^ 32 ≠ 0
  | .unregister ptr => s.iter = none ∧ ∀ first ∈ s.app_memory_info_.head?, first.ptr ≠ ptr
  | .dump instruction => s.iter = none ∧
      ∀ p ∈ instruction, p.2.Committed p.1 ∧ p.2.BaseAddress ≠ 0 ∧ 128 ≤ p.1
  | .written => s.iter.isSome

structure Related (s : State) (t : Spec) : Prop where
  regions : s.app_memory_info_ = t.instruction.getD ⟨0, 0⟩ :: t.registered
  iter : ∀ iter ∈ s.iter, iter = t.instruction.toList ++ t.registered
  dumped : s.dumped = t.dumped
  instruction : ∀ memory ∈ t.instruction, memory.ptr ≠ 0 ∧ memory.length ≠ 0
  registered : ∀ region ∈ t.registered, region.length ≠ 0

variable {s : State} {t : Spec} {l : Label}

theorem collect_eq_self {regions : List Region} (h : ∀ region ∈ regions, region.length ≠ 0) :
    collect regions = regions := by
  induction regions with
  | nil => rfl
  | cons region regions ih =>
    obtain ⟨hlength, hrest⟩ := List.forall_mem_cons.mp h
    rw [collect, if_neg hlength, ih hrest]

theorem instructionMemory_ne_zero (h : info.Committed ip) (hbase : info.BaseAddress ≠ 0)
    (hip : 128 ≤ ip) :
    (instructionMemory ip info).ptr ≠ 0 ∧ (instructionMemory ip info).length ≠ 0 := by
  rw [instructionMemory_eq h hip]
  obtain ⟨hle, hinside, huser⟩ := h
  exact ⟨by dsimp only; omega, by dsimp only; omega⟩

theorem unlessDumping_of_none (hiter : s.iter = none) (s' : Option State) :
    unlessDumping s s' = s' := by
  rw [unlessDumping, hiter]

/-- The regions of a dump, if there is a reserved element in front. -/
theorem begin_cons {memory : Option Region} (registered : List Region)
    (hmemory : ∀ m ∈ memory, m.ptr ≠ 0) :
    begin (memory.getD ⟨0, 0⟩ :: registered) = some (memory.toList ++ registered) := by
  cases memory with
  | none =>
    rw [begin, Option.getD_none, if_pos rfl]
    rfl
  | some m =>
    rw [begin, Option.getD_some, if_neg (hmemory m rfl)]
    rfl

theorem Related.register {ptr length : ℕ} (h : Related s t) (hl : Apart s (.register ptr length)) :
    ∃ s', AppMemory.step s (.register ptr length) = some s' ∧
      Related s' (t.step (.register ptr length)) := by
  obtain ⟨hiter, hfirst, hlength⟩ := hl
  rw [h.regions, List.head?_cons] at hfirst
  have hne := hfirst _ rfl
  refine ⟨_, unlessDumping_of_none hiter _, ?_, ?_, h.dumped, h.instruction, ?_⟩
  · simp only [h.regions, registerAppMemory, List.any_cons, hne, decide_false, Bool.false_or,
      Spec.step]
    split_ifs
    · rfl
    · rfl
  · intro iter hmem
    rw [show s.iter = none from hiter] at hmem
    cases hmem
  · intro region hregion
    simp only [Spec.step, registerAppMemory] at hregion
    split_ifs at hregion
    · exact h.registered region hregion
    · rcases List.mem_append.mp hregion with hregion | hregion
      · exact h.registered region hregion
      · obtain rfl := List.mem_singleton.mp hregion
        exact hlength

theorem Related.unregister {ptr : ℕ} (h : Related s t) (hl : Apart s (.unregister ptr)) :
    ∃ s', AppMemory.step s (.unregister ptr) = some s' ∧
      Related s' (t.step (.unregister ptr)) := by
  obtain ⟨hiter, hfirst⟩ := hl
  rw [h.regions, List.head?_cons] at hfirst
  have hne := hfirst _ rfl
  refine ⟨_, unlessDumping_of_none hiter _, ?_, ?_, h.dumped, h.instruction,
    fun region hregion => h.registered region (List.mem_of_mem_eraseP hregion)⟩
  · simp only [h.regions, unregisterAppMemory, Spec.step]
    rw [List.eraseP_cons_of_neg (by simpa using hne)]
  · intro iter hmem
    rw [show s.iter = none from hiter] at hmem
    cases hmem

theorem Related.dump {instruction : Option (ℕ × MemoryInformation)} (h : Related s t)
    (hl : Apart s (.dump instruction)) :
    ∃ s', AppMemory.step s (.dump instruction) = some s' ∧
      Related s' (t.step (.dump instruction)) := by
  obtain ⟨hiter, hinstruction⟩ := hl
  simp only [AppMemory.step, unlessDumping_of_none hiter, h.regions, setInstructionMemory]
  cases instruction with
  -- no exception: the reserved element stays what it was, in use or not
  | none =>
    have hbegin := begin_cons t.registered fun m hm => (h.instruction m hm).1
    refine ⟨⟨_, some (t.instruction.toList ++ t.registered), s.dumped⟩, ?_, rfl, ?_, h.dumped,
      h.instruction, h.registered⟩
    · rw [Option.bind_eq_bind, Option.bind_some, hbegin]
      rfl
    · rintro _ ⟨⟩
      rfl
  | some p =>
    obtain ⟨ip, info⟩ := p
    obtain ⟨hcommitted, hbase, hip⟩ := hinstruction (ip, info) rfl
    have hmemory : ∀ m ∈ some (instructionMemory ip info), m.ptr ≠ 0 ∧ m.length ≠ 0 := by
      rintro m ⟨⟩
      exact instructionMemory_ne_zero hcommitted hbase hip
    have hbegin := begin_cons t.registered fun m hm => (hmemory m hm).1
    rw [Option.getD_some] at hbegin
    refine ⟨⟨_, some (instructionMemory ip info :: t.registered), s.dumped⟩, ?_, rfl, ?_, h.dumped,
      hmemory, h.registered⟩
    · rw [Option.bind_eq_bind, Option.bind_some, hbegin]
      rfl
    · rintro _ ⟨⟩
      rfl

theorem Related.written (h : Related s t) (hl : Apart s .written) :
    ∃ s', AppMemory.step s .written = some s' ∧ Related s' (t.step .written) := by
  obtain ⟨iter, hiter⟩ := Option.isSome_iff_exists.mp hl
  have hcollect : collect iter = t.instruction.toList ++ t.registered := by
    rw [h.iter iter hiter]
    refine collect_eq_self fun region hregion => ?_
    rcases List.mem_append.mp hregion with hregion | hregion
    · exact (h.instruction region (Option.mem_toList.mp hregion)).2
    · exact h.registered region hregion
  refine ⟨⟨s.app_memory_info_, none, collect iter :: s.dumped⟩, ?_, h.regions,
    fun _ hnone => (nomatch hnone), ?_, h.instruction, h.registered⟩
  · rw [AppMemory.step, hiter]
    rfl
  · rw [hcollect, h.dumped]
    rfl

theorem Related.step (h : Related s t) (hl : Apart s l) :
    ∃ s', AppMemory.step s l = some s' ∧ Related s' (t.step l) := by
  cases l with
  | register ptr length => exact h.register hl
  | unregister ptr => exact h.unregister hl
  | dump instruction => exact h.dump hl
  | written => exact h.written hl

theorem Related.run {ls : List Label} (h : Related s t) (hls : system.Meets Apart s ls) :
    ∃ s', system.run s ls = some s' ∧ Related s' (ls.foldl Spec.step t) := by
  induction ls generalizing s t with
  | nil => exact ⟨s, rfl, h⟩
  | cons l ls ih =>
    obtain ⟨s', hstep, hrelated⟩ := h.step hls.1
    obtain ⟨s'', hrun, hrelated'⟩ := ih hrelated (hls.2 s' hstep)
    refine ⟨s'', ?_, hrelated'⟩
    rw [System.run_cons, show system.step s l = some s' from hstep, Option.bind_some, hrun]

/-- **Dumps have the registered regions.** In every run in which nobody registers or
unregisters the address that the reserved element has at the moment, or calls during a dump,
regions have bytes, and instructions are at 128 or above, in committed memory that does not
begin at null: nothing breaks, and every dump has the latest memory around an instruction,
followed by the regions that are registered at the time, in the order of their registration. -/
theorem dumped_of_apart {ls : List Label} (hls : system.Meets Apart system.init ls) :
    ∃ s, system.run system.init ls = some s ∧
      s.dumped = (ls.foldl Spec.step Spec.start).dumped := by
  have hstart : Related system.init Spec.start :=
    ⟨rfl, fun _ h => (nomatch h), rfl, fun _ h => (nomatch h),
      fun _ h => absurd h List.not_mem_nil⟩
  obtain ⟨s, hrun, hrelated⟩ := hstart.run hls
  exact ⟨s, hrun, hrelated.dumped⟩

/-- One region, a dump for an exception, and a dump after the region is gone: the second one
still has the memory around the instruction of the first. -/
theorem dumped_of_apart_two : ∃ s, system.run system.init
      [.register 0x5000 16, .dump (some (0x401000, ⟨0x401000, 0x1000⟩)), .written,
        .unregister 0x5000, .dump none, .written] = some s ∧
    s.dumped = [[⟨0x401000, 128⟩], [⟨0x401000, 128⟩, ⟨0x5000, 16⟩]] := by
  refine dumped_of_apart ⟨⟨rfl, by rintro _ ⟨⟩; decide, by decide⟩, ?_⟩
  rintro _ ⟨⟩
  refine ⟨⟨rfl, ?_⟩, ?_⟩
  · rintro _ ⟨⟩
    exact ⟨⟨by decide, by decide, by decide⟩, by decide, by decide⟩
  rintro _ ⟨⟩
  refine ⟨rfl, ?_⟩
  rintro _ ⟨⟩
  refine ⟨⟨rfl, by rintro _ ⟨⟩; decide⟩, ?_⟩
  rintro _ ⟨⟩
  refine ⟨⟨rfl, fun _ h => (nomatch h)⟩, ?_⟩
  rintro _ ⟨⟩
  exact ⟨rfl, fun _ _ => trivial⟩

end AppMemory

end SMEWindow.Breakpad
