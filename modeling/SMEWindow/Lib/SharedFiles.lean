import Mathlib.Data.List.Basic
import Mathlib.Logic.Function.Basic
import Mathlib.Tactic.Common

/-!
# Files that are shared by name

Several parties work in one directory and know its files by name only. Creating
a file empties it, and fails while somebody has it open. Opening it for reading
fails while somebody writes it. So a party that has a file open can rely on its
content. A party that has closed a file can rely on it only as long as nobody
creates it anew.

## Main definitions

* `Lib.SharedFiles.Directory` — contents by name, and the open handles
* `Directory.create`, `Directory.append`, `Directory.openRead`, `Directory.close`
* `Directory.Exclusive` — whoever writes a file is the only one to have it open
* `Directory.Holds`, `Directory.Rests` — a content that somebody has open, and one
  that nobody is writing

## Main results

* `Exclusive.create`, `Exclusive.openRead`, `Exclusive.close` — no operation lets
  anybody in beside a writer
* `Holds.create`, `Holds.append`, `Holds.close` — nobody else changes what a party
  has open
* `Rests.create`, `Rests.append` — what nobody writes stays until it is created anew
-/

set_option autoImplicit false

namespace Lib.SharedFiles

/-- What a file is open for. -/
inductive Mode
  | read | write
  deriving DecidableEq, Repr

/-- An open file. -/
structure Handle (ι Name : Type*) where
  owner : ι
  file : Name
  mode : Mode
  deriving DecidableEq

/-- A directory that several parties `ι` have access to. -/
structure Directory (ι Name α : Type*) where
  /-- What each file holds, `none` where there is no file of that name. -/
  content : Name → Option (List α)
  handles : List (Handle ι Name)

namespace Directory

variable {ι Name α : Type*} (d : Directory ι Name α) (i : ι) (n : Name)

section Operations

variable [DecidableEq Name]

/-- Nobody has the file open. -/
def isFree : Bool := d.handles.all fun h => h.file ≠ n

/-- Nobody has the file open for writing. -/
def isUnwritten : Bool := d.handles.all fun h => ¬ (h.file = n ∧ h.mode = .write)

/-- Create the file, or empty it, and open it for writing. -/
def create : Option (Directory ι Name α) :=
  if d.isFree n then
    some ⟨Function.update d.content n (some []), ⟨i, n, .write⟩ :: d.handles⟩
  else none

/-- Write at the end of an open file. -/
def append (data : List α) : Directory ι Name α :=
  { d with content := Function.update d.content n ((d.content n).map (· ++ data)) }

/-- Open the file for reading. -/
def openRead : Option (Directory ι Name α) :=
  if d.isUnwritten n && (d.content n).isSome then
    some { d with handles := ⟨i, n, .read⟩ :: d.handles }
  else none

end Operations

/-- Close everything a party has open. -/
def close [DecidableEq ι] : Directory ι Name α :=
  { d with handles := d.handles.filter fun h => h.owner ≠ i }

/-- Whoever writes a file is the only one to have it open. -/
def Exclusive : Prop :=
  ∀ h ∈ d.handles, h.mode = .write → ∀ h' ∈ d.handles, h'.file = h.file → h'.owner = h.owner

/-- The party has the file open, and this is its content. -/
structure Holds (written : List α) : Prop where
  handle : ∃ mode, ⟨i, n, mode⟩ ∈ d.handles
  content_eq : d.content n = some written

/-- Nobody has the file open for writing, and this is its content. -/
structure Rests (written : List α) : Prop where
  unwritten : ∀ h ∈ d.handles, h.file = n → h.mode ≠ .write
  content_eq : d.content n = some written

variable {d i n} {d' : Directory ι Name α} {data written : List α} {h : Handle ι Name}
  {j : ι} {m : Name}

/-! ### What the operations do -/

section Effects

variable [DecidableEq Name]

theorem create_eq_some_iff :
    d.create i n = some d' ↔ (∀ h ∈ d.handles, h.file ≠ n) ∧
      d' = ⟨Function.update d.content n (some []), ⟨i, n, .write⟩ :: d.handles⟩ := by
  have hfree : d.isFree n = true ↔ ∀ h ∈ d.handles, h.file ≠ n := by
    simp only [isFree, List.all_eq_true, decide_eq_true_eq]
  rw [create, ← hfree]
  split_ifs with hopen
  · rw [Option.some.injEq, eq_comm, and_iff_right hopen]
  · exact ⟨by rintro ⟨⟩, fun heq => absurd heq.1 hopen⟩

theorem openRead_eq_some_iff :
    d.openRead i n = some d' ↔ (∀ h ∈ d.handles, h.file = n → h.mode ≠ .write) ∧
      (d.content n).isSome = true ∧ d' = { d with handles := ⟨i, n, .read⟩ :: d.handles } := by
  have hunwritten : d.isUnwritten n = true ↔ ∀ h ∈ d.handles, h.file = n → h.mode ≠ .write := by
    simp only [isUnwritten, List.all_eq_true, decide_eq_true_eq, not_and, ne_eq]
  rw [openRead, ← hunwritten]
  split_ifs with hopen
  · rw [Bool.and_eq_true] at hopen
    rw [Option.some.injEq, eq_comm, and_iff_right hopen.1, and_iff_right hopen.2]
  · refine ⟨by rintro ⟨⟩, fun heq => absurd ?_ hopen⟩
    rw [heq.1, heq.2.1]
    rfl

theorem content_append_self (hcontent : d.content n = some written) :
    (d.append n data).content n = some (written ++ data) := by
  rw [append, hcontent]
  exact Function.update_self _ _ _

theorem content_append_of_ne (hne : m ≠ n) : (d.append n data).content m = d.content m :=
  Function.update_of_ne hne _ _

end Effects

theorem mem_handles_close [DecidableEq ι] :
    h ∈ (d.close i).handles ↔ h ∈ d.handles ∧ h.owner ≠ i := by
  simp only [close, List.mem_filter, decide_eq_true_eq]

/-! ### Writers are alone -/

namespace Exclusive

variable [DecidableEq Name]

theorem create (hd : d.Exclusive) (hcreate : d.create i n = some d') : d'.Exclusive := by
  obtain ⟨hfree, rfl⟩ := create_eq_some_iff.mp hcreate
  intro h hh hwrite h' hh' hfile
  -- the new handle is on a file that no other handle is on
  rcases List.mem_cons.mp hh with rfl | hh
  · rcases List.mem_cons.mp hh' with rfl | hh'
    · rfl
    · exact absurd hfile (hfree h' hh')
  · rcases List.mem_cons.mp hh' with rfl | hh'
    · exact absurd hfile.symm (hfree h hh)
    · exact hd h hh hwrite h' hh' hfile

theorem openRead (hd : d.Exclusive) (hopen : d.openRead i n = some d') : d'.Exclusive := by
  obtain ⟨hunwritten, -, rfl⟩ := openRead_eq_some_iff.mp hopen
  intro h hh hwrite h' hh' hfile
  rcases List.mem_cons.mp hh with rfl | hh
  · cases hwrite
  · rcases List.mem_cons.mp hh' with rfl | hh'
    · exact absurd hwrite (hunwritten h hh hfile.symm)
    · exact hd h hh hwrite h' hh' hfile

omit [DecidableEq Name] in
theorem close [DecidableEq ι] (hd : d.Exclusive) : (d.close i).Exclusive := by
  intro h hh hwrite h' hh' hfile
  exact hd h (mem_handles_close.mp hh).1 hwrite h' (mem_handles_close.mp hh').1 hfile

end Exclusive

/-! ### Contents that a party can rely on -/

namespace Holds

variable [DecidableEq Name]

/-- A file that is open is not created. -/
theorem create (hi : d.Holds i n written) (hcreate : d.create j m = some d') :
    d'.Holds i n written := by
  obtain ⟨hfree, rfl⟩ := create_eq_some_iff.mp hcreate
  obtain ⟨mode, hmode⟩ := hi.handle
  have hne : n ≠ m := hfree _ hmode
  refine ⟨⟨mode, List.mem_cons_of_mem _ hmode⟩, ?_⟩
  rw [← hi.content_eq]
  exact Function.update_of_ne hne _ _

/-- A file that is open is not written by anybody else. -/
theorem append (hi : d.Holds i n written) (hd : d.Exclusive) (hne : i ≠ j)
    (hj : ⟨j, m, .write⟩ ∈ d.handles) : (d.append m data).Holds i n written := by
  obtain ⟨mode, hmode⟩ := hi.handle
  have hfile : n ≠ m := by
    rintro rfl
    exact hne (hd _ hj rfl _ hmode rfl)
  exact ⟨⟨mode, hmode⟩, (content_append_of_ne hfile).trans hi.content_eq⟩

theorem openRead (hi : d.Holds i n written) (hopen : d.openRead j m = some d') :
    d'.Holds i n written := by
  obtain ⟨-, -, rfl⟩ := openRead_eq_some_iff.mp hopen
  obtain ⟨mode, hmode⟩ := hi.handle
  exact ⟨⟨mode, List.mem_cons_of_mem _ hmode⟩, hi.content_eq⟩

omit [DecidableEq Name] in
theorem close [DecidableEq ι] (hi : d.Holds i n written) (hne : i ≠ j) :
    (d.close j).Holds i n written := by
  obtain ⟨mode, hmode⟩ := hi.handle
  exact ⟨⟨mode, mem_handles_close.mpr ⟨hmode, hne⟩⟩, hi.content_eq⟩

end Holds

namespace Rests

variable [DecidableEq Name]

/-- What nobody writes stays until it is created anew. -/
theorem create (hn : d.Rests n written) (hne : n ≠ m) (hcreate : d.create j m = some d') :
    d'.Rests n written := by
  obtain ⟨-, rfl⟩ := create_eq_some_iff.mp hcreate
  refine ⟨fun h hh hfile => ?_, ?_⟩
  · rcases List.mem_cons.mp hh with rfl | hh
    · exact absurd hfile.symm hne
    · exact hn.unwritten h hh hfile
  · rw [← hn.content_eq]
    exact Function.update_of_ne hne _ _

theorem append (hn : d.Rests n written) (hj : ⟨j, m, .write⟩ ∈ d.handles) :
    (d.append m data).Rests n written := by
  have hne : n ≠ m := by
    rintro rfl
    exact hn.unwritten _ hj rfl rfl
  exact ⟨hn.unwritten, (content_append_of_ne hne).trans hn.content_eq⟩

theorem openRead (hn : d.Rests n written) (hopen : d.openRead j m = some d') :
    d'.Rests n written := by
  obtain ⟨-, -, rfl⟩ := openRead_eq_some_iff.mp hopen
  refine ⟨fun h hh hfile => ?_, hn.content_eq⟩
  rcases List.mem_cons.mp hh with rfl | hh
  · exact nofun
  · exact hn.unwritten h hh hfile

omit [DecidableEq Name] in
theorem close [DecidableEq ι] (hn : d.Rests n written) : (d.close j).Rests n written :=
  ⟨fun h hh => hn.unwritten h (mem_handles_close.mp hh).1, hn.content_eq⟩

end Rests

/-- A writer that closes its file leaves it to nobody. -/
theorem rests_close [DecidableEq ι] (hd : d.Exclusive) (hi : ⟨i, n, .write⟩ ∈ d.handles)
    (hcontent : d.content n = some written) : (d.close i).Rests n written := by
  refine ⟨fun h hh hfile => ?_, hcontent⟩
  obtain ⟨hmem, howner⟩ := mem_handles_close.mp hh
  exact absurd (hd _ hi rfl h hmem hfile) howner

/-- A file that is opened for reading has the content that it was left with. -/
theorem holds_openRead [DecidableEq Name] (hn : d.Rests n written)
    (hopen : d.openRead i n = some d') : d'.Holds i n written := by
  obtain ⟨-, -, rfl⟩ := openRead_eq_some_iff.mp hopen
  exact ⟨⟨.read, List.mem_cons_self⟩, hn.content_eq⟩

end Directory

end Lib.SharedFiles
