import SMEWindow.Collect.FileName
import SMEWindow.Lib.SharedFiles
import SMEWindow.Lib.Transition
import Mathlib.Algebra.Order.BigOperators.Group.Finset

/-!
# The report files of a client process

Every exception that a client handles gets a collector of its own, whose
`SaveThread` saves the report under a path that depends on the project and on the
second of its collection. All collectors of a process share the project, so two
of them that were collected in the same second share a path: one report replaces
the other, or fails to be saved.

A report is also lost if the path is none that a file can be created under, or if
the document cannot be built or written: then its `SaveThread` throws.

The threads are interleaved one file operation at a time, together with the
senders, which have the saved files open until they are finalized.

## Main definitions

* `ReportFiles.system` — the file operations of all collectors of a process
* `ReportFiles.StoredApart` — every report ends up in a file of its own

## Main results

* `storedApart_iff` — this is so exactly when files can be created under the paths, the
  documents can be saved, and no two reports have the same stamp
-/

set_option autoImplicit false

namespace SMEWindow.Collect

open Lib.SharedFiles Lib.Text Lib.Transition

/-- `XMLFilePath` of a report of the project that the client was told about. -/
def reportPath (toShortDateString : Date → String) (proname : Option String)
    (proversion : Option Version) (time : DateTime) : String :=
  xmlFilePath (fileName toShortDateString (proname.getD "My Project")
    (proversion.getD ProjectInformation.zeroVersion) time)

/-- The project of a client always has a name and a version. -/
theorem dateToFileName_ofNameVersion (toShortDateString : Date → String)
    (proname : Option String) (proversion : Option Version) (time : DateTime) :
    (dateToFileName toShortDateString (.ofNameVersion proname proversion) time).map xmlFilePath =
      .ok (reportPath toShortDateString proname proversion time) := rfl

namespace ReportFiles

/-- What a `SaveThread` does next. -/
inductive Pc
  /-- It waits for the collection, and then opens its file. -/
  | opening
  /-- What it still has to write, and then to close. -/
  | writing (pieces : List (List UInt8))
  | saved
  | failed
  deriving DecidableEq

/-- What `SMEXMLWriter` makes of a report. -/
structure Document where
  /-- The constructor does not throw. -/
  built : Bool
  /-- What `SaveToXML` writes, flush by flush. -/
  pieces : List (List UInt8)
  /-- This is all of the document; else `SaveToXML` throws behind it. -/
  whole : Bool
  deriving DecidableEq, Repr

/-- The document can be saved. -/
def Document.Savable (document : Document) : Prop :=
  document.built = true ∧ document.whole = true

/-- The disk and all collectors. -/
structure State (ι : Type*) where
  disk : Directory ι String UInt8
  savePc : ι → Pc

/-- One file operation. -/
inductive Label (ι : Type*)
  | save (i : ι)
  /-- `TCPSender` opens the saved file. -/
  | send (i : ι)
  /-- The sender is finalized. -/
  | finalize (i : ι)

variable {ι : Type*} [DecidableEq ι]

/-- Create the file at a path, if the file system has such paths. -/
def createFile (creatable : String → Bool) (path : ι → String) (disk : Directory ι String UInt8)
    (i : ι) : Option (Directory ι String UInt8) :=
  if creatable (path i) then disk.create i (path i) else none

/-- `SMEXMLWriter` and its `SaveToXML`: the writer flushes the document in pieces. -/
def saveStep (creatable : String → Bool) (path : ι → String) (document : ι → Document)
    (s : State ι) (i : ι) : Option (State ι) :=
  match s.savePc i with
  | .opening =>
    if (document i).built then
      match createFile creatable path s.disk i with
      | some disk => some ⟨disk, Function.update s.savePc i (.writing (document i).pieces)⟩
      -- there is no such path, or somebody has the file open
      | none => some ⟨s.disk, Function.update s.savePc i .failed⟩
    else some ⟨s.disk, Function.update s.savePc i .failed⟩
  | .writing (piece :: pieces) => some ⟨s.disk.append (path i) piece,
      Function.update s.savePc i (.writing pieces)⟩
  | .writing [] => some ⟨s.disk.close i,
      Function.update s.savePc i (if (document i).whole then .saved else .failed)⟩
  | .saved | .failed => none

/-- `SaveSemaphore` lets a sender in once its report has been saved. -/
def sendStep (path : ι → String) (s : State ι) (i : ι) : Option (State ι) :=
  if s.savePc i = .saved then
    (s.disk.openRead i (path i)).map fun disk => { s with disk := disk }
  else none

/-- The file of a sender is closed. -/
def finalizeStep (s : State ι) (i : ι) : Option (State ι) :=
  if s.savePc i = .saved then some { s with disk := s.disk.close i } else none

/-- All collectors of one process, over the given files. -/
def system (creatable : String → Bool) (files : String → Option (List UInt8))
    (path : ι → String) (document : ι → Document) : System (State ι) (Label ι) where
  init := ⟨⟨files, []⟩, fun _ => .opening⟩
  step s
    | .save i => saveStep creatable path document s i
    | .send i => sendStep path s i
    | .finalize i => finalizeStep s i

omit [DecidableEq ι] in
/-- All `SaveThread`s have finished. -/
def Finished (s : State ι) : Prop := ∀ i, s.savePc i = .saved ∨ s.savePc i = .failed

/-- No two collectors write to the same path, and after all `SaveThread`s have
finished, each has saved its report, and its path holds it, whatever the order of
their operations. -/
def StoredApart (creatable : String → Bool) (files : String → Option (List UInt8))
    (path : ι → String) (document : ι → Document) : Prop :=
  (∀ i j, i ≠ j → path i ≠ path j) ∧
    ∀ s, (system creatable files path document).Reachable Set.univ s → Finished s →
      ∀ i, s.savePc i = .saved ∧ s.disk.content (path i) = some (document i).pieces.flatten

/-! ### Paths that differ -/

variable {creatable : String → Bool} {files : String → Option (List UInt8)} {path : ι → String}
  {document : ι → Document} {s t : State ι} {d d' : Directory ι String UInt8} {i j : ι} {pc : Pc}

omit [DecidableEq ι] in
/-- What a collector that is at `pc` can rely on. -/
def Phase (path : ι → String) (document : ι → Document) (d : Directory ι String UInt8)
    (j : ι) : Pc → Prop
  | .opening => ∀ h ∈ d.handles, h.owner ≠ j
  | .writing pieces => ⟨j, path j, .write⟩ ∈ d.handles ∧ ∃ written,
      d.Holds j (path j) written ∧ written ++ pieces.flatten = (document j).pieces.flatten
  | .saved => d.Rests (path j) (document j).pieces.flatten
  | .failed => False

omit [DecidableEq ι] in
structure Invariant (path : ι → String) (document : ι → Document) (s : State ι) : Prop where
  exclusive : s.disk.Exclusive
  /-- Nobody opens another collector's file. -/
  own_path : ∀ h ∈ s.disk.handles, h.file = path h.owner
  phase : ∀ j, Phase path document s.disk j (s.savePc j)

omit [DecidableEq ι] in
/-- An operation of somebody else leaves a collector what it relies on. -/
theorem Phase.frame (hphase : Phase path document d j pc)
    (hhandles : ∀ h : Handle ι String, h.owner = j → (h ∈ d'.handles ↔ h ∈ d.handles))
    (hholds : ∀ written, d.Holds j (path j) written → d'.Holds j (path j) written)
    (hrests : ∀ written, d.Rests (path j) written → d'.Rests (path j) written) :
    Phase path document d' j pc := by
  cases pc with
  | opening => exact fun h hh howner => hphase h ((hhandles h howner).mp hh) howner
  | writing pieces =>
    obtain ⟨hwrite, written, hcontent, heq⟩ := hphase
    exact ⟨(hhandles _ rfl).mpr hwrite, written, hholds written hcontent, heq⟩
  | saved => exact hrests _ hphase
  | failed => exact hphase

theorem Phase.close (hphase : Phase path document d j pc) (hne : j ≠ i) :
    Phase path document (d.close i) j pc := by
  refine hphase.frame (fun h howner => ?_) (fun _ hj => hj.close hne) fun _ hj => hj.close
  rw [Directory.mem_handles_close]
  exact and_iff_left (howner ▸ hne)

theorem Invariant.create (h : Invariant path document s) (hpaths : ∀ i j, i ≠ j → path i ≠ path j)
    (hcreate : s.disk.create i (path i) = some d) :
    Invariant path document ⟨d, Function.update s.savePc i (.writing (document i).pieces)⟩ := by
  obtain ⟨-, rfl⟩ := Directory.create_eq_some_iff.mp hcreate
  refine ⟨h.exclusive.create hcreate, ?_, fun j => ?_⟩
  · intro handle hhandle
    rcases List.mem_cons.mp hhandle with rfl | hhandle
    · rfl
    · exact h.own_path handle hhandle
  · dsimp only
    by_cases hj : j = i
    · subst hj
      rw [Function.update_self]
      refine ⟨List.mem_cons_self, [], ⟨⟨.write, List.mem_cons_self⟩, ?_⟩, List.nil_append _⟩
      exact Function.update_self _ _ _
    · rw [Function.update_of_ne hj]
      refine (h.phase j).frame (fun handle howner => ?_) (fun _ hj' => hj'.create hcreate)
        fun _ hj' => hj'.create (hpaths j i hj) hcreate
      refine List.mem_cons.trans (or_iff_right ?_)
      rintro rfl
      exact hj howner.symm

omit [DecidableEq ι] in
/-- A path that nobody else uses can always be opened. -/
theorem Invariant.exists_create (h : Invariant path document s)
    (hpaths : ∀ i j, i ≠ j → path i ≠ path j) (hpc : s.savePc i = .opening) :
    ∃ d, s.disk.create i (path i) = some d := by
  have hphase := h.phase i
  rw [hpc] at hphase
  refine ⟨_, Directory.create_eq_some_iff.mpr ⟨fun handle hhandle hfile => ?_, rfl⟩⟩
  rw [h.own_path handle hhandle] at hfile
  exact hpaths _ _ (hphase handle hhandle) hfile

theorem Invariant.append (h : Invariant path document s) {piece : List UInt8}
    {pieces : List (List UInt8)} (hpc : s.savePc i = .writing (piece :: pieces)) :
    Invariant path document
      ⟨s.disk.append (path i) piece, Function.update s.savePc i (.writing pieces)⟩ := by
  have hphase := h.phase i
  rw [hpc] at hphase
  obtain ⟨hwrite, written, hholds, heq⟩ := hphase
  refine ⟨h.exclusive, h.own_path, fun j => ?_⟩
  dsimp only
  by_cases hj : j = i
  · subst hj
    rw [Function.update_self]
    refine ⟨hwrite, written ++ piece, ⟨⟨.write, hwrite⟩, ?_⟩, ?_⟩
    · exact Directory.content_append_self hholds.content_eq
    · rw [List.append_assoc, ← List.flatten_cons, heq]
  · rw [Function.update_of_ne hj]
    exact (h.phase j).frame (fun _ _ => Iff.rfl)
      (fun _ hj' => hj'.append h.exclusive hj hwrite) fun _ hj' => hj'.append hwrite

theorem Invariant.save (h : Invariant path document s) (hpc : s.savePc i = .writing []) :
    Invariant path document ⟨s.disk.close i, Function.update s.savePc i .saved⟩ := by
  have hphase := h.phase i
  rw [hpc] at hphase
  obtain ⟨hwrite, written, hholds, heq⟩ := hphase
  refine ⟨h.exclusive.close, fun handle hhandle => ?_, fun j => ?_⟩
  · exact h.own_path handle (Directory.mem_handles_close.mp hhandle).1
  · dsimp only
    by_cases hj : j = i
    · subst hj
      rw [Function.update_self]
      -- everything has been written
      rw [List.flatten_nil, List.append_nil] at heq
      rw [heq] at hholds
      exact Directory.rests_close h.exclusive hwrite hholds.content_eq
    · rw [Function.update_of_ne hj]
      exact (h.phase j).close hj

theorem Invariant.keeps_saveStep (h : Invariant path document s)
    (hpaths : ∀ i j, i ≠ j → path i ≠ path j)
    (hsaves : ∀ i, creatable (path i) = true ∧ (document i).Savable)
    (hstep : saveStep creatable path document s i = some t) :
    Invariant path document t := by
  obtain ⟨hcreatable, hbuilt, hwhole⟩ := hsaves i
  unfold saveStep at hstep
  split at hstep
  next hpc =>
    obtain ⟨d, hcreate⟩ := h.exists_create hpaths hpc
    rw [if_pos hbuilt, createFile, if_pos hcreatable, hcreate] at hstep
    obtain rfl := Option.some.inj hstep
    exact h.create hpaths hcreate
  next piece pieces hpc =>
    obtain rfl := Option.some.inj hstep
    exact h.append hpc
  next hpc =>
    rw [if_pos hwhole] at hstep
    obtain rfl := Option.some.inj hstep
    exact h.save hpc
  next => cases hstep
  next => cases hstep

/-- A sender opens a file that nobody writes. -/
theorem Invariant.keeps_sendStep (h : Invariant path document s)
    (hstep : sendStep path s i = some t) : Invariant path document t := by
  unfold sendStep at hstep
  split_ifs at hstep with hpc
  obtain ⟨d, hopen, rfl⟩ := Option.map_eq_some_iff.mp hstep
  obtain ⟨-, -, rfl⟩ := Directory.openRead_eq_some_iff.mp hopen
  refine ⟨h.exclusive.openRead hopen, fun handle hhandle => ?_, fun j => ?_⟩
  · rcases List.mem_cons.mp hhandle with rfl | hhandle
    · rfl
    · exact h.own_path handle hhandle
  · by_cases hj : j = i
    · -- the sender's own report rests on the disk
      have hphase := h.phase i
      rw [hpc] at hphase
      dsimp only
      rw [hj, hpc]
      exact Directory.Rests.openRead hphase hopen
    · refine (h.phase j).frame (fun handle howner => ?_) (fun _ hj' => hj'.openRead hopen)
        fun _ hj' => hj'.openRead hopen
      refine List.mem_cons.trans (or_iff_right ?_)
      rintro rfl
      exact hj howner.symm

theorem Invariant.keeps_finalizeStep (h : Invariant path document s)
    (hstep : finalizeStep s i = some t) : Invariant path document t := by
  unfold finalizeStep at hstep
  split_ifs at hstep with hpc
  obtain rfl := Option.some.inj hstep
  refine ⟨h.exclusive.close, fun handle hhandle => ?_, fun j => ?_⟩
  · exact h.own_path handle (Directory.mem_handles_close.mp hhandle).1
  · by_cases hj : j = i
    · have hphase := h.phase i
      rw [hpc] at hphase
      dsimp only
      rw [hj, hpc]
      exact Directory.Rests.close hphase
    · exact (h.phase j).close hj

theorem invariant_of_reachable (hpaths : ∀ i j, i ≠ j → path i ≠ path j)
    (hsaves : ∀ i, creatable (path i) = true ∧ (document i).Savable)
    (hreach : (system creatable files path document).Reachable Set.univ s) :
    Invariant path document s := by
  refine hreach.invariant (Invariant path document) ?_ fun s l t hs _ hstep => ?_
  · refine ⟨?_, ?_, fun j => ?_⟩
    · exact fun handle hhandle => absurd hhandle List.not_mem_nil
    · exact fun handle hhandle => absurd hhandle List.not_mem_nil
    · exact fun handle hhandle => absurd hhandle List.not_mem_nil
  · cases l with
    | save i => exact hs.keeps_saveStep hpaths hsaves hstep
    | send i => exact hs.keeps_sendStep hstep
    | finalize i => exact hs.keeps_finalizeStep hstep

/-- Reports with paths of their own are all saved, if nothing else is in the way. -/
theorem storedApart_of_paths (hpaths : ∀ i j, i ≠ j → path i ≠ path j)
    (hsaves : ∀ i, creatable (path i) = true ∧ (document i).Savable) :
    StoredApart creatable files path document := by
  refine ⟨hpaths, fun s hreach hfinished i => ?_⟩
  have hphase := (invariant_of_reachable hpaths hsaves hreach).phase i
  rcases hfinished i with hpc | hpc
  · rw [hpc] at hphase
    exact ⟨hpc, hphase.content_eq⟩
  · rw [hpc] at hphase
    exact hphase.elim

/-! ### Reports that cannot be saved -/

omit [DecidableEq ι] in
/-- A thread that got so far had a path and a document to save. -/
def Admitted (creatable : String → Bool) (path : ι → String) (document : ι → Document) (i : ι) :
    Pc → Prop
  | .opening | .failed => True
  | .writing _ => creatable (path i) = true ∧ (document i).built = true
  | .saved => creatable (path i) = true ∧ (document i).Savable

theorem admitted_of_saveStep (h : ∀ j, Admitted creatable path document j (s.savePc j))
    (hstep : saveStep creatable path document s i = some t) (j : ι) :
    Admitted creatable path document j (t.savePc j) := by
  have hupdate : ∀ pc, Admitted creatable path document i pc →
      Admitted creatable path document j (Function.update s.savePc i pc j) := fun pc hpc => by
    rcases eq_or_ne j i with rfl | hne
    · rwa [Function.update_self]
    · rw [Function.update_of_ne hne]
      exact h j
  -- only the thread that moves has to be looked at
  have hi := h i
  unfold saveStep at hstep
  split at hstep
  next =>
    split_ifs at hstep with hbuilt
    · split at hstep
      next d hcreate =>
        obtain rfl := Option.some.inj hstep
        exact hupdate _ ⟨(Option.ite_none_right_eq_some.mp hcreate).1, hbuilt⟩
      next =>
        obtain rfl := Option.some.inj hstep
        exact hupdate .failed trivial
    · obtain rfl := Option.some.inj hstep
      exact hupdate .failed trivial
  next piece pieces hpc =>
    rw [hpc] at hi
    obtain rfl := Option.some.inj hstep
    exact hupdate (.writing pieces) hi
  next hpc =>
    rw [hpc] at hi
    obtain rfl := Option.some.inj hstep
    cases hwhole : (document i).whole with
    | true => exact hupdate .saved ⟨hi.1, hi.2, hwhole⟩
    | false => exact hupdate .failed trivial
  next => cases hstep
  next => cases hstep

theorem admitted_of_reachable
    (hreach : (system creatable files path document).Reachable Set.univ s) (i : ι) :
    Admitted creatable path document i (s.savePc i) := by
  refine hreach.invariant (fun s => ∀ j, Admitted creatable path document j (s.savePc j))
    (fun _ => trivial) (fun s l t hs _ hstep => ?_) i
  cases l with
  | save i => exact admitted_of_saveStep hs hstep
  | send i =>
    simp only [system, sendStep] at hstep
    split_ifs at hstep
    obtain ⟨d, -, rfl⟩ := Option.map_eq_some_iff.mp hstep
    exact hs
  | finalize i =>
    simp only [system, finalizeStep] at hstep
    split_ifs at hstep
    obtain rfl := Option.some.inj hstep
    exact hs

/-- The file operations that a `SaveThread` has still to make, at most. -/
def Pc.remaining (document : Document) : Pc → ℕ
  | .opening => document.pieces.length + 2
  | .writing pieces => pieces.length + 1
  | .saved | .failed => 0

variable (creatable) in
/-- A `SaveThread` that has not finished can go on, and less is left. -/
theorem exists_saveStep (hsaved : s.savePc i ≠ .saved) (hfailed : s.savePc i ≠ .failed) :
    ∃ t pc, saveStep creatable path document s i = some t ∧
      t.savePc = Function.update s.savePc i pc ∧
      pc.remaining (document i) < (s.savePc i).remaining (document i) := by
  unfold saveStep
  cases hpc : s.savePc i with
  | opening =>
    dsimp only
    cases (document i).built with
    | true =>
      cases createFile creatable path s.disk i with
      | some disk => exact ⟨_, _, rfl, rfl, Nat.lt_succ_self _⟩
      | none => exact ⟨_, .failed, rfl, rfl, Nat.succ_pos _⟩
    | false => exact ⟨_, .failed, rfl, rfl, Nat.succ_pos _⟩
  | writing pieces =>
    cases pieces with
    | nil =>
      refine ⟨_, _, rfl, rfl, ?_⟩
      split_ifs <;> exact Nat.succ_pos _
    | cons piece pieces => exact ⟨_, .writing pieces, rfl, rfl, Nat.lt_succ_self _⟩
  | saved => exact absurd hpc hsaved
  | failed => exact absurd hpc hfailed

/-- All threads of a process finish, if they are let. -/
theorem exists_finished [Fintype ι]
    (hreach : (system creatable files path document).Reachable Set.univ s) :
    ∃ t, (system creatable files path document).Reachable Set.univ t ∧ Finished t := by
  induction hn : ∑ i, (s.savePc i).remaining (document i) using Nat.strong_induction_on
    generalizing s with
  | _ n ih =>
    by_cases hfinished : Finished s
    · exact ⟨s, hreach, hfinished⟩
    · obtain ⟨i, hi⟩ := not_forall.mp hfinished
      obtain ⟨hsaved, hfailed⟩ := not_or.mp hi
      obtain ⟨t, pc, hstep, hpcs, hlt⟩ := exists_saveStep creatable hsaved hfailed
      refine ih _ ?_ (hreach.step (l := .save i) (Set.mem_univ _) hstep) rfl
      rw [← hn, hpcs]
      refine Finset.sum_lt_sum (fun j _ => ?_) ⟨i, Finset.mem_univ i, ?_⟩
      · rcases eq_or_ne j i with rfl | hne
        · rw [Function.update_self]
          exact hlt.le
        · rw [Function.update_of_ne hne]
      · rwa [Function.update_self]

/-- Reports that are all stored had paths and documents to be saved. -/
theorem saves_of_storedApart [Fintype ι] (h : StoredApart creatable files path document) (i : ι) :
    creatable (path i) = true ∧ (document i).Savable := by
  obtain ⟨s, hreach, hfinished⟩ :=
    exists_finished (System.Reachable.init (S := system creatable files path document))
  have hadmitted := admitted_of_reachable hreach i
  rwa [(h.2 s hreach hfinished i).1] at hadmitted

/-- **Every report ends up in a file of its own exactly when no two reports have
the same stamp.** For every project, every way of printing a day, every number of
reports and all moments of their collection: no two collectors write to the same
path, and every report is saved and still there once all `SaveThread`s have finished,
whatever the order of their file operations, if and only if files can be created under
the paths, the documents can be saved, and no two moments agree in the printed day, the
hour, the minute and the second. -/
theorem storedApart_iff [Fintype ι] (creatable : String → Bool)
    (files : String → Option (List UInt8)) (toShortDateString : Date → String)
    (proname : Option String) (proversion : Option Version) (time : ι → DateTime)
    (document : ι → Document) :
    StoredApart creatable files
        (fun i => reportPath toShortDateString proname proversion (time i)) document ↔
      (∀ i, creatable (reportPath toShortDateString proname proversion (time i)) = true ∧
        (document i).Savable) ∧
      ∀ i j, i ≠ j → stamp toShortDateString (time i) ≠ stamp toShortDateString (time j) := by
  have hpath : ∀ i j, reportPath toShortDateString proname proversion (time i) =
      reportPath toShortDateString proname proversion (time j) ↔
        stamp toShortDateString (time i) = stamp toShortDateString (time j) := by
    intro i j
    rw [← fileName_eq_iff, reportPath, reportPath, xmlFilePath, xmlFilePath]
    exact String.append_right_inj _
  constructor
  · intro hstored
    refine ⟨saves_of_storedApart hstored, fun i j hne hstamp => ?_⟩
    exact hstored.1 i j hne ((hpath i j).mpr hstamp)
  · rintro ⟨hsaves, hstamps⟩
    exact storedApart_of_paths (fun i j hne hpath' => hstamps i j hne ((hpath i j).mp hpath'))
      hsaves

/-- An exception that is reported when it is thrown and again when nobody has
caught it, half a second later. -/
def reportedTwice : Fin 2 → DateTime
  | 0 => ⟨sampleDate, 12, 0, 0, 0⟩
  | 1 => ⟨sampleDate, 12, 0, 0, 5000000⟩

/-- The two documents, in one piece each. -/
def twoDocuments : Fin 2 → Document
  | 0 => ⟨true, [[1]], true⟩
  | 1 => ⟨true, [[2]], true⟩

/-- The path of both reports. -/
def commonPath : String := reportPath koreanShortDate none none (reportedTwice 0)

/-- The second report of a second replaces the first: all threads have finished,
and the first document is gone. -/
theorem exists_replaced :
    ∃ s, (system (fun _ => true) (fun _ => none)
        (fun i => reportPath koreanShortDate none none (reportedTwice i))
        twoDocuments).Reachable Set.univ s ∧ Finished s ∧
      s.disk.content commonPath ≠ some (twoDocuments 0).pieces.flatten := by
  -- one thread after the other
  have hrun : ((system (fun _ => true) (fun _ => none)
      (fun i => reportPath koreanShortDate none none (reportedTwice i)) twoDocuments).run
        ⟨⟨fun _ => none, []⟩, fun _ => .opening⟩
        [.save 0, .save 0, .save 0, .save 1, .save 1, .save 1]).map
          (fun s => (s.disk.content commonPath, s.savePc 0, s.savePc 1)) =
      some (some [2], .saved, .saved) := by
    decide +kernel
  obtain ⟨s, hs, hfields⟩ := Option.map_eq_some_iff.mp hrun
  obtain ⟨hcontent, hfirst, hsecond⟩ : s.disk.content commonPath = some [2] ∧
      s.savePc 0 = .saved ∧ s.savePc 1 = .saved := by
    simpa only [Prod.mk.injEq] using hfields
  refine ⟨s, ⟨_, fun _ _ => Set.mem_univ _, hs⟩, fun i => ?_, ?_⟩
  · match i with
    | 0 => exact .inl hfirst
    | 1 => exact .inl hsecond
  · rw [hcontent]
    decide

end ReportFiles

end SMEWindow.Collect
