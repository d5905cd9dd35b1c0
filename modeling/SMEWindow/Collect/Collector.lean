import SMEWindow.Lib.Transition
import Mathlib.Logic.Function.Basic
import Mathlib.Tactic.Common

/-!
# The collector's threads

`SMECollector` handles one report. Its constructor starts a `CollectThread`,
which reads the exception and its call stack, and a `SaveThread`, which builds
the XML document and writes it to disk; any number of callers may ask it to
`SendToServer`. Two semaphores of initial count 0 and maximum count 1 order the
three kinds of thread: `CollectSemaphore` lets the save start after the
collection, `SaveSemaphore` lets one caller in after the save.

The threads are interleaved one atomic action at a time. A worker may also end
by an exception at each step that calls code which can throw; a label names the
step, so that a set of labels says which failures a run may contain.

## Main definitions

* `Collector.State` — both semaphores, the fields of the collector, the disk,
  and the program counter of every thread
* `Collector.system` — the interleaving of all threads
* `Collector.Stuck` — both workers have ended and no caller will ever be let in

## Main results

* `reachable_ordered` — without failures, the writer sees collected data, the
  sender sees a saved file, at most one sender exists and no semaphore overflows
* `not_stuck_iff_save_faultless` — a caller can be left waiting for ever exactly
  when a step of `SaveToXML` may fail
-/

set_option autoImplicit false

namespace SMEWindow.Collect

open Lib.Transition

namespace Collector

/-- The steps at which one of the two workers may end by an exception: every
step of both methods, in the order in which they are written. -/
inductive Fault
  /-- `CollectExceptionInfo`, which parses the stack trace. -/
  | collectExceptionInfo
  | collectCallStack
  /-- `CollectSemaphore.Release(1)` at the end of `CollectErrorInformation`. -/
  | collectRelease
  /-- `CollectSemaphore.WaitOne()` at the start of `SaveToXML`. -/
  | waitCollect
  /-- The `SMEXMLWriter` constructor. -/
  | buildWriter
  | dateToFileName
  /-- `SMEXMLWriter.SaveToXML` opening its file. -/
  | openFile
  /-- `SMEXMLWriter.SaveToXML` writing the document. -/
  | writeFile
  /-- `CollectSemaphore.Release(1)` in `SaveToXML`. -/
  | releaseCollect
  /-- `SaveSemaphore.Release(1)`. -/
  | releaseSave
  deriving DecidableEq, Repr

/-- The step belongs to the parameterless `SaveToXML`. -/
def Fault.inSaveToXML : Fault → Bool
  | .collectExceptionInfo | .collectCallStack | .collectRelease => false
  | .waitCollect | .buildWriter | .dateToFileName | .openFile | .writeFile
  | .releaseCollect | .releaseSave => true

/-- What is left of the constructor once both semaphores exist. -/
inductive ConstructorPc
  | startCollect | startSave | constructed
  deriving DecidableEq, Repr

/-- The next action of `CollectErrorInformation`. -/
inductive CollectPc
  | unstarted | collectExceptionInfo | collectCallStack | release | ended | failed
  deriving DecidableEq, Repr

/-- The next action of the parameterless `SaveToXML`. -/
inductive SavePc
  | unstarted | waitCollect | buildWriter | dateToFileName | openFile | writeFile
  | releaseCollect | releaseSave | ended | failed
  deriving DecidableEq, Repr

/-- The next action of one `SendToServer` caller. -/
inductive CallerPc
  | idle | waitSave | createSender | returned
  deriving DecidableEq, Repr

/-- The thread will take no further step. -/
def CollectPc.Done (pc : CollectPc) : Prop := pc = .ended ∨ pc = .failed

/-- The thread will take no further step. -/
def SavePc.Done (pc : SavePc) : Prop := pc = .ended ∨ pc = .failed

/-- What a path of the disk holds for this report. -/
inductive FileStatus (Document : Type*)
  | absent
  | opened
  | saved (document : Document)
  deriving DecidableEq, Repr

/-- A `TCPSender` as it was created: its arguments and what the path held. -/
structure Sender (Document : Type*) where
  FilePath : Option String
  FileName : Option String
  file : Option (FileStatus Document)

/-- What one report is made of: the data its two collecting steps produce, the
document built from the two fields, and the name `DateToFileName` computes. -/
structure Report (Info Stack Document : Type*) where
  exceptioninfo : Info
  callstackinfo : Stack
  document : Option Info → Option Stack → Document
  fileName : String
  /-- `XMLFolderPath`, which the constructor sets to `C:\Dumps\CS`. -/
  folderPath : String

variable {ι Info Stack Document : Type*}

/-- The path `DateToFileName` stores in `XMLFilePath`. -/
def Report.filePath (r : Report Info Stack Document) : String := r.folderPath ++ r.fileName

/-- One collector, its disk and its threads. -/
structure State (ι Info Stack Document : Type*) where
  constructorPc : ConstructorPc
  collectPc : CollectPc
  savePc : SavePc
  callerPc : ι → CallerPc
  /-- The count of `CollectSemaphore`. -/
  collectCount : ℕ
  /-- The count of `SaveSemaphore`. -/
  saveCount : ℕ
  /-- Some `Release` met a count at its maximum. -/
  semaphoreFull : Bool
  m_exceptioninfo : Option Info
  m_callstackinfo : Option Stack
  /-- The two fields the `SMEXMLWriter` was built from. -/
  writerBuiltFrom : Option (Option Info × Option Stack)
  m_smexmlwriter : Option Document
  XMLFileName : Option String
  XMLFilePath : Option String
  disk : String → FileStatus Document
  /-- The callers that `SaveSemaphore` has let in. -/
  admitted : List ι
  senders : List (Sender Document)

/-- Both semaphores have maximum count 1. -/
def maximumCount : ℕ := 1

/-- The state in which the constructor is about to start its threads. -/
def initial : State ι Info Stack Document where
  constructorPc := .startCollect
  collectPc := .unstarted
  savePc := .unstarted
  callerPc _ := .idle
  collectCount := 0
  saveCount := 0
  semaphoreFull := false
  m_exceptioninfo := none
  m_callstackinfo := none
  writerBuiltFrom := none
  m_smexmlwriter := none
  XMLFileName := none
  XMLFilePath := none
  disk _ := .absent
  admitted := []
  senders := []

/-- One atomic action of some thread. -/
inductive Label (ι : Type*)
  | construct
  | collect
  | save
  | caller (i : ι)
  | fault (f : Fault)

/-- The constructor starts the workers one after the other. -/
def constructStep (s : State ι Info Stack Document) : Option (State ι Info Stack Document) :=
  match s.constructorPc with
  | .startCollect =>
    some { s with constructorPc := .startSave, collectPc := .collectExceptionInfo }
  | .startSave => some { s with constructorPc := .constructed, savePc := .waitCollect }
  | .constructed => none

/-- `CollectErrorInformation`, one action at a time. `Release` on a semaphore at
its maximum count throws and ends the thread. -/
def collectStep (r : Report Info Stack Document) (s : State ι Info Stack Document) :
    Option (State ι Info Stack Document) :=
  match s.collectPc with
  | .collectExceptionInfo =>
    some { s with collectPc := .collectCallStack, m_exceptioninfo := some r.exceptioninfo }
  | .collectCallStack =>
    some { s with collectPc := .release, m_callstackinfo := some r.callstackinfo }
  | .release =>
    if s.collectCount < maximumCount then
      some { s with collectPc := .ended, collectCount := s.collectCount + 1 }
    else some { s with collectPc := .failed, semaphoreFull := true }
  | .unstarted | .ended | .failed => none

/-- `SaveToXML()`, one action at a time; `WaitOne` is enabled by a positive count. -/
def saveStep (r : Report Info Stack Document) (s : State ι Info Stack Document) :
    Option (State ι Info Stack Document) :=
  match s.savePc with
  | .waitCollect =>
    if 0 < s.collectCount then
      some { s with savePc := .buildWriter, collectCount := s.collectCount - 1 }
    else none
  | .buildWriter =>
    some { s with
      savePc := .dateToFileName
      writerBuiltFrom := some (s.m_exceptioninfo, s.m_callstackinfo)
      m_smexmlwriter := some (r.document s.m_exceptioninfo s.m_callstackinfo) }
  | .dateToFileName =>
    some { s with
      savePc := .openFile, XMLFileName := some r.fileName, XMLFilePath := some r.filePath }
  | .openFile =>
    s.XMLFilePath.map fun path =>
      { s with savePc := .writeFile, disk := Function.update s.disk path .opened }
  | .writeFile =>
    s.XMLFilePath.bind fun path => s.m_smexmlwriter.map fun document =>
      { s with savePc := .releaseCollect, disk := Function.update s.disk path (.saved document) }
  | .releaseCollect =>
    if s.collectCount < maximumCount then
      some { s with savePc := .releaseSave, collectCount := s.collectCount + 1 }
    else some { s with savePc := .failed, semaphoreFull := true }
  | .releaseSave =>
    if s.saveCount < maximumCount then
      some { s with savePc := .ended, saveCount := s.saveCount + 1 }
    else some { s with savePc := .failed, semaphoreFull := true }
  | .unstarted | .ended | .failed => none

variable [DecidableEq ι]

/-- `SendToServer`: a caller that holds the constructed collector waits for
`SaveSemaphore` and then creates one `TCPSender`. -/
def callerStep (s : State ι Info Stack Document) (i : ι) : Option (State ι Info Stack Document) :=
  match s.callerPc i with
  | .idle =>
    if s.constructorPc = .constructed then
      some { s with callerPc := Function.update s.callerPc i .waitSave }
    else none
  | .waitSave =>
    if 0 < s.saveCount then
      some { s with
        callerPc := Function.update s.callerPc i .createSender
        saveCount := s.saveCount - 1
        admitted := i :: s.admitted }
    else none
  | .createSender =>
    some { s with
      callerPc := Function.update s.callerPc i .returned
      senders := ⟨s.XMLFilePath, s.XMLFileName, s.XMLFilePath.map s.disk⟩ :: s.senders }
  | .returned => none

omit [DecidableEq ι] in
/-- A `CollectThread` that is at the action `pc` ends there by an exception. -/
def failCollect (s : State ι Info Stack Document) (pc : CollectPc) :
    Option (State ι Info Stack Document) :=
  if s.collectPc = pc then some { s with collectPc := .failed } else none

omit [DecidableEq ι] in
/-- A `SaveThread` that is at the action `pc` ends there by an exception. -/
def failSave (s : State ι Info Stack Document) (pc : SavePc) :
    Option (State ι Info Stack Document) :=
  if s.savePc = pc then some { s with savePc := .failed } else none

omit [DecidableEq ι] in
/-- A worker that is at the step `f` ends there by an exception. -/
def faultStep (s : State ι Info Stack Document) : Fault → Option (State ι Info Stack Document)
  | .collectExceptionInfo => failCollect s .collectExceptionInfo
  | .collectCallStack => failCollect s .collectCallStack
  | .collectRelease => failCollect s .release
  | .waitCollect => failSave s .waitCollect
  | .buildWriter => failSave s .buildWriter
  | .dateToFileName => failSave s .dateToFileName
  | .openFile => failSave s .openFile
  | .writeFile => failSave s .writeFile
  | .releaseCollect => failSave s .releaseCollect
  | .releaseSave => failSave s .releaseSave

/-- The interleaving of the constructor, both workers and all callers. -/
def system (r : Report Info Stack Document) : System (State ι Info Stack Document) (Label ι) where
  init := initial
  step s
    | .construct => constructStep s
    | .collect => collectStep r s
    | .save => saveStep r s
    | .caller i => callerStep s i
    | .fault f => faultStep s f

/-- The labels of runs whose failures all lie in `faults`. -/
def permitting (faults : Set Fault) : Set (Label ι) := { l | ∀ f, l = .fault f → f ∈ faults }

/-! ## The invariant

Each semaphore obeys a conservation law: its count and the permits taken from it
add up to the permits released into it. The remaining fields say what a thread
has already done when its program counter stands at a given action. -/

/-- `SaveToXML` has got through `CollectSemaphore.WaitOne` and is still running,
or has ended normally. -/
@[simp] def SavePc.tookCollect : SavePc → Bool
  | .unstarted | .waitCollect | .failed => false
  | .buildWriter | .dateToFileName | .openFile | .writeFile | .releaseCollect
  | .releaseSave | .ended => true

/-- The permits of `CollectSemaphore` that `SaveToXML` holds. -/
@[simp] def SavePc.held : SavePc → ℕ
  | .unstarted | .waitCollect | .releaseSave | .ended => 0
  | .buildWriter | .dateToFileName | .openFile | .writeFile | .releaseCollect | .failed => 1

/-- `m_smexmlwriter` is set. -/
@[simp] def SavePc.built : SavePc → Bool
  | .unstarted | .waitCollect | .buildWriter | .failed => false
  | .dateToFileName | .openFile | .writeFile | .releaseCollect | .releaseSave | .ended => true

/-- `XMLFileName` and `XMLFilePath` are set. -/
@[simp] def SavePc.named : SavePc → Bool
  | .openFile | .writeFile | .releaseCollect | .releaseSave | .ended => true
  | .unstarted | .waitCollect | .buildWriter | .dateToFileName | .failed => false

/-- The document is on disk. -/
@[simp] def SavePc.saved : SavePc → Bool
  | .releaseCollect | .releaseSave | .ended => true
  | .unstarted | .waitCollect | .buildWriter | .dateToFileName
  | .openFile | .writeFile | .failed => false

/-- The document a completed collection gives. -/
def Report.collected (r : Report Info Stack Document) : Document :=
  r.document (some r.exceptioninfo) (some r.callstackinfo)

/-- The sender a completed save gives. -/
def Report.sender (r : Report Info Stack Document) : Sender Document :=
  ⟨some r.filePath, some r.fileName, some (.saved r.collected)⟩

/-- What holds in every reachable state, whatever fails. -/
structure Invariant (r : Report Info Stack Document) (s : State ι Info Stack Document) :
    Prop where
  collect_unstarted : s.constructorPc = .startCollect → s.collectPc = .unstarted
  save_unstarted : s.constructorPc ≠ .constructed → s.savePc = .unstarted
  exceptioninfo_set : s.collectPc = .collectCallStack ∨ s.collectPc = .release ∨
    s.collectPc = .ended → s.m_exceptioninfo = some r.exceptioninfo
  callstackinfo_set : s.collectPc = .release ∨ s.collectPc = .ended →
    s.m_callstackinfo = some r.callstackinfo
  collect_le : s.collectCount ≤ if s.collectPc = .ended then 1 else 0
  collect_permits : s.savePc ≠ .failed →
    s.collectCount + s.savePc.held = if s.collectPc = .ended then 1 else 0
  collect_ended : s.savePc.tookCollect = true → s.collectPc = .ended
  built_from : ∀ fields, s.writerBuiltFrom = some fields →
    fields = (some r.exceptioninfo, some r.callstackinfo)
  writer_set : s.savePc.built = true → s.m_smexmlwriter = some r.collected
  name_set : s.savePc.named = true →
    s.XMLFileName = some r.fileName ∧ s.XMLFilePath = some r.filePath
  file_saved : s.savePc.saved = true → s.disk r.filePath = .saved r.collected
  save_permits : s.saveCount + s.admitted.length = if s.savePc = .ended then 1 else 0
  admitted_iff : ∀ i, i ∈ s.admitted ↔ s.callerPc i = .createSender ∨ s.callerPc i = .returned
  senders_count : s.senders.length +
    s.admitted.countP (fun i => s.callerPc i = .createSender) = s.admitted.length
  senders_eq : ∀ sender ∈ s.senders, sender = r.sender
  not_full : s.semaphoreFull = false

variable {r : Report Info Stack Document} {s t : State ι Info Stack Document}

omit [DecidableEq ι] in
theorem invariant_initial : Invariant r (initial : State ι Info Stack Document) := by
  constructor <;> simp [initial]

omit [DecidableEq ι] in
theorem Invariant.keeps_constructStep (h : Invariant r s) (hstep : constructStep s = some t) :
    Invariant r t := by
  unfold constructStep at hstep
  split at hstep
  next hpc =>
    -- the collection starts, and nothing has been released yet
    obtain rfl := Option.some.inj hstep
    have hsave := h.save_unstarted (by simp [hpc])
    exact { h with
      collect_unstarted := by simp
      save_unstarted := fun _ => hsave
      exceptioninfo_set := by simp
      callstackinfo_set := by simp
      collect_le := by simpa [h.collect_unstarted hpc] using h.collect_le
      collect_permits := by simpa [h.collect_unstarted hpc] using h.collect_permits
      collect_ended := by simp [hsave] }
  next hpc =>
    -- the save starts and holds no permit
    obtain rfl := Option.some.inj hstep
    have hsave := h.save_unstarted (by simp [hpc])
    exact { h with
      collect_unstarted := by simp
      save_unstarted := by simp
      collect_permits := by simpa [hsave] using h.collect_permits
      collect_ended := by simp
      writer_set := by simp
      name_set := by simp
      file_saved := by simp
      save_permits := by simpa [hsave] using h.save_permits }
  next => simp at hstep

omit [DecidableEq ι] in
/-- The collection has been started, whatever it does next. -/
theorem Invariant.collect_started (h : Invariant r s) (hpc : s.collectPc ≠ .unstarted)
    {pc : CollectPc} (hctor : s.constructorPc = .startCollect) : pc = .unstarted :=
  absurd (h.collect_unstarted hctor) hpc

omit [DecidableEq ι] in
/-- While the collection runs, nothing has been taken from its semaphore. -/
theorem Invariant.not_tookCollect (h : Invariant r s) (hpc : s.collectPc ≠ .ended) :
    ¬ s.savePc.tookCollect = true :=
  fun htook => hpc (h.collect_ended htook)

omit [DecidableEq ι] in
theorem Invariant.keeps_collectStep (h : Invariant r s) (hstep : collectStep r s = some t) :
    Invariant r t := by
  unfold collectStep at hstep
  split at hstep
  next hpc =>
    obtain rfl := Option.some.inj hstep
    exact { h with
      collect_unstarted := h.collect_started (by simp [hpc])
      exceptioninfo_set := fun _ => rfl
      callstackinfo_set := by simp
      collect_le := by simpa [hpc] using h.collect_le
      collect_permits := by simpa [hpc] using h.collect_permits
      collect_ended := fun htook => absurd htook (h.not_tookCollect (by simp [hpc])) }
  next hpc =>
    obtain rfl := Option.some.inj hstep
    exact { h with
      collect_unstarted := h.collect_started (by simp [hpc])
      exceptioninfo_set := fun _ => h.exceptioninfo_set (Or.inl hpc)
      callstackinfo_set := fun _ => rfl
      collect_le := by simpa [hpc] using h.collect_le
      collect_permits := by simpa [hpc] using h.collect_permits
      collect_ended := fun htook => absurd htook (h.not_tookCollect (by simp [hpc])) }
  next hpc =>
    -- nothing was released before, so the semaphore has room
    have hzero : s.collectCount = 0 := by simpa [hpc] using h.collect_le
    rw [if_pos (by simp [hzero, maximumCount])] at hstep
    obtain rfl := Option.some.inj hstep
    exact { h with
      collect_unstarted := h.collect_started (by simp [hpc])
      exceptioninfo_set := fun _ => h.exceptioninfo_set (Or.inr (Or.inl hpc))
      callstackinfo_set := fun _ => h.callstackinfo_set (Or.inl hpc)
      collect_le := by simp [hzero]
      collect_permits := fun hsave => by
        have hheld : s.savePc.held = 0 := by
          have hpermits := h.collect_permits hsave
          rwa [hzero, if_neg (by simp [hpc]), Nat.zero_add] at hpermits
        change s.collectCount + 1 + s.savePc.held = 1
        rw [hzero, hheld]
      collect_ended := fun _ => rfl }
  all_goals simp at hstep

omit [DecidableEq ι] in
/-- Once the save has started, the constructor is through, whatever the save does next. -/
theorem Invariant.save_started (h : Invariant r s) (hpc : s.savePc ≠ .unstarted) {pc : SavePc}
    (hne : s.constructorPc ≠ .constructed) : pc = .unstarted :=
  absurd (h.save_unstarted hne) hpc

omit [DecidableEq ι] in
/-- The save goes on to an action that holds as many permits, if what has to be done
before it is done. -/
theorem Invariant.goto_save {pc : SavePc} (h : Invariant r s)
    (htook : s.savePc.tookCollect = true) (hrunning : s.savePc ≠ .ended)
    (hheld : pc.held = s.savePc.held) (hne : pc ≠ .ended)
    (hwriter : pc.built = true → s.m_smexmlwriter = some r.collected)
    (hname : pc.named = true → s.XMLFileName = some r.fileName ∧ s.XMLFilePath = some r.filePath)
    (hsaved : pc.saved = true → s.disk r.filePath = .saved r.collected) :
    Invariant r { s with savePc := pc } := by
  have hstarted : s.savePc ≠ .unstarted := by
    intro hpc
    simp [hpc] at htook
  have hfailed : s.savePc ≠ .failed := by
    intro hpc
    simp [hpc] at htook
  exact { h with
    save_unstarted := h.save_started hstarted
    collect_permits := fun _ => by
      rw [hheld]
      exact h.collect_permits hfailed
    collect_ended := fun _ => h.collect_ended htook
    writer_set := hwriter
    name_set := hname
    file_saved := hsaved
    save_permits := by simpa [hne, hrunning] using h.save_permits }

omit [DecidableEq ι] in
/-- A permit can only come from the collection, which has therefore ended. -/
theorem Invariant.waitCollect (h : Invariant r s) (hpc : s.savePc = .waitCollect)
    (hpos : 0 < s.collectCount) :
    Invariant r { s with savePc := .buildWriter, collectCount := s.collectCount - 1 } := by
  have hpermits : s.collectCount = if s.collectPc = .ended then 1 else 0 := by
    simpa [hpc] using h.collect_permits
  have hended : s.collectPc = .ended := by
    by_contra hne
    rw [if_neg hne] at hpermits
    omega
  exact { h with
    save_unstarted := h.save_started (by simp [hpc])
    collect_le := by simp [hended, hpermits]
    collect_permits := by simp [hended, hpermits]
    collect_ended := fun _ => hended
    writer_set := by simp
    name_set := by simp
    file_saved := by simp
    save_permits := by simpa [hpc] using h.save_permits }

omit [DecidableEq ι] in
/-- Both fields are set, since the collection has ended. -/
theorem Invariant.buildWriter (h : Invariant r s) (hpc : s.savePc = .buildWriter) :
    Invariant r { s with
      savePc := .dateToFileName
      writerBuiltFrom := some (s.m_exceptioninfo, s.m_callstackinfo)
      m_smexmlwriter := some (r.document s.m_exceptioninfo s.m_callstackinfo) } := by
  have hended := h.collect_ended (by simp [hpc])
  have hinfo := h.exceptioninfo_set (by simp [hended])
  have hstack := h.callstackinfo_set (by simp [hended])
  have hbuilt : Invariant r { s with
      writerBuiltFrom := some (s.m_exceptioninfo, s.m_callstackinfo)
      m_smexmlwriter := some (r.document s.m_exceptioninfo s.m_callstackinfo) } := { h with
    built_from := by simp [hinfo, hstack]
    writer_set := by simp [hpc] }
  refine hbuilt.goto_save (by simp [hpc]) (by simp [hpc]) (by simp [hpc]) (by simp) ?_ ?_ ?_
  · exact fun _ => by simp [hinfo, hstack, Report.collected]
  · simp
  · simp

omit [DecidableEq ι] in
theorem Invariant.dateToFileName (h : Invariant r s) (hpc : s.savePc = .dateToFileName) :
    Invariant r { s with
      savePc := .openFile, XMLFileName := some r.fileName, XMLFilePath := some r.filePath } := by
  have hnamed : Invariant r { s with
      XMLFileName := some r.fileName, XMLFilePath := some r.filePath } := { h with
    name_set := fun _ => ⟨rfl, rfl⟩ }
  refine hnamed.goto_save (by simp [hpc]) (by simp [hpc]) (by simp [hpc]) (by simp) ?_ ?_ ?_
  · exact fun _ => h.writer_set (by simp [hpc])
  · exact fun _ => ⟨rfl, rfl⟩
  · simp

omit [DecidableEq ι] in
/-- An open file is not saved yet, whatever path it has. -/
theorem Invariant.openFile (h : Invariant r s) (hpc : s.savePc = .openFile) (path : String) :
    Invariant r { s with
      savePc := .writeFile, disk := Function.update s.disk path .opened } := by
  have hopened : Invariant r { s with disk := Function.update s.disk path .opened } := { h with
    file_saved := by simp [hpc] }
  refine hopened.goto_save (by simp [hpc]) (by simp [hpc]) (by simp [hpc]) (by simp) ?_ ?_ ?_
  · exact fun _ => h.writer_set (by simp [hpc])
  · exact fun _ => h.name_set (by simp [hpc])
  · simp

omit [DecidableEq ι] in
/-- The document of the writer goes to the path that `DateToFileName` stored. -/
theorem Invariant.writeFile (h : Invariant r s) (hpc : s.savePc = .writeFile) {path : String}
    {document : Document} (hpath : s.XMLFilePath = some path)
    (hdocument : s.m_smexmlwriter = some document) :
    Invariant r { s with
      savePc := .releaseCollect, disk := Function.update s.disk path (.saved document) } := by
  have hwriter := h.writer_set (by simp [hpc])
  have hname := h.name_set (by simp [hpc])
  obtain rfl := Option.some.inj (hpath.symm.trans hname.2)
  obtain rfl := Option.some.inj (hdocument.symm.trans hwriter)
  have hwritten : Invariant r { s with
      disk := Function.update s.disk r.filePath (.saved r.collected) } := { h with
    file_saved := by simp [hpc] }
  refine hwritten.goto_save (by simp [hpc]) (by simp [hpc]) (by simp [hpc]) (by simp) ?_ ?_ ?_
  · exact fun _ => hwriter
  · exact fun _ => hname
  · simp

omit [DecidableEq ι] in
/-- The permit taken at the start goes back. -/
theorem Invariant.releaseCollect (h : Invariant r s) (hpc : s.savePc = .releaseCollect) :
    s.collectCount < maximumCount ∧
      Invariant r { s with savePc := .releaseSave, collectCount := s.collectCount + 1 } := by
  have hended := h.collect_ended (by simp [hpc])
  have hpermits : s.collectCount = 0 := by simpa [hpc, hended] using h.collect_permits
  refine ⟨by simp [hpermits, maximumCount], ?_⟩
  exact { h with
    save_unstarted := h.save_started (by simp [hpc])
    collect_le := by simp [hended, hpermits]
    collect_permits := by simp [hended, hpermits]
    collect_ended := fun _ => hended
    writer_set := fun _ => h.writer_set (by simp [hpc])
    name_set := fun _ => h.name_set (by simp [hpc])
    file_saved := fun _ => h.file_saved (by simp [hpc])
    save_permits := by simpa [hpc] using h.save_permits }

omit [DecidableEq ι] in
/-- This is the only release of `SaveSemaphore`, so nobody has been let in before. -/
theorem Invariant.releaseSave (h : Invariant r s) (hpc : s.savePc = .releaseSave) :
    s.saveCount < maximumCount ∧
      Invariant r { s with savePc := .ended, saveCount := s.saveCount + 1 } := by
  have hadmitted : s.saveCount = 0 ∧ s.admitted = [] := by
    simpa [hpc] using h.save_permits
  refine ⟨by simp [hadmitted.1, maximumCount], ?_⟩
  exact { h with
    save_unstarted := h.save_started (by simp [hpc])
    collect_permits := by simpa [hpc] using h.collect_permits
    collect_ended := fun _ => h.collect_ended (by simp [hpc])
    writer_set := fun _ => h.writer_set (by simp [hpc])
    name_set := fun _ => h.name_set (by simp [hpc])
    file_saved := fun _ => h.file_saved (by simp [hpc])
    save_permits := by simp [hadmitted] }

omit [DecidableEq ι] in
/-- Every action of the save keeps the invariant; its semaphores have room. -/
theorem Invariant.keeps_saveStep (h : Invariant r s) (hstep : saveStep r s = some t) :
    Invariant r t := by
  unfold saveStep at hstep
  split at hstep
  next hpc =>
    split_ifs at hstep with hpos
    obtain rfl := Option.some.inj hstep
    exact h.waitCollect hpc hpos
  next hpc =>
    obtain rfl := Option.some.inj hstep
    exact h.buildWriter hpc
  next hpc =>
    obtain rfl := Option.some.inj hstep
    exact h.dateToFileName hpc
  next hpc =>
    obtain ⟨path, -, rfl⟩ := Option.map_eq_some_iff.mp hstep
    exact h.openFile hpc path
  next hpc =>
    obtain ⟨path, hpath, hrest⟩ := Option.bind_eq_some_iff.mp hstep
    obtain ⟨document, hdocument, rfl⟩ := Option.map_eq_some_iff.mp hrest
    exact h.writeFile hpc hpath hdocument
  next hpc =>
    obtain ⟨hroom, hreleased⟩ := h.releaseCollect hpc
    rw [if_pos hroom] at hstep
    obtain rfl := Option.some.inj hstep
    exact hreleased
  next hpc =>
    obtain ⟨hroom, hreleased⟩ := h.releaseSave hpc
    rw [if_pos hroom] at hstep
    obtain rfl := Option.some.inj hstep
    exact hreleased
  all_goals simp at hstep

omit [DecidableEq ι] in
/-- At most one caller is ever let in. -/
theorem Invariant.admitted_le (h : Invariant r s) : s.admitted.length ≤ 1 := by
  have hpermits := h.save_permits
  split_ifs at hpermits <;> omega

omit [DecidableEq ι] in
/-- A caller is let in only once the save has ended. -/
theorem Invariant.save_ended (h : Invariant r s) (hadmitted : s.admitted ≠ []) :
    s.savePc = .ended := by
  by_contra hne
  have hpermits : s.saveCount = 0 ∧ s.admitted = [] := by simpa [hne] using h.save_permits
  exact hadmitted hpermits.2

theorem Invariant.keeps_callerStep {i : ι} (h : Invariant r s) (hstep : callerStep s i = some t) :
    Invariant r t := by
  unfold callerStep at hstep
  split at hstep
  next hpc =>
    -- whoever starts to wait has not been let in
    split_ifs at hstep with hctor
    obtain rfl := Option.some.inj hstep
    have hout : i ∉ s.admitted := by simp [h.admitted_iff, hpc]
    exact { h with
      admitted_iff := by
        intro j
        by_cases hji : j = i
        · subst hji
          simp [hout]
        · simp [hji, h.admitted_iff]
      senders_count := by
        rw [← h.senders_count]
        congr 1
        refine List.countP_congr fun j hj => ?_
        have hji : j ≠ i := fun hji => hout (hji ▸ hj)
        simp [hji] }
  next hpc =>
    -- the one permit goes to this caller
    split_ifs at hstep with hpos
    obtain rfl := Option.some.inj hstep
    have hout : i ∉ s.admitted := by simp [h.admitted_iff, hpc]
    have hpermits := h.save_permits
    have hempty : s.admitted = [] := by
      have hle : s.admitted.length = 0 := by split_ifs at hpermits <;> omega
      exact List.length_eq_zero_iff.mp hle
    have hnone : s.senders = [] := by simpa [hempty] using h.senders_count
    exact { h with
      save_permits := by
        simp only [List.length_cons]
        omega
      admitted_iff := by
        intro j
        by_cases hji : j = i
        · subst hji
          simp
        · simp [hji, h.admitted_iff]
      senders_count := by simp [hempty, hnone] }
  next hpc =>
    -- only one caller is in, and it creates the only sender, after the save has ended
    obtain rfl := Option.some.inj hstep
    have hin : i ∈ s.admitted := by simp [h.admitted_iff, hpc]
    obtain ⟨j, hj⟩ := List.length_eq_one_iff.mp
      (le_antisymm h.admitted_le (List.length_pos_of_mem hin))
    obtain rfl : i = j := by simpa [hj] using hin
    have hnone : s.senders = [] := by simpa [hj, hpc] using h.senders_count
    have hended := h.save_ended (List.ne_nil_of_mem hin)
    have hname := h.name_set (by simp [hended])
    have hsaved := h.file_saved (by simp [hended])
    exact { h with
      admitted_iff := by
        intro k
        by_cases hki : k = i
        · subst hki
          simp [hin]
        · simp [hki, h.admitted_iff]
      senders_count := by simp [hj, hnone]
      senders_eq := by simp [hnone, hname, hsaved, Report.sender] }
  next => simp at hstep

omit [DecidableEq ι] in
theorem Invariant.keeps_failCollect {pc : CollectPc} (h : Invariant r s) (hne : pc ≠ .ended)
    (hun : pc ≠ .unstarted) (hstep : failCollect s pc = some t) : Invariant r t := by
  unfold failCollect at hstep
  split_ifs at hstep with hpc
  obtain rfl := Option.some.inj hstep
  subst hpc
  exact { h with
    collect_unstarted := h.collect_started hun
    exceptioninfo_set := by simp
    callstackinfo_set := by simp
    collect_le := by simpa [hne] using h.collect_le
    collect_permits := by simpa [hne] using h.collect_permits
    collect_ended := fun htook => absurd htook (h.not_tookCollect hne) }

omit [DecidableEq ι] in
theorem Invariant.keeps_failSave {pc : SavePc} (h : Invariant r s) (hne : pc ≠ .ended)
    (hun : pc ≠ .unstarted) (hstep : failSave s pc = some t) : Invariant r t := by
  unfold failSave at hstep
  split_ifs at hstep with hpc
  obtain rfl := Option.some.inj hstep
  subst hpc
  exact { h with
    save_unstarted := h.save_started hun
    collect_permits := by simp
    collect_ended := by simp
    writer_set := by simp
    name_set := by simp
    file_saved := by simp
    save_permits := by simpa [hne] using h.save_permits }

omit [DecidableEq ι] in
theorem Invariant.keeps_faultStep {f : Fault} (h : Invariant r s)
    (hstep : faultStep s f = some t) : Invariant r t := by
  cases f with
  | collectExceptionInfo | collectCallStack | collectRelease =>
    exact h.keeps_failCollect (by simp) (by simp) hstep
  | waitCollect | buildWriter | dateToFileName | openFile | writeFile | releaseCollect
  | releaseSave => exact h.keeps_failSave (by simp) (by simp) hstep

/-- Every action of every thread keeps the invariant. -/
theorem Invariant.step {l : Label ι} (h : Invariant r s)
    (hstep : (system r).step s l = some t) : Invariant r t := by
  cases l with
  | construct => exact h.keeps_constructStep hstep
  | collect => exact h.keeps_collectStep hstep
  | save => exact h.keeps_saveStep hstep
  | caller i => exact h.keeps_callerStep hstep
  | fault f => exact h.keeps_faultStep hstep

/-- The invariant holds after every run, whatever fails in it. -/
theorem invariant_of_reachable {faults : Set Fault}
    (h : (system r).Reachable (permitting faults) s) : Invariant r s :=
  h.invariant (Invariant r) invariant_initial fun _ _ _ hs _ hstep => hs.step hstep

/-! ## Order of the three kinds of thread -/

/-- In every reachable state the `SMEXMLWriter` was built from fields that were
both set, every `TCPSender` was given `XMLFilePath` and `XMLFileName` at a time
when that path held the complete document, at most one `TCPSender` exists, and
no semaphore was released above its maximum count. Failures, if a run has any,
do not change this. -/
theorem reachable_ordered {faults : Set Fault}
    (h : (system r).Reachable (permitting faults) s) :
    (∀ info stack, s.writerBuiltFrom = some (info, stack) → info ≠ none ∧ stack ≠ none) ∧
    (∀ sender ∈ s.senders, sender.FilePath = s.XMLFilePath ∧ sender.FileName = s.XMLFileName ∧
      s.XMLFilePath ≠ none ∧
      ∃ document, s.m_smexmlwriter = some document ∧ sender.file = some (.saved document)) ∧
    s.senders.length ≤ 1 ∧
    s.semaphoreFull = false ∧ s.collectCount ≤ maximumCount ∧ s.saveCount ≤ maximumCount := by
  have hinv := invariant_of_reachable h
  have hcollect := hinv.collect_le
  have hsave := hinv.save_permits
  have hsenders := hinv.senders_count
  have hadmitted := hinv.admitted_le
  refine ⟨?_, ?_, by omega, hinv.not_full, ?_, ?_⟩
  · intro info stack hbuilt
    obtain ⟨rfl, rfl⟩ := Prod.mk.inj (hinv.built_from _ hbuilt)
    simp
  · -- a sender belongs to an admitted caller, and nobody is admitted before the save ends
    intro sender hsender
    have hnonempty : s.admitted ≠ [] := by
      rintro hempty
      have hpos := List.length_pos_of_mem hsender
      simp only [hempty, List.countP_nil, List.length_nil] at hsenders
      omega
    have hended := hinv.save_ended hnonempty
    obtain ⟨hname, hpath⟩ := hinv.name_set (by simp [hended])
    rw [hinv.senders_eq sender hsender, hname, hpath]
    exact ⟨rfl, rfl, by simp, r.collected, hinv.writer_set (by simp [hended]), rfl⟩
  · rw [maximumCount]
    split_ifs at hcollect <;> omega
  · rw [maximumCount]
    split_ifs at hsave <;> omega

/-- A report whose parts are all trivial. -/
def sampleReport : Report Unit Unit Unit where
  exceptioninfo := ()
  callstackinfo := ()
  document _ _ := ()
  fileName := "SMETestClient-0.0-2015-08-18-16-48-37.xml"
  folderPath := "C:\\Dumps\\CS"

/-- The whole life of one report, with one caller. -/
def sampleRun : List (Label Unit) :=
  [.construct, .collect, .construct, .caller (), .collect, .collect, .save, .save, .save, .save,
    .save, .save, .save, .caller (), .caller ()]

theorem reachable_ordered_sample :
    ∃ s : State Unit Unit Unit Unit, (system sampleReport).run initial sampleRun = some s ∧
      s.senders.length = 1 ∧ s.semaphoreFull = false ∧
      ∀ sender ∈ s.senders, sender.FilePath = s.XMLFilePath := by
  refine ⟨_, rfl, rfl, ?_⟩
  have hreach : (system sampleReport).Reachable (permitting ∅) _ :=
    ⟨sampleRun, by simp [sampleRun, permitting], rfl⟩
  have h := reachable_ordered hreach
  exact ⟨h.2.2.2.1, fun sender hsender => (h.2.1 sender hsender).1⟩

/-! ## Callers left behind

A worker that ends by an exception releases nothing: neither method has a
`finally`. If the collection fails, the save waits for ever and so do the
callers. If the save fails, both workers are gone and the callers still wait. -/

/-- Both workers have ended, `SaveSemaphore` is at 0, and a caller waits for it
although it has let nobody in. A .NET semaphore serves its waiters in no
particular order, so the first caller is the one the first permit would go to. -/
def Stuck (s : State ι Info Stack Document) : Prop :=
  s.collectPc.Done ∧ s.savePc.Done ∧ s.saveCount = 0 ∧ s.admitted = [] ∧
    ∃ i, s.callerPc i = .waitSave

omit [DecidableEq ι] in
/-- `SaveToXML` itself ends only normally: its two `Release` calls never meet a
full semaphore. -/
theorem Invariant.saveStep_not_failed (h : Invariant r s) (hstep : saveStep r s = some t) :
    t.savePc ≠ .failed := by
  have hfull := (h.keeps_saveStep hstep).not_full
  unfold saveStep at hstep
  intro hfailed
  split at hstep
  -- no release meets a full semaphore, and the other actions lead to the next one
  case h_4 =>
    obtain ⟨path, -, rfl⟩ := Option.map_eq_some_iff.mp hstep
    simp at hfailed
  case h_5 =>
    obtain ⟨path, -, hrest⟩ := Option.bind_eq_some_iff.mp hstep
    obtain ⟨document, -, rfl⟩ := Option.map_eq_some_iff.mp hrest
    simp at hfailed
  all_goals try split_ifs at hstep
  all_goals first
    | (obtain rfl := Option.some.inj hstep; simp at hfailed hfull)
    | simp at hstep

/-- Where no step of `SaveToXML` may fail, the save thread does not. -/
theorem save_not_failed {faults : Set Fault} (hfaults : ∀ f ∈ faults, f.inSaveToXML = false)
    (h : (system r).Reachable (permitting faults) s) : s.savePc ≠ .failed := by
  suffices hgood : Invariant r s ∧ s.savePc ≠ .failed from hgood.2
  refine h.invariant (fun s => Invariant r s ∧ s.savePc ≠ .failed)
    ⟨invariant_initial, by simp [system, initial]⟩ ?_
  rintro s l t ⟨hinv, hsave⟩ hl hstep
  refine ⟨hinv.step hstep, ?_⟩
  -- the other threads leave the program counter of the save alone or start it
  cases l with
  | construct =>
    simp only [system, constructStep] at hstep
    split at hstep <;> simp at hstep <;> subst hstep <;> simp [hsave]
  | collect =>
    simp only [system, collectStep] at hstep
    split at hstep <;> try split_ifs at hstep
    all_goals simp at hstep
    all_goals subst hstep; exact hsave
  | save => exact hinv.saveStep_not_failed hstep
  | caller i =>
    simp only [system, callerStep] at hstep
    split at hstep <;> try split_ifs at hstep
    all_goals simp at hstep
    all_goals subst hstep; exact hsave
  | fault f =>
    have hf := hfaults f (hl f rfl)
    cases f <;> simp [Fault.inSaveToXML] at hf <;>
      simp only [system, faultStep, failCollect] at hstep <;> split_ifs at hstep <;>
      obtain rfl := Option.some.inj hstep <;> exact hsave

/-- How far `SaveToXML` gets before the step `f`. -/
def Fault.stepsBefore : Fault → ℕ
  | .collectExceptionInfo | .collectCallStack | .collectRelease | .waitCollect => 0
  | .buildWriter => 1
  | .dateToFileName => 2
  | .openFile => 3
  | .writeFile => 4
  | .releaseCollect => 5
  | .releaseSave => 6

/-- A run in which the collection succeeds, one caller waits, and `SaveToXML`
ends by an exception at the step `f`. -/
def abandonedRun (i : ι) (f : Fault) : List (Label ι) :=
  [.construct, .construct, .collect, .collect, .collect, .caller i] ++
    (List.replicate f.stepsBefore .save ++ [.fault f])

theorem exists_stuck (r : Report Info Stack Document) (i : ι) {f : Fault}
    (hf : f.inSaveToXML = true) :
    ∃ s, (system r).run initial (abandonedRun i f) = some s ∧ Stuck s := by
  cases f with
  | collectExceptionInfo | collectCallStack | collectRelease => simp [Fault.inSaveToXML] at hf
  | waitCollect | buildWriter | dateToFileName | openFile | writeFile | releaseCollect
  | releaseSave => exact ⟨_, rfl, Or.inl rfl, Or.inr rfl, rfl, rfl, i, by simp⟩

/-- Whatever else may fail, a caller can be left behind by two ended workers
exactly when some step of `SaveToXML` may fail. -/
theorem not_stuck_iff_save_faultless [Inhabited ι] (r : Report Info Stack Document)
    (faults : Set Fault) :
    (∀ s : State ι Info Stack Document,
      (system r).Reachable (permitting faults) s → ¬ Stuck s) ↔
      ∀ f ∈ faults, f.inSaveToXML = false := by
  constructor
  · -- a step of `SaveToXML` that fails leaves the caller of `abandonedRun` behind
    intro hnever f hf
    by_contra hsave
    obtain ⟨s, hrun, hstuck⟩ := exists_stuck r (default : ι) (by simpa using hsave)
    refine hnever s ⟨abandonedRun default f, ?_, hrun⟩ hstuck
    intro l hl g hlg
    subst hlg
    have hgf : g = f := by simpa [abandonedRun] using hl
    exact hgf ▸ hf
  · -- otherwise the save ends normally, and its permit is still there or was taken
    rintro hfaults s hreach ⟨-, hdone, hcount, hadmitted, -⟩
    have hended := hdone.resolve_right (save_not_failed hfaults hreach)
    have hpermits := (invariant_of_reachable hreach).save_permits
    simp [hended, hcount, hadmitted] at hpermits

/-- Opening the XML file fails, and the caller waits for ever. -/
theorem stuck_of_openFile :
    ¬ ∀ s : State Unit Unit Unit Unit,
      (system sampleReport).Reachable (permitting Set.univ) s → ¬ Stuck s := by
  intro hnever
  obtain ⟨s, hrun, hstuck⟩ := exists_stuck sampleReport () (f := .openFile) rfl
  exact hnever s ⟨abandonedRun () .openFile, by simp [permitting], hrun⟩ hstuck

end Collector

end SMEWindow.Collect
