import SMEWindow.Lib.SharedFiles
import SMEWindow.Lib.Transition
import SMEWindow.Server.Receiver

/-!
# Receivers that share a directory

A receiver copies its connection into the file that the sender has named, closes
it, talks to the database, and then opens the file again, by its name, to read
the report. Between the closing and the opening it has no hold on the file. A
receiver of another connection that was given the same name empties it then, and
what the first receiver reads is the report of the other, or a part of it.

Any number of receivers run at once, one file operation or statement at a time.
Each of them may end by an exception at every step.

## Main definitions

* `ReceivedFiles.system` — the interleaving of all receivers
* `ReceivedFiles.OwnBytes` — detail rows come from the receiver's own connection
* `ReceivedFiles.Undisturbed` — a step does not empty a file that another receiver
  has yet to open again

## Main results

* `ownBytes_of_undisturbed` — this is all that a run has to avoid
* `ownBytes_of_files_distinct` — receivers of different files never meet
-/

set_option autoImplicit false

namespace SMEWindow.Server.ReceivedFiles

open Lib.SegmentedStream Lib.SharedFiles Lib.Transition

/-- What surrounds the receivers. -/
structure Surroundings (Path Row : Type*) where
  /-- The file that a name denotes. -/
  resolve : String → Path
  /-- What `SMEXMLReader` or `SMEMiniDumpReader`, and the statements behind it,
  make of a file; `none` if the reader throws. -/
  rows : FileSelection → List UInt8 → Option (List Row)

/-- A connection whose header has been accepted. -/
structure Connection where
  header : Header
  body : Stream

/-- What a receiver does next. -/
inductive Pc (Row : Type*)
  /-- The `FileStream` constructor. -/
  | opening
  /-- The body loop, and `Close` at its end. -/
  | receiving
  /-- The `DumpsDBM` constructor, `Insert` and `SelectExp_ID`. -/
  | connecting | inserting | selecting
  /-- The constructor of the reader, which opens the file by its name. -/
  | reopening
  | reading
  /-- The bytes that were read, and the rows still to be inserted. -/
  | saving (source : List UInt8) (rows : List Row)
  | ended

/-- The receiver has closed its file and has yet to open it again. -/
def Pc.awaiting {Row : Type*} : Pc Row → Bool
  | .connecting | .inserting | .selecting | .reopening => true
  | .opening | .receiving | .reading | .saving _ _ | .ended => false

/-- The receiver has read its report. -/
def Pc.done {Row : Type*} : Pc Row → Bool
  | .saving _ _ | .ended => true
  | .opening | .receiving | .connecting | .inserting | .selecting | .reopening | .reading => false

/-- A detail row, the receiver that inserted it, and the bytes it was made from. -/
structure Detail (ι Row : Type*) where
  receiver : ι
  source : List UInt8
  row : Row

/-- The directory and all receivers. -/
structure State (ι Path Row : Type*) where
  disk : Directory ι Path UInt8
  /-- The variables of each body loop; its `file` is what was taken from the
  connection. -/
  body : ι → Receiving
  pc : ι → Pc Row
  details : List (Detail ι Row)

/-- One step of one receiver. -/
inductive Label (ι : Type*)
  | proceed (i : ι)
  /-- The next operation or statement throws. -/
  | throw (i : ι)
  /-- The garbage collector closes what a reader of minidumps has left open. -/
  | finalize (i : ι)

variable {ι Path Row : Type*}

/-- The file of a receiver. -/
def fileOf (world : Surroundings Path Row) (connections : ι → Connection) (i : ι) : Path :=
  world.resolve (connections i).header.fileName

/-- Every detail row is made from exactly the bytes that its receiver took from
its own connection. -/
def OwnBytes (s : State ι Path Row) : Prop :=
  ∀ detail ∈ s.details, detail.source = (s.body detail.receiver).file

/-- If the step creates a file, no other receiver has closed that file and has yet
to open it again. -/
def Undisturbed (world : Surroundings Path Row) (connections : ι → Connection)
    (s : State ι Path Row) : Label ι → Prop
  | .proceed j => s.pc j = .opening → ∀ i, i ≠ j →
      fileOf world connections i = fileOf world connections j → (s.pc i).awaiting = false
  | .throw _ | .finalize _ => True

section Steps

variable [DecidableEq ι] [DecidableEq Path]

/-- A reader of XML closes its file, a reader of minidumps does not. -/
def release (header : Header) (disk : Directory ι Path UInt8) (i : ι) : Directory ι Path UInt8 :=
  match header.filesel with
  | .xml => disk.close i
  | .dmp => disk

/-- `Receive` from the creation of the file on, one step at a time. -/
def proceedStep (world : Surroundings Path Row) (connections : ι → Connection)
    (s : State ι Path Row) (i : ι) : Option (State ι Path Row) :=
  let file := fileOf world connections i
  let header := (connections i).header
  let goto (pc : Pc Row) : ι → Pc Row := Function.update s.pc i pc
  match s.pc i with
  | .opening =>
    match s.disk.create i file with
    | some disk => some { s with disk := disk, pc := goto .receiving }
    | none => some { s with pc := goto .ended }
  | .receiving =>
    if (s.body i).totalLength < header.fileLength then
      some { s with
        disk := s.disk.append file ((s.body i).net.read blockLength).1
        body := Function.update s.body i (receiveBlock (s.body i)) }
    else some { s with disk := s.disk.close i, pc := goto .connecting }
  | .connecting => some { s with pc := goto .inserting }
  | .inserting => some { s with pc := goto .selecting }
  | .selecting => some { s with pc := goto .reopening }
  | .reopening =>
    match s.disk.openRead i file with
    | some disk => some { s with disk := disk, pc := goto .reading }
    | none => some { s with pc := goto .ended }
  | .reading =>
    (s.disk.content file).map fun source => { s with
      disk := release header s.disk i
      pc := goto (match world.rows header.filesel source with
        | some rows => .saving source rows
        | none => .ended) }
  | .saving source (row :: rows) => some { s with
      details := ⟨i, source, row⟩ :: s.details, pc := goto (.saving source rows) }
  | .saving _ [] => some { s with pc := goto .ended }
  | .ended => none

/-- `Dispose` closes the file that is being received. -/
def throwStep (connections : ι → Connection) (s : State ι Path Row) (i : ι) :
    Option (State ι Path Row) :=
  let ended := Function.update s.pc i .ended
  match s.pc i with
  | .receiving => some { s with disk := s.disk.close i, pc := ended }
  | .reading =>
    some { s with disk := release (connections i).header s.disk i, pc := ended }
  | .ended => none
  | .opening | .connecting | .inserting | .selecting | .reopening | .saving _ _ =>
    some { s with pc := ended }

/-- All receivers, over the given files. -/
def system (world : Surroundings Path Row) (files : Path → Option (List UInt8))
    (connections : ι → Connection) : System (State ι Path Row) (Label ι) where
  init := ⟨⟨files, []⟩, fun i => ⟨0, [], (connections i).body⟩, fun _ => .opening, []⟩
  step s
    | .proceed i => proceedStep world connections s i
    | .throw i => throwStep connections s i
    | .finalize i =>
      if (s.pc i).done then some { s with disk := s.disk.close i } else none

end Steps

/-! ### What a receiver can rely on -/

variable {world : Surroundings Path Row} {files : Path → Option (List UInt8)}
  {connections : ι → Connection} {s t : State ι Path Row} {d d' : Directory ι Path UInt8}
  {i j : ι} {pc : Pc Row} {file : Path} {written : List UInt8}

/-- What a receiver that is at `pc` and has written `written` can rely on. -/
def Phase (d : Directory ι Path UInt8) (j : ι) (file : Path) (written : List UInt8) :
    Pc Row → Prop
  | .opening => written = []
  | .receiving => ⟨j, file, .write⟩ ∈ d.handles ∧ d.Holds j file written
  | .connecting | .inserting | .selecting | .reopening => d.Rests file written
  | .reading => d.Holds j file written
  | .saving source _ => source = written
  | .ended => True

structure Invariant (world : Surroundings Path Row) (connections : ι → Connection)
    (s : State ι Path Row) : Prop where
  exclusive : s.disk.Exclusive
  phase : ∀ j, Phase s.disk j (fileOf world connections j) (s.body j).file (s.pc j)
  own_bytes : OwnBytes s
  /-- Whoever has inserted a row takes nothing more from its connection. -/
  done_of_detail : ∀ detail ∈ s.details, (s.pc detail.receiver).done = true

/-- An operation of somebody else leaves a receiver what it relies on. -/
theorem Phase.frame (hphase : Phase d j file written pc)
    (hwrite : ⟨j, file, .write⟩ ∈ d.handles → ⟨j, file, .write⟩ ∈ d'.handles)
    (hholds : d.Holds j file written → d'.Holds j file written)
    (hrests : pc.awaiting = true → d.Rests file written → d'.Rests file written) :
    Phase d' j file written pc := by
  cases pc with
  | opening => exact hphase
  | receiving => exact ⟨hwrite hphase.1, hholds hphase.2⟩
  | connecting => exact hrests rfl hphase
  | inserting => exact hrests rfl hphase
  | selecting => exact hrests rfl hphase
  | reopening => exact hrests rfl hphase
  | reading => exact hholds hphase
  | saving source rows => exact hphase
  | ended => trivial

variable [DecidableEq ι]

theorem Phase.close (hphase : Phase d j file written pc) (hne : j ≠ i) :
    Phase (d.close i) j file written pc :=
  hphase.frame (fun hwrite => Directory.mem_handles_close.mpr ⟨hwrite, hne⟩)
    (fun hholds => hholds.close hne) fun _ hrests => hrests.close

theorem Phase.release (hphase : Phase d j file written pc) (hne : j ≠ i) (header : Header) :
    Phase (release header d i) j file written pc := by
  unfold ReceivedFiles.release
  split
  · exact hphase.close hne
  · exact hphase

theorem exclusive_release (hd : d.Exclusive) (header : Header) :
    (release header d i).Exclusive := by
  unfold release
  split
  · exact hd.close
  · exact hd

namespace Invariant

/-- One receiver moves on. -/
theorem move (h : Invariant world connections s) (hexclusive : d.Exclusive)
    (hphase : Phase d i (fileOf world connections i) (s.body i).file pc)
    (hframe : ∀ j, j ≠ i → Phase d j (fileOf world connections j) (s.body j).file (s.pc j))
    (hdone : (s.pc i).done = true → pc.done = true) :
    Invariant world connections { s with disk := d, pc := Function.update s.pc i pc } := by
  refine ⟨hexclusive, fun j => ?_, h.own_bytes, fun detail hdetail => ?_⟩
  · dsimp only
    by_cases hj : j = i
    · subst hj
      rw [Function.update_self]
      exact hphase
    · rw [Function.update_of_ne hj]
      exact hframe j hj
  · dsimp only
    have hbefore := h.done_of_detail detail hdetail
    by_cases hj : detail.receiver = i
    · rw [hj, Function.update_self]
      exact hdone (hj ▸ hbefore)
    · rw [Function.update_of_ne hj]
      exact hbefore

/-- One receiver moves on without touching a file. -/
theorem goto (h : Invariant world connections s)
    (hphase : Phase s.disk i (fileOf world connections i) (s.body i).file pc)
    (hdone : (s.pc i).done = true → pc.done = true) :
    Invariant world connections { s with pc := Function.update s.pc i pc } :=
  h.move h.exclusive hphase (fun j _ => h.phase j) hdone

/-- The body loop has ended. -/
theorem close (h : Invariant world connections s) (hpc : s.pc i = .receiving) :
    Invariant world connections
      { s with disk := s.disk.close i, pc := Function.update s.pc i .connecting } := by
  have hphase := h.phase i
  rw [hpc] at hphase
  obtain ⟨hwrite, hholds⟩ := hphase
  refine h.move h.exclusive.close ?_ (fun j hj => (h.phase j).close hj) (by rw [hpc]; exact nofun)
  exact Directory.rests_close h.exclusive hwrite hholds.content_eq

/-- What is read is what was written. -/
theorem read (h : Invariant world connections s) (hpc : s.pc i = .reading) {source : List UInt8}
    (hsource : s.disk.content (fileOf world connections i) = some source) (header : Header)
    (hphase : Phase (release header s.disk i) i (fileOf world connections i) source pc)
    (hdone : pc.done = true) :
    Invariant world connections
      { s with disk := release header s.disk i, pc := Function.update s.pc i pc } := by
  have hholds := h.phase i
  rw [hpc] at hholds
  have hwritten : source = (s.body i).file := by
    have hcontent := Directory.Holds.content_eq hholds
    rw [hsource] at hcontent
    exact Option.some.inj hcontent
  rw [hwritten] at hphase
  exact h.move (exclusive_release h.exclusive header) hphase
    (fun j hj => (h.phase j).release hj header) fun _ => hdone

/-- A row is made from what was written. -/
theorem save (h : Invariant world connections s) {source : List UInt8} {row : Row}
    {rows : List Row} (hpc : s.pc i = .saving source (row :: rows)) :
    Invariant world connections { s with
      details := ⟨i, source, row⟩ :: s.details
      pc := Function.update s.pc i (.saving source rows) } := by
  have hsource := h.phase i
  rw [hpc] at hsource
  have hmoved : Invariant world connections
      { s with pc := Function.update s.pc i (.saving source rows) } :=
    h.goto hsource fun _ => rfl
  refine { hmoved with
    own_bytes := fun detail hdetail => ?_, done_of_detail := fun detail hdetail => ?_ }
  · rcases List.mem_cons.mp hdetail with rfl | hdetail
    · exact hsource
    · exact h.own_bytes detail hdetail
  · rcases List.mem_cons.mp hdetail with rfl | hdetail
    · dsimp only
      rw [Function.update_self]
      rfl
    · exact hmoved.done_of_detail detail hdetail

section Operations

variable [DecidableEq Path]

theorem create (h : Invariant world connections s) (hpc : s.pc i = .opening)
    (hundisturbed : Undisturbed world connections s (.proceed i))
    (hcreate : s.disk.create i (fileOf world connections i) = some d) :
    Invariant world connections { s with disk := d, pc := Function.update s.pc i .receiving } := by
  refine h.move (h.exclusive.create hcreate) ?_ (fun j hj => ?_) (by rw [hpc]; exact nofun)
  · -- nothing has been written yet
    have hphase := h.phase i
    rw [hpc] at hphase
    have hwritten : (s.body i).file = [] := hphase
    obtain ⟨-, rfl⟩ := Directory.create_eq_some_iff.mp hcreate
    rw [hwritten]
    exact ⟨List.mem_cons_self, ⟨.write, List.mem_cons_self⟩, Function.update_self _ _ _⟩
  · refine (h.phase j).frame (fun hwrite => ?_) (fun hj' => hj'.create hcreate)
      fun hawaiting hj' => hj'.create (fun hfile => ?_) hcreate
    · obtain ⟨-, rfl⟩ := Directory.create_eq_some_iff.mp hcreate
      exact List.mem_cons_of_mem _ hwrite
    · -- the file of a receiver that awaits it is not created anew
      rw [hundisturbed hpc j hj hfile] at hawaiting
      cases hawaiting

/-- One block is taken from the connection and written to the file. -/
theorem receive (h : Invariant world connections s) (hpc : s.pc i = .receiving) :
    Invariant world connections { s with
      disk := s.disk.append (fileOf world connections i) ((s.body i).net.read blockLength).1
      body := Function.update s.body i (receiveBlock (s.body i)) } := by
  have hphase := h.phase i
  rw [hpc] at hphase
  obtain ⟨hwrite, hholds⟩ := hphase
  refine ⟨h.exclusive, fun j => ?_, fun detail hdetail => ?_, h.done_of_detail⟩
  · dsimp only
    by_cases hj : j = i
    · subst hj
      rw [hpc, Function.update_self]
      refine ⟨hwrite, ⟨.write, hwrite⟩, ?_⟩
      exact Directory.content_append_self hholds.content_eq
    · rw [Function.update_of_ne hj]
      exact (h.phase j).frame id (fun hj' => hj'.append h.exclusive hj hwrite)
        fun _ hj' => hj'.append hwrite
  · -- a receiver that has inserted a row is not in its body loop any more
    have hne : detail.receiver ≠ i := by
      intro hreceiver
      have hdone := h.done_of_detail detail hdetail
      rw [hreceiver, hpc] at hdone
      cases hdone
    dsimp only
    rw [Function.update_of_ne hne]
    exact h.own_bytes detail hdetail

theorem openRead (h : Invariant world connections s) (hpc : s.pc i = .reopening)
    (hopen : s.disk.openRead i (fileOf world connections i) = some d) :
    Invariant world connections { s with disk := d, pc := Function.update s.pc i .reading } := by
  have hphase := h.phase i
  rw [hpc] at hphase
  refine h.move (h.exclusive.openRead hopen) (Directory.holds_openRead hphase hopen)
    (fun j _ => ?_) (by rw [hpc]; exact nofun)
  refine (h.phase j).frame (fun hwrite => ?_) (fun hj => hj.openRead hopen)
    fun _ hj => hj.openRead hopen
  obtain ⟨-, -, rfl⟩ := Directory.openRead_eq_some_iff.mp hopen
  exact List.mem_cons_of_mem _ hwrite

theorem keeps_proceedStep (h : Invariant world connections s)
    (hundisturbed : Undisturbed world connections s (.proceed i))
    (hstep : proceedStep world connections s i = some t) : Invariant world connections t := by
  have hphase := h.phase i
  unfold proceedStep at hstep
  dsimp only at hstep
  split at hstep
  next hpc =>
    split at hstep
    next d hcreate =>
      obtain rfl := Option.some.inj hstep
      exact h.create hpc hundisturbed hcreate
    next =>
      obtain rfl := Option.some.inj hstep
      exact h.goto trivial fun _ => rfl
  next hpc =>
    split_ifs at hstep with hmore
    · obtain rfl := Option.some.inj hstep
      exact h.receive hpc
    · obtain rfl := Option.some.inj hstep
      exact h.close hpc
  -- the statements leave the file alone
  next hpc =>
    obtain rfl := Option.some.inj hstep
    rw [hpc] at hphase
    exact h.goto hphase (by rw [hpc]; exact nofun)
  next hpc =>
    obtain rfl := Option.some.inj hstep
    rw [hpc] at hphase
    exact h.goto hphase (by rw [hpc]; exact nofun)
  next hpc =>
    obtain rfl := Option.some.inj hstep
    rw [hpc] at hphase
    exact h.goto hphase (by rw [hpc]; exact nofun)
  next hpc =>
    split at hstep
    next d hopen =>
      obtain rfl := Option.some.inj hstep
      exact h.openRead hpc hopen
    next =>
      obtain rfl := Option.some.inj hstep
      exact h.goto trivial fun _ => rfl
  next hpc =>
    obtain ⟨source, hsource, rfl⟩ := Option.map_eq_some_iff.mp hstep
    cases hrows : world.rows (connections i).header.filesel source with
    | none => exact h.read hpc hsource _ trivial rfl
    | some rows => exact h.read hpc hsource _ rfl rfl
  next source row rows hpc =>
    obtain rfl := Option.some.inj hstep
    rw [hpc] at hphase
    exact h.save hpc
  next hpc =>
    obtain rfl := Option.some.inj hstep
    exact h.goto trivial fun _ => rfl
  next => cases hstep

end Operations

theorem keeps_throwStep (h : Invariant world connections s)
    (hstep : throwStep connections s i = some t) : Invariant world connections t := by
  have hended : Invariant world connections { s with pc := Function.update s.pc i .ended } :=
    h.goto trivial fun _ => rfl
  unfold throwStep at hstep
  dsimp only at hstep
  split at hstep
  next =>
    obtain rfl := Option.some.inj hstep
    exact h.move h.exclusive.close trivial (fun j hj => (h.phase j).close hj) fun _ => rfl
  next =>
    obtain rfl := Option.some.inj hstep
    exact h.move (exclusive_release h.exclusive _) trivial
      (fun j hj => (h.phase j).release hj _) fun _ => rfl
  next => cases hstep
  all_goals
    obtain rfl := Option.some.inj hstep
    exact hended

/-- A receiver that has read its report does not need its file any more. -/
theorem finalize (h : Invariant world connections s) (hdone : (s.pc i).done = true) :
    Invariant world connections { s with disk := s.disk.close i } := by
  refine ⟨h.exclusive.close, fun j => ?_, h.own_bytes, h.done_of_detail⟩
  by_cases hj : j = i
  · subst hj
    have hphase := h.phase j
    dsimp only
    cases hpc : s.pc j with
    | saving source rows =>
      rw [hpc] at hphase
      exact hphase
    | ended => trivial
    | opening | receiving | connecting | inserting | selecting | reopening | reading =>
      rw [hpc] at hdone
      cases hdone
  · exact (h.phase j).close hj

end Invariant

/-! ### Whole runs -/

variable [DecidableEq Path]

theorem invariant_of_meets {ls : List (Label ι)}
    (hmeets : (system world files connections).Meets (Undisturbed world connections)
      (system world files connections).init ls)
    (hrun : (system world files connections).run (system world files connections).init ls =
      some s) : Invariant world connections s := by
  refine System.run_invariant (Invariant world connections) ?_ hmeets ?_ hrun
  · intro s l t hs hundisturbed hstep
    cases l with
    | proceed i => exact hs.keeps_proceedStep hundisturbed hstep
    | throw i => exact hs.keeps_throwStep hstep
    | finalize i =>
      obtain ⟨hdone, hstep⟩ := Option.ite_none_right_eq_some.mp hstep
      obtain rfl := Option.some.inj hstep
      exact hs.finalize hdone
  · refine ⟨?_, fun j => rfl, ?_, ?_⟩
    · exact fun handle hhandle => absurd hhandle List.not_mem_nil
    · exact fun detail hdetail => absurd hdetail List.not_mem_nil
    · exact fun detail hdetail => absurd hdetail List.not_mem_nil

/-- **Nobody may empty a file that another receiver has yet to open again.** In
every run of any number of receivers in which no receiver creates a file while
another has closed it and has not opened it again, whatever the order of the steps
and whichever of them throw, every detail row is made from exactly the bytes that
its receiver took from its own connection. -/
theorem ownBytes_of_undisturbed (world : Surroundings Path Row)
    (files : Path → Option (List UInt8)) (connections : ι → Connection) {ls : List (Label ι)}
    (hmeets : (system world files connections).Meets (Undisturbed world connections)
      (system world files connections).init ls)
    (hrun : (system world files connections).run (system world files connections).init ls =
      some s) : OwnBytes s :=
  (invariant_of_meets hmeets hrun).own_bytes

omit [DecidableEq ι] [DecidableEq Path] in
theorem undisturbed_of_files_distinct
    (hfiles : ∀ i j, i ≠ j → fileOf world connections i ≠ fileOf world connections j)
    (s : State ι Path Row) (l : Label ι) : Undisturbed world connections s l := by
  cases l with
  | proceed j => exact fun _ i hne hfile => absurd hfile (hfiles i j hne)
  | throw j => trivial
  | finalize j => trivial

/-- Receivers of different files never meet. -/
theorem ownBytes_of_files_distinct
    (hfiles : ∀ i j, i ≠ j → fileOf world connections i ≠ fileOf world connections j)
    (hreach : (system world files connections).Reachable Set.univ s) : OwnBytes s := by
  obtain ⟨ls, -, hrun⟩ := hreach
  have hmeets : (system world files connections).Meets (Undisturbed world connections)
      (system world files connections).init ls :=
    System.meets_of_forall_mem fun l _ s => undisturbed_of_files_distinct hfiles s l
  exact (invariant_of_meets hmeets hrun).own_bytes

/-! ### Two receivers -/

/-- Names denote themselves, and every report has one row. -/
def plainWorld : Surroundings String Unit := ⟨id, fun _ _ => some [()]⟩

/-- A report of one byte. -/
def byteReport (fileName : String) (byte : UInt8) : Connection :=
  ⟨⟨1, fileName, .xml, 7⟩, Stream.whole [byte]⟩

/-- Two reports under names of their own. -/
def twoNames : Bool → Connection
  | false => byteReport "a.xml" 1
  | true => byteReport "b.xml" 2

/-- The second receiver runs while the first awaits its file. -/
def overlapping : List (Label Bool) :=
  List.replicate 3 (.proceed false) ++ List.replicate 3 (.proceed true) ++
    List.replicate 6 (.proceed false)

theorem files_distinct_twoNames : ∀ i j, i ≠ j →
    fileOf plainWorld twoNames i ≠ fileOf plainWorld twoNames j := by
  decide

/-- Two receivers of different files may overlap. -/
theorem ownBytes_twoNames : ∃ s, (system plainWorld (fun _ => none) twoNames).run
      (system plainWorld (fun _ => none) twoNames).init overlapping = some s ∧ OwnBytes s := by
  obtain ⟨s, hs⟩ : ∃ s, (system plainWorld (fun _ => none) twoNames).run
      (system plainWorld (fun _ => none) twoNames).init overlapping = some s :=
    Option.isSome_iff_exists.mp (by decide +kernel)
  refine ⟨s, hs, ownBytes_of_undisturbed plainWorld (fun _ => none) twoNames ?_ hs⟩
  exact System.meets_of_forall_mem fun l _ s =>
    undisturbed_of_files_distinct files_distinct_twoNames s l

/-- Two reports under one name. -/
def oneName : Bool → Connection
  | false => byteReport "a.xml" 1
  | true => byteReport "a.xml" 2

/-- When two reports of the same name arrive together, the row of the first is
made from the bytes of the second. -/
theorem exists_not_ownBytes :
    ∃ s, (system plainWorld (fun _ => none) oneName).Reachable Set.univ s ∧ ¬ OwnBytes s := by
  have hrun : ((system plainWorld (fun _ => none) oneName).run
      (system plainWorld (fun _ => none) oneName).init overlapping).map
        (fun s => (s.details.map fun detail => (detail.receiver, detail.source),
          (s.body false).file)) = some ([(false, [2])], [1]) := by
    decide +kernel
  obtain ⟨s, hs, hfields⟩ := Option.map_eq_some_iff.mp hrun
  obtain ⟨hdetails, hbody⟩ := Prod.mk.inj hfields
  refine ⟨s, ⟨overlapping, fun _ _ => Set.mem_univ _, hs⟩, fun hown => ?_⟩
  -- the only detail row
  obtain ⟨detail, hdetail, hpair⟩ : ∃ detail ∈ s.details,
      (detail.receiver, detail.source) = (false, [2]) := by
    rw [← List.mem_map, hdetails]
    exact List.mem_singleton_self _
  obtain ⟨hreceiver, hsource⟩ := Prod.mk.inj hpair
  have hbytes := hown detail hdetail
  rw [hreceiver, hsource, hbody] at hbytes
  exact absurd hbytes (by decide)

end SMEWindow.Server.ReceivedFiles
