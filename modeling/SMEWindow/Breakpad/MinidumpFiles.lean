import SMEWindow.Breakpad.MinidumpPath
import SMEWindow.Lib.Alternation
import SMEWindow.Lib.Transition

/-!
# The minidumps of a process

An `ExceptionHandler` has the path of its next minidump ready before anything fails.
`UpdateNextID` replaces it, in `set_dump_path`, and in `WriteMinidumpForException` after
the dump was written; a dump that an exception, an invalid parameter or a pure call asks
for leaves it as it is. The file must not exist when the dump is written, and the callback
is told the directory, the id, and whether there was success.

All handlers of a process are interleaved: the thread of a handler writes one dump after the
other, but `UpdateNextID` is called outside of its critical section, and so it may come
between the file of a dump and the callback, which reads path and id once more.

What the handlers are for is seen without paths and ids: a handler has one place for a
dump, which a new id empties, and which is filled by the first failure after that.

## Main definitions

* `MinidumpFiles.system` — the handlers of a process and the files they leave
* `MinidumpFiles.outcomes` — what callbacks are told, without paths and ids

## Main results

* `stored_of_succeeded` — a callback that is told of success finds the dump of its failure
  for good, under a path that no other such callback is told, if no id changes in between
* `reports_eq_outcomes` — callbacks are told of success for the first file since the last
  new id, and of nothing but failures until the next one
* `succeeded_iff_spaced` — no dump is lost exactly if new ids come between the dumps
-/

set_option autoImplicit false

namespace SMEWindow.Breakpad

open Lib.Transition

namespace MinidumpFiles

/-- What `WriteMinidumpWithExceptionForProcess` returned for a failure. -/
structure Written (φ : Type) where
  failure : φ
  success : Bool
  deriving DecidableEq, Repr

/-- What an `ExceptionHandler` in its own process knows about its dumps. -/
structure ExceptionHandler (φ : Type) where
  dump_path_ : List Char
  next_minidump_id_ : List Char
  next_minidump_path_ : List Char
  /-- `MiniDumpWriteDump` was found. -/
  minidump_write_dump_ : Bool
  /-- The thread of the handler is between a file and the callback. -/
  written : Option (Written φ)

/-- A file that a dump was written to. -/
structure Minidump (φ : Type) where
  failure : φ
  /-- `MiniDumpWriteDump` returned `TRUE`. -/
  whole : Bool
  deriving DecidableEq, Repr

/-- A failure, and what is said to writing its dump. -/
structure Attempt (φ : Type) where
  failure : φ
  /-- The filter lets it through, or there is none. -/
  accepted : Bool
  /-- `CreateFile` has no other reason to fail than a file that exists. -/
  creates : Bool
  /-- What `MiniDumpWriteDump` returns. -/
  writes : Bool
  deriving DecidableEq, Repr

/-- A call of the callback. -/
structure Report (ι φ : Type) where
  handler : ι
  failure : φ
  dump_path : List Char
  minidump_id : List Char
  succeeded : Bool
  deriving DecidableEq, Repr

structure Process (ι φ : Type) where
  handler : ι → Option (ExceptionHandler φ)
  files : List Char → Option (Minidump φ)
  /-- The calls of callbacks, the latest first. -/
  reports : List (Report ι φ)

inductive Label (ι φ : Type)
  /-- A handler is constructed. -/
  | construct (i : ι) (dump_path : List Char) (minidump_write_dump : Bool) (uuid : GUID)
  | setDumpPath (i : ι) (dump_path : List Char) (uuid : GUID)
  /-- `WriteMinidumpWithException` up to the callback, on the thread of a handler. The filter
  reads neither path nor id, so it is as late as the file. -/
  | dump (i : ι) (attempt : Attempt φ)
  /-- `callback_` in `WriteMinidumpWithException`. -/
  | callback (i : ι)
  /-- The end of `WriteMinidumpForException`. -/
  | updateNextID (i : ι) (uuid : GUID)
  | destroy (i : ι)

variable {ι φ : Type}

/-- `UpdateNextID`, with the id that `UuidCreate` gave. -/
def ExceptionHandler.updateNextID (h : ExceptionHandler φ) (uuid : GUID) : ExceptionHandler φ :=
  { h with
    next_minidump_id_ := guidToWString uuid
    next_minidump_path_ := nextMinidumpPath h.dump_path_ uuid }

def ExceptionHandler.set_dump_path (h : ExceptionHandler φ) (dump_path : List Char)
    (uuid : GUID) : ExceptionHandler φ :=
  { h with dump_path_ := dump_path }.updateNextID uuid

/-- `WriteMinidumpWithExceptionForProcess`, as far as files go: `CreateFile` fails without a
path, and, with `CREATE_NEW`, if the file exists. -/
def writeMinidumpWithExceptionForProcess (h : ExceptionHandler φ)
    (files : List Char → Option (Minidump φ)) (attempt : Attempt φ) :
    Bool × (List Char → Option (Minidump φ)) :=
  if h.minidump_write_dump_ ∧ attempt.creates ∧ h.next_minidump_path_ ≠ [] ∧
      files h.next_minidump_path_ = none then
    (attempt.writes,
      Function.update files h.next_minidump_path_ (some ⟨attempt.failure, attempt.writes⟩))
  else (false, files)

section Step

variable [DecidableEq ι]

/-- The process with another handler in the place of one. -/
def Process.setHandler (p : Process ι φ) (i : ι) (h : Option (ExceptionHandler φ)) : Process ι φ :=
  { p with handler := Function.update p.handler i h }

theorem Process.setHandler_handler_self (p : Process ι φ) (i : ι)
    (o : Option (ExceptionHandler φ)) : (p.setHandler i o).handler i = o :=
  Function.update_self ..

theorem Process.setHandler_handler_of_ne (p : Process ι φ) {i j : ι} (hne : j ≠ i)
    (o : Option (ExceptionHandler φ)) : (p.setHandler i o).handler j = p.handler j :=
  Function.update_of_ne hne ..

/-- What `WriteMinidumpWithException` does up to the callback. -/
def writeMinidumpWithException (p : Process ι φ) (i : ι) (h : ExceptionHandler φ)
    (attempt : Attempt φ) : Process ι φ :=
  if attempt.accepted then
    { p with files := (writeMinidumpWithExceptionForProcess h p.files attempt).2 }.setHandler i
      (some { h with written := some ⟨attempt.failure,
        (writeMinidumpWithExceptionForProcess h p.files attempt).1⟩ })
  else p

/-- The callback is called, with the path and the id as they are now. -/
def report (p : Process ι φ) (i : ι) (h : ExceptionHandler φ) (w : Written φ) : Process ι φ :=
  { p with reports := ⟨i, w.failure, h.dump_path_, h.next_minidump_id_, w.success⟩ :: p.reports
    }.setHandler i (some { h with written := none })

def step (p : Process ι φ) : Label ι φ → Option (Process ι φ)
  | .construct i dump_path minidump_write_dump uuid =>
    match p.handler i with
    | none => some (p.setHandler i (some
        (ExceptionHandler.set_dump_path ⟨[], [], [], minidump_write_dump, none⟩ dump_path uuid)))
    | some _ => none
  | .setDumpPath i dump_path uuid =>
    (p.handler i).map fun h => p.setHandler i (some (h.set_dump_path dump_path uuid))
  | .dump i attempt => (p.handler i).bind fun h =>
    match h.written with
    | none => some (writeMinidumpWithException p i h attempt)
    | some _ => none
  | .callback i => (p.handler i).bind fun h => h.written.map (report p i h)
  | .updateNextID i uuid =>
    (p.handler i).map fun h => p.setHandler i (some (h.updateNextID uuid))
  | .destroy i => (p.handler i).map fun _ => p.setHandler i none

/-- A process before its first handler, with the files that are there already. -/
def start (files : List Char → Option (Minidump φ)) : Process ι φ := ⟨fun _ => none, files, []⟩

def system (files : List Char → Option (Minidump φ)) :
    System (Process ι φ) (Label ι φ) where
  init := start files
  step := step

end Step

/-! ### Success -/

/-- The path that a callback finds its dump under. -/
def Report.path (r : Report ι φ) : List Char := minidumpPath r.dump_path r.minidump_id

/-- No dump of the handler is between its file and the callback. -/
def Process.Idle (p : Process ι φ) (i : ι) : Prop := ∀ h, p.handler i = some h → h.written = none

/-- No id or path of a handler changes between the file of a dump and the callback. -/
def Calm (p : Process ι φ) : Label ι φ → Prop
  | .setDumpPath i _ _ | .updateNextID i _ => p.Idle i
  | .construct _ _ _ _ | .dump _ _ | .callback _ | .destroy _ => True

/-- The handler has written a file that it has not told anybody about. -/
def ExceptionHandler.Keeps (h : ExceptionHandler φ) (failure : φ) : Prop :=
  h.written = some ⟨failure, true⟩

/-- Every callback that was told of success was told about a file of its own, which holds
the dump of its failure; and so has every handler that is about to tell. -/
structure Process.Stored (p : Process ι φ) : Prop where
  path : ∀ i h, p.handler i = some h →
    h.next_minidump_path_ = minidumpPath h.dump_path_ h.next_minidump_id_
  stored : ∀ r ∈ p.reports, r.succeeded = true → p.files r.path = some ⟨r.failure, true⟩
  apart : p.reports.Pairwise fun r r' =>
    r.succeeded = true → r'.succeeded = true → r.path ≠ r'.path
  kept : ∀ i h failure, p.handler i = some h → h.Keeps failure →
    p.files h.next_minidump_path_ = some ⟨failure, true⟩ ∧
      ∀ r ∈ p.reports, r.succeeded = true → h.next_minidump_path_ ≠ r.path
  keptApart : ∀ i j h h' failure failure', p.handler i = some h → p.handler j = some h' →
    h.Keeps failure → h'.Keeps failure' → i ≠ j → h.next_minidump_path_ ≠ h'.next_minidump_path_

section Stored

variable {p q : Process ι φ} {i : ι} {h : ExceptionHandler φ} {w : Written φ}
  {files : List Char → Option (Minidump φ)} {attempt : Attempt φ}

theorem path_updateNextID (h : ExceptionHandler φ) (uuid : GUID) :
    (h.updateNextID uuid).next_minidump_path_ =
      minidumpPath (h.updateNextID uuid).dump_path_ (h.updateNextID uuid).next_minidump_id_ := rfl

/-- A file that exists stays as it is. -/
theorem files_writeMinidump {path : List Char} {minidump : Minidump φ}
    (hfile : files path = some minidump) :
    (writeMinidumpWithExceptionForProcess h files attempt).2 path = some minidump := by
  rw [writeMinidumpWithExceptionForProcess]
  split_ifs with hnew
  · refine (Function.update_of_ne ?_ ..).trans hfile
    rintro rfl
    rw [hfile] at hnew
    cases hnew.2.2.2
  · exact hfile

theorem writeMinidump_of_succeeded
    (hsucceeded : (writeMinidumpWithExceptionForProcess h files attempt).1 = true) :
    files h.next_minidump_path_ = none ∧
      (writeMinidumpWithExceptionForProcess h files attempt).2 h.next_minidump_path_ =
        some ⟨attempt.failure, true⟩ := by
  rw [writeMinidumpWithExceptionForProcess] at hsucceeded ⊢
  split_ifs at hsucceeded ⊢ with hnew
  refine ⟨hnew.2.2.2, (Function.update_self ..).trans ?_⟩
  rw [show attempt.writes = true from hsucceeded]

variable [DecidableEq ι]

/-- A handler is replaced by one that keeps no file. -/
theorem Process.Stored.setHandler (hp : p.Stored) {o : Option (ExceptionHandler φ)}
    (ho : ∀ h, o = some h → h.written = none ∧
      h.next_minidump_path_ = minidumpPath h.dump_path_ h.next_minidump_id_) :
    (p.setHandler i o).Stored := by
  -- whoever keeps a file was there before
  have hbefore : ∀ j h failure, (p.setHandler i o).handler j = some h → h.Keeps failure →
      p.handler j = some h := by
    intro j h failure hj hkeeps
    rcases eq_or_ne j i with rfl | hne
    · rw [p.setHandler_handler_self] at hj
      rw [ExceptionHandler.Keeps, (ho h hj).1] at hkeeps
      cases hkeeps
    · rwa [p.setHandler_handler_of_ne hne] at hj
  refine ⟨fun j h hj => ?_, hp.stored, hp.apart, fun j h failure hj hkeeps => ?_,
    fun j k h h' failure failure' hj hk hkeeps hkeeps' => ?_⟩
  · rcases eq_or_ne j i with rfl | hne
    · exact (ho h (by rwa [p.setHandler_handler_self] at hj)).2
    · exact hp.path j h (by rwa [p.setHandler_handler_of_ne hne] at hj)
  · exact hp.kept j h failure (hbefore j h failure hj hkeeps) hkeeps
  · exact hp.keptApart j k h h' failure failure' (hbefore j h failure hj hkeeps)
      (hbefore k h' failure' hk hkeeps') hkeeps hkeeps'

theorem Process.Stored.dump (hp : p.Stored) (hh : p.handler i = some h) :
    (writeMinidumpWithException p i h attempt).Stored := by
  rw [writeMinidumpWithException]
  split_ifs with haccepted
  swap
  · exact hp
  -- whoever keeps a file now has written it just now, or was there before
  have hkeeps : ∀ j k failure, (Process.setHandler { p with
        files := (writeMinidumpWithExceptionForProcess h p.files attempt).2 } i
      (some { h with written := some ⟨attempt.failure,
        (writeMinidumpWithExceptionForProcess h p.files attempt).1⟩ })).handler j = some k →
      k.Keeps failure →
      (j = i ∧ k.next_minidump_path_ = h.next_minidump_path_ ∧
        p.files h.next_minidump_path_ = none ∧
        (writeMinidumpWithExceptionForProcess h p.files attempt).2 h.next_minidump_path_ =
          some ⟨failure, true⟩) ∨ p.handler j = some k := by
    intro j k failure hj hkeeps
    rcases eq_or_ne j i with rfl | hne
    · rw [Process.setHandler_handler_self] at hj
      obtain rfl := Option.some.inj hj
      obtain ⟨hfailure, hsuccess⟩ := Written.mk.inj (Option.some.inj hkeeps)
      obtain ⟨hnone, hsome⟩ := writeMinidump_of_succeeded hsuccess
      exact .inl ⟨rfl, rfl, hnone, hfailure ▸ hsome⟩
    · exact .inr (by rwa [Process.setHandler_handler_of_ne _ hne] at hj)
  refine ⟨fun j k hj => ?_, fun r hr hsucceeded => files_writeMinidump (hp.stored r hr hsucceeded),
    hp.apart, fun j k failure hj hk => ?_, fun j l k k' failure failure' hj hl hk hk' hne => ?_⟩
  · rcases eq_or_ne j i with rfl | hne
    · rw [Process.setHandler_handler_self] at hj
      obtain rfl := Option.some.inj hj
      exact hp.path j h hh
    · exact hp.path j k (by rwa [Process.setHandler_handler_of_ne _ hne] at hj)
  · rcases hkeeps j k failure hj hk with ⟨-, hpath, hnone, hsome⟩ | hbefore
    · rw [hpath]
      refine ⟨hsome, fun r hr hsucceeded heq => ?_⟩
      -- an earlier dump is in its file, which is in the way of this one
      rw [heq, hp.stored r hr hsucceeded] at hnone
      cases hnone
    · obtain ⟨hfile, hreports⟩ := hp.kept j k failure hbefore hk
      exact ⟨files_writeMinidump hfile, hreports⟩
  · intro heq
    rcases hkeeps j k failure hj hk with ⟨rfl, hpath, hnone, -⟩ | hbefore
    · rcases hkeeps l k' failure' hl hk' with ⟨rfl, -⟩ | hbefore'
      · exact hne rfl
      · rw [← hpath, heq, (hp.kept l k' failure' hbefore' hk').1] at hnone
        cases hnone
    · rcases hkeeps l k' failure' hl hk' with ⟨rfl, hpath, hnone, -⟩ | hbefore'
      · rw [← hpath, ← heq, (hp.kept j k failure hbefore hk).1] at hnone
        cases hnone
      · exact hp.keptApart j l k k' failure failure' hbefore hbefore' hk hk' hne heq

omit [DecidableEq ι] in
/-- One more callback. -/
theorem Process.Stored.tell (hp : p.Stored) {r : Report ι φ}
    (hr : r.succeeded = true → p.files r.path = some ⟨r.failure, true⟩ ∧
      (∀ r' ∈ p.reports, r'.succeeded = true → r.path ≠ r'.path) ∧
      ∀ j h failure, p.handler j = some h → h.Keeps failure → h.next_minidump_path_ ≠ r.path) :
    Process.Stored { p with reports := r :: p.reports } := by
  refine ⟨hp.path, fun r' hr' hsucceeded => ?_, List.pairwise_cons.mpr
    ⟨fun r' hr' hsucceeded => (hr hsucceeded).2.1 r' hr', hp.apart⟩,
    fun j h failure hj hkeeps => ?_, hp.keptApart⟩
  · rcases List.mem_cons.mp hr' with rfl | hr'
    · exact (hr hsucceeded).1
    · exact hp.stored r' hr' hsucceeded
  · obtain ⟨hfile, hreports⟩ := hp.kept j h failure hj hkeeps
    refine ⟨hfile, fun r' hr' hsucceeded => ?_⟩
    rcases List.mem_cons.mp hr' with rfl | hr'
    · exact (hr hsucceeded).2.2 j h failure hj hkeeps
    · exact hreports r' hr' hsucceeded

theorem Process.Stored.report (hp : p.Stored) (hh : p.handler i = some h)
    (hw : h.written = some w) : (MinidumpFiles.report p i h w).Stored := by
  have hpath := hp.path i h hh
  have hquiet : (p.setHandler i (some { h with written := none })).Stored := by
    refine hp.setHandler fun k hk => ?_
    obtain rfl := Option.some.inj hk
    exact ⟨rfl, hpath⟩
  refine hquiet.tell fun hsuccess => ?_
  have hkeeps : h.Keeps w.failure := by
    rw [ExceptionHandler.Keeps, hw, ← hsuccess]
  obtain ⟨hfile, hreports⟩ := hp.kept i h w.failure hh hkeeps
  rw [Report.path, ← hpath]
  refine ⟨hfile, hreports, fun j k failure hj hk => ?_⟩
  rcases eq_or_ne j i with rfl | hne
  · rw [p.setHandler_handler_self] at hj
    obtain rfl := Option.some.inj hj
    cases hk
  · rw [p.setHandler_handler_of_ne hne] at hj
    exact hp.keptApart j i k h failure w.failure hj hh hk hkeeps hne

/-- A new id for a handler that keeps no file. -/
theorem Process.Stored.renew (hp : p.Stored) (i : ι) {h : ExceptionHandler φ}
    (hidle : h.written = none) (uuid : GUID) :
    (p.setHandler i (some (h.updateNextID uuid))).Stored := by
  refine hp.setHandler fun k hk => ?_
  obtain rfl := Option.some.inj hk
  exact ⟨hidle, path_updateNextID h uuid⟩

theorem Process.Stored.step {l : Label ι φ} (hp : p.Stored) (hcalm : Calm p l)
    (hstep : MinidumpFiles.step p l = some q) : q.Stored := by
  cases l with
  | construct i dump_path minidump_write_dump uuid =>
    simp only [MinidumpFiles.step] at hstep
    split at hstep
    · obtain rfl := Option.some.inj hstep
      exact hp.renew i rfl uuid
    · cases hstep
  | setDumpPath i dump_path uuid =>
    obtain ⟨h, hh, rfl⟩ := Option.map_eq_some_iff.mp hstep
    have hidle : { h with dump_path_ := dump_path }.written = none := hcalm h hh
    exact hp.renew i hidle uuid
  | dump i attempt =>
    obtain ⟨h, hh, hwrite⟩ := Option.bind_eq_some_iff.mp hstep
    split at hwrite
    · obtain rfl := Option.some.inj hwrite
      exact hp.dump hh
    · cases hwrite
  | callback i =>
    obtain ⟨h, hh, hreport⟩ := Option.bind_eq_some_iff.mp hstep
    obtain ⟨w, hw, rfl⟩ := Option.map_eq_some_iff.mp hreport
    exact hp.report hh hw
  | updateNextID i uuid =>
    obtain ⟨h, hh, rfl⟩ := Option.map_eq_some_iff.mp hstep
    exact hp.renew i (hcalm h hh) uuid
  | destroy i =>
    obtain ⟨h, -, rfl⟩ := Option.map_eq_some_iff.mp hstep
    exact hp.setHandler fun h' hh' => nomatch hh'

end Stored

/-! ### One place for a dump -/

/-- The place a handler has for a dump. -/
structure Slot (φ : Type) where
  minidump_write_dump_ : Bool
  /-- The first failure since the last new id, if a file was created for it. -/
  first : Option (Minidump φ)
  /-- What the next callback is told. -/
  written : Option (Written φ)

/-- What a callback is told, without the path. -/
structure Outcome (ι φ : Type) where
  handler : ι
  failure : φ
  succeeded : Bool
  deriving DecidableEq, Repr

def Report.outcome (r : Report ι φ) : Outcome ι φ := ⟨r.handler, r.failure, r.succeeded⟩

/-- A failure is the first. -/
def Slot.takes (slot : Slot φ) (attempt : Attempt φ) : Bool :=
  slot.minidump_write_dump_ && attempt.creates && slot.first.isNone

def Slot.fill (slot : Slot φ) (attempt : Attempt φ) : Slot φ :=
  if attempt.accepted then
    { slot with
      first := if slot.takes attempt then some ⟨attempt.failure, attempt.writes⟩ else slot.first
      written := some ⟨attempt.failure, slot.takes attempt && attempt.writes⟩ }
  else slot

theorem Slot.fill_minidump_write_dump_ (slot : Slot φ) (attempt : Attempt φ) :
    (slot.fill attempt).minidump_write_dump_ = slot.minidump_write_dump_ := by
  rw [Slot.fill]
  cases attempt.accepted <;> rfl

variable [DecidableEq ι]

def slotStep (slots : ι → Option (Slot φ)) : Label ι φ → ι → Option (Slot φ)
  | .construct i _ minidump_write_dump _ =>
    Function.update slots i (some ⟨minidump_write_dump, none, none⟩)
  | .setDumpPath i _ _ | .updateNextID i _ =>
    Function.update slots i ((slots i).map fun slot => { slot with first := none })
  | .dump i attempt => Function.update slots i ((slots i).map (·.fill attempt))
  | .callback i =>
    Function.update slots i ((slots i).map fun slot => { slot with written := none })
  | .destroy i => Function.update slots i none

omit [DecidableEq ι] in
def outcome (slots : ι → Option (Slot φ)) : Label ι φ → List (Outcome ι φ)
  | .callback i =>
    ((slots i).bind Slot.written).toList.map fun w => ⟨i, w.failure, w.success⟩
  | _ => []

/-- What the callbacks of a run are told, the first first. -/
def outcomes : (ι → Option (Slot φ)) → List (Label ι φ) → List (Outcome ι φ)
  | _, [] => []
  | slots, l :: ls => outcome slots l ++ outcomes (slotStep slots l) ls

omit [DecidableEq ι] in
/-- The place of a handler: the file under the path of the next minidump. -/
def slot (files : List Char → Option (Minidump φ)) (h : ExceptionHandler φ) : Slot φ :=
  ⟨h.minidump_write_dump_, files h.next_minidump_path_, h.written⟩

omit [DecidableEq ι] in
/-- The places of all handlers. -/
def Process.slots (p : Process ι φ) (i : ι) : Option (Slot φ) := (p.handler i).map (slot p.files)

/-- The id that an action takes from `UuidCreate`. -/
def Label.uuid : Label ι φ → Option GUID
  | .construct _ _ _ uuid | .setDumpPath _ _ uuid | .updateNextID _ uuid => some uuid
  | .dump _ _ | .callback _ | .destroy _ => none

/-- Paths under a new dump path fit. -/
def Label.Fits : Label ι φ → Prop
  | .construct _ dump_path _ _ | .setDumpPath _ dump_path _ => Breakpad.Fits dump_path
  | .dump _ _ | .callback _ | .updateNextID _ _ | .destroy _ => True

/-- No file is named after the id. -/
def Unused (files : List Char → Option (Minidump φ)) (uuid : GUID) : Prop :=
  ∀ dump_path, Fits dump_path → files (nextMinidumpPath dump_path uuid) = none

/-- The handlers have paths of their own, and the rest of the run has new ones for them. -/
structure Process.Ready (p : Process ι φ) (ls : List (Label ι φ)) : Prop where
  fits : ∀ l ∈ ls, l.Fits
  nodup : (ls.filterMap Label.uuid).Nodup
  unused : ∀ uuid ∈ ls.filterMap Label.uuid, Unused p.files uuid
  handler_fits : ∀ i h, p.handler i = some h → Breakpad.Fits h.dump_path_
  /-- The path of the next minidump was made of an id that does not come back. -/
  handler_uuid : ∀ i h, p.handler i = some h → ∃ uuid ∉ ls.filterMap Label.uuid,
    ∃ dump_path, Breakpad.Fits dump_path ∧ h.next_minidump_path_ = nextMinidumpPath dump_path uuid
  apart : ∀ i j h h', p.handler i = some h → p.handler j = some h' → i ≠ j →
    h.next_minidump_path_ ≠ h'.next_minidump_path_

section Ready

variable {p q : Process ι φ} {i : ι} {h h' : ExceptionHandler φ} {uuid : GUID} {l : Label ι φ}
  {ls : List (Label ι φ)} {attempt : Attempt φ} {w : Written φ}

/-- A handler gets a new id. -/
theorem Process.Ready.renew (hp : p.Ready (l :: ls)) (hl : l.uuid = some uuid)
    (hfits : Breakpad.Fits h.dump_path_) :
    (p.setHandler i (some (h.updateNextID uuid))).Ready ls := by
  have hids : (l :: ls).filterMap Label.uuid = uuid :: ls.filterMap Label.uuid :=
    List.filterMap_cons_some hl
  obtain ⟨hnot, hnodup⟩ := List.nodup_cons.mp (hids ▸ hp.nodup)
  -- no other handler has this path
  have hother : ∀ j h', p.handler j = some h' →
      h'.next_minidump_path_ ≠ nextMinidumpPath h.dump_path_ uuid := by
    intro j h' hj heq
    obtain ⟨uuid', hnot', dump_path', hfits', hpath⟩ := hp.handler_uuid j h' hj
    rw [hpath] at heq
    rw [eq_of_nextMinidumpPath_eq hfits' hfits heq, hids] at hnot'
    exact hnot' List.mem_cons_self
  refine ⟨fun k hk => hp.fits k (List.mem_cons_of_mem l hk), hnodup,
    fun uuid' h' => hp.unused uuid' (hids ▸ List.mem_cons_of_mem uuid h'), ?_, ?_, ?_⟩
  · intro j h' hj
    rcases eq_or_ne j i with rfl | hne
    · rw [p.setHandler_handler_self] at hj
      obtain rfl := Option.some.inj hj
      exact hfits
    · exact hp.handler_fits j h' (by rwa [p.setHandler_handler_of_ne hne] at hj)
  · intro j h' hj
    rcases eq_or_ne j i with rfl | hne
    · rw [p.setHandler_handler_self] at hj
      obtain rfl := Option.some.inj hj
      exact ⟨uuid, hnot, h.dump_path_, hfits, rfl⟩
    · obtain ⟨uuid', hnot', hpath⟩ :=
        hp.handler_uuid j h' (by rwa [p.setHandler_handler_of_ne hne] at hj)
      exact ⟨uuid', fun hmem => hnot' (hids ▸ List.mem_cons_of_mem uuid hmem), hpath⟩
  · intro j k h' h'' hj hk hjk
    rcases eq_or_ne j i with rfl | hne
    · rw [p.setHandler_handler_self] at hj
      obtain rfl := Option.some.inj hj
      exact (hother k h'' (by rwa [p.setHandler_handler_of_ne hjk.symm] at hk)).symm
    · rw [p.setHandler_handler_of_ne hne] at hj
      rcases eq_or_ne k i with rfl | hne'
      · rw [p.setHandler_handler_self] at hk
        obtain rfl := Option.some.inj hk
        exact hother j h' hj
      · exact hp.apart j k h' h'' hj (by rwa [p.setHandler_handler_of_ne hne'] at hk) hjk

omit [DecidableEq ι] in
/-- An action without a new id. -/
theorem Process.Ready.tail (hp : p.Ready (l :: ls)) (hl : l.uuid = none) : p.Ready ls := by
  have hids : (l :: ls).filterMap Label.uuid = ls.filterMap Label.uuid :=
    List.filterMap_cons_none hl
  exact ⟨fun k hk => hp.fits k (List.mem_cons_of_mem l hk), hids ▸ hp.nodup, hids ▸ hp.unused,
    hp.handler_fits, hids ▸ hp.handler_uuid, hp.apart⟩

theorem Process.Ready.destroy (hp : p.Ready ls) : (p.setHandler i none).Ready ls := by
  -- a handler that is left was there before
  have hbefore : ∀ j h, (p.setHandler i none).handler j = some h → p.handler j = some h := by
    intro j h hj
    rcases eq_or_ne j i with rfl | hne
    · rw [p.setHandler_handler_self] at hj
      cases hj
    · rwa [p.setHandler_handler_of_ne hne] at hj
  exact ⟨hp.fits, hp.nodup, hp.unused, fun j h hj => hp.handler_fits j h (hbefore j h hj),
    fun j h hj => hp.handler_uuid j h (hbefore j h hj),
    fun j k h h' hj hk => hp.apart j k h h' (hbefore j h hj) (hbefore k h' hk)⟩

/-- A handler at another point of its dump. -/
theorem Process.Ready.keep (hp : p.Ready ls) (hh : p.handler i = some h)
    (hdump_path : h'.dump_path_ = h.dump_path_)
    (hpath : h'.next_minidump_path_ = h.next_minidump_path_) :
    (p.setHandler i (some h')).Ready ls := by
  -- every handler was there before, with the same paths
  have hbefore : ∀ j k, (p.setHandler i (some h')).handler j = some k → ∃ k₀,
      p.handler j = some k₀ ∧ k.dump_path_ = k₀.dump_path_ ∧
        k.next_minidump_path_ = k₀.next_minidump_path_ := by
    intro j k hj
    rcases eq_or_ne j i with rfl | hne
    · rw [p.setHandler_handler_self] at hj
      obtain rfl := Option.some.inj hj
      exact ⟨h, hh, hdump_path, hpath⟩
    · exact ⟨k, by rwa [p.setHandler_handler_of_ne hne] at hj, rfl, rfl⟩
  refine ⟨hp.fits, hp.nodup, hp.unused, fun j k hj => ?_, fun j k hj => ?_,
    fun j l k k' hj hl hne => ?_⟩
  · obtain ⟨k₀, hj₀, hdump_path₀, -⟩ := hbefore j k hj
    rw [hdump_path₀]
    exact hp.handler_fits j k₀ hj₀
  · obtain ⟨k₀, hj₀, -, hpath₀⟩ := hbefore j k hj
    rw [hpath₀]
    exact hp.handler_uuid j k₀ hj₀
  · obtain ⟨k₀, hj₀, -, hpath₀⟩ := hbefore j k hj
    obtain ⟨l₀, hl₀, -, hpath₁⟩ := hbefore l k' hl
    rw [hpath₀, hpath₁]
    exact hp.apart j l k₀ l₀ hj₀ hl₀ hne

omit [DecidableEq ι] in
/-- One more file, under the path of a handler. -/
theorem Process.Ready.write (hp : p.Ready ls) (hh : p.handler i = some h)
    {files : List Char → Option (Minidump φ)}
    (hfiles : ∀ path, path ≠ h.next_minidump_path_ → files path = p.files path) :
    Process.Ready { p with files := files } ls := by
  refine ⟨hp.fits, hp.nodup, fun uuid huuid dump_path hfits => ?_, hp.handler_fits,
    hp.handler_uuid, hp.apart⟩
  refine (hfiles _ fun heq => ?_).trans (hp.unused uuid huuid dump_path hfits)
  obtain ⟨uuid', hnot, dump_path', hfits', hpath⟩ := hp.handler_uuid i h hh
  rw [hpath] at heq
  exact hnot (eq_of_nextMinidumpPath_eq hfits hfits' heq ▸ huuid)

theorem slots_setHandler (o : Option (ExceptionHandler φ)) :
    (p.setHandler i o).slots = Function.update p.slots i (o.map (slot p.files)) := by
  funext j
  rcases eq_or_ne j i with rfl | hne
  · rw [Process.slots, p.setHandler_handler_self, Function.update_self]
    rfl
  · rw [Process.slots, p.setHandler_handler_of_ne hne, Function.update_of_ne hne]
    rfl

theorem slots_renew (hunused : Unused p.files uuid) (hfits : Fits h.dump_path_) :
    (p.setHandler i (some (h.updateNextID uuid))).slots =
      Function.update p.slots i (some ⟨h.minidump_write_dump_, none, h.written⟩) := by
  rw [slots_setHandler]
  exact congrArg (fun first => Function.update p.slots i
    (some (Slot.mk h.minidump_write_dump_ first h.written))) (hunused h.dump_path_ hfits)

omit [DecidableEq ι] in
/-- The files that a dump leaves. -/
theorem files_dump_of_ne {path : List Char} (hne : path ≠ h.next_minidump_path_) :
    (writeMinidumpWithExceptionForProcess h p.files attempt).2 path = p.files path := by
  simp only [writeMinidumpWithExceptionForProcess]
  split_ifs
  · exact Function.update_of_ne hne ..
  · rfl

theorem Process.Ready.dump (hp : p.Ready ls) (hh : p.handler i = some h) :
    (writeMinidumpWithException p i h attempt).Ready ls := by
  rw [writeMinidumpWithException]
  split_ifs
  · have hwritten : Process.Ready { p with
        files := (writeMinidumpWithExceptionForProcess h p.files attempt).2 } ls :=
      hp.write hh fun path hne => files_dump_of_ne hne
    exact hwritten.keep hh rfl rfl
  · exact hp

omit [DecidableEq ι] in
/-- The path of the next minidump fits, so it is not empty. -/
theorem Process.Ready.path_ne_nil (hp : p.Ready ls) (hh : p.handler i = some h) :
    h.next_minidump_path_ ≠ [] := by
  obtain ⟨uuid, -, dump_path, hfits, hpath⟩ := hp.handler_uuid i h hh
  rw [hpath]
  exact nextMinidumpPath_ne_nil hfits

omit [DecidableEq ι] in
/-- The slot of a handler says what becomes of its dump. -/
theorem writeMinidump_eq (hne : h.next_minidump_path_ ≠ []) :
    writeMinidumpWithExceptionForProcess h p.files attempt =
      if (slot p.files h).takes attempt then
        (attempt.writes, Function.update p.files h.next_minidump_path_
          (some ⟨attempt.failure, attempt.writes⟩))
      else (false, p.files) := by
  simp only [writeMinidumpWithExceptionForProcess, slot, Slot.takes, Bool.and_eq_true,
    Option.isNone_iff_eq_none, and_assoc, ne_eq, hne, not_false_eq_true, true_and]

omit [DecidableEq ι] in
/-- The slot of a handler after the file of its dump. -/
theorem slot_writeMinidump (hne : h.next_minidump_path_ ≠ [])
    (haccepted : attempt.accepted = true) :
    slot (writeMinidumpWithExceptionForProcess h p.files attempt).2 { h with
      written := some ⟨attempt.failure,
        (writeMinidumpWithExceptionForProcess h p.files attempt).1⟩ } =
      (slot p.files h).fill attempt := by
  rw [Slot.fill, if_pos haccepted, writeMinidump_eq hne]
  cases htakes : (slot p.files h).takes attempt with
  | true =>
    simp only [if_true, slot, Bool.true_and, Function.update_self]
  | false =>
    simp only [Bool.false_eq_true, if_false, slot, Bool.false_and]

theorem slots_dump (hp : p.Ready ls) (hh : p.handler i = some h) :
    (writeMinidumpWithException p i h attempt).slots =
      Function.update p.slots i ((p.slots i).map (·.fill attempt)) := by
  have hslot : p.slots i = some (slot p.files h) := congrArg (Option.map _) hh
  rw [hslot, Option.map_some, writeMinidumpWithException]
  cases haccepted : attempt.accepted with
  | false =>
    rw [if_neg Bool.false_ne_true, Slot.fill, haccepted, if_neg Bool.false_ne_true, ← hslot,
      Function.update_eq_self]
  | true =>
    rw [if_pos rfl, slots_setHandler, Option.map_some,
      slot_writeMinidump (hp.path_ne_nil hh) haccepted]
    -- the other handlers have paths of their own
    funext j
    rcases eq_or_ne j i with rfl | hne
    · rw [Function.update_self, Function.update_self]
    · rw [Function.update_of_ne hne, Function.update_of_ne hne, Process.slots, Process.slots]
      cases hj : p.handler j with
      | none => rfl
      | some k =>
        exact congrArg (fun first => some (Slot.mk k.minidump_write_dump_ first k.written))
          (files_dump_of_ne (hp.apart j i k h hj hh hne))

theorem reports_dump : (writeMinidumpWithException p i h attempt).reports =
    p.reports := by
  rw [writeMinidumpWithException]
  split_ifs <;> rfl

/-- What one action does to a process, seen without paths and ids. -/
theorem Process.Ready.step (hp : p.Ready (l :: ls)) (hstep : MinidumpFiles.step p l = some q) :
    q.Ready ls ∧ q.slots = slotStep p.slots l ∧
      q.reports.map Report.outcome = outcome p.slots l ++ p.reports.map Report.outcome := by
  have hunused : ∀ uuid, l.uuid = some uuid → Unused p.files uuid := fun uuid hl =>
    hp.unused uuid (List.filterMap_cons_some hl ▸ List.mem_cons_self)
  cases l with
  | construct i dump_path minidump_write_dump uuid =>
    have hfits : Fits dump_path := hp.fits _ List.mem_cons_self
    simp only [MinidumpFiles.step] at hstep
    split at hstep
    · obtain rfl := Option.some.inj hstep
      exact ⟨hp.renew rfl hfits, slots_renew (hunused uuid rfl) hfits, rfl⟩
    · cases hstep
  | setDumpPath i dump_path uuid =>
    obtain ⟨h, hh, rfl⟩ := Option.map_eq_some_iff.mp hstep
    have hfits : Fits dump_path := hp.fits _ List.mem_cons_self
    refine ⟨hp.renew rfl hfits, (slots_renew (hunused uuid rfl) hfits).trans ?_, rfl⟩
    rw [slotStep, Process.slots, hh]
    rfl
  | dump i attempt =>
    obtain ⟨h, hh, hwrite⟩ := Option.bind_eq_some_iff.mp hstep
    split at hwrite
    · obtain rfl := Option.some.inj hwrite
      exact ⟨(hp.tail rfl).dump hh, slots_dump hp hh, congrArg _ reports_dump⟩
    · cases hwrite
  | callback i =>
    obtain ⟨h, hh, hreport⟩ := Option.bind_eq_some_iff.mp hstep
    obtain ⟨w, hw, rfl⟩ := Option.map_eq_some_iff.mp hreport
    have hready : (p.setHandler i (some { h with written := none })).Ready ls :=
      (hp.tail rfl).keep hh rfl rfl
    have hslot : p.slots i = some (slot p.files h) := congrArg (Option.map _) hh
    refine ⟨⟨hready.fits, hready.nodup, hready.unused, hready.handler_fits, hready.handler_uuid,
      hready.apart⟩, ?_, ?_⟩
    · rw [slotStep, hslot]
      exact slots_setHandler _
    · rw [outcome, hslot, Option.bind_some, slot, hw]
      rfl
  | updateNextID i uuid =>
    obtain ⟨h, hh, rfl⟩ := Option.map_eq_some_iff.mp hstep
    have hfits := hp.handler_fits i h hh
    refine ⟨hp.renew rfl hfits, (slots_renew (hunused uuid rfl) hfits).trans ?_, rfl⟩
    rw [slotStep, Process.slots, hh]
    rfl
  | destroy i =>
    obtain ⟨h, -, rfl⟩ := Option.map_eq_some_iff.mp hstep
    exact ⟨(hp.tail rfl).destroy, slots_setHandler none, rfl⟩

omit [DecidableEq ι] in
/-- At most one callback is called in a step. -/
theorem reverse_outcome (slots : ι → Option (Slot φ)) (l : Label ι φ) :
    (outcome slots l).reverse = outcome slots l := by
  cases l with
  | callback i =>
    rw [outcome]
    cases (slots i).bind Slot.written <;> rfl
  | _ => rfl

theorem Process.Ready.run {files : List Char → Option (Minidump φ)} (hp : p.Ready ls)
    (hrun : (system files).run p ls = some q) :
    (q.reports.map Report.outcome).reverse =
      (p.reports.map Report.outcome).reverse ++ outcomes p.slots ls := by
  induction ls generalizing p with
  | nil =>
    obtain rfl := Option.some.inj hrun
    rw [outcomes, List.append_nil]
  | cons l ls ih =>
    obtain ⟨p', hstep, hrest⟩ := Option.bind_eq_some_iff.mp hrun
    obtain ⟨hready, hslots, hreports⟩ := hp.step hstep
    rw [ih hready hrest, hslots, hreports, List.reverse_append, reverse_outcome, outcomes,
      List.append_assoc]

/-- **A handler has a dump for the first failure after each new id.** In every run in which
`UuidCreate` gives new ids and the paths fit: callbacks are told of success exactly for a
failure whose file is the first that could be created since the last new id of its handler,
and was written whole. Every failure whose file is due after it, up to the next new id, is
reported as a failed dump. -/
theorem reports_eq_outcomes {files : List Char → Option (Minidump φ)}
    (hnodup : (ls.filterMap Label.uuid).Nodup)
    (hunused : ∀ uuid ∈ ls.filterMap Label.uuid, Unused files uuid) (hfits : ∀ l ∈ ls, l.Fits)
    (hrun : (system files).run (start files) ls = some p) :
    (p.reports.map Report.outcome).reverse = outcomes (fun _ => none) ls := by
  have hready : (start files : Process ι φ).Ready ls :=
    ⟨hfits, hnodup, hunused, fun _ _ h => (nomatch h), fun _ _ h => (nomatch h),
      fun _ _ _ _ h => (nomatch h)⟩
  exact hready.run hrun

/-- Two exceptions that come to one handler. -/
def twoExceptions : List (Label Unit ℕ) :=
  [.construct () ['C', ':'] true (lastDigit 0), .dump () ⟨1, true, true, true⟩, .callback (),
    .dump () ⟨2, true, true, true⟩, .callback ()]

theorem fits_twoExceptions : ∀ l ∈ twoExceptions, l.Fits := by
  refine List.forall_mem_cons.mpr ⟨(by decide : Breakpad.Fits ['C', ':']), ?_⟩
  simp [Label.Fits]

/-- The second exception has no dump. -/
theorem reports_eq_outcomes_two : ∃ p : Process Unit ℕ,
    (system fun _ => none).run (start fun _ => none) twoExceptions = some p ∧
      (p.reports.map Report.outcome).reverse = [⟨(), 1, true⟩, ⟨(), 2, false⟩] :=
  ⟨_, rfl, reports_eq_outcomes (by decide) (fun _ _ _ _ => rfl) fits_twoExceptions rfl⟩

/-! ### Lost dumps -/

/-- A file is due for a failure that a handler accepts. -/
def Label.asks (i : ι) : Label ι φ → Bool
  | .dump j attempt => decide (j = i) && attempt.accepted
  | _ => false

/-- A handler gets a new id, or goes away. -/
def Label.renews (i : ι) : Label ι φ → Bool
  | .construct j _ _ _ | .setDumpPath j _ _ | .updateNextID j _ | .destroy j => decide (j = i)
  | .dump _ _ | .callback _ => false

omit [DecidableEq ι] in
/-- Nothing fails but for files that exist. -/
def Label.Smooth : Label ι φ → Prop
  | .construct _ _ minidump_write_dump _ => minidump_write_dump = true
  | .dump _ attempt => attempt.creates = true ∧ attempt.writes = true
  | _ => True

omit [DecidableEq ι] in
/-- No handler is destroyed between a file and the callback. -/
def Answered (p : Process ι φ) : Label ι φ → Prop
  | .destroy i => p.Idle i
  | _ => True

omit [DecidableEq ι] in
/-- The place of a handler is taken. -/
def taken (slots : ι → Option (Slot φ)) (i : ι) : Bool := ((slots i).bind Slot.first).isSome

omit [DecidableEq ι] in
def SmoothSlots (slots : ι → Option (Slot φ)) : Prop :=
  ∀ i slot, slots i = some slot → slot.minidump_write_dump_ = true

omit [DecidableEq ι] in
/-- The next callback of a handler is told of success. -/
def Slot.Succeeds (o : Option (Slot φ)) : Prop :=
  ∀ w, o.bind Slot.written = some w → w.success = true

section Lost

open Lib.Alternation

variable {slots : ι → Option (Slot φ)} {slot : Slot φ}

omit [DecidableEq ι] in
theorem takes_eq (hslots : SmoothSlots slots) (hi : slots i = some slot)
    (hcreates : attempt.creates = true) : slot.takes attempt = !taken slots i := by
  rw [Slot.takes, hslots i slot hi, hcreates, taken, hi, Option.bind_some]
  cases slot.first <;> rfl

theorem taken_update_self (slots : ι → Option (Slot φ)) (i : ι) (o : Option (Slot φ)) :
    taken (Function.update slots i o) i = (o.bind Slot.first).isSome := by
  rw [taken, Function.update_self]

omit [DecidableEq ι] in
/-- A place is filled by whatever is accepted, if files can be created. -/
theorem isSome_first_fill (hslots : SmoothSlots slots) (hi : slots i = some slot)
    (hcreates : attempt.creates = true) :
    (slot.fill attempt).first.isSome = (taken slots i || attempt.accepted) := by
  have htakes := takes_eq hslots hi hcreates
  have htaken : taken slots i = slot.first.isSome := by rw [taken, hi, Option.bind_some]
  rw [Slot.fill, htakes, htaken]
  cases attempt.accepted <;> cases hfirst : slot.first <;> simp [hfirst]

/-- A place is taken by the first failure and given back by a new id. -/
theorem taken_slotStep (hslots : SmoothSlots slots) (hsmooth : l.Smooth)
    (hthere : ∀ j a, l = .dump j a → (slots j).isSome) (i : ι) :
    taken (slotStep slots l) i = after (Label.asks i) (Label.renews i) (taken slots i) l := by
  -- the places of other handlers stay as they are
  have hother : ∀ j o, j ≠ i → taken (Function.update slots j o) i = taken slots i :=
    fun j o hne => by rw [taken, taken, Function.update_of_ne hne.symm]
  cases l with
  | construct j dump_path minidump_write_dump uuid =>
    rcases eq_or_ne j i with rfl | hne
    · simp [slotStep, taken_update_self, after, Label.renews]
    · simp [slotStep, hother j _ hne, after, Label.renews, Label.asks, hne]
  | setDumpPath j dump_path uuid | updateNextID j uuid =>
    rcases eq_or_ne j i with rfl | hne
    · cases slots j <;> simp [slotStep, taken_update_self, after, Label.renews]
    · simp [slotStep, hother j _ hne, after, Label.renews, Label.asks, hne]
  | destroy j =>
    rcases eq_or_ne j i with rfl | hne
    · simp [slotStep, taken_update_self, after, Label.renews]
    · simp [slotStep, hother j _ hne, after, Label.renews, Label.asks, hne]
  | callback j =>
    rcases eq_or_ne j i with rfl | hne
    · cases hslot : slots j <;>
        simp [slotStep, after, Label.renews, Label.asks, taken, hslot]
    · simp [slotStep, hother j _ hne, after, Label.renews, Label.asks]
  | dump j attempt =>
    rcases eq_or_ne j i with rfl | hne
    · obtain ⟨slot, hslot⟩ := Option.isSome_iff_exists.mp (hthere j attempt rfl)
      rw [slotStep, taken_update_self, hslot, Option.map_some, Option.bind_some,
        isSome_first_fill hslots hslot hsmooth.1]
      simp [after, Label.renews, Label.asks]
    · simp [slotStep, hother j _ hne, after, Label.renews, Label.asks, hne]

theorem SmoothSlots.slotStep (hslots : SmoothSlots slots) (hsmooth : l.Smooth) :
    SmoothSlots (slotStep slots l) := by
  have hupdate : ∀ j o, (∀ slot, o = some slot → slot.minidump_write_dump_ = true) →
      SmoothSlots (Function.update slots j o) := by
    intro j o ho i slot hi
    rcases eq_or_ne i j with rfl | hne
    · exact ho slot (by rwa [Function.update_self] at hi)
    · exact hslots i slot (by rwa [Function.update_of_ne hne] at hi)
  cases l with
  | construct j dump_path minidump_write_dump uuid =>
    refine hupdate j _ fun slot hslot => ?_
    obtain rfl := Option.some.inj hslot
    exact hsmooth
  | setDumpPath j dump_path uuid | updateNextID j uuid | callback j =>
    refine hupdate j _ fun slot hslot => ?_
    obtain ⟨slot', hslot', rfl⟩ := Option.map_eq_some_iff.mp hslot
    exact hslots j slot' hslot'
  | destroy j => exact hupdate j none fun slot hslot => nomatch hslot
  | dump j attempt =>
    refine hupdate j _ fun slot hslot => ?_
    obtain ⟨slot', hslot', rfl⟩ := Option.map_eq_some_iff.mp hslot
    rw [Slot.fill_minidump_write_dump_]
    exact hslots j slot' hslot'

/-- What all handlers are about to tell, after the place of one has changed. -/
theorem forall_succeeds_update (slots : ι → Option (Slot φ)) (i : ι) (o : Option (Slot φ)) :
    (∀ j, Slot.Succeeds (Function.update slots i o j)) ↔
      Slot.Succeeds o ∧ ∀ j, j ≠ i → Slot.Succeeds (slots j) :=
  Function.forall_update_iff slots fun _ => Slot.Succeeds

/-- A step turns what a handler is asked into what its callback is told. -/
theorem succeeds_slotStep (hslots : SmoothSlots slots) (hsmooth : l.Smooth)
    (hthere : ∀ j a, l = .dump j a → ∃ slot, slots j = some slot ∧ slot.written = none)
    (hnew : ∀ j path found uuid, l = .construct j path found uuid → slots j = none)
    (hgone : ∀ j, l = .destroy j → (slots j).bind Slot.written = none) :
    ((∀ o ∈ outcome slots l, o.succeeded = true) ∧ ∀ j, Slot.Succeeds (slotStep slots l j)) ↔
      (∀ j, Slot.Succeeds (slots j)) ∧ ∀ j, l.asks j = true → taken slots j = false := by
  -- the handler of the action apart from the others
  have hsplit : ∀ i, (∀ j, Slot.Succeeds (slots j)) ↔
      Slot.Succeeds (slots i) ∧ ∀ j, j ≠ i → Slot.Succeeds (slots j) := fun i => by
    rw [← forall_succeeds_update slots i (slots i), Function.update_eq_self]
  have hquiet : ∀ o : Option (Slot φ), o.bind Slot.written = none → Slot.Succeeds o :=
    fun o ho w hw => nomatch ho.symm.trans hw
  cases l with
  | construct i dump_path minidump_write_dump uuid =>
    have hnone := hnew i _ _ _ rfl
    simp only [slotStep, forall_succeeds_update, hsplit i, outcome, Label.asks, hnone,
      hquiet none rfl, hquiet (some ⟨minidump_write_dump, none, none⟩) rfl]
    simp
  | setDumpPath i dump_path uuid | updateNextID i uuid =>
    have hsame : Slot.Succeeds ((slots i).map fun slot => { slot with first := none }) ↔
        Slot.Succeeds (slots i) := by
      cases slots i <;> rfl
    simp only [slotStep, forall_succeeds_update, hsplit i, hsame, outcome, Label.asks]
    simp
  | destroy i =>
    simp only [slotStep, forall_succeeds_update, hsplit i, outcome, Label.asks,
      hquiet _ (hgone i rfl), hquiet none rfl]
    simp
  | callback i =>
    have htold : (∀ o ∈ outcome slots (.callback i), o.succeeded = true) ↔
        Slot.Succeeds (slots i) := by
      simp [outcome, Slot.Succeeds]
    have hafter : Slot.Succeeds ((slots i).map fun slot => { slot with written := none }) := by
      refine hquiet _ ?_
      cases slots i <;> rfl
    simp only [slotStep, forall_succeeds_update, hsplit i, htold, hafter, Label.asks]
    simp
  | dump i attempt =>
    obtain ⟨slot, hslot, hidle⟩ := hthere i attempt rfl
    have htakes := takes_eq hslots hslot hsmooth.1
    have hbefore : Slot.Succeeds (some slot) := hquiet _ hidle
    have hafter : Slot.Succeeds (some (slot.fill attempt)) ↔
        (attempt.accepted = true → taken slots i = false) := by
      rw [Slot.fill, htakes, hsmooth.2]
      cases attempt.accepted with
      | false => simp [hbefore]
      | true => simp [Slot.Succeeds]
    have hasks : (∀ j, Label.asks j (.dump i attempt) = true → taken slots j = false) ↔
        (attempt.accepted = true → taken slots i = false) := by
      simp [Label.asks]
    simp only [slotStep, forall_succeeds_update, hsplit i, hslot, Option.map_some, hafter, hbefore,
      hasks, outcome]
    simp [and_comm]

theorem Process.Ready.succeeded_iff {files : List Char → Option (Minidump φ)}
    (hp : p.Ready ls) (hslots : SmoothSlots p.slots) (hsmooth : ∀ l ∈ ls, l.Smooth)
    (hanswered : (system files).Meets Answered p ls) (hrun : (system files).run p ls = some q)
    (hidle : ∀ i, q.Idle i) :
    (∀ o ∈ outcomes p.slots ls, o.succeeded = true) ↔
      (∀ i, Slot.Succeeds (p.slots i)) ∧
        ∀ i, Alternates (Label.asks i) (Label.renews i) (taken p.slots i) ls := by
  induction ls generalizing p with
  | nil =>
    obtain rfl := Option.some.inj hrun
    refine iff_of_true (fun o ho => absurd ho List.not_mem_nil) ⟨fun i w hw => ?_, fun i => trivial⟩
    obtain ⟨slot', hslot', hw⟩ := Option.bind_eq_some_iff.mp hw
    obtain ⟨h, hh, rfl⟩ := Option.map_eq_some_iff.mp hslot'
    exact nomatch (hidle i h hh).symm.trans hw
  | cons l ls ih =>
    obtain ⟨p', hstep, hrest⟩ := Option.bind_eq_some_iff.mp hrun
    obtain ⟨hready, hslots', -⟩ := hp.step hstep
    have hl := hsmooth l List.mem_cons_self
    -- what the step presupposes of the handler's slot
    have hthere : ∀ j a, l = .dump j a → ∃ slot, p.slots j = some slot ∧ slot.written = none := by
      rintro j a rfl
      obtain ⟨h, hh, hwrite⟩ := Option.bind_eq_some_iff.mp hstep
      refine ⟨slot p.files h, congrArg (Option.map _) hh, ?_⟩
      split at hwrite
      · assumption
      · cases hwrite
    have hnew : ∀ j path found uuid, l = .construct j path found uuid → p.slots j = none := by
      rintro j path found uuid rfl
      simp only [system, MinidumpFiles.step] at hstep
      split at hstep
      · next hnone => exact congrArg (Option.map _) hnone
      · cases hstep
    have hgone : ∀ j, l = .destroy j → (p.slots j).bind Slot.written = none := by
      rintro j rfl
      obtain ⟨h, hh, -⟩ := Option.map_eq_some_iff.mp hstep
      rw [Process.slots, hh]
      exact hanswered.1 h hh
    have hsome : ∀ j a, l = .dump j a → (p.slots j).isSome := fun j a heq => by
      obtain ⟨slot', hslot', -⟩ := hthere j a heq
      rw [hslot']
      rfl
    have hih := ih hready (hslots' ▸ hslots.slotStep hl)
      (fun k hk => hsmooth k (List.mem_cons_of_mem l hk)) (hanswered.2 p' hstep) hrest
    rw [hslots'] at hih
    simp only [outcomes, List.mem_append, or_imp, forall_and, hih, Alternates, ← and_assoc,
      succeeds_slotStep hslots hl hthere hnew hgone, taken_slotStep hslots hl hsome]

/-- **Dumps are lost exactly when failures are not separated by new ids.** In every run in
which `UuidCreate` gives new ids, the paths fit, nothing but an existing file keeps a dump
from being written, and every file has its callback: every callback is told of success if
and only if between any two files that are due for a handler, it gets a new id. -/
theorem succeeded_iff_spaced {files : List Char → Option (Minidump φ)}
    (hnodup : (ls.filterMap Label.uuid).Nodup)
    (hunused : ∀ uuid ∈ ls.filterMap Label.uuid, Unused files uuid) (hfits : ∀ l ∈ ls, l.Fits)
    (hsmooth : ∀ l ∈ ls, l.Smooth) (hanswered : (system files).Meets Answered (start files) ls)
    (hrun : (system files).run (start files) ls = some p) (hidle : ∀ i, p.Idle i) :
    (∀ r ∈ p.reports, r.succeeded = true) ↔
      ∀ i, Spaced (Label.asks i) (Label.renews i) ls := by
  have hready : (start files : Process ι φ).Ready ls :=
    ⟨hfits, hnodup, hunused, fun _ _ h => (nomatch h), fun _ _ h => (nomatch h),
      fun _ _ _ _ h => (nomatch h)⟩
  have hreports := hready.run hrun
  have hsucceeds : ∀ i, Slot.Succeeds ((start files : Process ι φ).slots i) :=
    fun _ _ hw => nomatch hw
  have hdisjoint : ∀ i (l : Label ι φ), l.asks i = true → l.renews i = false := by
    intro i l hl
    cases l with
    | dump j attempt => rfl
    | _ => cases hl
  calc (∀ r ∈ p.reports, r.succeeded = true)
      ↔ ∀ o ∈ (p.reports.map Report.outcome).reverse, o.succeeded = true := by
        simp [Report.outcome]
    _ ↔ ∀ o ∈ outcomes (start files : Process ι φ).slots ls, o.succeeded = true := by
        rw [hreports]
        rfl
    _ ↔ ∀ i, Alternates (Label.asks i) (Label.renews i) false ls :=
        (hready.succeeded_iff (fun _ _ h => (nomatch h)) hsmooth hanswered hrun hidle).trans
          (and_iff_right hsucceeds)
    _ ↔ ∀ i, Spaced (Label.asks i) (Label.renews i) ls :=
        forall_congr' fun i => alternates_iff_spaced (hdisjoint i) ls

/-- Two exceptions with no new id in between. -/
theorem succeeded_iff_spaced_two : ∃ p : Process Unit ℕ,
    (system fun _ => none).run (start fun _ => none) twoExceptions = some p ∧
      ¬ ∀ r ∈ p.reports, r.succeeded = true := by
  have hsmooth : ∀ l ∈ twoExceptions, l.Smooth := by simp [twoExceptions, Label.Smooth]
  have hanswered : (system fun _ => none).Meets Answered (start fun _ => none) twoExceptions := by
    refine System.meets_of_forall_mem fun l hl p => ?_
    simp only [twoExceptions, List.mem_cons, List.not_mem_nil, or_false] at hl
    rcases hl with rfl | rfl | rfl | rfl | rfl <;> trivial
  obtain ⟨p, hrun, hidle⟩ : ∃ p : Process Unit ℕ,
      (system fun _ => none).run (start fun _ => none) twoExceptions = some p ∧ ∀ i, p.Idle i := by
    refine ⟨_, rfl, fun i h hh => ?_⟩
    obtain rfl := Option.some.inj hh
    rfl
  refine ⟨p, hrun, fun h => ?_⟩
  rw [succeeded_iff_spaced (by decide) (fun _ _ _ _ => rfl) fits_twoExceptions hsmooth hanswered
    hrun hidle] at h
  obtain ⟨k, hk, hrenews⟩ := h () [_] _ [_] _ [_] rfl rfl rfl
  obtain rfl := List.mem_singleton.mp hk
  cases hrenews

end Lost

end Ready

end MinidumpFiles

end SMEWindow.Breakpad
