import SMEWindow.Lib.Autocommit
import SMEWindow.Server.SMEDBManager

/-!
# Storing a report

Once a file has arrived, `Receive` inserts a row into `Dumps`, looks up its `Dump_ID`,
reads the file and lets `SMEDBManager` insert the detail rows one by one. Each statement
is committed by itself, on a connection of its own, and whatever throws is caught at the
end of `Receive`; nothing takes the rows back that are there by then. What a statement
commits is what its text says, which is the row that was meant if the quotes in the texts of
the file are doubled.

## Main definitions

* `Storage.store` — the database part of `Receive`
* `Storage.Upload.plan` — the positions it goes through, at each of which it may fail
* `Storage.AllOrNothing` — everything has been stored or nothing has

## Main results

* `store_follows` — the rows that are left are those of the positions before the first
  that fails
* `stored_until_failure` — this is all or nothing exactly if nothing fails or the `Dumps`
  row is not inserted
-/

set_option autoImplicit false

namespace SMEWindow.Server.Storage

open Collect DumpReader Lib Lib.Autocommit Lib.IdentityTable Lib.QuotedText
open Lib.SharedDatabase Lib.StatementExecution Lib.Text

/-! ### What is stored -/

/-- A row that a statement adds, and the function that built the statement; the identity
column skips `gap` values. -/
structure Insert where
  builder : Builder
  gap : ℕ
  record : Record

/-- Where it goes. -/
def Insert.addition (row : Insert) : Addition := ⟨tableName row.builder, row.gap, row.record⟩

/-- Where storing a report may fail. -/
inductive Position
  /-- `SQLConnection.Open`. -/
  | connect
  /-- A statement of `DumpsDBM` or of `InsertDatabase`. -/
  | execute (b : Builder)
  /-- The statement of `GetExcetpionID`. -/
  | getExcetpionID
  /-- `SMEXMLReader` or `SMEMiniDumpReader`. -/
  | read
  /-- A function that builds a statement. -/
  | build (b : Builder)
  deriving DecidableEq, Repr

/-- The statement that adds a row. -/
def Insert.place (row : Insert) : Position := .execute row.builder

/-- Every statement but a selection inserts a row. -/
def Position.stores : Position → Bool
  | .execute .selectOfName => false
  | .execute _ => true
  | _ => false

/-- Rows are committed as they are inserted. -/
def scheme : Scheme Tables Position Insert :=
  ⟨fun d row => add d row.addition, Insert.place, Position.stores⟩

/-- What storing a file depends on besides the file and the database. -/
structure Conditions where
  host : Host
  engine : Engine
  /-- What happens to go wrong. -/
  faults : Position → Bool
  /-- The identity values that an insertion skips. -/
  gap : Builder → ℕ
  /-- The order in which a selection returns its rows. -/
  order : Order

/-! ### `SMEDBManager` -/

variable (conditions : Conditions)

/-- A position at which something may go wrong. -/
def attempt (p : Position) : Session Tables Position Unit :=
  if conditions.faults p then failAt p else pure ()

/-- A statement, and the identities that it returns. -/
def execute (p : Position) (gap : ℕ) (statement : Statement) :
    Session Tables Position (List ℕ) := do
  attempt conditions p
  let d ← get
  match conditions.engine.execute gap (Statement.render statement) d with
  | none => failAt p
  | some (tables, ids) => do
    set tables
    return ids

/-- `InsertDatabase` of what a function builds. -/
def insertDatabase (content : Content) (m_dumpid exceptionid : Int32) (b : Builder) :
    Session Tables Position Unit :=
  match content.query conditions.host m_dumpid exceptionid b with
  | .error _ => failAt (.build b)
  | .ok statement => do
    attempt conditions (.build b)
    let _ ← execute conditions (.execute b) (conditions.gap b) statement
    return

def saveNativeDumpData (dump : MiniDump) (m_dumpid : Int32) :
    Session Tables Position Unit := do
  insertDatabase conditions (.dmp dump) m_dumpid 0 .exception
  insertDatabase conditions (.dmp dump) m_dumpid 0 .module
  insertDatabase conditions (.dmp dump) m_dumpid 0 .miscInfo
  insertDatabase conditions (.dmp dump) m_dumpid 0 .breakpad
  insertDatabase conditions (.dmp dump) m_dumpid 0 .assertion

/-- `GetExcetpionID`. -/
def selectExceptionID (dumpid : Int32) : Session Tables Position Int32 := do
  let ids ← execute conditions .getExcetpionID 0 (selectExp_IDOfDump dumpid)
  return getExcetpionID (conditions.order.ids ids)

/-- What `SaveCSDumpData` does about an inner exception. -/
def saveInner (report : Xml.Report) (m_dumpid : Int32) : Session Tables Position Unit :=
  match report.ExceptionInfo.inner with
  | none => pure ()
  | some _ => do
    let exception_id ← selectExceptionID conditions m_dumpid
    insertDatabase conditions (.xml report) m_dumpid exception_id .innerCSExceptionInfo

def saveCSDumpData (report : Xml.Report) (m_dumpid : Int32) :
    Session Tables Position Unit := do
  insertDatabase conditions (.xml report) m_dumpid 0 .csProjectInfo
  insertDatabase conditions (.xml report) m_dumpid 0 .csSystemInfo
  insertDatabase conditions (.xml report) m_dumpid 0 .csExceptionInfo
  saveInner conditions report m_dumpid
  insertDatabase conditions (.xml report) m_dumpid 0 .csCallStackInfo

/-! ### `Receive` -/

/-- `DumpsDBM.Insert`. -/
def insertDump (upload : Upload) : Session Tables Position Unit := do
  let _ ← execute conditions (.execute .insert) (conditions.gap .insert)
    (insert upload.fileName upload.apikey)
  return

/-- `DumpsDBM.SelectExp_ID` and the first of its rows; `Rows[0]` throws if there is none. -/
def selectDid (upload : Upload) : Session Tables Position Int32 := do
  let ids ← execute conditions (.execute .selectOfName) 0 (selectExp_IDOfName upload.fileName)
  match conditions.order.ids ids with
  | [] => failAt (.execute .selectOfName)
  | did :: _ => return Int32.ofNat did

/-- The constructor of the reader. -/
def read (upload : Upload) : Session Tables Position Content := do
  attempt conditions .read
  match upload.content with
  | .error _ => failAt .read
  | .ok content => return content

/-- The part of `Receive` that follows the arrival of the file. What throws is caught by
`Receive`, but for the overflow of the stack in the getters of an assertion, which ends the
process. -/
def store (upload : Upload) : Session Tables Position Unit := do
  attempt conditions .connect
  insertDump conditions upload
  let did ← selectDid conditions upload
  let content ← read conditions upload
  match content with
  | .xml report => saveCSDumpData conditions report did
  | .dmp dump => saveNativeDumpData conditions dump did

/-! ### The positions of a file -/

/-- A function that builds a statement, and the statement. -/
def steps (bs : List Builder) : List Position := bs.flatMap fun b => [.build b, .execute b]

/-- The positions of an inner exception. -/
def innerPlan : Option ExceptionInformation → List Position
  | none => []
  | some _ => [.getExcetpionID] ++ steps [.innerCSExceptionInfo]

/-- The positions of `SaveNativeDumpData` or `SaveCSDumpData`. -/
def contentPlan : Content → List Position
  | .dmp _ => steps [.exception, .module, .miscInfo, .breakpad, .assertion]
  | .xml report => steps [.csProjectInfo, .csSystemInfo, .csExceptionInfo] ++
      (innerPlan report.ExceptionInfo.inner ++ steps [.csCallStackInfo])

/-- The positions behind the reader, as far as the file can be read. -/
def detailPlan (upload : Upload) : List Position :=
  match upload.content with
  | .error _ => []
  | .ok content => contentPlan content

/-- All positions. -/
def plan (upload : Upload) : List Position :=
  [.connect, .execute .insert, .execute .selectOfName, .read] ++ detailPlan upload

/-- The position fails: something happens to go wrong there, the file cannot be read, or the
statement cannot be built. -/
def fails (upload : Upload) (p : Position) : Bool :=
  conditions.faults p || match p, upload.content with
    | .read, .error _ => true
    | .build b, .ok content => !content.builds b
    | _, _ => false

/-- The row of the file in `Dumps`. -/
def dumpInsert (upload : Upload) : Insert :=
  ⟨.insert, conditions.gap .insert, dumpRecord upload.fileName upload.apikey⟩

/-- The dump ids that are found once the row is there. -/
def foundDids (upload : Upload) (d : Tables) : List ℕ :=
  conditions.order.ids ((add d (dumpInsert conditions upload).addition "Dumps").select
    (conditions.engine.selects "Dumps" "Dump_Name" (undoubled upload.fileName)))

/-- The first of them. -/
def foundDid (upload : Upload) (d : Tables) : Int32 :=
  match foundDids conditions upload d with
  | [] => 0
  | did :: _ => Int32.ofNat did

/-- The row belongs to the file: it names it, or it is one of its detail rows, under the dump
id that was found. -/
def Own (upload : Upload) (did : Int32) (row : Insert) : Prop :=
  if row.builder = .insert then row.record = dumpRecord upload.fileName upload.apikey
  else row.record.lookup "DumpsDump_ID" = some (intToString did) ∧
    ∃ content exceptionid, upload.content = .ok content ∧ content.builds row.builder = true ∧
      row.record = content.record conditions.host did exceptionid row.builder

/-! ### The plan is followed -/

section Plan

variable {conditions} {upload : Upload} {content : Content} {did did' exceptionid : Int32}
  {d d' : Tables} {b : Builder} {p : Position} {gap : ℕ} {statement : Statement} {ids : List ℕ}

@[simp] theorem fails_connect : fails conditions upload .connect = conditions.faults .connect :=
  Bool.or_false _

@[simp] theorem fails_execute :
    fails conditions upload (.execute b) = conditions.faults (.execute b) :=
  Bool.or_false _

@[simp] theorem fails_getExcetpionID :
    fails conditions upload .getExcetpionID = conditions.faults .getExcetpionID :=
  Bool.or_false _

theorem fails_build (hcontent : upload.content = .ok content) :
    fails conditions upload (.build b) = (conditions.faults (.build b) || !content.builds b) := by
  simp only [fails, hcontent]

theorem runOn_attempt : (attempt conditions p).runOn d =
    (if conditions.faults p then .error p else .ok (), d) := by
  unfold attempt
  split
  · exact runOn_failAt p
  · exact runOn_pure ()

theorem runOn_attempt_of_fault (hp : conditions.faults p = true) :
    (attempt conditions p).runOn d = (.error p, d) := by
  rw [runOn_attempt, if_pos hp]

theorem runOn_attempt_of_not_fault (hp : conditions.faults p = false) :
    (attempt conditions p).runOn d = (.ok (), d) := by
  rw [runOn_attempt, hp, if_neg Bool.false_ne_true]

theorem runOn_execute_of_fault (hp : conditions.faults p = true) :
    (execute conditions p gap statement).runOn d = (.error p, d) :=
  runOn_bind_of_error (runOn_attempt_of_fault hp)

/-- A statement that the database executes. -/
theorem runOn_execute (hp : conditions.faults p = false)
    (h : conditions.engine.execute gap (Statement.render statement) d = some (d', ids)) :
    (execute conditions p gap statement).runOn d = (.ok ids, d') := by
  rw [execute, runOn_bind_of_ok (runOn_attempt_of_not_fault hp), runOn_bind_of_ok runOn_get]
  simp only [h]
  rfl

variable {P : Insert → Prop}

theorem follows_attempt (hp : fails conditions upload p = conditions.faults p)
    (hstores : p.stores = false) :
    Follows scheme (fails conditions upload) P [p] d ((attempt conditions p).runOn d) := by
  cases hfault : conditions.faults p with
  | true =>
    rw [runOn_attempt_of_fault hfault]
    exact .error (hp.trans hfault)
  | false =>
    rw [runOn_attempt_of_not_fault hfault]
    exact .ok (hp.trans hfault) hstores ()

/-- A statement that adds a row. -/
theorem follows_insert {row : Insert} (hown : P row) (hplace : row.place = p)
    (hp : fails conditions upload p = conditions.faults p) (hstores : p.stores = true)
    (hexecute : conditions.engine.execute gap (Statement.render statement) d =
      some (add d row.addition, [])) :
    Follows scheme (fails conditions upload) P [p] d
      ((execute conditions p gap statement).runOn d) := by
  cases hfault : conditions.faults p with
  | true =>
    rw [runOn_execute_of_fault hfault]
    exact .error (hp.trans hfault)
  | false =>
    rw [runOn_execute hfault hexecute]
    exact .store hplace (hp.trans hfault) hstores hown []

/-- A statement that returns identities. -/
theorem follows_select (hp : fails conditions upload p = conditions.faults p)
    (hstores : p.stores = false)
    (hexecute : conditions.engine.execute gap (Statement.render statement) d = some (d, ids)) :
    Follows scheme (fails conditions upload) P [p] d
      ((execute conditions p gap statement).runOn d) := by
  cases hfault : conditions.faults p with
  | true =>
    rw [runOn_execute_of_fault hfault]
    exact .error (hp.trans hfault)
  | false =>
    rw [runOn_execute hfault hexecute]
    exact .ok (hp.trans hfault) hstores ids

end Plan

section Rows

variable {conditions} {upload : Upload} {content : Content} {did exceptionid : Int32}
  {d d' : Tables} {b : Builder}

/-- A statement of `SMEDBManager`. -/
theorem follows_insertDatabase (hdoubled : ∀ t ∈ upload.texts conditions.host, Doubled t)
    (hcontent : upload.content = .ok content) :
    Follows scheme (fails conditions upload) (Own conditions upload did) (steps [b]) d
      ((insertDatabase conditions content did exceptionid b).runOn d) := by
  unfold insertDatabase
  cases hquery : content.query conditions.host did exceptionid b with
  -- the function throws: the statement behind it is not reached
  | error e =>
    have hbuilds : content.builds b = false := by
      rw [← Bool.not_eq_true, ← Content.exists_query_iff]
      rintro ⟨statement, hstatement⟩
      exact nomatch hquery.symm.trans hstatement
    have hfails : fails conditions upload (.build b) = true := by
      rw [fails_build hcontent, hbuilds, Bool.not_false, Bool.or_true]
    exact (Follows.error (α := Unit) hfails).append_of_error [.execute b]
  | ok statement =>
    have hbuilds : content.builds b = true := Content.exists_query_iff.mp ⟨statement, hquery⟩
    have hfails : fails conditions upload (.build b) = conditions.faults (.build b) := by
      rw [fails_build hcontent, hbuilds, Bool.not_true, Bool.or_false]
    obtain ⟨haddsRow, hinsert⟩ := Content.addsRow_of_builds hbuilds
    have hown : Own conditions upload did ⟨b, conditions.gap b,
        content.record conditions.host did exceptionid b⟩ := by
      rw [Own, if_neg hinsert]
      exact ⟨Content.lookup_record_dumpid hbuilds, content, exceptionid, hcontent, hbuilds, rfl⟩
    have hstores : Position.stores (.execute b) = true := by
      cases b <;> first | rfl | cases haddsRow
    exact (follows_attempt hfails rfl).bind fun _ d' _ =>
      (follows_insert hown rfl fails_execute hstores
        (Content.execute_query (Upload.doubled_content hcontent hdoubled) hquery)).bind
          fun _ _ _ => .nil ()

theorem follows_saveNativeDumpData (hdoubled : ∀ t ∈ upload.texts conditions.host, Doubled t)
    {dump : MiniDump} (hcontent : upload.content = .ok (.dmp dump)) :
    Follows scheme (fails conditions upload) (Own conditions upload did)
      (contentPlan (.dmp dump)) d ((saveNativeDumpData conditions dump did).runOn d) := by
  have hplan : contentPlan (.dmp dump) = steps [.exception] ++ (steps [.module] ++
      (steps [.miscInfo] ++ (steps [.breakpad] ++ steps [.assertion]))) := rfl
  rw [hplan, saveNativeDumpData]
  refine (follows_insertDatabase hdoubled hcontent).bind fun _ _ _ => ?_
  refine (follows_insertDatabase hdoubled hcontent).bind fun _ _ _ => ?_
  refine (follows_insertDatabase hdoubled hcontent).bind fun _ _ _ => ?_
  exact (follows_insertDatabase hdoubled hcontent).bind fun _ _ _ =>
    follows_insertDatabase hdoubled hcontent

theorem follows_selectExceptionID :
    Follows scheme (fails conditions upload) (Own conditions upload did) [.getExcetpionID] d
      ((selectExceptionID conditions did).runOn d) :=
  (follows_select fails_getExcetpionID rfl execute_selectExp_IDOfDump).bind
    fun _ _ _ => .nil _

theorem follows_saveInner (hdoubled : ∀ t ∈ upload.texts conditions.host, Doubled t)
    {report : Xml.Report} (hcontent : upload.content = .ok (.xml report)) :
    Follows scheme (fails conditions upload) (Own conditions upload did)
      (innerPlan report.ExceptionInfo.inner) d ((saveInner conditions report did).runOn d) := by
  unfold saveInner
  cases report.ExceptionInfo.inner with
  | none => exact .nil ()
  | some inner =>
    exact follows_selectExceptionID.bind fun _ _ _ => follows_insertDatabase hdoubled hcontent

theorem follows_saveCSDumpData (hdoubled : ∀ t ∈ upload.texts conditions.host, Doubled t)
    {report : Xml.Report} (hcontent : upload.content = .ok (.xml report)) :
    Follows scheme (fails conditions upload) (Own conditions upload did)
      (contentPlan (.xml report)) d ((saveCSDumpData conditions report did).runOn d) := by
  have hplan : contentPlan (.xml report) = steps [.csProjectInfo] ++ (steps [.csSystemInfo] ++
      (steps [.csExceptionInfo] ++
        (innerPlan report.ExceptionInfo.inner ++ steps [.csCallStackInfo]))) := rfl
  rw [hplan, saveCSDumpData]
  refine (follows_insertDatabase hdoubled hcontent).bind fun _ _ _ => ?_
  refine (follows_insertDatabase hdoubled hcontent).bind fun _ _ _ => ?_
  refine (follows_insertDatabase hdoubled hcontent).bind fun _ _ _ => ?_
  exact (follows_saveInner hdoubled hcontent).bind fun _ _ _ =>
    follows_insertDatabase hdoubled hcontent

theorem eq_of_runOn_attempt {p : Position} {a : Unit}
    (h : (attempt conditions p).runOn d = (.ok a, d')) : d' = d := by
  rw [runOn_attempt] at h
  exact (congrArg Prod.snd h).symm

/-- The statement of `DumpsDBM.Insert`. -/
theorem execute_dumpInsert (hname : Doubled upload.fileName) :
    conditions.engine.execute (conditions.gap .insert)
      (Statement.render (insert upload.fileName upload.apikey)) d =
        some (add d (dumpInsert conditions upload).addition, []) := execute_insert hname

theorem follows_insertDump (hname : Doubled upload.fileName) :
    Follows scheme (fails conditions upload) (Own conditions upload did) [.execute .insert] d
      ((insertDump conditions upload).runOn d) := by
  have hown : Own conditions upload did (dumpInsert conditions upload) := by
    have hbuilder : (dumpInsert conditions upload).builder = .insert := rfl
    rw [Own, if_pos hbuilder]
    rfl
  exact (follows_insert hown rfl fails_execute rfl (execute_dumpInsert hname)).bind
    fun _ _ _ => .nil ()

theorem eq_of_runOn_insertDump (hname : Doubled upload.fileName) {a : Unit}
    (h : (insertDump conditions upload).runOn d = (.ok a, d')) :
    d' = add d (dumpInsert conditions upload).addition := by
  cases hfault : conditions.faults (.execute .insert) with
  | true =>
    rw [insertDump, runOn_bind_of_error (runOn_execute_of_fault hfault)] at h
    cases h
  | false =>
    rw [insertDump, runOn_bind_of_ok (runOn_execute hfault (execute_dumpInsert hname))] at h
    cases h
    rfl

/-- The row that was just inserted is found, or another of the same name. -/
theorem exists_foundDids_eq (conditions : Conditions) (upload : Upload) (d : Tables) :
    ∃ did dids, foundDids conditions upload d = did :: dids := by
  apply List.exists_cons_of_ne_nil
  have hmem : (d "Dumps").insertedId (conditions.gap .insert) ∈
      (add d (dumpInsert conditions upload).addition "Dumps").select
        (conditions.engine.selects "Dumps" "Dump_Name" (undoubled upload.fileName)) := by
    refine Table.mem_select.mpr ⟨dumpRecord upload.fileName upload.apikey, ?_, ?_⟩
    · have hsame : add d (dumpInsert conditions upload).addition "Dumps" =
          (d "Dumps").insert (conditions.gap .insert)
            (dumpRecord upload.fileName upload.apikey) := add_same ..
      rw [hsame]
      exact Table.mem_rows_insert.mpr (.inr rfl)
    · have hlookup : (dumpRecord upload.fileName upload.apikey).lookup "Dump_Name" =
          some (undoubled upload.fileName) := rfl
      rw [selects_of_lookup hlookup]
      exact conditions.engine.same_self ..
  exact List.ne_nil_of_mem ((conditions.order.perm _).mem_iff.mpr hmem)

theorem runOn_selectDid (hname : Doubled upload.fileName) (d : Tables) :
    (selectDid conditions upload).runOn (add d (dumpInsert conditions upload).addition) =
      (if conditions.faults (.execute .selectOfName) then .error (.execute .selectOfName)
        else .ok (foundDid conditions upload d),
          add d (dumpInsert conditions upload).addition) := by
  obtain ⟨did, dids, hfound⟩ := exists_foundDids_eq conditions upload d
  cases hfault : conditions.faults (.execute .selectOfName) with
  | true =>
    rw [selectDid, runOn_bind_of_error (runOn_execute_of_fault hfault)]
    rfl
  | false =>
    rw [selectDid, runOn_bind_of_ok (runOn_execute hfault (execute_selectExp_IDOfName hname)),
      foundDid, hfound]
    rw [foundDids] at hfound
    simp only [hfound]
    rfl

theorem runOn_read : (read conditions upload).runOn d =
    (if conditions.faults .read then .error .read
      else match upload.content with
        | .error _ => .error .read
        | .ok content => .ok content, d) := by
  cases hfault : conditions.faults .read with
  | true =>
    rw [read, runOn_bind_of_error (runOn_attempt_of_fault hfault)]
    rfl
  | false =>
    rw [read, runOn_bind_of_ok (runOn_attempt_of_not_fault hfault)]
    cases upload.content <;> rfl

theorem follows_selectDid (hname : Doubled upload.fileName) :
    Follows scheme (fails conditions upload) (Own conditions upload did)
      [.execute .selectOfName] (add d (dumpInsert conditions upload).addition)
      ((selectDid conditions upload).runOn (add d (dumpInsert conditions upload).addition)) := by
  rw [runOn_selectDid hname]
  cases hfault : conditions.faults (.execute .selectOfName) with
  | true => exact .error (fails_execute.trans hfault)
  | false => exact .ok (fails_execute.trans hfault) rfl _

theorem follows_read :
    Follows scheme (fails conditions upload) (Own conditions upload did) [.read] d
      ((read conditions upload).runOn d) := by
  rw [runOn_read]
  cases hfault : conditions.faults .read with
  | true => exact .error (by simp [fails, hfault])
  | false =>
    cases hcontent : upload.content with
    | error e => exact .error (by simp [fails, hcontent])
    | ok content => exact .ok (by simp [fails, hfault, hcontent]) rfl content

theorem eq_of_runOn_selectDid (hname : Doubled upload.fileName)
    (h : (selectDid conditions upload).runOn (add d (dumpInsert conditions upload).addition) =
      (.ok did, d')) : did = foundDid conditions upload d := by
  rw [runOn_selectDid hname] at h
  cases hfault : conditions.faults (.execute .selectOfName) with
  | true =>
    rw [hfault] at h
    cases h
  | false =>
    rw [hfault] at h
    exact (Except.ok.inj (congrArg Prod.fst h)).symm

theorem content_of_runOn_read (h : (read conditions upload).runOn d = (.ok content, d')) :
    upload.content = .ok content := by
  rw [runOn_read] at h
  cases hfault : conditions.faults .read with
  | true =>
    rw [hfault] at h
    cases h
  | false =>
    cases hcontent : upload.content with
    | error e =>
      rw [hfault, hcontent] at h
      cases h
    | ok content =>
      rw [hfault, hcontent] at h
      rw [Except.ok.inj (congrArg Prod.fst h)]

/-- **The plan is followed.** Storing a file whose texts have doubled quotes stops at the first
position of its plan that fails, and leaves the rows of the positions before. -/
theorem store_follows (hdoubled : ∀ t ∈ upload.texts conditions.host, Doubled t) (d : Tables) :
    Follows scheme (fails conditions upload)
      (Own conditions upload (foundDid conditions upload d)) (plan upload) d
      ((store conditions upload).runOn d) := by
  have hname := Upload.doubled_fileName hdoubled
  have hplan : plan upload = [.connect] ++ ([.execute .insert] ++
      ([.execute .selectOfName] ++ ([.read] ++ detailPlan upload))) := rfl
  rw [hplan, store]
  -- one position after the other, each with the database that the one before has left
  refine (follows_attempt fails_connect rfl).bind fun _ d₁ hconnect => ?_
  obtain rfl := eq_of_runOn_attempt hconnect
  refine (follows_insertDump hname).bind fun _ d₂ hinsert => ?_
  obtain rfl := eq_of_runOn_insertDump hname hinsert
  refine (follows_selectDid hname).bind fun did d₃ hselect => ?_
  obtain rfl := eq_of_runOn_selectDid hname hselect
  refine follows_read.bind fun content d₄ hread => ?_
  have hcontent := content_of_runOn_read hread
  rw [detailPlan, hcontent]
  cases content with
  | xml report => exact follows_saveCSDumpData hdoubled hcontent
  | dmp dump => exact follows_saveNativeDumpData hdoubled hcontent

end Rows

/-! ### All or nothing -/

/-- The row of the file in `Dumps` and all its detail rows are there. -/
def Complete (upload : Upload) (d d' : Tables) : Prop :=
  ∃ content, upload.content = .ok content ∧ ∃ rows : List Insert,
    d' = rows.foldl scheme.store d ∧
    rows.map Insert.place = .execute .insert :: (contentPlan content).filter Position.stores ∧
    ∀ row ∈ rows, Own conditions upload (foundDid conditions upload d) row

/-- The file has been stored with all its details, or the database is as before. -/
def AllOrNothing (upload : Upload) (d d' : Tables) : Prop :=
  d' = d ∨ Complete conditions upload d d'

section AllOrNothing

variable {conditions} {upload : Upload} {content : Content} {d : Tables}

/-- Rows that lead to the same database are equally many. -/
theorem length_eq_of_foldl_eq {rows rows' : List Insert}
    (h : rows.foldl scheme.store d = rows'.foldl scheme.store d) : rows.length = rows'.length := by
  have hfoldl : ∀ rows : List Insert,
      rows.foldl scheme.store d = (rows.map Insert.addition).foldl add d := by
    intro rows
    rw [List.foldl_map]
    rfl
  rw [hfoldl, hfoldl] at h
  simpa using (perm_of_foldl_add_eq h).length_eq

/-- Storing ends with the insertion of a row. -/
theorem exists_contentPlan_eq (content : Content) :
    ∃ front b, contentPlan content = front ++ [.execute b] ∧
      Position.stores (.execute b) = true := by
  cases content with
  | xml report =>
    refine ⟨steps [.csProjectInfo, .csSystemInfo, .csExceptionInfo] ++
      (innerPlan report.ExceptionInfo.inner ++ [.build .csCallStackInfo]), .csCallStackInfo,
      ?_, rfl⟩
    simp [contentPlan, steps]
  | dmp dump =>
    exact ⟨steps [.exception, .module, .miscInfo, .breakpad] ++ [.build .assertion], .assertion,
      rfl, rfl⟩

theorem filter_plan (hcontent : upload.content = .ok content) :
    (plan upload).filter Position.stores =
      .execute .insert :: (contentPlan content).filter Position.stores := by
  rw [plan, detailPlan, hcontent, List.filter_append]
  rfl

theorem filter_reached_eq_nil_iff :
    (reached (fails conditions upload) (plan upload)).filter Position.stores = [] ↔
      conditions.faults .connect = true ∨ conditions.faults (.execute .insert) = true := by
  unfold reached plan
  cases hconnect : conditions.faults .connect with
  | true => simp [hconnect]
  | false =>
    cases hinsert : conditions.faults (.execute .insert) with
    | true => simp [hconnect, hinsert, Position.stores]
    | false => simp [hconnect, hinsert, Position.stores]

/-- Nothing is stored exactly if the row in `Dumps` is not. -/
theorem store_eq_self_iff (hdoubled : ∀ t ∈ upload.texts conditions.host, Doubled t) :
    ((store conditions upload).runOn d).2 = d ↔
      conditions.faults .connect = true ∨ conditions.faults (.execute .insert) = true := by
  obtain ⟨rows, hstored, hplaces, -⟩ := (store_follows hdoubled d).stored
  rw [hstored, ← filter_reached_eq_nil_iff]
  constructor
  · intro hsame
    have hlength : rows.length = ([] : List Insert).length := length_eq_of_foldl_eq hsame
    rw [List.eq_nil_of_length_eq_zero hlength] at hplaces
    exact hplaces.symm
  · intro hnone
    have hnil : rows = [] := List.map_eq_nil_iff.mp (hplaces.trans hnone)
    rw [hnil]
    rfl

/-- Everything is stored exactly if nothing fails. -/
theorem complete_iff (hdoubled : ∀ t ∈ upload.texts conditions.host, Doubled t) :
    Complete conditions upload d ((store conditions upload).runOn d).2 ↔
      ∀ p ∈ plan upload, fails conditions upload p = false := by
  obtain ⟨rows, hstored, hplaces, hown⟩ := (store_follows hdoubled d).stored
  have hnone : (plan upload).find? (fails conditions upload) = none ↔
      ∀ p ∈ plan upload, fails conditions upload p = false := by
    simp [List.find?_eq_none]
  rw [← hnone]
  constructor
  · rintro ⟨content, hcontent, rows', hstored', hplaces', -⟩
    have hrows := length_eq_of_foldl_eq (hstored.symm.trans hstored')
    have hlength := congrArg List.length hplaces
    have hlength' := congrArg List.length (hplaces'.trans (filter_plan hcontent).symm)
    rw [List.length_map] at hlength hlength'
    -- as many rows as the plan has, so the last one is among them
    obtain ⟨front, b, hfront, hstores⟩ := exists_contentPlan_eq content
    have hplan : plan upload = [.connect, .execute .insert, .execute .selectOfName, .read] ++
        front ++ [.execute b] := by
      rw [plan, detailPlan, hcontent, List.append_assoc]
      exact congrArg _ hfront
    rw [hplan] at hlength hlength' ⊢
    refine find?_eq_none_of_length hstores ?_
    have hscheme : scheme.stores = Position.stores := rfl
    rw [hscheme] at hlength
    omega
  · intro hfind
    cases hcontent : upload.content with
    | error e =>
      have hread := List.find?_eq_none.mp hfind .read (by simp [plan])
      simp [fails, hcontent] at hread
    | ok content =>
      refine ⟨content, hcontent, rows, hstored, ?_, hown⟩
      rw [← filter_plan hcontent, ← reached_eq_self hfind]
      exact hplaces

/-- **The rows before the failure stay.** Whatever the database is, and wherever something
fails, if the quotes in the texts of the file are doubled then the rows of the positions
before the failure are stored and no others. This is all or nothing exactly if nothing fails,
or if already the row in `Dumps` cannot be inserted. -/
theorem stored_until_failure (conditions : Conditions) (upload : Upload) (d : Tables)
    (hdoubled : ∀ t ∈ upload.texts conditions.host, Doubled t) :
    Follows scheme (fails conditions upload)
        (Own conditions upload (foundDid conditions upload d)) (plan upload) d
        ((store conditions upload).runOn d) ∧
      (AllOrNothing conditions upload d ((store conditions upload).runOn d).2 ↔
        (∀ p ∈ plan upload, fails conditions upload p = false) ∨
          conditions.faults .connect = true ∨ conditions.faults (.execute .insert) = true) := by
  refine ⟨store_follows hdoubled d, ?_⟩
  rw [AllOrNothing, store_eq_self_iff hdoubled, complete_iff hdoubled, or_comm]

/-- The database is lost when the row of `NBreakpad` is about to be inserted. -/
def lostDatabase : Conditions where
  host := sampleHost
  engine := SqlEngine.binary.toEngine
  faults p := p == .execute .breakpad
  gap _ := 0
  order := .id

/-- A dump with all streams but an assertion. -/
def sampleDump : Upload where
  fileName := "a.dmp"
  apikey := 7
  filesel := .dmp
  selected := by decide
  smeXMLReader := .error .nullReference
  smeMiniDumpReader := .ok
    ⟨some ⟨1, ⟨0xc0000005, 0, 0, 0, ⟨List.replicate 15 0, rfl⟩⟩, ⟨0⟩⟩, [],
      some (.miscInfo ⟨24, 1, 0, 0, 0⟩), some ⟨3, 1, 1⟩, none⟩

theorem doubled_sampleDump : ∀ t ∈ sampleDump.texts sampleHost, Doubled t := by
  decide +kernel

theorem stored_until_failure_sample :
    reached (fails lostDatabase sampleDump) (plan sampleDump) =
        [.connect, .execute .insert, .execute .selectOfName, .read] ++
          (steps [.exception, .module, .miscInfo] ++ [.build .breakpad]) ∧
      Follows scheme (fails lostDatabase sampleDump)
        (Own lostDatabase sampleDump (foundDid lostDatabase sampleDump noRows)) (plan sampleDump)
        noRows ((store lostDatabase sampleDump).runOn noRows) :=
  ⟨by decide +kernel, (stored_until_failure lostDatabase sampleDump noRows doubled_sampleDump).1⟩

/-- The row in `Dumps` and three of the five detail rows are left. -/
theorem not_allOrNothing_of_lost :
    ∃ rows : List Insert,
      ((store lostDatabase sampleDump).runOn noRows).2 = rows.foldl scheme.store noRows ∧
      rows.map Insert.place =
        [Builder.insert, .exception, .module, .miscInfo].map Position.execute ∧
      ¬ AllOrNothing lostDatabase sampleDump noRows
        ((store lostDatabase sampleDump).runOn noRows).2 := by
  have hdoubled : ∀ t ∈ sampleDump.texts lostDatabase.host, Doubled t := doubled_sampleDump
  obtain ⟨rows, hrows, hplaces, -⟩ := (store_follows hdoubled noRows).stored
  refine ⟨rows, hrows, hplaces.trans (by decide +kernel), ?_⟩
  rw [AllOrNothing, store_eq_self_iff hdoubled, complete_iff hdoubled]
  decide +kernel

end AllOrNothing

end SMEWindow.Server.Storage
