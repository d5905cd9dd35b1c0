import SMEWindow.Server.ReceiverReturn
import SMEWindow.Server.Storage

/-!
# How storing a file ends

Whatever is thrown while a file is stored, `Receive` catches it and returns. Not so the
overflow of the stack in the getters of an assertion, which ends the process. So a receiver
returns, or does not, for reasons that lie in the file and the database, which are spelled
out here.

## Main definitions

* `Storage.storing` — how storing a file ends
* `Storage.Machine`, `Machine.environment` — the readers and the database as what surrounds
  a receiver

## Main results

* `storing_eq_endsProcess_iff` — the process ends exactly in a dump with an assertion before
  which nothing fails
* `Machine.returns_iff` — when a receiver on such a machine returns
-/

set_option autoImplicit false

namespace SMEWindow.Server.Storage

open Collect DumpReader Lib Lib.Autocommit Lib.QuotedText Lib.SegmentedStream
open Lib.StatementExecution Lib.Text Lib.Utf8

section Assertion

variable (conditions : Conditions) (upload : Upload) (d : Tables)

/-- How storing a file ends: what fails throws, but for the getters of an assertion that is
there, which overflow the stack. -/
def storing : Storing :=
  match ((store conditions upload).runOn d).1 with
  | .ok _ => .returns
  | .error p =>
    if p = .build .assertion ∧ conditions.faults p = false then .endsProcess else .throws

/-- The positions of a dump before its assertion. -/
def beforeAssertion : List Position :=
  [.connect, .execute .insert, .execute .selectOfName, .read] ++
    steps [.exception, .module, .miscInfo, .breakpad]

variable {conditions upload d}

theorem plan_of_dmp {dump : MiniDump} (hcontent : upload.content = .ok (.dmp dump)) :
    plan upload = beforeAssertion ++ [.build .assertion, .execute .assertion] := by
  rw [plan, detailPlan, hcontent]
  rfl

/-- Only a dump has an assertion to be built. -/
theorem exists_dmp_of_mem_plan (h : Position.build .assertion ∈ plan upload) :
    ∃ dump, upload.content = .ok (.dmp dump) := by
  rw [plan, detailPlan] at h
  cases hcontent : upload.content with
  | error e => simp [hcontent] at h
  | ok content =>
    cases content with
    | dmp dump => exact ⟨dump, rfl⟩
    | xml report =>
      cases hinner : report.ExceptionInfo.inner with
      | none => simp [hcontent, contentPlan, steps, innerPlan, hinner] at h
      | some inner => simp [hcontent, contentPlan, steps, innerPlan, hinner] at h

theorem storing_eq_endsProcess_iff_find (hdoubled : ∀ t ∈ upload.texts conditions.host, Doubled t) :
    storing conditions upload d = .endsProcess ↔
      (plan upload).find? (fails conditions upload) = some (.build .assertion) ∧
        conditions.faults (.build .assertion) = false := by
  have hstops := (store_follows hdoubled d).stops
  rw [storing]
  cases hresult : ((store conditions upload).runOn d).1 with
  | ok a =>
    rw [hresult] at hstops
    rw [show (plan upload).find? (fails conditions upload) = none from hstops]
    exact ⟨nofun, nofun⟩
  | error p =>
    rw [hresult] at hstops
    rw [show (plan upload).find? (fails conditions upload) = some p from hstops,
      Option.some.injEq]
    constructor
    · intro hends
      by_cases hp : p = .build .assertion ∧ conditions.faults p = false
      · obtain ⟨rfl, hfault⟩ := hp
        exact ⟨rfl, hfault⟩
      · simp only [if_neg hp] at hends
        cases hends
    · rintro ⟨rfl, hfault⟩
      exact if_pos ⟨rfl, hfault⟩

/-- **Storing ends the process exactly in an assertion.** Storing a file whose texts have
doubled quotes ends the process if and only if the file is a dump with an assertion, the
storing gets as far as the assertion, and nothing else goes wrong there. -/
theorem storing_eq_endsProcess_iff (hdoubled : ∀ t ∈ upload.texts conditions.host, Doubled t) :
    storing conditions upload d = .endsProcess ↔
      (∃ dump, upload.content = .ok (.dmp dump) ∧ dump.AssertionInfo.isSome = true) ∧
        (∀ p ∈ beforeAssertion, fails conditions upload p = false) ∧
        conditions.faults (.build .assertion) = false := by
  rw [storing_eq_endsProcess_iff_find hdoubled]
  constructor
  · rintro ⟨hfind, hfault⟩
    obtain ⟨dump, hcontent⟩ := exists_dmp_of_mem_plan (List.mem_of_find?_eq_some hfind)
    have hfails := List.find?_some hfind
    rw [fails_build hcontent, hfault, Bool.false_or, Bool.not_eq_true'] at hfails
    refine ⟨⟨dump, hcontent, ?_⟩, fun p hp => ?_, hfault⟩
    · have hnone : dump.AssertionInfo.isNone = false := hfails
      exact Option.isNone_eq_false_iff.mp hnone
    · rw [plan_of_dmp hcontent, List.find?_append] at hfind
      cases hbefore : beforeAssertion.find? (fails conditions upload) with
      | none => simpa using List.find?_eq_none.mp hbefore p hp
      | some q =>
        -- the first failure would lie before the assertion
        rw [hbefore, Option.some_or, Option.some.injEq] at hfind
        have hq := List.mem_of_find?_eq_some hbefore
        rw [hfind] at hq
        exact absurd hq (by decide)
  · rintro ⟨⟨dump, hcontent, hsome⟩, hbefore, hfault⟩
    have hfails : fails conditions upload (.build .assertion) = true := by
      have hnone : (Content.dmp dump).builds .assertion = false :=
        Option.isNone_eq_false_iff.mpr hsome
      rw [fails_build hcontent, hnone, Bool.not_false, Bool.or_true]
    have hnone : beforeAssertion.find? (fails conditions upload) = none :=
      List.find?_eq_none.mpr fun p hp => by simp [hbefore p hp]
    refine ⟨?_, hfault⟩
    rw [plan_of_dmp hcontent, List.find?_append, hnone, Option.none_or]
    exact List.find?_cons_of_pos hfails

end Assertion

/-! ### A machine with receivers -/

/-- The machine on which a receiver runs: its files, the readers, and the database as it is
when a file has been received. -/
structure Machine where
  replacement : Replacement
  creatable : String → Bool
  conditions : Conditions
  tables : Tables
  smeXMLReader : List UInt8 → Except RuntimeException Xml.Report
  smeMiniDumpReader : List UInt8 → Except RuntimeException MiniDump

namespace Machine

variable (machine : Machine)

/-- A received file and what the readers make of it. -/
def upload (insertion : Insertion) (filesel : FileSelection)
    (selected : selectFile insertion.dumpname = .ok filesel) : Upload where
  fileName := insertion.dumpname
  apikey := insertion.projectid
  filesel := filesel
  selected := selected
  smeXMLReader := machine.smeXMLReader insertion.file
  smeMiniDumpReader := machine.smeMiniDumpReader insertion.file

/-- The machine is what surrounds a receiver. -/
def environment : Environment where
  replacement := machine.replacement
  creatable := machine.creatable
  connects := !machine.conditions.faults .connect
  stores insertion filesel :=
    if selected : selectFile insertion.dumpname = .ok filesel then
      storing machine.conditions (machine.upload insertion filesel selected) machine.tables
    else .throws

variable {machine} {header : Header} {net body : Stream}

theorem storingReturns_iff (hopens : Opens machine.environment net header body)
    {file : List UInt8} :
    StoringReturns machine.environment header file ↔
      (machine.conditions.faults .connect = false → storing machine.conditions
        (machine.upload ⟨header.fileName, header.apikey, file⟩ header.filesel hopens.filesel_eq)
          machine.tables ≠ .endsProcess) := by
  have hstores : machine.environment.stores ⟨header.fileName, header.apikey, file⟩
      header.filesel = storing machine.conditions
        (machine.upload ⟨header.fileName, header.apikey, file⟩ header.filesel hopens.filesel_eq)
          machine.tables := dif_pos hopens.filesel_eq
  have hconnects : machine.environment.connects = true ↔
      machine.conditions.faults .connect = false := iff_of_eq (Bool.not_eq_true' _)
  rw [StoringReturns, hstores, hconnects]

/-- **When a receiver returns.** A receiver on a machine returns if and only if, where its
header opens a file that can be created, what is announced arrives, and the file that has
then been received does not end the process when it is stored. -/
theorem returns_iff (machine : Machine) (net : Stream) :
    Returns machine.environment net ↔
      ∀ header body (hopens : Opens machine.environment net header body),
        machine.creatable header.fileName = true → Announced header.fileLength body ∧
          ∀ k, CompleteAfter header.fileLength body k →
            machine.conditions.faults .connect = false →
              storing machine.conditions (machine.upload ⟨header.fileName, header.apikey,
                body.unread.take (body.consumed blockLength k)⟩ header.filesel
                hopens.filesel_eq) machine.tables ≠ .endsProcess := by
  rw [returns_iff_announced]
  refine forall₂_congr fun header body => forall_congr' fun hopens => ?_
  refine imp_congr_right fun _ => and_congr_right fun _ => forall₂_congr fun k _ => ?_
  exact storingReturns_iff hopens

end Machine

end SMEWindow.Server.Storage
