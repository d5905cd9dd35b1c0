import SMEWindow.Collect.ExceptionInformation
import SMEWindow.Collect.Information

/-!
# The report document

`SMEXMLWriter` puts the four records of a report into one element tree, and
`SMEXMLReader` takes the tree apart again, element after element.

## Main definitions

* `Xml.Report` — the four records of a managed crash report
* `Xml.smeXMLWriter`, `Xml.loadFromXML` — the constructor of the writer, and the
  reader

## Main results

* `loadFromXML_smeXMLWriter` — what was written is read back, and writing it
  again gives the same tree
-/

set_option autoImplicit false

namespace SMEWindow.Xml

open Lib.Element Lib.Text Collect

/-- The records of a managed crash report. -/
structure Report where
  ProjectInfo : ProjectInformation
  SystemInfo : SystemInformation
  ExceptionInfo : ExceptionInformation
  CallStackInfo : CallstackInformation

/-- The root element that the constructor of `SMEXMLWriter` builds. -/
def smeXMLWriter (report : Report) : Except RuntimeException Node := do
  let project ← report.ProjectInfo.toXElement
  let exception ← ExceptionInformation.toXElement report.ExceptionInfo
  return .element "SME" [project, report.SystemInfo.toXElement, exception,
    report.CallStackInfo.toXElement]

/-- `SMEXMLReader.LoadFromXML` on the first node of the document. -/
def loadFromXML (root : Node) : Except RuntimeException Report :=
  match root with
  | .text _ => .error .invalidCast
  | .element name nodes =>
    if name = "SME" then do
      let el ← atElement nodes
      let projectInfo ← ProjectInformation.loadFromXElement el.node
      let el ← atElement el.following
      let systemInfo ← SystemInformation.loadFromXElement el.node
      let el ← atElement el.following
      let exceptionInfo ← ExceptionInformation.loadFromXElement el.node
      let el ← atElement el.following
      let callStackInfo ← CallstackInformation.loadFromXElement el.node
      return ⟨projectInfo, systemInfo, exceptionInfo, callStackInfo⟩
    else .error (.raised "SME XML 파일이 아닙니다.")

/-- The report has a version, a platform that the reader knows, and no `Data` at
any level of its exception. -/
structure Report.Plain (report : Report) : Prop where
  version : report.ProjectInfo.m_Version ≠ none
  platform : report.SystemInfo.PlatformID.Recognised
  data : ExceptionInformation.NoData report.ExceptionInfo

/-- What a report reads back as: null texts become empty, null lists of frames
become empty ones, and the texts of stack traces are not kept. -/
def Report.readBack (report : Report) : Report where
  ProjectInfo := report.ProjectInfo.readBack
  SystemInfo := report.SystemInfo.readBack
  ExceptionInfo := ExceptionInformation.readBack report.ExceptionInfo
  CallStackInfo := report.CallStackInfo.readBack

variable {report : Report}

/-- The tree of a plain report. -/
theorem smeXMLWriter_of_plain (h : report.Plain) :
    ∃ project, report.ProjectInfo.toXElement = .ok project ∧
      smeXMLWriter report = .ok (.element "SME" [project, report.SystemInfo.toXElement,
        ExceptionInformation.plainTree report.ExceptionInfo,
        report.CallStackInfo.toXElement]) := by
  obtain ⟨version, hversion⟩ := Option.ne_none_iff_exists'.mp h.version
  refine ⟨.element "ProjectInformation" [leaf "Name" report.ProjectInfo.Name,
    leaf "Version" (some version.toText)], ?_, ?_⟩
  · rw [ProjectInformation.toXElement, hversion]
  · rw [smeXMLWriter, ProjectInformation.toXElement, hversion,
      ExceptionInformation.toXElement_of_noData _ h.data]
    rfl

theorem Report.Plain.readBack (h : report.Plain) : report.readBack.Plain :=
  ⟨h.version, h.platform, ExceptionInformation.noData_readBack _⟩

theorem isElement_plainTree (info : ExceptionInformation) :
    (ExceptionInformation.plainTree info).isElement = true := by
  cases info <;> rfl

theorem isElement_of_toXElement {info : ProjectInformation} {node : Node}
    (h : info.toXElement = .ok node) : node.isElement = true := by
  unfold ProjectInformation.toXElement at h
  split at h
  · cases h
  · obtain rfl := Except.ok.inj h
    rfl

/-- The reader takes the four records one after the other. -/
theorem loadFromXML_eq_ok {project system exception callStack : Node} {back : Report}
    (hproject : project.isElement = true) (hsystem : system.isElement = true)
    (hexception : exception.isElement = true) (hcallStack : callStack.isElement = true)
    (hprojectInfo : ProjectInformation.loadFromXElement project = .ok back.ProjectInfo)
    (hsystemInfo : SystemInformation.loadFromXElement system = .ok back.SystemInfo)
    (hexceptionInfo : ExceptionInformation.loadFromXElement exception = .ok back.ExceptionInfo)
    (hcallStackInfo : CallstackInformation.loadFromXElement callStack = .ok back.CallStackInfo) :
    loadFromXML (.element "SME" [project, system, exception, callStack]) = .ok back := by
  obtain ⟨c1, h1, hnode1, hnext1⟩ := exists_atElement hproject [system, exception, callStack]
  obtain ⟨c2, h2, hnode2, hnext2⟩ := exists_atElement hsystem [exception, callStack]
  obtain ⟨c3, h3, hnode3, hnext3⟩ := exists_atElement hexception [callStack]
  obtain ⟨c4, h4, hnode4, -⟩ := exists_atElement hcallStack []
  simp only [loadFromXML, if_true, h1, ok_bind, hnode1, hprojectInfo, hnext1, h2, hnode2,
    hsystemInfo, hnext2, h3, hnode3, hexceptionInfo, hnext3, h4, hnode4, hcallStackInfo]
  rfl

theorem loadFromXML_of_plain (h : report.Plain) {tree : Node}
    (htree : smeXMLWriter report = .ok tree) : loadFromXML tree = .ok report.readBack := by
  obtain ⟨project, hproject, htree'⟩ := smeXMLWriter_of_plain h
  obtain rfl := Except.ok.inj (htree.symm.trans htree')
  refine loadFromXML_eq_ok (isElement_of_toXElement hproject) rfl (isElement_plainTree _) rfl
    ?_ ?_ ?_ ?_
  · exact ProjectInformation.load_toXElement hproject
  · exact SystemInformation.load_toXElement _ h.platform
  · exact ExceptionInformation.load_plainTree _
  · exact CallstackInformation.load_toXElement _

/-- **What was written is read back.** For a report without `Data`, whose
platform the reader knows, the writer builds a tree from which the reader gets
the same report, up to null texts and lists, at every depth of nesting and for
every number of frames; and writing that report again gives the same tree. -/
theorem loadFromXML_smeXMLWriter (report : Report) (h : report.Plain) :
    ∃ tree, smeXMLWriter report = .ok tree ∧ loadFromXML tree = .ok report.readBack ∧
      smeXMLWriter report.readBack = .ok tree := by
  obtain ⟨project, hproject, htree⟩ := smeXMLWriter_of_plain h
  obtain ⟨project', hproject', htree'⟩ := smeXMLWriter_of_plain h.readBack
  refine ⟨_, htree, loadFromXML_of_plain h htree, ?_⟩
  have hsame : project' = project := by
    rw [Report.readBack, ProjectInformation.toXElement_readBack, hproject] at hproject'
    exact (Except.ok.inj hproject').symm
  rw [htree', hsame]
  simp only [Report.readBack, SystemInformation.toXElement_readBack,
    ExceptionInformation.plainTree_readBack, CallstackInformation.toXElement_readBack]

/-- A report with an inner exception, frames and null texts. -/
def sampleReport : Report where
  ProjectInfo := .ofNameVersion none none
  SystemInfo := ⟨.Win32NT, none, ProjectInformation.zeroVersion, ProjectInformation.zeroVersion,
    true, false⟩
  ExceptionInfo := .wrapping ⟨some "A", none, -1, some "m", none, none, some [⟨none, none, 3⟩]⟩
    (.innermost ⟨some "B", some "", 0, none, some [], some "trace", none⟩)
  CallStackInfo := ⟨[⟨some "f()", none, 0⟩]⟩

/-- The round trip covers nested exceptions and null texts. -/
theorem loadFromXML_smeXMLWriter_sample :
    ∃ tree, smeXMLWriter sampleReport = .ok tree ∧
      loadFromXML tree = .ok sampleReport.readBack ∧
      smeXMLWriter sampleReport.readBack = .ok tree :=
  loadFromXML_smeXMLWriter sampleReport
    ⟨by decide, by decide, by unfold ExceptionInformation.NoData; decide⟩

end SMEWindow.Xml
