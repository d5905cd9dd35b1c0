import SMEWindow.Collect.DataDictionary
import SMEWindow.Server.InsertedRows

/-!
# From a caught exception to its row

The client describes an exception, the report carries the description as an element
tree, the server reads the tree and writes one row of `ExceptionInfo`. Each of the four
functions lists the fields by hand. The tree has no place for the text of the stack
trace, so `CallStack` is empty in every row.

## Main definitions

* `Server.RowOf` — a row tells what the exception tells
* `Server.StoresException` — the four functions end with such a row

## Main results

* `storesException_iff` — this is so exactly when there was no text of a stack trace, and
  no null in the dictionary of the exception
-/

set_option autoImplicit false

namespace SMEWindow.Server

open Collect Lib Lib.QuotedText Lib.InsertStatement Lib.Text

/-- The row has the name, the result, the link and the stack trace of the exception; null
texts are empty. -/
structure RowOf (e : ThrownException) (insert : Insert) : Prop where
  name_eq : insert.lookup "EName" = some e.typeName
  hresult_eq : insert.lookup "HResult" = some (intToString e.HResult)
  helpLink_eq : insert.lookup "HelpLink" = some (e.HelpLink.getD "")
  callStack_eq : insert.lookup "CallStack" = some (e.StackTrace.getD "")

/-- An exception that wraps no other is described, written, read and put into a row. The
other records of the report are those of `report`. -/
def StoresException (report : Xml.Report) (m_dumpid : Int32) (e : ThrownException) : Prop :=
  ∃ fuel info node loaded insert, construct fuel (.innermost e) = some (.ok info) ∧
    ExceptionInformation.toXElement info = .ok node ∧
    ExceptionInformation.loadFromXElement node = .ok loaded ∧
    parse (Statement.render (makeQueryforCSExceptionInfo
      { report with ExceptionInfo := loaded } m_dumpid)) = some insert ∧
    RowOf e insert

variable {e : ThrownException} {fields : ExceptionFields}

/-- The description of an exception that wraps no other has one level. -/
theorem exists_describe_of_construct {fuel : ℕ} {info : ExceptionInformation}
    (h : construct fuel (.innermost e) = some (.ok info)) :
    ∃ fields, e.describe = .ok fields ∧ info = .innermost fields := by
  cases fuel with
  | zero => cases h
  | succ fuel =>
    rw [construct] at h
    cases hfields : e.describe with
    | error error =>
      simp only [Chain.outermost, hfields] at h
      cases h
    | ok fields =>
      simp only [Chain.outermost, hfields, Chain.inner] at h
      exact ⟨fields, rfl, (Except.ok.inj (Option.some.inj h)).symm⟩

theorem exists_toXElement_innermost (h : fields.NoNullValues) :
    ∃ node, ExceptionInformation.toXElement (.innermost fields) = .ok node ∧
      ExceptionInformation.loadFromXElement node = .ok (.innermost fields.readBack) :=
  ExceptionInformation.exists_toXElement fun level hlevel => by
    rw [List.mem_singleton.mp hlevel]
    exact h

/-- The row of a description that was written and read. -/
theorem exists_parse_readBack (report : Xml.Report) (m_dumpid : Int32) (hcarries : Carries e fields)
    (hname : quote ∉ e.typeName.toList) (hhelpLink : quote ∉ (e.HelpLink.getD "").toList) :
    ∃ insert, parse (Statement.render (makeQueryforCSExceptionInfo
        { report with ExceptionInfo := .innermost fields.readBack } m_dumpid)) = some insert ∧
      insert.lookup "EName" = some e.typeName ∧
      insert.lookup "HResult" = some (intToString e.HResult) ∧
      insert.lookup "HelpLink" = some (e.HelpLink.getD "") ∧
      insert.lookup "CallStack" = some "" := by
  have hfields : exceptionFields fields.readBack =
      [("EName", e.typeName), ("HResult", intToString e.HResult),
        ("HelpLink", e.HelpLink.getD ""), ("Data", ""), ("CallStack", "")] := by
    simp only [exceptionFields, ExceptionFields.readBack, hcarries.name_eq, hcarries.hresult_eq,
      hcarries.helpLink_eq, Option.getD_some, Option.getD_none]
    rfl
  have hwrites := writes_makeQueryforCSExceptionInfo
    { report with ExceptionInfo := .innermost fields.readBack } m_dumpid
  rw [Chain.outermost, hfields] at hwrites
  obtain ⟨insert, hparse, hcolumns, hvalues⟩ := parse_of_writes hwrites (by
    simp only [List.forall_mem_append, List.forall_mem_cons]
    exact ⟨⟨hname, unquoted_intToString _, hhelpLink, unquoted_empty, unquoted_empty,
      unquoted_nil⟩, unquoted_intToString _, unquoted_nil⟩)
  refine ⟨insert, hparse, ?_, ?_, ?_, ?_⟩ <;> rw [lookup_of_parse hcolumns hvalues] <;> rfl

/-- What reaches the row was written, so there was no null in the dictionary, and its stack
trace is empty. -/
theorem StoresException.empty {report : Xml.Report} {m_dumpid : Int32}
    (h : StoresException report m_dumpid e)
    (hname : quote ∉ e.typeName.toList) (hhelpLink : quote ∉ (e.HelpLink.getD "").toList) :
    e.StackTrace.getD "" = "" ∧ ∀ entry ∈ e.Data.getD [], entry.2 ≠ none := by
  obtain ⟨fuel, info, node, loaded, insert, hinfo, hnode, hloaded, hparse, hrow⟩ := h
  obtain ⟨fields, hfields, rfl⟩ := exists_describe_of_construct hinfo
  have hcarries := ThrownException.carries_of_describe hfields
  have hvalues : fields.NoNullValues := ExceptionInformation.noNullValues_of_toXElement hnode
  obtain ⟨node', hnode', hload⟩ := exists_toXElement_innermost hvalues
  obtain rfl := Except.ok.inj (hnode'.symm.trans hnode)
  obtain rfl := Except.ok.inj (hload.symm.trans hloaded)
  obtain ⟨insert', hparse', -, -, -, hcallStack⟩ :=
    exists_parse_readBack report m_dumpid hcarries hname hhelpLink
  obtain rfl := Option.some.inj (hparse'.symm.trans hparse)
  refine ⟨Option.some.inj (hrow.callStack_eq.symm.trans hcallStack), ?_⟩
  rw [← hcarries.data_eq]
  exact hvalues

/-- **The row tells what the exception tells exactly when there is no stack trace to tell
of.** For every exception that wraps no other, with a name and a link without quotes:
describing, writing, reading and storing it ends with its name, result, link and stack
trace in the row if and only if the text of the stack trace is null or empty and no
value of its dictionary is null. -/
theorem storesException_iff (report : Xml.Report) (m_dumpid : Int32) (e : ThrownException)
    (hname : quote ∉ e.typeName.toList) (hhelpLink : quote ∉ (e.HelpLink.getD "").toList) :
    StoresException report m_dumpid e ↔
      e.StackTrace.getD "" = "" ∧ ∀ entry ∈ e.Data.getD [], entry.2 ≠ none := by
  constructor
  · intro h
    exact h.empty hname hhelpLink
  · rintro ⟨htrace, hvalues⟩
    obtain ⟨fields, hfields, hcarries⟩ := ThrownException.exists_describe
      (CallStack.exists_parseFromException_of_empty htrace)
    rw [← hcarries.data_eq] at hvalues
    obtain ⟨node, hnode, hload⟩ := exists_toXElement_innermost hvalues
    obtain ⟨insert, hparse, hEName, hHResult, hHelpLink, hCallStack⟩ :=
      exists_parse_readBack report m_dumpid hcarries hname hhelpLink
    refine ⟨1, .innermost fields, node, _, insert, ?_, hnode, hload, hparse, ?_⟩
    · simp only [construct, Chain.outermost, hfields, Chain.inner]
    · exact ⟨hEName, hHResult, hHelpLink, hCallStack.trans (congrArg some htrace.symm)⟩

/-- An exception that was never thrown is stored as it is. -/
theorem storesException_sample : StoresException Xml.sampleReport 0 sampleException :=
  (storesException_iff _ _ _ (by decide) (by decide)).mpr ⟨rfl, by decide⟩

/-- A thrown exception. -/
def thrownException : ThrownException :=
  { sampleException with StackTrace := some "   위치: A.f()" }

/-- The stack trace of a thrown exception is not stored. -/
theorem not_storesException_thrown :
    quote ∉ thrownException.typeName.toList ∧
      quote ∉ (thrownException.HelpLink.getD "").toList ∧
      quote ∉ (thrownException.StackTrace.getD "").toList ∧
      ¬ StoresException Xml.sampleReport 0 thrownException := by
  refine ⟨by decide, by decide, by decide, ?_⟩
  intro h
  exact absurd (h.empty (by decide) (by decide)).1 (by decide)

end SMEWindow.Server
