import SMEWindow.Lib.Transition
import SMEWindow.Server.SMEDBManager

/-!
# The rows of an exception and its inner exceptions

`SaveCSDumpData` stores the outermost exception of a report, and if it has an inner
exception it looks for the `Exp_ID` of the row it has just inserted, by its dump id,
and stores the inner exception with this `Exp_ID` as its `InnerExp`. A database may
return the rows of a selection in any order, and the last of them counts.

Any number of calls run at once; each SQL statement is one atomic action, which does what
its text says, and each of them may fail, which ends its call. A text of a report with a
quote in it can make the statement add other rows than the one that was meant.

## Main definitions

* `ExceptionRows.system` — the interleaving of all calls
* `ExceptionRows.Executed` — what one statement of a call can do
* `ExceptionRows.Linked` — rows carry their own dump id, and inner rows refer to the
  outer row of their own call

## Main results

* `linked_of_fresh` — calls with fresh dump ids of their own do not get in each
  other's way
-/

set_option autoImplicit false

namespace SMEWindow.Server.ExceptionRows

open Collect Lib Lib.IdentityTable Lib.QuotedText Lib.SharedDatabase Lib.StatementExecution
open Lib.Text Lib.Transition

/-- The members of `SMEDBManager` that `SaveCSDumpData` looks at. -/
structure Call where
  m_dumpid : Int32
  m_smecollector : Xml.Report

namespace Call

variable (call : Call)

/-- The exception of the report. -/
def exception : ExceptionInformation := call.m_smecollector.ExceptionInfo

/-- The report, as what the statements are built from. -/
def content : Content := .xml call.m_smecollector

end Call

/-- The next statement of `SaveCSDumpData`. -/
inductive Pc
  | projectInfo | systemInfo | exceptionInfo | select
  /-- The `Exp_ID` that was found. -/
  | innerExceptionInfo (exception_id : Int32)
  | callStackInfo | ended | failed
  deriving DecidableEq, Repr

/-- One statement of one call. -/
inductive Label (ι : Type*)
  /-- The next statement is executed; an insertion skips `gap` identity values, and a
  selection returns its rows in some order. -/
  | execute (i : ι) (gap : ℕ) (order : Order)
  /-- The next statement, or what builds it, throws. -/
  | throw (i : ι)

/-- The function whose statement `SaveCSDumpData` inserts next, the `Exp_ID` it is given, and
where it goes on. -/
def Call.next (call : Call) : Pc → Option (Builder × Int32 × Pc)
  | .projectInfo => some (.csProjectInfo, 0, .systemInfo)
  | .systemInfo => some (.csSystemInfo, 0, .exceptionInfo)
  | .exceptionInfo =>
    some (.csExceptionInfo, 0, if call.exception.inner.isSome then .select else .callStackInfo)
  | .innerExceptionInfo exception_id => some (.innerCSExceptionInfo, exception_id, .callStackInfo)
  | .callStackInfo => some (.csCallStackInfo, 0, .ended)
  | .select | .ended | .failed => none

section Steps

variable {ι : Type*} [DecidableEq ι] (engine : Engine) (host : Host) (calls : ι → Call)

/-- `SaveCSDumpData`, one statement at a time. -/
def executeStep (s : State ι Pc) (i : ι) (gap : ℕ) (order : Order) : Option (State ι Pc) :=
  match s.pc i with
  | .select =>
    some (s.execute engine storedTables i gap
      (Statement.render (selectExp_IDOfDump (calls i).m_dumpid)) .failed
      fun found => .innerExceptionInfo (getExcetpionID (order.ids found)))
  | pc =>
    ((calls i).next pc).map fun (b, exceptionid, next) =>
      insertDatabase engine host s i gap (calls i).content (calls i).m_dumpid exceptionid b
        .failed next

/-- All calls, over the given contents of the database. -/
def system (d : Tables) : System (State ι Pc) (Label ι) where
  init := ⟨d, [], fun _ => .projectInfo⟩
  step s
    | .execute i gap order => executeStep engine host calls s i gap order
    | .throw i => some (s.goto i .failed)

end Steps

/-! ### What a statement can do -/

section Executed

variable {ι : Type*} [DecidableEq ι]

/-- The `Exp_ID`s of the rows of `ExceptionInfo` under a dump id. -/
def selected (engine : Engine) (exceptionInfo : Table Record) (dumpid : Int32) : List ℕ :=
  exceptionInfo.select (engine.selects "ExceptionInfo" "DumpsDump_ID" (intToString dumpid))

/-- What `GetExcetpionID` returns if the rows come in this order. -/
def Call.found (call : Call) (engine : Engine) (exceptionInfo : Table Record) (order : Order) :
    Int32 :=
  getExcetpionID (order.ids (selected engine exceptionInfo call.m_dumpid))

/-- The row that a function of a call is meant to add. -/
def Call.addition (call : Call) (host : Host) (gap : ℕ) (exceptionid : Int32) (b : Builder) :
    Addition :=
  ⟨tableName b, gap, call.content.record host call.m_dumpid exceptionid b⟩

/-- The state after one statement of a call. -/
inductive Executed (engine : Engine) (host : Host) (call : Call) (s : State ι Pc) (i : ι) (gap : ℕ)
    (order : Order) : State ι Pc → Prop
  | insert {b : Builder} {exceptionid : Int32} {next : Pc}
    (hnext : call.next (s.pc i) = some (b, exceptionid, next))
    (hbuilds : call.content.builds b = true) :
    Executed engine host call s i gap order (s.executed storedTables i
      (add s.tables (call.addition host gap exceptionid b)) next)
  | null {b : Builder} {exceptionid : Int32} {next : Pc}
    (hnext : call.next (s.pc i) = some (b, exceptionid, next))
    (hbuilds : call.content.builds b = false) :
    Executed engine host call s i gap order (s.goto i .failed)
  | select (hpc : s.pc i = .select) :
    Executed engine host call s i gap order
      (s.goto i (.innerExceptionInfo (call.found engine (s.tables "ExceptionInfo") order)))

variable {engine : Engine} {host : Host} (calls : ι → Call) {s t : State ι Pc} {i : ι} {gap : ℕ}
  {order : Order}

theorem executeStep_of_next {b : Builder} {exceptionid : Int32} {next : Pc}
    (hnext : (calls i).next (s.pc i) = some (b, exceptionid, next)) :
    executeStep engine host calls s i gap order =
      some (insertDatabase engine host s i gap (calls i).content (calls i).m_dumpid exceptionid b
        .failed next) := by
  unfold executeStep
  split
  · next hpc =>
    rw [hpc] at hnext
    cases hnext
  · rw [hnext]
    rfl

theorem executeStep_of_select (hpc : s.pc i = .select) :
    executeStep engine host calls s i gap order =
      some (s.goto i (.innerExceptionInfo
        ((calls i).found engine (s.tables "ExceptionInfo") order))) := by
  unfold executeStep
  rw [hpc]
  dsimp only
  rw [State.execute_of_eq_some execute_selectExp_IDOfDump, State.executed_self]
  rfl

/-- If the quotes in its texts are doubled, a call does nothing but what is meant. -/
theorem executed_of_executeStep (hdoubled : ∀ t ∈ (calls i).content.texts host, Doubled t)
    (hstep : executeStep engine host calls s i gap order = some t) :
    Executed engine host (calls i) s i gap order t := by
  by_cases hpc : s.pc i = .select
  · rw [executeStep_of_select calls hpc] at hstep
    obtain rfl := Option.some.inj hstep
    exact .select hpc
  · cases hnext : (calls i).next (s.pc i) with
    | none =>
      unfold executeStep at hstep
      split at hstep
      · next hselect => exact absurd hselect hpc
      · rw [hnext] at hstep
        cases hstep
    | some step =>
      obtain ⟨b, exceptionid, next⟩ := step
      rw [executeStep_of_next calls hnext] at hstep
      obtain rfl := Option.some.inj hstep
      cases hbuilds : (calls i).content.builds b with
      | true =>
        rw [insertDatabase_of_builds hdoubled hbuilds]
        exact .insert hnext hbuilds
      | false =>
        rw [insertDatabase_of_not_builds hbuilds]
        exact .null hnext hbuilds

theorem Executed.executeStep_eq_some (hdoubled : ∀ t ∈ (calls i).content.texts host, Doubled t)
    (h : Executed engine host (calls i) s i gap order t) :
    executeStep engine host calls s i gap order = some t := by
  cases h with
  | insert hnext hbuilds =>
    rw [executeStep_of_next calls hnext, insertDatabase_of_builds hdoubled hbuilds]
    rfl
  | null hnext hbuilds =>
    rw [executeStep_of_next calls hnext, insertDatabase_of_not_builds hbuilds]
  | select hpc => exact executeStep_of_select calls hpc

end Executed

/-! ### The rows of a report -/

section Rows

variable {host : Host} {call : Call} {b : Builder} {exceptionid : Int32} {pc next : Pc} {gap : ℕ}

/-- A function that `SaveCSDumpData` calls. -/
theorem Call.addsRow_of_next (hnext : call.next pc = some (b, exceptionid, next)) :
    b.addsRow = true := by
  cases pc with
  | select | ended | failed => cases hnext
  | projectInfo | systemInfo | exceptionInfo | innerExceptionInfo exception_id | callStackInfo =>
    cases hnext
    rfl

theorem Call.table_mem (hnext : call.next pc = some (b, exceptionid, next)) :
    (call.addition host gap exceptionid b).table ∈ storedTables :=
  tableName_mem_storedTables (addsRow_of_next hnext)

/-- The columns of the two kinds of rows in `ExceptionInfo`. -/
theorem Call.lookup_exceptionInfo (host : Host) (call : Call) (exceptionid : Int32) :
    (call.content.record host call.m_dumpid exceptionid .csExceptionInfo).lookup "InnerExp" = none ∧
      (call.content.record host call.m_dumpid exceptionid .innerCSExceptionInfo).lookup "InnerExp" =
        some (intToString exceptionid) := by
  constructor
  · rw [Content.record, lookup_record]
    rfl
  · rw [Content.record, lookup_record]
    exact congrArg some (undoubled_intToString exceptionid)

end Rows

/-! ### Links -/

section Links

variable {ι : Type*}

/-- The row is that of an outermost exception. -/
def IsOuter (a : Added ι) : Prop :=
  a.table = "ExceptionInfo" ∧ a.record.lookup "InnerExp" = none

/-- Every row that was not there before carries the dump id of its call, a call has one outer
row at most, and an inner row refers to the outer row of its own call. -/
structure Linked (d : Tables) (calls : ι → Call) (s : State ι Pc) : Prop extends Accounts d s where
  own_dump : ∀ a ∈ s.added,
    a.record.lookup "DumpsDump_ID" = some (intToString (calls a.owner).m_dumpid)
  outer_unique : ∀ a ∈ s.added, ∀ b ∈ s.added, a.owner = b.owner → IsOuter a → IsOuter b → a = b
  own_outer : ∀ a ∈ s.added, a.table = "ExceptionInfo" → ∀ text,
    a.record.lookup "InnerExp" = some text →
      ∃ b ∈ s.added, b.owner = a.owner ∧ IsOuter b ∧ text = intToString (Int32.ofNat b.id)

/-- The calls have dump ids of their own, and none of these has a row yet. -/
structure Fresh (engine : Engine) (d : Tables) (calls : ι → Call) : Prop where
  distinct : ∀ i j, i ≠ j → (calls i).m_dumpid ≠ (calls j).m_dumpid
  no_earlier : ∀ i, ∀ row ∈ (d "ExceptionInfo").rows, engine.selects "ExceptionInfo"
    "DumpsDump_ID" (intToString (calls i).m_dumpid) row.2 = false

/-- What has been added by a call that is at `pc`. -/
def Phase (added : List (Added ι)) (i : ι) : Pc → Prop
  | .projectInfo | .systemInfo | .exceptionInfo =>
    ∀ a ∈ added, a.table = "ExceptionInfo" → a.owner ≠ i
  | .select =>
    (∃ a ∈ added, IsOuter a ∧ a.owner = i) ∧
      ∀ a ∈ added, a.table = "ExceptionInfo" → a.owner = i → IsOuter a
  | .innerExceptionInfo id => ∃ b ∈ added, b.owner = i ∧ IsOuter b ∧ id = Int32.ofNat b.id
  | .callStackInfo | .ended | .failed => True

structure Invariant (d : Tables) (calls : ι → Call) (s : State ι Pc) : Prop
    extends Linked d calls s where
  phase : ∀ j, Phase s.added j (s.pc j)

end Links

/-! ### Calls do not get in each other's way -/

section Invariance

variable {ι : Type*} {engine : SqlEngine} {host : Host} {d : Tables} {calls : ι → Call}
  {s t : State ι Pc} {i j : ι} {pc : Pc} {a : Added ι} {added added' : List (Added ι)} {gap : ℕ}
  {order : Order} {ids : List ℕ} {addition : Addition} {b : Builder} {exceptionid : Int32}

/-- A new row of `ExceptionInfo` concerns no call but its own. -/
theorem Phase.mono (hphase : Phase added j pc) (hsub : ∀ a ∈ added, a ∈ added')
    (hnew : ∀ a ∈ added', a ∉ added → a.table = "ExceptionInfo" → a.owner ≠ j) :
    Phase added' j pc := by
  have hbefore : (∀ a ∈ added, a.table = "ExceptionInfo" → a.owner ≠ j) →
      ∀ a ∈ added', a.table = "ExceptionInfo" → a.owner ≠ j := by
    intro hnone a ha
    by_cases hmem : a ∈ added
    · exact hnone a hmem
    · exact hnew a ha hmem
  cases pc with
  | projectInfo => exact hbefore hphase
  | systemInfo => exact hbefore hphase
  | exceptionInfo => exact hbefore hphase
  | select =>
    obtain ⟨⟨b, hb, hrest⟩, houter⟩ := hphase
    refine ⟨⟨b, hsub b hb, hrest⟩, fun a ha htable howner => ?_⟩
    by_cases hmem : a ∈ added
    · exact houter a hmem htable howner
    · exact absurd howner (hnew a ha hmem htable)
  | innerExceptionInfo id =>
    obtain ⟨b, hb, hrest⟩ := hphase
    exact ⟨b, hsub b hb, hrest⟩
  | callStackInfo => trivial
  | ended => trivial
  | failed => trivial

theorem getExcetpionID_eq {id : ℕ} (hne : ids ≠ []) (hids : ∀ id' ∈ ids, id' = id) :
    getExcetpionID ids = Int32.ofNat id := by
  rcases List.eq_nil_or_concat ids with rfl | ⟨before, last, rfl⟩
  · exact absurd rfl hne
  · rw [List.concat_eq_append, getExcetpionID_concat,
      hids last (by rw [List.concat_eq_append]; exact List.mem_concat_self)]

namespace Invariant

/-- While a call looks for its outer row, this is all that there is to be found. -/
theorem found_eq (h : Invariant d calls s) (hfresh : Fresh engine.toEngine d calls)
    (hpc : s.pc i = .select) (order : Order) :
    ∃ b ∈ s.added, b.owner = i ∧ IsOuter b ∧
      (calls i).found engine.toEngine (s.tables "ExceptionInfo") order = Int32.ofNat b.id := by
  have hphase := h.phase i
  rw [hpc] at hphase
  obtain ⟨⟨b, hb, hbouter, howner⟩, houter⟩ := hphase
  refine ⟨b, hb, howner, hbouter, ?_⟩
  set found := selected engine.toEngine (s.tables "ExceptionInfo") (calls i).m_dumpid
  have hmem : ∀ id, id ∈ order.ids found ↔
      ∃ record, (id, record) ∈ (s.tables "ExceptionInfo").rows ∧ engine.toEngine.selects
        "ExceptionInfo" "DumpsDump_ID" (intToString (calls i).m_dumpid) record = true := by
    intro id
    rw [(order.perm _).mem_iff]
    exact Table.mem_select
  have hfound : b.id ∈ order.ids found := by
    refine (hmem b.id).mpr ⟨b.record, ?_, ?_⟩
    · have hrow := h.stored b hb
      rw [hbouter.1] at hrow
      exact hrow
    · rw [selects_of_lookup (h.own_dump b hb), howner]
      exact engine.same_self ..
  refine getExcetpionID_eq (List.ne_nil_of_mem hfound) fun id hid => ?_
  obtain ⟨record, hrow, hselected⟩ := (hmem id).mp hid
  -- a matching row is neither older than the calls nor that of another call
  rcases h.origin "ExceptionInfo" _ hrow with hearlier | ⟨c, hc, htable, hrow'⟩
  · rw [hfresh.no_earlier i _ hearlier] at hselected
    cases hselected
  · obtain ⟨rfl, rfl⟩ := Prod.mk.inj hrow'
    have howner' : c.owner = i := by
      by_contra hother
      rw [selects_of_lookup (h.own_dump c hc)] at hselected
      exact hfresh.distinct _ _ hother (engine.same_dumpid _ _ hselected)
    rw [h.outer_unique c hc b hb (howner'.trans howner.symm) (houter c hc htable howner') hbouter]

variable [DecidableEq ι]

/-- A call moves on without the database. -/
theorem goto (h : Invariant d calls s) (hphase : Phase s.added i pc) :
    Invariant d calls (s.goto i pc) := by
  refine ⟨⟨h.toAccounts.goto, h.own_dump, h.outer_unique, h.own_outer⟩, fun j => ?_⟩
  by_cases hj : j = i
  · rw [hj, State.goto_pc]
    exact hphase
  · rw [State.goto_pc_of_ne hj]
    exact h.phase j

/-- A call adds a row of its own: no row of `ExceptionInfo`, the outer one if it has none yet,
or one that refers to its outer one. -/
theorem executed_add (h : Invariant d calls s) (hmem : addition.table ∈ storedTables)
    (hdump : addition.record.lookup "DumpsDump_ID" = some (intToString (calls i).m_dumpid))
    (houter : addition.table = "ExceptionInfo" → addition.record.lookup "InnerExp" = none →
      ∀ a ∈ s.added, IsOuter a → a.owner ≠ i)
    (hinner : addition.table = "ExceptionInfo" → ∀ text,
      addition.record.lookup "InnerExp" = some text →
        ∃ b ∈ s.added, b.owner = i ∧ IsOuter b ∧ text = intToString (Int32.ofNat b.id))
    (hphase : Phase (s.executed storedTables i (add s.tables addition) pc).added i pc) :
    Invariant d calls (s.executed storedTables i (add s.tables addition) pc) := by
  have hadded : ∀ a, a ∈ (s.executed storedTables i (add s.tables addition) pc).added ↔
      a = newRow i s.tables addition ∨ a ∈ s.added := fun a => State.mem_added_executed_add hmem
  refine ⟨⟨h.toAccounts.executed_add hmem, fun a ha => ?_, fun a ha b hb howner hao hbo => ?_,
    fun a ha htable text htext => ?_⟩, fun j => ?_⟩
  · rcases (hadded a).mp ha with rfl | ha
    · exact hdump
    · exact h.own_dump a ha
  -- one of the two is new: then the call had no outer row before
  · rcases (hadded a).mp ha with rfl | ha <;> rcases (hadded b).mp hb with rfl | hb
    · rfl
    · exact absurd howner.symm (houter hao.1 hao.2 b hb hbo)
    · exact absurd howner (houter hbo.1 hbo.2 a ha hao)
    · exact h.outer_unique a ha b hb howner hao hbo
  · have hfound : ∃ b ∈ s.added, b.owner = a.owner ∧ IsOuter b ∧
        text = intToString (Int32.ofNat b.id) := by
      rcases (hadded a).mp ha with rfl | ha
      · exact hinner htable text htext
      · exact h.own_outer a ha htable text htext
    obtain ⟨b, hb, hrest⟩ := hfound
    exact ⟨b, (hadded b).mpr (.inr hb), hrest⟩
  · by_cases hj : j = i
    · rw [hj, State.executed_pc]
      exact hphase
    · rw [State.executed_pc_of_ne hj]
      refine (h.phase j).mono (fun a ha => (hadded a).mpr (.inr ha)) fun a ha hnew _ => ?_
      rcases (hadded a).mp ha with rfl | ha
      · exact Ne.symm hj
      · exact absurd ha hnew

/-- A call adds a row to another table. -/
theorem executed_other (h : Invariant d calls s) (hmem : addition.table ∈ storedTables)
    (hdump : addition.record.lookup "DumpsDump_ID" = some (intToString (calls i).m_dumpid))
    (htable : addition.table ≠ "ExceptionInfo") (hphase : Phase s.added i pc) :
    Invariant d calls (s.executed storedTables i (add s.tables addition) pc) := by
  refine h.executed_add hmem hdump (fun heq => absurd heq htable) (fun heq => absurd heq htable)
    (hphase.mono (fun a ha => (State.mem_added_executed_add hmem).mpr (.inr ha))
      fun a ha hnew hexception => ?_)
  rcases (State.mem_added_executed_add hmem).mp ha with rfl | ha
  · exact absurd hexception htable
  · exact absurd ha hnew

/-- A call adds its outer row. -/
theorem executed_outer (h : Invariant d calls s) (hmem : addition.table ∈ storedTables)
    (hdump : addition.record.lookup "DumpsDump_ID" = some (intToString (calls i).m_dumpid))
    (hphase : Phase s.added i .exceptionInfo) (houter : IsOuter (newRow i s.tables addition))
    (hpc : pc = .select ∨ pc = .callStackInfo) :
    Invariant d calls (s.executed storedTables i (add s.tables addition) pc) := by
  refine h.executed_add hmem hdump (fun _ _ a ha hao => hphase a ha hao.1)
    (fun _ text htext => ?_) ?_
  · cases houter.2.symm.trans htext
  · rcases hpc with rfl | rfl
    · -- its only row is the one it has just added
      refine ⟨⟨_, (State.mem_added_executed_add hmem).mpr (.inl rfl), houter, rfl⟩,
        fun a ha htable howner => ?_⟩
      rcases (State.mem_added_executed_add hmem).mp ha with rfl | ha
      · exact houter
      · exact absurd howner (hphase a ha htable)
    · trivial

/-- A call adds an inner row, with the `Exp_ID` that it has found. -/
theorem executed_inner (h : Invariant d calls s) (hmem : addition.table ∈ storedTables)
    (hdump : addition.record.lookup "DumpsDump_ID" = some (intToString (calls i).m_dumpid))
    (hphase : Phase s.added i (.innerExceptionInfo exceptionid))
    (hinner : addition.record.lookup "InnerExp" = some (intToString exceptionid)) :
    Invariant d calls (s.executed storedTables i (add s.tables addition) .callStackInfo) := by
  obtain ⟨b, hb, howner, hbouter, hid⟩ := hphase
  refine h.executed_add hmem hdump (fun _ hnone => ?_) (fun _ text htext => ?_) trivial
  · cases hinner.symm.trans hnone
  · refine ⟨b, hb, howner, hbouter, ?_⟩
    rw [← hid]
    exact Option.some.inj (htext.symm.trans hinner)

/-- One statement of one call. -/
theorem executed (h : Invariant d calls s) (hfresh : Fresh engine.toEngine d calls)
    (hstep : Executed engine.toEngine host (calls i) s i gap order t) : Invariant d calls t := by
  have hphase := h.phase i
  cases hstep with
  | null hnext hbuilds => exact h.goto trivial
  | select hpc => exact h.goto (h.found_eq hfresh hpc order)
  | @insert b exceptionid next hnext hbuilds =>
    have hmem : ((calls i).addition host gap exceptionid b).table ∈ storedTables :=
      Call.table_mem hnext
    have hdump : ((calls i).addition host gap exceptionid b).record.lookup "DumpsDump_ID" =
        some (intToString (calls i).m_dumpid) := Content.lookup_record_dumpid hbuilds
    cases hpc : s.pc i with
    | select | ended | failed =>
      rw [hpc] at hnext
      cases hnext
    | projectInfo =>
      rw [hpc] at hnext hphase
      cases hnext
      have htable : tableName .csProjectInfo ≠ "ExceptionInfo" := by decide
      exact h.executed_other hmem hdump htable hphase
    | systemInfo =>
      rw [hpc] at hnext hphase
      cases hnext
      have htable : tableName .csSystemInfo ≠ "ExceptionInfo" := by decide
      exact h.executed_other hmem hdump htable hphase
    | callStackInfo =>
      rw [hpc] at hnext
      cases hnext
      have htable : tableName .csCallStackInfo ≠ "ExceptionInfo" := by decide
      exact h.executed_other hmem hdump htable trivial
    | exceptionInfo =>
      rw [hpc] at hnext hphase
      cases hnext
      refine h.executed_outer hmem hdump hphase
        ⟨rfl, (Call.lookup_exceptionInfo host (calls i) 0).1⟩ ?_
      split
      · exact .inl rfl
      · exact .inr rfl
    | innerExceptionInfo exception_id =>
      rw [hpc] at hnext hphase
      cases hnext
      exact h.executed_inner hmem hdump hphase
        (Call.lookup_exceptionInfo host (calls i) exceptionid).2

theorem init (d : Tables) (calls : ι → Call) :
    Invariant d calls (system engine.toEngine host calls d).init where
  toAccounts := .init ..
  own_dump _ ha := (List.not_mem_nil ha).elim
  outer_unique _ ha := (List.not_mem_nil ha).elim
  own_outer _ ha := (List.not_mem_nil ha).elim
  phase _ _ ha := (List.not_mem_nil ha).elim

end Invariant

variable [DecidableEq ι]

/-- **Calls do not get in each other's way.** If the quotes in the texts of the reports are
doubled, and all calls have dump ids of their own that no row carries yet, then however their
statements interleave, and whichever of them fail, every row carries the dump id of its call,
and inner rows refer to the outer row of their own call. -/
theorem linked_of_fresh (hdoubled : ∀ i, ∀ t ∈ (calls i).content.texts host, Doubled t)
    (hfresh : Fresh engine.toEngine d calls)
    (hs : (system engine.toEngine host calls d).Reachable Set.univ s) : Linked d calls s := by
  have hinv : Invariant d calls s := by
    refine hs.invariant _ (Invariant.init d calls) fun s l t h _ hstep => ?_
    cases l with
    | execute i gap order =>
      exact h.executed hfresh (executed_of_executeStep calls (hdoubled i) hstep)
    | throw i =>
      obtain rfl := Option.some.inj hstep
      exact h.goto trivial
  exact hinv.toLinked

end Invariance

/-- Calls over a database without rows. -/
abbrev sampleSystem {ι : Type} [DecidableEq ι] (calls : ι → Call) :
    System (State ι Pc) (Label ι) :=
  system SqlEngine.binary.toEngine sampleHost calls noRows

theorem fresh_noRows {ι : Type} {calls : ι → Call}
    (hdistinct : ∀ i j, i ≠ j → (calls i).m_dumpid ≠ (calls j).m_dumpid) :
    Fresh SqlEngine.binary.toEngine noRows calls :=
  ⟨hdistinct, fun _ _ hrow => (List.not_mem_nil hrow).elim⟩

/-- Two calls that store a report with an inner exception. -/
def sampleCalls : Bool → Call
  | false => ⟨1, Xml.sampleReport.readBack⟩
  | true => ⟨2, Xml.sampleReport.readBack⟩

/-- Both outer rows are there before either call looks for its own. -/
def sampleRun : List (Label Bool) :=
  [false, false, false, true, true, true, true, false, true, false].map
    fun i => .execute i 0 .reverse

theorem linked_of_fresh_sample :
    ∃ s, (sampleSystem sampleCalls).Reachable Set.univ s ∧
      (s.added.filter fun a => a.table = "ExceptionInfo").map
          (fun a => (a.owner, a.id, a.record.lookup "InnerExp")) =
        [(false, 3, some "0"), (true, 2, some "1"), (true, 1, none), (false, 0, none)] ∧
      Linked noRows sampleCalls s := by
  have hrun : ((sampleSystem sampleCalls).run (sampleSystem sampleCalls).init sampleRun).map
      (fun s => (s.added.filter fun a => a.table = "ExceptionInfo").map
        fun a => (a.owner, a.id, a.record.lookup "InnerExp")) =
      some [(false, 3, some "0"), (true, 2, some "1"), (true, 1, none), (false, 0, none)] := by
    decide +kernel
  obtain ⟨s, hs, hrows⟩ := Option.map_eq_some_iff.mp hrun
  have hreach : (sampleSystem sampleCalls).Reachable Set.univ s :=
    ⟨_, fun _ _ => Set.mem_univ _, hs⟩
  exact ⟨s, hreach, hrows, linked_of_fresh (by decide +kernel) (fresh_noRows (by decide)) hreach⟩

/-- A report whose help link ends the literal and the row, and begins another row. -/
def quotedReport : Xml.Report :=
  { Xml.sampleReport with
    ExceptionInfo := .innermost
      ⟨some "N", some "','','','2'),('E','0','", 0, none, none, none, none⟩ }

/-- One call that stores this report under dump id 1. -/
def quotedCall (_ : Unit) : Call := ⟨1, quotedReport.readBack⟩

/-- One statement of a report that was loaded adds two rows, one of them under another
dump id. -/
theorem not_linked_of_quoted :
    (∃ tree, Xml.loadFromXML tree = .ok quotedReport.readBack) ∧
      Fresh SqlEngine.binary.toEngine noRows quotedCall ∧
      ∃ s, (sampleSystem quotedCall).Reachable Set.univ s ∧
        (s.added.filter fun a => a.table = "ExceptionInfo").map
            (fun a => (a.id, a.record.lookup "DumpsDump_ID")) =
          [(0, some "2"), (1, some "1")] ∧
        ¬ Linked noRows quotedCall s := by
  have hplain : quotedReport.Plain :=
    ⟨by decide, by decide, by unfold ExceptionInformation.NoData; decide⟩
  obtain ⟨project, -, htree⟩ := Xml.smeXMLWriter_of_plain hplain
  refine ⟨⟨_, Xml.loadFromXML_of_plain hplain htree⟩,
    fresh_noRows fun i j hij => absurd (Subsingleton.elim i j) hij, ?_⟩
  have hrun : ((sampleSystem quotedCall).run (sampleSystem quotedCall).init
      (List.replicate 3 (.execute () 0 .id))).map
      (fun s => (s.added.filter fun a => a.table = "ExceptionInfo").map
        fun a => (a.id, a.record.lookup "DumpsDump_ID")) =
      some [(0, some "2"), (1, some "1")] := by
    decide +kernel
  obtain ⟨s, hs, hrows⟩ := Option.map_eq_some_iff.mp hrun
  refine ⟨s, ⟨_, fun _ _ => Set.mem_univ _, hs⟩, hrows, fun hlinked => ?_⟩
  have hmem : ((0, some "2") : ℕ × Option String) ∈
      (s.added.filter fun a => a.table = "ExceptionInfo").map
        fun a => (a.id, a.record.lookup "DumpsDump_ID") := hrows ▸ List.mem_cons_self
  obtain ⟨a, ha, hrow⟩ := List.mem_map.mp hmem
  have hdump : a.record.lookup "DumpsDump_ID" = some (intToString 1) :=
    hlinked.own_dump a (List.mem_of_mem_filter ha)
  rw [(Prod.mk.inj hrow).2] at hdump
  exact absurd hdump (by decide)

end SMEWindow.Server.ExceptionRows
