import SMEWindow.Server.ExceptionRows

/-!
# The chain of inner exceptions in the database

A report may nest inner exceptions to any depth, and its reader and writer go down to
the innermost. `SaveCSDumpData` on its own stores the outermost exception and the one
inside it, and nothing below. And the row that the inner one refers to is whichever row
of the dump the database returns last.

## Main definitions

* `ExceptionRows.solo` — one call of `SaveCSDumpData`, with no other around
* `ExceptionRows.StoresChain` — the call comes to an end and has then stored a row for
  each level, each of which refers to the one before

## Main results

* `storesChain_iff` — a chain is stored exactly if it has one level, or two and there is
  no earlier row of the same dump
-/

set_option autoImplicit false

namespace SMEWindow.Server.ExceptionRows

open Collect Lib Lib.IdentityTable Lib.QuotedText Lib.SharedDatabase Lib.StatementExecution
open Lib.Text Lib.Transition

/-! ### One call on its own -/

/-- No statement of the report throws when it is built. -/
structure Call.Buildable (call : Call) : Prop where
  version : call.m_smecollector.ProjectInfo.m_Version.isSome = true
  servicePack : call.m_smecollector.SystemInfo.ServicePack.isSome = true

/-- The labels that no failure of the database gives. -/
def faultless : Set (Label Unit) := {l | ∃ i gap order, l = .execute i gap order}

/-- How many statements a call still executes at most. -/
def Pc.remaining : Pc → ℕ
  | .projectInfo => 6
  | .systemInfo => 5
  | .exceptionInfo => 4
  | .select => 3
  | .innerExceptionInfo _ => 2
  | .callStackInfo => 1
  | .ended | .failed => 0

/-- One call on its own. -/
def solo (engine : Engine) (host : Host) (d : Tables) (call : Call) :
    System (State Unit Pc) (Label Unit) :=
  system engine host (fun _ => call) d

/-- The row has the columns of one level of an exception. -/
def IsLevel (row : ℕ × Record) (fields : ExceptionFields) : Prop :=
  ∀ field ∈ exceptionFields fields, row.2.lookup field.1 = some (undoubled field.2)

/-- The rows are those of the levels of an exception, the outermost first, and each
refers to the one before. -/
structure ChainRows (info : ExceptionInformation) (rows : List (ℕ × Record)) : Prop where
  levels : List.Forall₂ IsLevel rows info.toList
  first : ∀ row ∈ rows.head?, row.2.lookup "InnerExp" = none
  refers : rows.IsChain fun outer inner =>
    inner.2.lookup "InnerExp" = some (intToString (Int32.ofNat outer.1))

/-- Unless the database fails, `SaveCSDumpData` comes to an end, and has then inserted the
rows of the whole exception. -/
structure StoresChain (engine : Engine) (host : Host) (d : Tables) (call : Call) : Prop where
  ends : ∃ n, ∀ ls s, (∀ l ∈ ls, l ∈ faultless) →
    (solo engine host d call).run (solo engine host d call).init ls = some s → ls.length ≤ n
  stored : ∀ s, (solo engine host d call).Reachable faultless s →
    (∀ l ∈ faultless, (solo engine host d call).step s l = none) →
    ∃ rows, (s.tables "ExceptionInfo").rows = (d "ExceptionInfo").rows ++ rows ∧
      ChainRows call.exception rows

/-- The row of the outermost exception. -/
def Call.outerRecord (host : Host) (call : Call) : Record :=
  call.content.record host call.m_dumpid 0 .csExceptionInfo

/-- The row of the exception inside it. -/
def Call.innerRecord (host : Host) (call : Call) (exceptionid : Int32) : Record :=
  call.content.record host call.m_dumpid exceptionid .innerCSExceptionInfo

/-- `ExceptionInfo` while the call is at `pc`. -/
def Progress (engine : Engine) (host : Host) (exceptionInfo : Table Record) (call : Call)
    (t : Table Record) : Pc → Prop
  | .projectInfo | .systemInfo | .exceptionInfo => t = exceptionInfo
  | .select =>
    call.exception.inner.isSome = true ∧
      ∃ gap, t = exceptionInfo.insert gap (call.outerRecord host)
  | .innerExceptionInfo id =>
    call.exception.inner.isSome = true ∧
      (∃ gap, t = exceptionInfo.insert gap (call.outerRecord host)) ∧
      ∃ order, id = call.found engine t order
  | .callStackInfo | .ended =>
    ∃ gap outer, outer = exceptionInfo.insert gap (call.outerRecord host) ∧
      (call.exception.inner = none ∧ t = outer ∨
        call.exception.inner.isSome = true ∧
          ∃ gap' order,
            t = outer.insert gap' (call.innerRecord host (call.found engine outer order)))
  | .failed => ¬ call.Buildable

section Solo

variable {engine : Engine} {host : Host} {d : Tables} {call : Call} {s t : State Unit Pc}
  {ls : List (Label Unit)} {gap : ℕ} {order : Order} {exceptionInfo : Table Record}
  {b : Builder} {exceptionid : Int32} {next pc : Pc} {table : Table Record}

theorem Call.remaining_lt_of_next (hnext : call.next pc = some (b, exceptionid, next)) :
    next.remaining < pc.remaining := by
  cases pc with
  | select | ended | failed => cases hnext
  | exceptionInfo =>
    cases hnext
    split <;> simp [Pc.remaining]
  | projectInfo | systemInfo | innerExceptionInfo exception_id | callStackInfo =>
    cases hnext
    simp [Pc.remaining]

theorem Executed.remaining_lt (hstep : Executed engine host call s () gap order t) :
    (t.pc ()).remaining < (s.pc ()).remaining := by
  cases hstep with
  | insert hnext hbuilds =>
    rw [State.executed_pc]
    exact Call.remaining_lt_of_next hnext
  | null hnext hbuilds =>
    rw [State.goto_pc]
    exact (Nat.zero_le _).trans_lt (Call.remaining_lt_of_next hnext)
  | select hpc => simp [hpc, Pc.remaining]

/-- A call executes six statements at most. -/
theorem length_add_remaining_le (hdoubled : ∀ t ∈ call.content.texts host, Doubled t)
    (hls : ∀ l ∈ ls, l ∈ faultless) (hrun : (solo engine host d call).run s ls = some t) :
    ls.length + (t.pc ()).remaining ≤ (s.pc ()).remaining := by
  induction ls generalizing s with
  | nil =>
    obtain rfl := Option.some.inj hrun
    simp
  | cons l ls ih =>
    obtain ⟨u, hu, hrest⟩ := Option.bind_eq_some_iff.mp hrun
    obtain ⟨⟨⟩, gap, order, rfl⟩ := hls l List.mem_cons_self
    have hlt := (executed_of_executeStep (fun _ => call) hdoubled hu).remaining_lt
    have hle := ih (fun k hk => hls k (List.mem_cons_of_mem _ hk)) hrest
    rw [List.length_cons]
    omega

/-- A statement for another table leaves `ExceptionInfo` as it is. -/
theorem addition_other (hb : tableName b ≠ "ExceptionInfo") :
    add s.tables (call.addition host gap exceptionid b) "ExceptionInfo" =
      s.tables "ExceptionInfo" := add_of_ne _ hb.symm

/-- A call whose report has what the statements need builds every one that it comes to. -/
theorem Progress.not_buildable (h : Progress engine host exceptionInfo call table pc)
    (hnext : call.next pc = some (b, exceptionid, next))
    (hbuilds : call.content.builds b = false) : ¬ call.Buildable := by
  intro hbuildable
  cases pc with
  | select | ended | failed => cases hnext
  | projectInfo =>
    cases hnext
    exact Bool.eq_false_iff.mp hbuilds hbuildable.version
  | systemInfo =>
    cases hnext
    exact Bool.eq_false_iff.mp hbuilds hbuildable.servicePack
  | exceptionInfo | callStackInfo =>
    cases hnext
    cases hbuilds
  | innerExceptionInfo id =>
    cases hnext
    exact Bool.eq_false_iff.mp hbuilds h.1

/-- The next row of the call, which only in two places is one of `ExceptionInfo`. -/
theorem Progress.insert (h : Progress engine host exceptionInfo call (s.tables "ExceptionInfo") pc)
    (hnext : call.next pc = some (b, exceptionid, next)) (gap : ℕ) :
    Progress engine host exceptionInfo call
      (add s.tables (call.addition host gap exceptionid b) "ExceptionInfo") next := by
  cases pc with
  | select | ended | failed => cases hnext
  | projectInfo | systemInfo | callStackInfo =>
    cases hnext
    rw [addition_other (by decide)]
    exact h
  | exceptionInfo =>
    cases hnext
    have hrow : add s.tables (call.addition host gap 0 .csExceptionInfo) "ExceptionInfo" =
        exceptionInfo.insert gap (call.outerRecord host) := by
      rw [← show s.tables "ExceptionInfo" = exceptionInfo from h]
      exact add_same ..
    rw [hrow]
    cases hinner : call.exception.inner with
    | none => exact ⟨gap, _, rfl, .inl ⟨hinner, rfl⟩⟩
    | some inner => exact ⟨by rw [hinner]; rfl, gap, rfl⟩
  | innerExceptionInfo id =>
    cases hnext
    obtain ⟨hinner, ⟨gap', houter⟩, order, rfl⟩ := h
    refine ⟨gap', _, houter, .inr ⟨hinner, gap, order, ?_⟩⟩
    exact add_same ..

theorem progress_of_reachable (hdoubled : ∀ t ∈ call.content.texts host, Doubled t)
    (h : (solo engine host d call).Reachable faultless s) :
    Progress engine host (d "ExceptionInfo") call (s.tables "ExceptionInfo") (s.pc ()) := by
  refine h.invariant (fun s => Progress engine host (d "ExceptionInfo") call
    (s.tables "ExceptionInfo") (s.pc ())) rfl ?_
  intro s l t hs hl hstep
  obtain ⟨⟨⟩, gap, order, rfl⟩ := hl
  have hexecuted : Executed engine host call s () gap order t :=
    executed_of_executeStep (fun _ => call) hdoubled hstep
  -- the statement is a selection, could not be built, or adds a row
  cases hexecuted with
  | select hpc =>
    rw [hpc] at hs
    rw [State.goto_pc]
    exact ⟨hs.1, hs.2, order, rfl⟩
  | null hnext hbuilds =>
    rw [State.goto_pc]
    exact hs.not_buildable hnext hbuilds
  | insert hnext hbuilds =>
    rw [State.executed_pc]
    exact hs.insert hnext gap

/-- A statement of the call, built and executed. -/
theorem exists_inserted (hdoubled : ∀ t ∈ call.content.texts host, Doubled t)
    (hs : (solo engine host d call).Reachable faultless s)
    (hnext : call.next (s.pc ()) = some (b, exceptionid, next))
    (hbuilds : call.content.builds b = true) (gap : ℕ) :
    ∃ t, (solo engine host d call).Reachable faultless t ∧ t.pc () = next ∧
      t.tables = add s.tables (call.addition host gap exceptionid b) := by
  have hexecuted : Executed engine host call s () gap .id _ := .insert hnext hbuilds
  have hstep := Executed.executeStep_eq_some (fun _ => call) hdoubled hexecuted
  exact ⟨_, hs.step (l := .execute () gap .id) ⟨(), gap, .id, rfl⟩ hstep, State.executed_pc, rfl⟩

/-- The selection of a call, in some order. -/
theorem exists_selected (hs : (solo engine host d call).Reachable faultless s)
    (hpc : s.pc () = .select) (order : Order) :
    ∃ t, (solo engine host d call).Reachable faultless t ∧
      t.pc () = .innerExceptionInfo (call.found engine (s.tables "ExceptionInfo") order) ∧
      t.tables = s.tables := by
  have hstep : executeStep engine host (fun _ => call) s () 0 order = _ :=
    executeStep_of_select (fun _ => call) hpc
  exact ⟨_, hs.step (l := .execute () 0 order) ⟨(), 0, order, rfl⟩ hstep, State.goto_pc, rfl⟩

theorem step_eq_none_of_ended (h : s.pc () = .ended ∨ s.pc () = .failed) :
    ∀ l ∈ faultless, (solo engine host d call).step s l = none := by
  intro l hl
  obtain ⟨⟨⟩, gap, order, rfl⟩ := hl
  change executeStep engine host (fun _ => call) s () gap order = none
  unfold executeStep
  rcases h with hpc | hpc <;> rw [hpc] <;> rfl

/-- A call that cannot go on has ended, or could not build a statement. -/
theorem ended_or_failed (hstuck : ∀ l ∈ faultless, (solo engine host d call).step s l = none) :
    s.pc () = .ended ∨ s.pc () = .failed := by
  have hnone : executeStep engine host (fun _ => call) s () 0 .id = none :=
    hstuck (.execute () 0 .id) ⟨_, _, _, rfl⟩
  have hnext : call.next (s.pc ()) = none := by
    cases hnext : call.next (s.pc ()) with
    | none => rfl
    | some step =>
      obtain ⟨b, exceptionid, next⟩ := step
      rw [executeStep_of_next (fun _ => call) hnext] at hnone
      cases hnone
  cases hpc : s.pc () with
  | select =>
    rw [executeStep_of_select (fun _ => call) hpc] at hnone
    cases hnone
  | ended => exact .inl rfl
  | failed => exact .inr rfl
  | projectInfo | systemInfo | exceptionInfo | innerExceptionInfo exception_id | callStackInfo =>
    rw [hpc] at hnext
    cases hnext

/-- The call has stored the project and the system. -/
theorem exists_exceptionInfo (hdoubled : ∀ t ∈ call.content.texts host, Doubled t)
    (hbuildable : call.Buildable) :
    ∃ s, (solo engine host d call).Reachable faultless s ∧ s.pc () = .exceptionInfo ∧
      s.tables "ExceptionInfo" = d "ExceptionInfo" := by
  obtain ⟨s₁, hs₁, hpc₁, htables₁⟩ := exists_inserted hdoubled
    (System.Reachable.init (S := solo engine host d call)) rfl hbuildable.version 0
  obtain ⟨s₂, hs₂, hpc₂, htables₂⟩ := exists_inserted hdoubled hs₁
    (congrArg call.next hpc₁) hbuildable.servicePack 0
  refine ⟨s₂, hs₂, hpc₂, ?_⟩
  rw [htables₂, addition_other (by decide), htables₁]
  exact addition_other (by decide)

/-- A statement that cannot be built leaves no row. -/
theorem exists_failed (hdoubled : ∀ t ∈ call.content.texts host, Doubled t)
    (hnull : ¬ call.Buildable) :
    ∃ s, (solo engine host d call).Reachable faultless s ∧ s.pc () = .failed ∧
      s.tables "ExceptionInfo" = d "ExceptionInfo" := by
  have hfailed : ∀ {s : State Unit Pc} {b exceptionid next},
      (solo engine host d call).Reachable faultless s →
      call.next (s.pc ()) = some (b, exceptionid, next) → call.content.builds b = false →
      (solo engine host d call).Reachable faultless (s.goto () .failed) := by
    intro s b exceptionid next hs hnext hbuilds
    have hexecuted : Executed engine host call s () 0 .id _ := .null hnext hbuilds
    exact hs.step (l := .execute () 0 .id) ⟨(), 0, .id, rfl⟩
      (Executed.executeStep_eq_some (fun _ => call) hdoubled hexecuted)
  have hinit : (solo engine host d call).Reachable faultless (solo engine host d call).init :=
    System.Reachable.init
  by_cases hversion : call.m_smecollector.ProjectInfo.m_Version.isSome = true
  · have hservicePack : call.m_smecollector.SystemInfo.ServicePack.isSome = false :=
      Bool.eq_false_iff.mpr fun hpack => hnull ⟨hversion, hpack⟩
    obtain ⟨s, hs, hpc, htables⟩ := exists_inserted hdoubled hinit rfl hversion 0
    refine ⟨_, hfailed hs (congrArg call.next hpc) hservicePack, State.goto_pc, ?_⟩
    change s.tables "ExceptionInfo" = _
    rw [htables]
    exact addition_other (by decide)
  · rw [Bool.not_eq_true] at hversion
    exact ⟨_, hfailed hinit rfl hversion, State.goto_pc, rfl⟩

/-- Whichever way the selection is ordered, some run of a call with an inner exception
gets it so. -/
theorem exists_ended (hdoubled : ∀ t ∈ call.content.texts host, Doubled t)
    (hbuildable : call.Buildable) (hinner : call.exception.inner.isSome = true) (gap : ℕ)
    (order : Order) :
    ∃ s, (solo engine host d call).Reachable faultless s ∧ s.pc () = .ended ∧
      s.tables "ExceptionInfo" =
        ((d "ExceptionInfo").insert gap (call.outerRecord host)).insert 0 (call.innerRecord host
          (call.found engine ((d "ExceptionInfo").insert gap (call.outerRecord host)) order)) := by
  obtain ⟨s₁, hs₁, hpc₁, htable₁⟩ : ∃ s, (solo engine host d call).Reachable faultless s ∧
      s.pc () = .exceptionInfo ∧ s.tables "ExceptionInfo" = d "ExceptionInfo" :=
    exists_exceptionInfo hdoubled hbuildable
  obtain ⟨s₂, hs₂, hpc₂, htables₂⟩ := exists_inserted hdoubled hs₁
    (congrArg call.next hpc₁) rfl gap
  rw [hinner] at hpc₂
  have htable₂ : s₂.tables "ExceptionInfo" =
      (d "ExceptionInfo").insert gap (call.outerRecord host) := by
    rw [htables₂, ← htable₁]
    exact add_same ..
  obtain ⟨s₃, hs₃, hpc₃, htables₃⟩ := exists_selected hs₂ hpc₂ order
  obtain ⟨s₄, hs₄, hpc₄, htables₄⟩ := exists_inserted hdoubled hs₃
    (congrArg call.next hpc₃) hinner 0
  obtain ⟨s₅, hs₅, hpc₅, htables₅⟩ := exists_inserted hdoubled hs₄
    (congrArg call.next hpc₄) rfl 0
  refine ⟨s₅, hs₅, hpc₅, ?_⟩
  rw [htables₅, addition_other (by decide), htables₄, ← htable₂, ← htables₃]
  exact add_same ..

/-! ### The rows of the levels -/

/-- The columns that the row of an exception begins with. -/
theorem lookup_exceptionFields {fields : ExceptionFields} {others : List (String × String)} :
    ∀ field ∈ exceptionFields fields,
      (exceptionFields fields ++ others).lookup field.1 = some field.2 := by
  simp only [exceptionFields, List.forall_mem_cons]
  exact ⟨rfl, rfl, rfl, rfl, rfl, List.forall_mem_nil _⟩

theorem isLevel_outerRecord (host : Host) (call : Call) (id : ℕ) :
    IsLevel (id, call.outerRecord host) call.exception.outermost := by
  intro field hfield
  rw [Call.outerRecord, Content.record, lookup_record]
  exact congrArg (Option.map undoubled) (lookup_exceptionFields field hfield)

theorem isLevel_innerRecord {inner : ExceptionInformation}
    (hinner : call.exception.inner = some inner) (id : ℕ) :
    IsLevel (id, call.innerRecord host exceptionid) inner.outermost := by
  have hexinfo : call.exception.inner.getD call.exception = inner := by
    rw [hinner]
    rfl
  intro field hfield
  rw [← hexinfo] at hfield
  rw [Call.innerRecord, Content.record, lookup_record]
  exact congrArg (Option.map undoubled) (lookup_exceptionFields field hfield)

/-- The rows of an exception and its inner one. -/
theorem chainRows_pair_iff {fields : ExceptionFields} {inner : ExceptionInformation} {id id' : ℕ}
    (hexception : call.exception = .wrapping fields inner) :
    ChainRows call.exception
        [(id, call.outerRecord host), (id', call.innerRecord host exceptionid)] ↔
      call.exception.toList.length = 2 ∧ exceptionid = Int32.ofNat id := by
  have hrefers : ([(id, call.outerRecord host), (id', call.innerRecord host exceptionid)] :
      List (ℕ × Record)).IsChain (fun outer inner => inner.2.lookup "InnerExp" =
        some (intToString (Int32.ofNat outer.1))) ↔ exceptionid = Int32.ofNat id := by
    have hinner := (Call.lookup_exceptionInfo host call exceptionid).2
    rw [List.isChain_cons_cons, and_iff_left (.singleton _), Call.innerRecord, hinner,
      Option.some.injEq, intToString_inj]
  constructor
  · intro h
    exact ⟨h.levels.length_eq.symm, hrefers.mp h.refers⟩
  · rintro ⟨hlength, he⟩
    refine ⟨?_, fun row hrow => ?_, hrefers.mpr he⟩
    · have houter := isLevel_outerRecord host call id
      have hinner : IsLevel (id', call.innerRecord host exceptionid) inner.outermost :=
        isLevel_innerRecord (by rw [hexception]; rfl) id'
      rw [hexception] at houter hlength ⊢
      cases inner with
      | innermost fields' => exact .cons houter (.cons hinner .nil)
      | wrapping fields' inner => cases inner <;> simp [Chain.toList] at hlength
    · obtain rfl := Option.some.inj hrow
      exact (Call.lookup_exceptionInfo host call 0).1

theorem chainRows_singleton {fields : ExceptionFields} {id : ℕ}
    (hexception : call.exception = .innermost fields) :
    ChainRows call.exception [(id, call.outerRecord host)] := by
  refine ⟨?_, fun row hrow => ?_, .singleton _⟩
  · have houter := isLevel_outerRecord host call id
    rw [hexception] at houter ⊢
    exact .cons houter .nil
  · obtain rfl := Option.some.inj hrow
    exact (Call.lookup_exceptionInfo host call 0).1

/-- A row is found by the dump id that it carries. -/
theorem selects_outerRecord (engine : Engine) (host : Host) (call : Call) :
    engine.selects "ExceptionInfo" "DumpsDump_ID" (intToString call.m_dumpid)
      (call.outerRecord host) = true := by
  have hdumpid : (call.outerRecord host).lookup "DumpsDump_ID" =
      some (intToString call.m_dumpid) := Content.lookup_record_dumpid rfl
  rw [selects_of_lookup hdumpid]
  exact engine.same_self ..

/-- If no earlier row carries the dump id, the outer row is the one that is found. -/
theorem found_of_no_earlier (hnone : ∀ row ∈ exceptionInfo.rows,
      engine.selects "ExceptionInfo" "DumpsDump_ID" (intToString call.m_dumpid) row.2 = false)
    (order : Order) :
    call.found engine (exceptionInfo.insert gap (call.outerRecord host)) order =
      Int32.ofNat (exceptionInfo.insertedId gap) := by
  have hselected : selected engine (exceptionInfo.insert gap (call.outerRecord host))
      call.m_dumpid = [exceptionInfo.insertedId gap] := by
    have hempty : exceptionInfo.select (engine.selects "ExceptionInfo" "DumpsDump_ID"
        (intToString call.m_dumpid)) = [] := by
      refine List.eq_nil_iff_forall_not_mem.mpr fun id hid => ?_
      obtain ⟨record, hrow, hwanted⟩ := Table.mem_select.mp hid
      rw [hnone _ hrow] at hwanted
      cases hwanted
    rw [selected, Table.select_insert_of_wanted (selects_outerRecord engine host call), hempty,
      List.nil_append]
  have hids := order.perm [exceptionInfo.insertedId gap]
  rw [Call.found, hselected, List.perm_singleton.mp hids]
  rfl

/-- Two numbers in succession are not the same 32-bit integer. -/
theorem ofNat_ne_ofNat_succ (n : ℕ) : Int32.ofNat n ≠ Int32.ofNat (n + 1) := by
  intro h
  have hbits : BitVec.ofNat 32 n = BitVec.ofNat 32 (n + 1) := congrArg Int32.toBitVec h
  have hmod := congrArg BitVec.toNat hbits
  rw [BitVec.toNat_ofNat, BitVec.toNat_ofNat] at hmod
  omega

/-- An earlier row may be the one that is returned last. -/
theorem exists_found_ne {row : ℕ × Record} (hrow : row ∈ exceptionInfo.rows)
    (hsame : engine.selects "ExceptionInfo" "DumpsDump_ID" (intToString call.m_dumpid) row.2 =
      true) :
    ∃ gap, call.found engine (exceptionInfo.insert gap (call.outerRecord host)) .reverse ≠
      Int32.ofNat (exceptionInfo.insertedId gap) := by
  obtain ⟨id, ids, hselect⟩ : ∃ id ids, exceptionInfo.select (engine.selects "ExceptionInfo"
      "DumpsDump_ID" (intToString call.m_dumpid)) = id :: ids :=
    List.exists_cons_of_ne_nil (List.ne_nil_of_mem (Table.mem_select.mpr ⟨_, hrow, hsame⟩))
  -- in the reverse order, the oldest row comes last, whatever the new one is
  have hfound : ∀ gap, call.found engine (exceptionInfo.insert gap (call.outerRecord host))
      .reverse = Int32.ofNat id := by
    intro gap
    rw [Call.found, selected, Table.select_insert_of_wanted (selects_outerRecord engine host call),
      hselect, Order.reverse_ids, List.cons_append, List.reverse_cons, getExcetpionID_concat]
  by_cases hid : Int32.ofNat id = Int32.ofNat (exceptionInfo.insertedId 0)
  · refine ⟨1, ?_⟩
    rw [hfound, hid]
    exact ofNat_ne_ofNat_succ _
  · exact ⟨0, by rwa [hfound]⟩

/-- What a finished call has inserted, if nothing kept it from that. -/
theorem chainRows_of_ended {table : Table Record}
    (hs : Progress engine host exceptionInfo call table .ended)
    (hstorable : call.exception.toList.length = 1 ∨ call.exception.toList.length = 2 ∧
      ∀ row ∈ exceptionInfo.rows, engine.selects "ExceptionInfo" "DumpsDump_ID"
        (intToString call.m_dumpid) row.2 = false) :
    ∃ rows, table.rows = exceptionInfo.rows ++ rows ∧ ChainRows call.exception rows := by
  obtain ⟨gap, outer, rfl, ⟨hinner, rfl⟩ | ⟨hinner, gap', order, rfl⟩⟩ := hs
  · refine ⟨_, rfl, ?_⟩
    cases hexception : call.exception with
    | innermost fields =>
      rw [← hexception]
      exact chainRows_singleton hexception
    | wrapping fields inner =>
      rw [hexception] at hinner
      cases hinner
  · refine ⟨_, List.append_assoc _ _ _, ?_⟩
    cases hexception : call.exception with
    | innermost fields =>
      rw [hexception] at hinner
      cases hinner
    | wrapping fields inner =>
      rw [← hexception]
      refine (chainRows_pair_iff hexception).mpr ?_
      rcases hstorable with hlength | ⟨hlength, hnone⟩
      · cases inner <;> simp [hexception, Chain.toList] at hlength
      · exact ⟨hlength, found_of_no_earlier hnone order⟩

namespace StoresChain

theorem buildable (h : StoresChain engine host d call)
    (hdoubled : ∀ t ∈ call.content.texts host, Doubled t) : call.Buildable := by
  by_contra hnull
  obtain ⟨s, hs, hpc, htable⟩ := exists_failed hdoubled hnull
  obtain ⟨rows, hrows, hchain⟩ := h.stored s hs (step_eq_none_of_ended (.inr hpc))
  rw [htable, List.self_eq_append_right] at hrows
  have hlevels := hchain.levels
  rw [hrows, List.forall₂_nil_left_iff] at hlevels
  exact absurd hlevels (List.ne_nil_of_mem (Chain.outermost_mem_toList _))

/-- The call inserts two rows, however many levels there are, and the second refers to
whichever row is found. -/
theorem of_wrapping (h : StoresChain engine host d call)
    (hdoubled : ∀ t ∈ call.content.texts host, Doubled t) {fields : ExceptionFields}
    {inner : ExceptionInformation} (hexception : call.exception = .wrapping fields inner)
    (gap : ℕ) (order : Order) :
    call.exception.toList.length = 2 ∧
      call.found engine ((d "ExceptionInfo").insert gap (call.outerRecord host)) order =
        Int32.ofNat ((d "ExceptionInfo").insertedId gap) := by
  obtain ⟨s, hs, hpc, htable⟩ := exists_ended hdoubled (h.buildable hdoubled)
    (by rw [hexception]; rfl) gap order
  obtain ⟨rows, hrows, hchain⟩ := h.stored s hs (step_eq_none_of_ended (.inl hpc))
  rw [htable] at hrows
  have hrows' := List.append_cancel_left ((List.append_assoc _ _ _).symm.trans hrows)
  rw [← hrows'] at hchain
  exact (chainRows_pair_iff hexception).mp hchain

end StoresChain

/-- **A chain is stored if it has one level, or two and the dump has no row yet.** If the
quotes in the texts of the report are doubled, then whatever the order in which the database
returns the rows of a selection, `SaveCSDumpData` inserts a row for each level of an
exception, each of which refers to the one before, if and only if the exception has no inner
one, or one inner one and no earlier row carries its dump id. This presupposes that neither
the version nor the service pack is null. -/
theorem storesChain_iff (engine : Engine) (host : Host) (d : Tables) (call : Call)
    (hdoubled : ∀ t ∈ call.content.texts host, Doubled t) :
    StoresChain engine host d call ↔ call.Buildable ∧
      (call.exception.toList.length = 1 ∨ call.exception.toList.length = 2 ∧
        ∀ row ∈ (d "ExceptionInfo").rows, engine.selects "ExceptionInfo" "DumpsDump_ID"
          (intToString call.m_dumpid) row.2 = false) := by
  constructor
  · intro h
    refine ⟨h.buildable hdoubled, ?_⟩
    cases hexception : call.exception with
    | innermost fields => exact .inl rfl
    | wrapping fields inner =>
      rw [← hexception]
      refine .inr ⟨(h.of_wrapping hdoubled hexception 0 .id).1, fun row hrow => ?_⟩
      rw [← Bool.not_eq_true]
      intro hsame
      -- returned last, the earlier row would be taken for the outer one
      obtain ⟨gap, hne⟩ := exists_found_ne hrow hsame
      exact hne (h.of_wrapping hdoubled hexception gap .reverse).2
  · rintro ⟨hbuildable, hstorable⟩
    refine ⟨⟨6, fun ls s hls hrun => ?_⟩, fun s hs hstuck => ?_⟩
    · have hle := length_add_remaining_le hdoubled hls hrun
      have hinit : ((solo engine host d call).init.pc ()).remaining = 6 := rfl
      omega
    · have hprogress := progress_of_reachable hdoubled hs
      rcases ended_or_failed hstuck with hpc | hpc
      · rw [hpc] at hprogress
        exact chainRows_of_ended hprogress hstorable
      · rw [hpc] at hprogress
        exact absurd hbuildable hprogress

/-- A report with one inner exception is stored with both. -/
theorem storesChain_sample :
    StoresChain SqlEngine.binary.toEngine sampleHost noRows ⟨1, Xml.sampleReport.readBack⟩ :=
  (storesChain_iff _ _ _ _ (by decide +kernel)).mpr
    ⟨⟨rfl, rfl⟩, .inr ⟨rfl, fun _ hrow => (List.not_mem_nil hrow).elim⟩⟩

/-- A report whose exception has two inner ones. -/
def deepReport : Xml.Report :=
  { Xml.sampleReport with
    ExceptionInfo := .wrapping ⟨some "A", none, 0, none, none, none, none⟩
      (.wrapping ⟨some "B", none, 0, none, none, none, none⟩
        (.innermost ⟨some "C", none, 0, none, none, none, none⟩)) }

/-- The second inner exception of a report that was loaded has no row. -/
theorem not_storesChain_of_two_inner :
    (∃ tree, Xml.loadFromXML tree = .ok deepReport.readBack) ∧
      ¬ StoresChain SqlEngine.binary.toEngine sampleHost noRows ⟨1, deepReport.readBack⟩ := by
  have hplain : deepReport.Plain :=
    ⟨by decide, by decide, by unfold ExceptionInformation.NoData; decide⟩
  obtain ⟨project, -, htree⟩ := Xml.smeXMLWriter_of_plain hplain
  refine ⟨⟨_, Xml.loadFromXML_of_plain hplain htree⟩, fun h => ?_⟩
  obtain ⟨hlength, -⟩ := h.of_wrapping (by decide +kernel) rfl 0 .id
  exact absurd hlength (by decide)

end Solo

end SMEWindow.Server.ExceptionRows
