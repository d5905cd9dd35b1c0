import SMEWindow.Lib.Transition
import SMEWindow.Server.SMEDBManager

/-!
# Receivers and the `Dumps` table

After its file is stored, a receiver inserts a row into `Dumps`, looks the row up
again by its file name, and stores its detail rows under the first `Dump_ID` it
finds. Nothing else links the three steps, so another row whose name compares
equal takes the place of its own. And a quote in a name or in the file makes another
statement of the one that was meant.

Any number of receivers run at once; each SQL statement is one atomic action, which
does what its text says, and each of them may fail, which ends its receiver.

## Main definitions

* `DumpsTable.system` — the interleaving of all receivers
* `DumpsTable.OwnRows` — every detail row refers to the row that its own receiver
  inserted

## Main results

* `ownRows_of_names_distinct` — detail rows never go astray if no name compares equal
  to that of an earlier row or of another receiver
-/

set_option autoImplicit false

namespace SMEWindow.Server.DumpsTable

open Lib.IdentityTable Lib.QuotedText Lib.SharedDatabase Lib.StatementExecution Lib.Text
  Lib.Transition

/-- The next statement of a receiver. -/
inductive Pc
  | insert
  | select
  /-- The dump id it has found, what `SMEDBManager` keeps of the file, and the functions
  whose statements it still has to execute. -/
  | save (did : ℕ) (content : Content) (builders : List Builder)
  | failed

/-- One statement of one receiver. -/
inductive Label (ι : Type*)
  /-- The next statement is executed; an insertion skips `gap` identity values, and
  `exceptionid` is the number that `GetExcetpionID` has returned, if it was asked for. -/
  | execute (i : ι) (gap : ℕ) (exceptionid : Int32)
  /-- The next statement, or what builds it, or the reading of the report, throws. -/
  | throw (i : ι)

/-- Where a receiver goes on with the dump ids that were selected. `Rows[0]` of an empty
data set throws, and so may the reader. -/
def found (upload : Upload) : List ℕ → Pc
  | [] => .failed
  | did :: _ =>
    match upload.content with
    | .error _ => .failed
    | .ok content => .save did content content.builders

section Steps

variable {ι : Type*} [DecidableEq ι] (engine : Engine) (host : Host) (uploads : ι → Upload)

/-- The statements of one receiver, in the order of `Receive`. -/
def executeStep (s : State ι Pc) (i : ι) (gap : ℕ) (exceptionid : Int32) : Option (State ι Pc) :=
  match s.pc i with
  | .insert =>
    some (s.execute engine storedTables i gap
      (Statement.render (insert (uploads i).fileName (uploads i).apikey)) .failed fun _ => .select)
  | .select =>
    some (s.execute engine storedTables i gap
      (Statement.render (selectExp_IDOfName (uploads i).fileName)) .failed (found (uploads i)))
  | .save did content (b :: builders) =>
    some (insertDatabase engine host s i gap content (Int32.ofNat did) exceptionid b .failed
      (.save did content builders))
  | .save _ _ [] | .failed => none

/-- The interleaving of all receivers, over the given contents of the database. -/
def system (d : Tables) : System (State ι Pc) (Label ι) where
  init := ⟨d, [], fun _ => .insert⟩
  step s
    | .execute i gap exceptionid => executeStep engine host uploads s i gap exceptionid
    | .throw i => some (s.goto i .failed)

end Steps

section Specification

variable {ι : Type*}

/-- The receiver has added this row to `Dumps`, and no other. -/
structure IsOwnDump (added : List (Added ι)) (i : ι) (a : Added ι) : Prop where
  mem : a ∈ added
  table_eq : a.table = "Dumps"
  owner_eq : a.owner = i
  unique : ∀ b ∈ added, b.table = "Dumps" → b.owner = i → b = a

/-- Every detail row carries the dump id of the row that its own receiver has added to
`Dumps`. -/
def OwnRows (s : State ι Pc) : Prop :=
  ∀ detail ∈ s.added, detail.table ≠ "Dumps" → ∃ a, IsOwnDump s.added detail.owner a ∧
    detail.record.lookup "DumpsDump_ID" = some (intToString (Int32.ofNat a.id))

/-- No row that was there before, and no row of another receiver, has a name that compares
equal to that of a receiver. -/
structure NamesDistinct (engine : Engine) (d : Tables) (uploads : ι → Upload) : Prop where
  earlier : ∀ i, ∀ row ∈ (d "Dumps").rows,
    engine.selects "Dumps" "Dump_Name" (undoubled (uploads i).fileName) row.2 = false
  others : ∀ i j, i ≠ j → engine.same "Dumps" "Dump_Name" (undoubled (uploads j).fileName)
    (undoubled (uploads i).fileName) = false

/-- What links the tables, the receivers and their detail rows. -/
structure Invariant (d : Tables) (uploads : ι → Upload) (s : State ι Pc) : Prop
    extends Accounts d s where
  dumps_record : ∀ a ∈ s.added, a.table = "Dumps" →
    a.record = dumpRecord (uploads a.owner).fileName (uploads a.owner).apikey
  insert_pending : ∀ i, s.pc i = .insert → ∀ a ∈ s.added, a.owner ≠ i
  select_own : ∀ i, s.pc i = .select → ∃ a, IsOwnDump s.added i a
  save_own : ∀ i did content builders, s.pc i = .save did content builders →
    (uploads i).content = .ok content ∧ ∃ a, IsOwnDump s.added i a ∧ a.id = did
  own_rows : OwnRows s

end Specification

/-! ### Distinct names keep the rows apart -/

variable {ι : Type*} {engine : Engine} {host : Host} {d : Tables} {uploads : ι → Upload}
  {s t : State ι Pc} {i j : ι} {a b : Added ι} {gap : ℕ} {exceptionid : Int32}

/-- A selection returns nothing but the receiver's own row. -/
theorem Invariant.eq_of_mem_select (h : Invariant d uploads s)
    (hdistinct : NamesDistinct engine d uploads) (hown : IsOwnDump s.added i a) {id : ℕ}
    (hid : id ∈ (s.tables "Dumps").select
      (engine.selects "Dumps" "Dump_Name" (undoubled (uploads i).fileName))) : a.id = id := by
  obtain ⟨record, hrow, hselected⟩ := Table.mem_select.mp hid
  -- a row from before or of another receiver would have another name
  rcases h.origin "Dumps" _ hrow with hbefore | ⟨b, hb, htable, hrow⟩
  · exact absurd hselected (by simpa using hdistinct.earlier i _ hbefore)
  · obtain ⟨rfl, rfl⟩ := Prod.mk.inj hrow
    by_cases hij : b.owner = i
    · rw [hown.unique b hb htable hij]
    · have hname : b.record.lookup "Dump_Name" = some (undoubled (uploads b.owner).fileName) := by
        rw [h.dumps_record b hb htable]
        rfl
      rw [selects_of_lookup hname, hdistinct.others i b.owner (Ne.symm hij)] at hselected
      cases hselected

variable [DecidableEq ι]

/-- Moving a receiver on to another program counter keeps the invariant, as long
as a dump id it has found is that of its own row. -/
theorem Invariant.goto (h : Invariant d uploads s) {pc : Pc} (hinsert : pc ≠ .insert)
    (hselect : pc ≠ .select)
    (hsave : ∀ did content builders, pc = .save did content builders →
      (uploads i).content = .ok content ∧ ∃ a, IsOwnDump s.added i a ∧ a.id = did) :
    Invariant d uploads (s.goto i pc) := by
  refine ⟨h.toAccounts.goto, h.dumps_record, fun j hj => ?_, fun j hj => ?_,
    fun j did content builders hj => ?_, h.own_rows⟩
  · by_cases hji : j = i
    · rw [hji, State.goto_pc] at hj
      exact absurd hj hinsert
    · rw [State.goto_pc_of_ne hji] at hj
      exact h.insert_pending j hj
  · by_cases hji : j = i
    · rw [hji, State.goto_pc] at hj
      exact absurd hj hselect
    · rw [State.goto_pc_of_ne hji] at hj
      exact h.select_own j hj
  · by_cases hji : j = i
    · rw [hji, State.goto_pc] at hj
      rw [hji]
      exact hsave did content builders hj
    · rw [State.goto_pc_of_ne hji] at hj
      exact h.save_own j did content builders hj

/-- Rows of others, and detail rows, do not concern the row of a receiver in `Dumps`. -/
theorem IsOwnDump.executed_add {addition : Addition} {pc : Pc} (hown : IsOwnDump s.added j a)
    (hmem : addition.table ∈ storedTables) (hother : addition.table = "Dumps" → j ≠ i) :
    IsOwnDump (s.executed storedTables i (add s.tables addition) pc).added j a := by
  refine ⟨(State.mem_added_executed_add hmem).mpr (.inr hown.mem), hown.table_eq, hown.owner_eq,
    fun b hb htable howner => ?_⟩
  rcases (State.mem_added_executed_add hmem).mp hb with rfl | hb
  · exact absurd howner.symm (hother htable)
  · exact hown.unique b hb htable howner

/-- A receiver adds its row to `Dumps`. -/
theorem Invariant.executed_insert (h : Invariant d uploads s) (hpc : s.pc i = .insert) :
    Invariant d uploads (s.executed storedTables i (add s.tables
      ⟨"Dumps", gap, dumpRecord (uploads i).fileName (uploads i).apikey⟩) .select) := by
  have hnone := h.insert_pending i hpc
  have hmem : (⟨"Dumps", gap, dumpRecord (uploads i).fileName (uploads i).apikey⟩ :
      Addition).table ∈ storedTables := tableName_mem_storedTables (b := .insert) rfl
  -- whoever has added a row is not the receiver that inserts now
  have hkept : ∀ {j a}, IsOwnDump s.added j a → IsOwnDump (s.executed storedTables i
      (add s.tables ⟨"Dumps", gap, dumpRecord (uploads i).fileName (uploads i).apikey⟩)
        .select).added j a :=
    fun hown => hown.executed_add hmem fun _ hji => hnone _ hown.mem (hown.owner_eq.trans hji)
  refine ⟨h.toAccounts.executed_add hmem, fun a ha htable => ?_, fun j hj a ha => ?_,
    fun j hj => ?_, fun j did content builders hj => ?_, fun a ha htable => ?_⟩
  · rcases (State.mem_added_executed_add hmem).mp ha with rfl | ha
    · rfl
    · exact h.dumps_record a ha htable
  · have hji : j ≠ i := by
      rintro rfl
      rw [State.executed_pc] at hj
      cases hj
    rw [State.executed_pc_of_ne hji] at hj
    rcases (State.mem_added_executed_add hmem).mp ha with rfl | ha
    · exact Ne.symm hji
    · exact h.insert_pending j hj a ha
  · by_cases hji : j = i
    · refine ⟨_, (State.mem_added_executed_add hmem).mpr (.inl rfl), rfl, hji.symm,
        fun b hb htable howner => ?_⟩
      rcases (State.mem_added_executed_add hmem).mp hb with hb | hb
      · exact hb
      · exact absurd (howner.trans hji) (hnone b hb)
    · rw [State.executed_pc_of_ne hji] at hj
      obtain ⟨a, hown⟩ := h.select_own j hj
      exact ⟨a, hkept hown⟩
  · have hji : j ≠ i := by
      rintro rfl
      rw [State.executed_pc] at hj
      cases hj
    rw [State.executed_pc_of_ne hji] at hj
    obtain ⟨hcontent, a, hown, hid⟩ := h.save_own j did content builders hj
    exact ⟨hcontent, a, hkept hown, hid⟩
  · rcases (State.mem_added_executed_add hmem).mp ha with rfl | ha
    · exact absurd rfl htable
    · obtain ⟨b, hown, hlookup⟩ := h.own_rows a ha htable
      exact ⟨b, hkept hown, hlookup⟩

/-- A receiver adds a detail row under the dump id of its own row. -/
theorem Invariant.executed_detail (h : Invariant d uploads s) {addition : Addition}
    {content : Content} {builders : List Builder} (hmem : addition.table ∈ storedTables)
    (htable : addition.table ≠ "Dumps") (hown : IsOwnDump s.added i a)
    (hcontent : (uploads i).content = .ok content)
    (hlookup : addition.record.lookup "DumpsDump_ID" = some (intToString (Int32.ofNat a.id))) :
    Invariant d uploads
      (s.executed storedTables i (add s.tables addition) (.save a.id content builders)) := by
  -- as for a receiver that moves on without the database, but for the new row
  have hmoved : Invariant d uploads (s.goto i (.save a.id content builders)) :=
    h.goto (by simp) (by simp) (by rintro _ _ _ ⟨⟩; exact ⟨hcontent, a, hown, rfl⟩)
  have hkept : ∀ {j b}, IsOwnDump s.added j b → IsOwnDump (s.executed storedTables i
      (add s.tables addition) (.save a.id content builders)).added j b :=
    fun hb => hb.executed_add hmem fun heq => absurd heq htable
  refine ⟨h.toAccounts.executed_add hmem, fun b hb hdumps => ?_, fun j hj b hb => ?_,
    fun j hj => ?_, fun j did content' builders' hj => ?_, fun b hb hdumps => ?_⟩
  · rcases (State.mem_added_executed_add hmem).mp hb with rfl | hb
    · exact absurd hdumps htable
    · exact h.dumps_record b hb hdumps
  · rcases (State.mem_added_executed_add hmem).mp hb with rfl | hb
    · -- the receiver is not about to insert
      rintro rfl
      exact (hmoved.insert_pending i hj _ hown.mem) hown.owner_eq
    · exact hmoved.insert_pending j hj b hb
  · obtain ⟨b, hb⟩ := hmoved.select_own j hj
    exact ⟨b, hkept hb⟩
  · obtain ⟨hcontent', b, hb, hid⟩ := hmoved.save_own j did content' builders' hj
    exact ⟨hcontent', b, hkept hb, hid⟩
  · rcases (State.mem_added_executed_add hmem).mp hb with rfl | hb
    · exact ⟨a, hkept hown, hlookup⟩
    · obtain ⟨a', hown', hlookup'⟩ := h.own_rows b hb hdumps
      exact ⟨a', hkept hown', hlookup'⟩

/-- One statement of one receiver. -/
theorem Invariant.keeps_executeStep (h : Invariant d uploads s)
    (hdoubled : ∀ t ∈ (uploads i).texts host, Doubled t)
    (hdistinct : NamesDistinct engine d uploads)
    (hstep : executeStep engine host uploads s i gap exceptionid = some t) :
    Invariant d uploads t := by
  have hname := Upload.doubled_fileName hdoubled
  have hfailed : Invariant d uploads (s.goto i .failed) :=
    h.goto (by simp) (by simp) (by rintro _ _ _ ⟨⟩)
  unfold executeStep at hstep
  split at hstep
  next hpc =>
    obtain rfl := Option.some.inj hstep
    rw [State.execute_of_eq_some (execute_insert hname)]
    exact h.executed_insert hpc
  next hpc =>
    obtain rfl := Option.some.inj hstep
    rw [State.execute_of_eq_some (execute_selectExp_IDOfName hname), State.executed_self]
    obtain ⟨a, hown⟩ := h.select_own i hpc
    cases hselect : (s.tables "Dumps").select
        (engine.selects "Dumps" "Dump_Name" (undoubled (uploads i).fileName)) with
    | nil => exact hfailed
    | cons did ids =>
      -- `Rows[0]` of what was selected
      have hdid : a.id = did := h.eq_of_mem_select hdistinct hown (by simp [hselect])
      rw [found]
      cases hcontent : (uploads i).content with
      | error e => exact hfailed
      | ok content =>
        exact h.goto (by simp) (by simp) (by rintro _ _ _ ⟨⟩; exact ⟨hcontent, a, hown, hdid⟩)
  next did content b builders hpc =>
    obtain rfl := Option.some.inj hstep
    obtain ⟨hcontent, a, hown, rfl⟩ := h.save_own i did content _ hpc
    cases hbuilds : content.builds b with
    | false =>
      rw [insertDatabase_of_not_builds hbuilds]
      exact hfailed
    | true =>
      obtain ⟨hb, hinsert⟩ := Content.addsRow_of_builds hbuilds
      rw [insertDatabase_of_builds (Upload.doubled_content hcontent hdoubled) hbuilds]
      exact h.executed_detail (tableName_mem_storedTables hb) (tableName_ne_dumps hinsert) hown
        hcontent (Content.lookup_record_dumpid hbuilds)
  next => cases hstep
  next => cases hstep

theorem invariant_init (d : Tables) (uploads : ι → Upload) :
    Invariant d uploads (system engine host uploads d).init :=
  ⟨.init .., fun _ ha => (List.not_mem_nil ha).elim, fun _ _ _ ha => (List.not_mem_nil ha).elim,
    nofun, nofun, fun _ ha => (List.not_mem_nil ha).elim⟩

/-- **Detail rows do not go astray when names do not recur.** Over every interleaving of the
receivers' statements, and whichever of them fail, each detail row carries the `Dump_ID` of
the one row that its own receiver has added to `Dumps`, if the quotes in the texts of the
files are doubled and no receiver's name compares equal to the name of a row that was there
before or to the name of another receiver. -/
theorem ownRows_of_names_distinct (hdoubled : ∀ i, ∀ t ∈ (uploads i).texts host, Doubled t)
    (hdistinct : NamesDistinct engine d uploads)
    (hreach : (system engine host uploads d).Reachable Set.univ s) : OwnRows s := by
  have hinvariant : Invariant d uploads s := by
    refine hreach.invariant (Invariant d uploads) (invariant_init d uploads)
      fun s l t hs _ hstep => ?_
    cases l with
    | execute i gap exceptionid => exact hs.keeps_executeStep (hdoubled i) hdistinct hstep
    | throw i =>
      obtain rfl := Option.some.inj hstep
      exact hs.goto (by simp) (by simp) (by rintro _ _ _ ⟨⟩)
  exact hinvariant.own_rows

/-- Two reports that arrive at the same time. -/
def sampleUploads (i : Bool) : Upload where
  fileName := cond i "b.xml" "a.xml"
  apikey := 7
  filesel := .xml
  selected := by cases i <;> decide
  smeXMLReader := .ok Xml.sampleReport.readBack
  smeMiniDumpReader := .error .nullReference

/-- A report that arrives twice. -/
def resentUploads (_ : Bool) : Upload := sampleUploads false

/-- The receivers of two files, over a database without rows. -/
abbrev sampleSystem (uploads : Bool → Upload) : System (State (Bool) Pc) (Label (Bool)) :=
  system SqlEngine.binary.toEngine sampleHost uploads noRows

/-- Both rows of `Dumps` are there before the second receiver selects and saves. -/
def sampleRun : List (Label (Bool)) :=
  [.execute false 1 0, .execute true 0 0, .execute true 0 0, .execute true 0 0]

/-- The owners, tables and identities of the rows that were added, and their dump ids. -/
def ids (s : State (Bool) Pc) : List (Bool × String × ℕ × Option String) :=
  s.added.map fun a => (a.owner, a.table, a.id, a.record.lookup "DumpsDump_ID")

theorem exists_reachable_of_run {uploads : Bool → Upload}
    {rows : List (Bool × String × ℕ × Option String)}
    (h : ((sampleSystem uploads).run (sampleSystem uploads).init sampleRun).map ids =
      some rows) : ∃ s, (sampleSystem uploads).Reachable Set.univ s ∧ ids s = rows := by
  obtain ⟨s, hs, hids⟩ := Option.map_eq_some_iff.mp h
  exact ⟨s, ⟨sampleRun, fun _ _ => Set.mem_univ _, hs⟩, hids⟩

theorem ownRows_of_names_distinct_sample :
    ∃ s, (sampleSystem sampleUploads).Reachable Set.univ s ∧
      ids s = [(true, "ProjectInfo", 0, some "2"), (true, "Dumps", 2, none),
        (false, "Dumps", 1, none)] ∧
      OwnRows s := by
  obtain ⟨s, hs, hids⟩ : ∃ s, (sampleSystem sampleUploads).Reachable Set.univ s ∧
      ids s = [(true, "ProjectInfo", 0, some "2"), (true, "Dumps", 2, none),
        (false, "Dumps", 1, none)] :=
    exists_reachable_of_run (by decide +kernel)
  refine ⟨s, hs, hids, ownRows_of_names_distinct (by decide +kernel) ⟨?_, by decide +kernel⟩ hs⟩
  exact fun _ row hrow => (List.not_mem_nil hrow).elim

/-- When the same report is sent twice, the details of the second are stored
under the dump of the first. -/
theorem not_ownRows_of_resent :
    ∃ s, (sampleSystem resentUploads).Reachable Set.univ s ∧
      ids s = [(true, "ProjectInfo", 0, some "1"), (true, "Dumps", 2, none),
        (false, "Dumps", 1, none)] ∧
      ¬ OwnRows s := by
  obtain ⟨s, hs, hids⟩ : ∃ s, (sampleSystem resentUploads).Reachable Set.univ s ∧
      ids s = [(true, "ProjectInfo", 0, some "1"), (true, "Dumps", 2, none),
        (false, "Dumps", 1, none)] :=
    exists_reachable_of_run (by decide +kernel)
  refine ⟨s, hs, hids, fun hown => ?_⟩
  obtain ⟨detail, hdetail, hrow⟩ := List.mem_map.mp (hids ▸ List.mem_cons_self :
    ((true, "ProjectInfo", 0, some "1") : Bool × String × ℕ × Option String) ∈ ids s)
  simp only [Prod.mk.injEq] at hrow
  obtain ⟨howner, htable, -, hlookup⟩ := hrow
  obtain ⟨a, ha, hlookup'⟩ := hown detail hdetail (by rw [htable]; decide)
  -- the row of the second receiver is the one with identity 2
  have ha' : (a.owner, a.table, a.id, a.record.lookup "DumpsDump_ID") ∈ ids s :=
    List.mem_map_of_mem ha.mem
  rw [hids, ha.table_eq, ha.owner_eq, howner] at ha'
  have hid : a.id = 2 := by
    simp at ha'
    exact ha'.1
  rw [hlookup, hid] at hlookup'
  exact absurd hlookup' (by decide)

end SMEWindow.Server.DumpsTable
