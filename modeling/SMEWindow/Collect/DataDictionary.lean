import SMEWindow.Collect.ExceptionInformation
import Mathlib.Data.List.Forall2

/-!
# The `Data` of an exception in its element tree

An exception carries a dictionary of application data. The form of a report has
one element for each entry, named after its key, and `LoadFromXElement` reads
elements. `DataToXElement` passes key and value to `Add`, which adds both as text.
The reader finds no element there, so every level reads back with an empty
dictionary.

## Main definitions

* `ExceptionInformation.RestoresData` — a tree reads back with the dictionaries that
  it was written with

## Main results

* `restoresData_iff_noData` — this is so exactly when there was nothing to restore
-/

set_option autoImplicit false

namespace SMEWindow.Collect

open Lib Lib.Element Lib.Text

namespace ExceptionFields

/-- Every value of the dictionary is a string. -/
def NoNullValues (fields : ExceptionFields) : Prop :=
  ∀ entry ∈ fields.Data.getD [], entry.2 ≠ none

instance (fields : ExceptionFields) : Decidable fields.NoNullValues :=
  inferInstanceAs (Decidable (∀ _ ∈ _, _))

/-- Entries are added as texts. -/
theorem exists_foldlM_addEntry {entries : DataEntries} (h : ∀ entry ∈ entries, entry.2 ≠ none)
    (nodes : List Node) :
    ∃ data, entries.foldlM addEntry nodes = .ok data ∧ elements data = elements nodes := by
  induction entries generalizing nodes with
  | nil => exact ⟨nodes, rfl, rfl⟩
  | cons entry entries ih =>
    obtain ⟨key, value⟩ := entry
    obtain ⟨text, rfl⟩ := Option.ne_none_iff_exists'.mp (h (key, value) List.mem_cons_self)
    obtain ⟨data, hdata, helements⟩ := ih (fun entry hentry => h entry
      (List.mem_cons_of_mem _ hentry)) (addText (addText nodes key) text)
    refine ⟨data, ?_, ?_⟩
    · rw [List.foldlM_cons]
      exact hdata
    · rw [helements, elements_addText, elements_addText]

/-- A null value is not added. -/
theorem forall_ne_none_of_foldlM_addEntry {entries : DataEntries} {nodes data : List Node}
    (h : entries.foldlM addEntry nodes = .ok data) : ∀ entry ∈ entries, entry.2 ≠ none := by
  induction entries generalizing nodes with
  | nil => exact fun _ hmem => absurd hmem List.not_mem_nil
  | cons entry entries ih =>
    rw [List.foldlM_cons] at h
    obtain ⟨added, hadded, h⟩ := bind_eq_ok_iff.mp h
    rw [List.forall_mem_cons]
    refine ⟨?_, ih h⟩
    intro hnone
    obtain ⟨key, value⟩ := entry
    obtain rfl : value = none := hnone
    cases hadded

theorem noNullValues_of_toNodes {fields : ExceptionFields} {nodes : List Node}
    (h : fields.toNodes = .ok nodes) : fields.NoNullValues := by
  obtain ⟨node, hnode, -⟩ := bind_eq_ok_iff.mp h
  unfold dataToXElement at hnode
  rw [NoNullValues]
  cases hentries : fields.Data with
  | none => exact fun _ hmem => absurd hmem List.not_mem_nil
  | some entries =>
    rw [hentries] at hnode
    obtain ⟨data, hdata, -⟩ := map_eq_ok_iff.mp hnode
    exact forall_ne_none_of_foldlM_addEntry hdata

/-- The `Data` element holds no elements. -/
theorem exists_toNodes {fields : ExceptionFields} (h : fields.NoNullValues) :
    ∃ data, fields.toNodes = .ok (fields.nodesAround data) ∧ elements data = [] := by
  obtain ⟨data, hdata, helements⟩ := exists_foldlM_addEntry h []
  refine ⟨data, ?_, helements⟩
  have hnode : fields.dataToXElement = .ok (.element "Data" data) := by
    unfold dataToXElement
    cases hentries : fields.Data with
    | none =>
      rw [hentries] at hdata
      rw [← Except.ok.inj hdata]
    | some entries =>
      rw [hentries, Option.getD_some] at hdata
      simp only [hdata, Except.map]
  rw [toNodes, hnode, ok_bind]
  rfl

end ExceptionFields

namespace ExceptionInformation

open ExceptionFields

/-- The same keys with the same values. -/
def SameData (written read : ExceptionFields) : Prop :=
  (read.Data.getD []).Perm (written.Data.getD [])

/-- The tree reads back, with the dictionary of every level. -/
def RestoresData (info : ExceptionInformation) : Prop :=
  ∃ node back, toXElement info = .ok node ∧ loadFromXElement node = .ok back ∧
    List.Forall₂ SameData info.toList back.toList

variable {info : ExceptionInformation}

/-- Every description is written and read back, at every depth, but for its `Data`. -/
theorem exists_toXElement (h : ∀ fields ∈ info.toList, fields.NoNullValues) :
    ∃ node, toXElement info = .ok node ∧ loadFromXElement node = .ok (readBack info) := by
  induction info with
  | innermost fields =>
    obtain ⟨data, hnodes, helements⟩ := exists_toNodes (h fields (by simp [Chain.toList]))
    refine ⟨wrap (fields.nodesAround data) [], ?_, ?_⟩
    · rw [toXElement, hnodes]
      rfl
    · rw [wrap, load_innermost (loadNodes_nodesAround fields helements [])]
      rfl
  | wrapping fields inner ih =>
    obtain ⟨data, hnodes, helements⟩ := exists_toNodes (h fields (by simp [Chain.toList]))
    obtain ⟨node, hnode, hload⟩ := ih fun level hlevel => h level (by simp [Chain.toList, hlevel])
    refine ⟨wrap (fields.nodesAround data) [node], ?_, ?_⟩
    · rw [toXElement, hnodes, ok_bind, hnode]
      rfl
    · rw [wrap, load_wrapping (loadNodes_nodesAround fields helements [node]), hload]
      rfl

theorem noNullValues_of_toXElement {fields : ExceptionFields} {node : Node}
    (h : toXElement (.innermost fields) = .ok node) : fields.NoNullValues := by
  rw [toXElement] at h
  obtain ⟨nodes, hnodes, -⟩ := bind_eq_ok_iff.mp h
  exact noNullValues_of_toNodes hnodes

/-- The dictionaries that are read back are empty. -/
theorem forall₂_sameData_readBack_iff :
    List.Forall₂ SameData info.toList (readBack info).toList ↔ NoData info := by
  rw [readBack, Chain.toList_map, List.forall₂_map_right_iff, List.forall₂_same]
  refine forall₂_congr fun fields _ => ?_
  rw [SameData, ExceptionFields.NoData]
  constructor
  · intro hperm
    exact List.nil_perm.mp hperm
  · intro hempty
    rw [hempty]
    exact List.Perm.refl _

/-- **The dictionaries are restored exactly when there was nothing to restore.** For
every description, at every depth, with any keys and any string values: writing it
as an element tree and reading the tree gives every level its own dictionary back
if and only if the dictionary of every level is empty. -/
theorem restoresData_iff_noData (info : ExceptionInformation)
    (h : ∀ fields ∈ info.toList, fields.NoNullValues) : RestoresData info ↔ NoData info := by
  obtain ⟨node, hnode, hload⟩ := exists_toXElement h
  rw [← forall₂_sameData_readBack_iff]
  constructor
  · rintro ⟨node', back, hnode', hload', hsame⟩
    obtain rfl := Except.ok.inj (hnode.symm.trans hnode')
    obtain rfl := Except.ok.inj (hload.symm.trans hload')
    exact hsame
  · exact fun hsame => ⟨node, readBack info, hnode, hload, hsame⟩

/-- An exception with one entry of data. -/
def describedFile : ExceptionInformation :=
  .innermost ⟨some "System.IO.IOException", none, -2146232800, some "m",
    some [("Path", some "a.txt")], none, none⟩

/-- The theorem speaks about dictionaries with entries. -/
theorem restoresData_iff_noData_describedFile :
    (∀ fields ∈ describedFile.toList, fields.NoNullValues) ∧
      (RestoresData describedFile ↔ NoData describedFile) :=
  ⟨by decide, restoresData_iff_noData describedFile (by decide)⟩

/-- One entry is lost. -/
theorem not_restoresData_describedFile : ¬ RestoresData describedFile := by
  have hvalues : ∀ fields ∈ describedFile.toList, fields.NoNullValues := by decide
  obtain ⟨node, hnode, hload⟩ := exists_toXElement hvalues
  rintro ⟨node', back, hnode', hload', hsame⟩
  obtain rfl := Except.ok.inj (hnode.symm.trans hnode')
  obtain rfl := Except.ok.inj (hload.symm.trans hload')
  have hempty : NoData describedFile := forall₂_sameData_readBack_iff.mp hsame
  exact absurd (hempty _ List.mem_cons_self) (by decide)

end ExceptionInformation

end SMEWindow.Collect
