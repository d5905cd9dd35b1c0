import SMEWindow.Lib.Terminated
import SMEWindow.Server.InsertedRows

/-!
# Modules and the statement about them

`MakeQueryforModule` writes the paths of all modules into one column and their versions
into another, with a question mark behind each. The versions have no question marks, so
their column tells how many modules there are. A path may have one: paths of devices
begin with it.

## Main definitions

* `Server.Recoverable` — no other modules have the same statement

## Main results

* `recoverable_iff` — a list of modules is recoverable exactly when it has at most one
  module, or no path with a question mark
-/

set_option autoImplicit false

namespace SMEWindow.Server

open DumpReader Lib Lib.QuotedText Lib.InsertStatement Lib.Text Lib.Terminated

/-- The statement about a list of modules. -/
def moduleStatement (dump : MiniDump) (m_dumpid : Int32) (modules : List MiniDumpModule) :
    List Char :=
  Statement.render (makeQueryforModule { dump with Module := modules } m_dumpid)

/-- No module has a path with a quote. -/
def UnquotedPaths (modules : List MiniDumpModule) : Prop :=
  ∀ module ∈ modules, quote ∉ module.PathAndFileName.toList

/-- The only modules with this statement are these, with these paths and versions in this
order. -/
def Recoverable (dump : MiniDump) (m_dumpid : Int32) (modules : List MiniDumpModule) : Prop :=
  ∀ modules', UnquotedPaths modules' →
    moduleStatement dump m_dumpid modules' = moduleStatement dump m_dumpid modules →
    modules' = modules

def paths (modules : List MiniDumpModule) : List (List Char) :=
  modules.map fun module => module.PathAndFileName.toList

def versions (modules : List MiniDumpModule) : List (List Char) :=
  modules.map fun module => module.fileVersion.toList

variable {dump : MiniDump} {m_dumpid : Int32} {modules modules' : List MiniDumpModule}

theorem toList_join_mark {α : Type} (text : α → String) (l : List α) :
    (String.join (l.map (text · ++ "?"))).toList =
      terminated '?' (l.map fun a => (text a).toList) := by
  rw [String.toList_join, terminated, List.flatMap_map, List.flatMap_map]
  simp

/-- The statement consists of both columns and the dump's number. -/
theorem moduleStatement_eq : moduleStatement dump m_dumpid modules =
    (header .module).toList ++ valueText [terminated '?' (paths modules),
      terminated '?' (versions modules), (intToString m_dumpid).toList] := by
  rw [moduleStatement, render_makeQueryforModule, toList_join_mark, toList_join_mark]
  rfl

/-- A version has no question mark, nor a quote. -/
theorem notMem_versions {c : Char} (hdigit : c.isDigit = false) (hdot : c ≠ '.') :
    ∀ text ∈ versions modules, c ∉ text := by
  intro text htext hmem
  obtain ⟨module, -, rfl⟩ := List.mem_map.mp htext
  rw [MiniDumpModule.fileVersion_eq_toText] at hmem
  rcases Version.isDigit_or_eq_of_mem_toText hmem with h | h
  · exact Bool.false_ne_true (hdigit.symm.trans h)
  · exact hdot h

theorem quote_notMem_paths (hquotes : UnquotedPaths modules) :
    quote ∉ terminated '?' (paths modules) := by
  refine notMem_terminated (by decide) ?_
  intro text htext
  obtain ⟨module, hmodule, rfl⟩ := List.mem_map.mp htext
  exact hquotes module hmodule

/-- The same statement has the same columns. -/
theorem columns_eq_of_moduleStatement_eq (hquotes : UnquotedPaths modules)
    (hquotes' : UnquotedPaths modules')
    (h : moduleStatement dump m_dumpid modules' = moduleStatement dump m_dumpid modules) :
    terminated '?' (paths modules') = terminated '?' (paths modules) ∧
      terminated '?' (versions modules') = terminated '?' (versions modules) := by
  have hread : ∀ modules, UnquotedPaths modules →
      parse (moduleStatement dump m_dumpid modules) = some ⟨(tableName .module).toList,
        (columnNames .module).map String.toList,
        [terminated '?' (paths modules), terminated '?' (versions modules),
          (intToString m_dumpid).toList]⟩ := by
    intro modules hquotes
    rw [moduleStatement_eq,
      parse_append_valueText (begins_header .module rfl) (List.cons_ne_nil _ _)]
    simp only [List.forall_mem_cons]
    exact ⟨quote_notMem_paths hquotes,
      notMem_terminated (by decide) (notMem_versions (by decide) (by decide)),
      unquoted_intToString _, fun _ h => absurd h List.not_mem_nil⟩
  have hparse := hread modules' hquotes'
  rw [h, hread modules hquotes] at hparse
  simp only [Option.some.injEq, Insert.mk.injEq, List.cons.injEq] at hparse
  exact ⟨hparse.2.2.1.symm, hparse.2.2.2.1.symm⟩

/-- Modules are determined by their paths and versions. -/
theorem eq_of_paths_eq_of_versions_eq (hpaths : paths modules' = paths modules)
    (hversions : versions modules' = versions modules) : modules' = modules := by
  induction modules generalizing modules' with
  | nil => exact List.map_eq_nil_iff.mp hpaths
  | cons module modules ih =>
    cases modules' with
    | nil => exact absurd hpaths.symm (List.cons_ne_nil _ _)
    | cons module' modules' =>
      obtain ⟨hpath, hpaths⟩ := List.cons.inj hpaths
      obtain ⟨hversion, hversions⟩ := List.cons.inj hversions
      obtain ⟨hMS, hLS⟩ := MiniDumpModule.eq_of_fileVersion_eq (String.toList_inj.mp hversion)
      rw [ih hpaths hversions, List.cons.injEq, MiniDumpModule.mk.injEq]
      exact ⟨⟨String.toList_inj.mp hpath, hMS, hLS⟩, rfl⟩

/-- The modules with other paths. -/
def withPaths (modules : List MiniDumpModule) (texts : List (List Char)) : List MiniDumpModule :=
  List.zipWith (fun module text => { module with PathAndFileName := String.ofList text })
    modules texts

theorem paths_withPaths {texts : List (List Char)} (h : texts.length = modules.length) :
    paths (withPaths modules texts) = texts := by
  rw [paths, withPaths, List.map_zipWith]
  simp only [String.toList_ofList]
  exact List.map_uncurry_zip_eq_zipWith.symm.trans (List.map_snd_zip h.le)

theorem versions_withPaths {texts : List (List Char)} (h : texts.length = modules.length) :
    versions (withPaths modules texts) = versions modules := by
  rw [versions, withPaths, List.map_zipWith]
  calc List.zipWith (fun module _ => module.fileVersion.toList) modules texts
      = (modules.zip texts).map fun pair => pair.1.fileVersion.toList :=
        List.map_uncurry_zip_eq_zipWith.symm
    _ = ((modules.zip texts).map Prod.fst).map fun module => module.fileVersion.toList := by
        rw [List.map_map]
        rfl
    _ = versions modules := by
        rw [List.map_fst_zip h.ge]
        rfl

/-- **A list of modules is recoverable exactly when it has at most one module, or no path
with a question mark.** For every list of modules, with any paths without quotes and any
versions: any modules with the same statement are the same modules in the same order if
and only if there are less than two modules, or none has a question mark in its path. -/
theorem recoverable_iff (dump : MiniDump) (m_dumpid : Int32) (modules : List MiniDumpModule)
    (hquotes : UnquotedPaths modules) :
    Recoverable dump m_dumpid modules ↔
      modules.length ≤ 1 ∨ ∀ module ∈ modules, '?' ∉ module.PathAndFileName.toList := by
  have hiff := forall_terminated_iff '?' (paths modules)
  rw [paths, List.forall_mem_map, List.length_map, ← paths] at hiff
  rw [← hiff]
  constructor
  · intro h texts hlength heq
    have hpaths := paths_withPaths hlength
    have hmodules : withPaths modules texts = modules := by
      refine h _ ?_ ?_
      · intro module hmodule hmem
        -- a quote in one of these paths would be in the column of both
        have htext : module.PathAndFileName.toList ∈ texts := by
          rw [← hpaths]
          exact List.mem_map_of_mem hmodule
        have hcolumn : quote ∈ terminated '?' texts := mem_terminated htext hmem
        rw [heq] at hcolumn
        exact quote_notMem_paths hquotes hcolumn
      · rw [moduleStatement_eq, moduleStatement_eq, hpaths, heq, versions_withPaths hlength]
    rw [← hpaths, hmodules]
  · intro h modules' hquotes' heq
    obtain ⟨hpaths, hversions⟩ := columns_eq_of_moduleStatement_eq hquotes hquotes' heq
    have hversions := eq_of_terminated_eq (notMem_versions (by decide) (by decide))
      (notMem_versions (by decide) (by decide)) hversions
    have hlength := congrArg List.length hversions
    rw [versions, versions, List.length_map, List.length_map] at hlength
    refine eq_of_paths_eq_of_versions_eq (h _ ?_ hpaths) hversions
    rw [paths, List.length_map, hlength]

/-- A module of version 1.0.0.0. -/
def plainModule (path : String) : MiniDumpModule := ⟨path, 0x10000, 0⟩

/-- A program and a library of it. -/
def fileModules : List MiniDumpModule := [plainModule "C:\\a.exe", plainModule "C:\\b.dll"]

/-- Modules in files are recoverable. -/
theorem recoverable_files : Recoverable emptyDump 1 fileModules :=
  (recoverable_iff _ _ _ (by unfold UnquotedPaths; decide)).mpr (.inr (by decide))

/-- The path of the library begins like that of a device. -/
def deviceModules : List MiniDumpModule :=
  [plainModule "C:\\a.exe", plainModule "\\\\?\\C:\\b.dll"]

/-- The beginning is read as the end of the path before it. -/
def misreadModules : List MiniDumpModule :=
  [plainModule "C:\\a.exe?\\\\", plainModule "\\C:\\b.dll"]

/-- Two lists of modules with one statement. -/
theorem moduleStatement_deviceModules :
    UnquotedPaths deviceModules ∧ UnquotedPaths misreadModules ∧
      moduleStatement emptyDump 1 deviceModules =
        moduleStatement emptyDump 1 misreadModules ∧
      deviceModules ≠ misreadModules := by
  unfold UnquotedPaths
  refine ⟨by decide, by decide, ?_, by decide⟩
  rw [moduleStatement_eq, moduleStatement_eq]
  rfl

end SMEWindow.Server
