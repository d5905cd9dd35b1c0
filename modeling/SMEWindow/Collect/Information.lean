import SMEWindow.Lib.Element

/-!
# Project and system information

The two records of a report that do not depend on the error. A system record is
read back by position, a project record by the names of its elements.

## Main definitions

* `Collect.ProjectInformation` — `SMEProjectInformation`
* `Collect.SystemInformation` — `SMESystemInformation`

## Main results

* `ProjectInformation.load_toXElement`, `SystemInformation.load_toXElement` — a
  written record reads back, if its platform is one the reader knows
-/

set_option autoImplicit false

namespace SMEWindow.Collect

open Lib.Element Lib.Text

/-! ### The project -/

/-- The name and version of the reporting program. A record that was read from
another element has neither. -/
structure ProjectInformation where
  Name : Option String
  m_Version : Option Version
  deriving DecidableEq

namespace ProjectInformation

/-- The version 0.0. -/
def zeroVersion : Version := ⟨[⟨0, by decide⟩, ⟨0, by decide⟩], by simp, by simp⟩

/-- The constructor from a name and a version, with its defaults. -/
def ofNameVersion (name : Option String) (version : Option Version) : ProjectInformation :=
  ⟨some (name.getD "My Project"), some (version.getD zeroVersion)⟩

/-- A null version throws. -/
def toXElement (info : ProjectInformation) : Except RuntimeException Node :=
  match info.m_Version with
  | none => .error .nullReference
  | some version => .ok (.element "ProjectInformation"
      [leaf "Name" info.Name, leaf "Version" (some version.toText)])

/-- One child element: the last of each name counts. -/
def loadItem (info : ProjectInformation) : Node → Except RuntimeException ProjectInformation
  | .text _ => .ok info
  | .element name nodes =>
    if name = "Name" then .ok { info with Name := some (Node.valueAll nodes) }
    else if name = "Version" then
      (Version.parse (Node.valueAll nodes)).map fun version =>
        { info with m_Version := some version }
    else .ok info

/-- An element of another name is not an error. -/
def loadFromXElement : Node → Except RuntimeException ProjectInformation
  | .text _ => .error .invalidCast
  | .element name nodes =>
    if name = "ProjectInformation" then (elements nodes).foldlM loadItem ⟨none, none⟩
    else .ok ⟨none, none⟩

/-- What a record reads back as: a null name becomes empty. -/
def readBack (info : ProjectInformation) : ProjectInformation :=
  ⟨some (info.Name.getD ""), info.m_Version⟩

theorem load_toXElement {info : ProjectInformation} {node : Node}
    (h : info.toXElement = .ok node) : loadFromXElement node = .ok info.readBack := by
  obtain ⟨name, version⟩ := info
  cases version with
  | none => cases h
  | some version =>
    obtain rfl := Except.ok.inj h
    have hname : loadItem ⟨none, none⟩ (leaf "Name" name) = .ok ⟨some (name.getD ""), none⟩ := by
      rw [leaf, loadItem, if_pos rfl, valueAll_content]
    have hversion : loadItem ⟨some (name.getD ""), none⟩ (leaf "Version" (some version.toText)) =
        .ok ⟨some (name.getD ""), some version⟩ := by
      rw [leaf, loadItem, if_neg (by decide), if_pos rfl, valueAll_content, Option.getD_some,
        Version.parse_toText]
      rfl
    have helements : elements [leaf "Name" name, leaf "Version" (some version.toText)] =
        [leaf "Name" name, leaf "Version" (some version.toText)] := rfl
    rw [loadFromXElement, if_pos rfl, helements, List.foldlM_cons, hname, ok_bind,
      List.foldlM_cons, hversion, ok_bind, List.foldlM_nil]
    rfl

theorem toXElement_readBack (info : ProjectInformation) :
    info.readBack.toXElement = info.toXElement := by
  unfold toXElement readBack
  cases info.m_Version with
  | none => rfl
  | some version => simp only [leaf_some_getD]

end ProjectInformation

/-! ### The system -/

/-- `System.PlatformID`, in the order of its values. -/
inductive PlatformID
  | Win32S | Win32Windows | Win32NT | WinCE | Unix | Xbox | MacOSX
  deriving DecidableEq, Repr

namespace PlatformID

def toText : PlatformID → String
  | Win32S => "Win32S"
  | Win32Windows => "Win32Windows"
  | Win32NT => "Win32NT"
  | WinCE => "WinCE"
  | Unix => "Unix"
  | Xbox => "Xbox"
  | MacOSX => "MacOSX"

/-- The comparisons of the reader; any other text is the value 0. -/
def ofText (text : String) : PlatformID :=
  if Win32NT.toText = text then Win32NT
  else if Win32S.toText = text then Win32S
  else if Win32Windows.toText = text then Win32Windows
  else if WinCE.toText = text then WinCE
  else if Xbox.toText = text then Xbox
  else Win32S

/-- The platforms that the reader compares with. -/
def Recognised (platform : PlatformID) : Prop := platform ≠ Unix ∧ platform ≠ MacOSX

instance (platform : PlatformID) : Decidable platform.Recognised :=
  inferInstanceAs (Decidable (_ ∧ _))

theorem ofText_toText {platform : PlatformID} (h : platform.Recognised) :
    ofText platform.toText = platform := by
  revert h
  cases platform <;> decide

end PlatformID

/-- The operating system and runtime. -/
structure SystemInformation where
  PlatformID : PlatformID
  ServicePack : Option String
  OSVersion : Version
  CLRVersion : Version
  Is64bitOS : Bool
  Is64bitProcess : Bool
  deriving DecidableEq

namespace SystemInformation

def toXElement (info : SystemInformation) : Node :=
  .element "SystemInformation" [leaf "PlatformID" (some info.PlatformID.toText),
    leaf "ServicePack" info.ServicePack, leaf "OSVersion" (some info.OSVersion.toText),
    leaf "CLRVersion" (some info.CLRVersion.toText),
    leaf "Is64BitOS" (some (boolToString info.Is64bitOS)),
    leaf "Is64BitProcess" (some (boolToString info.Is64bitProcess))]

def loadFromXElement : Node → Except RuntimeException SystemInformation
  | .text _ => .error .invalidCast
  | .element name nodes =>
    if name = "SystemInformation" then do
      let xe ← atElement nodes
      let platform := PlatformID.ofText xe.value
      let xe ← atElement xe.following
      let servicePack := xe.value
      let xe ← atElement xe.following
      let osVersion ← Version.parse xe.value
      let xe ← atElement xe.following
      let clrVersion ← Version.parse xe.value
      let xe ← atElement xe.following
      let is64bitOS ← parseBool xe.value
      let xe ← atElement xe.following
      let is64bitProcess ← parseBool xe.value
      return ⟨platform, some servicePack, osVersion, clrVersion, is64bitOS, is64bitProcess⟩
    else .error (.raised "This XElement is not SystemInformation XElement.")

/-- What a record reads back as: a null service pack becomes empty. -/
def readBack (info : SystemInformation) : SystemInformation :=
  { info with ServicePack := some (info.ServicePack.getD "") }

theorem load_toXElement (info : SystemInformation) (hplatform : info.PlatformID.Recognised) :
    loadFromXElement info.toXElement = .ok info.readBack := by
  simp only [loadFromXElement, toXElement, if_true, atElement_leaf, ok_bind,
    Cursor.value_content, Option.getD_some, PlatformID.ofText_toText hplatform,
    Version.parse_toText, parseBool_boolToString]
  rfl

theorem toXElement_readBack (info : SystemInformation) :
    info.readBack.toXElement = info.toXElement := by
  simp only [toXElement, readBack, leaf_some_getD]

end SystemInformation

end SMEWindow.Collect
