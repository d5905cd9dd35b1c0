import SMEWindow.DumpReader.MinidumpStream
import SMEWindow.Lib.MemoryTrace

/-!
# Reading modules from a mapped dump

`SMEMiniDumpReader` maps the file of a dump into memory. The records of the modules are
read through a buffer that knows the size of the view, but the beginning of the list and
the names of the modules are read through pointers, at offsets and with lengths that the
file gives.

## Main definitions

* `DumpReader.MappedView` — the view, the memory around it, and where the list of modules
  begins
* `MappedView.readModuleList`, `MappedView.readString` — what is read, as a trace
* `MappedView.ReadsInside` — the list and every name are read inside the view

## Main results

* `MappedView.readsInside_iff` — this is so exactly when the list's header lies inside
  and, if its records do, every name that they refer to does
-/

set_option autoImplicit false

namespace SMEWindow.DumpReader

open Lib.LittleEndian Lib.MemoryTrace

/-- What `MiniDumpReadDumpStream` tells about a stream; it finds streams inside the
view. -/
inductive StreamLookup (size : ℕ)
  | found (offset : ℕ) (inside : offset < size)
  /-- `ERR_ELEMENT_NOT_FOUND`. -/
  | notFound
  | failed (lastError : ℕ)

/-- A view of a file. Addresses are counted from the beginning of the view. -/
structure MappedView where
  /-- The memory of the process, also behind the view. -/
  memory : ℕ → UInt8
  /-- `RegionSize`. -/
  size : ℕ
  /-- `IntPtr.Size`. -/
  pointerSize : { n : ℕ // n = 4 ∨ n = 8 }
  moduleListStream : StreamLookup size

theorem isPointerSize_four : 4 = 4 ∨ 4 = 8 := .inl rfl

inductive ReadException
  | win32 (lastError : ℕ)
  | overflow
  | argument
  deriving DecidableEq, Repr

/-- `MINIDUMP_MODULE`, with the fields that a `MiniDumpModule` is asked for. -/
structure MINIDUMP_MODULE where
  ModuleNameRva : UInt32
  dwFileVersionMS : UInt32
  dwFileVersionLS : UInt32
  deriving DecidableEq, Repr

/-- The unsigned field at an offset of a record. -/
def uint32At (bytes : List UInt8) (offset : ℕ) : UInt32 :=
  UInt32.ofNat (value ((bytes.drop offset).take 4))

/-- The code units of a text. -/
def codeUnits : List UInt8 → List UInt16
  | low :: high :: bytes => UInt16.ofNat (value [low, high]) :: codeUnits bytes
  | _ => []

namespace MappedView

/-- The size of a `MINIDUMP_MODULE`. -/
def moduleSize : ℕ := 108

/-- `ReadStream` for the list of modules: the address of the stream and the field
`NumberOfModules`. The structure that is marshalled has a pointer behind that field. -/
def readStream (view : MappedView) : Traced ReadException (Option (ℕ × UInt32)) :=
  match view.moduleListStream with
  | .notFound => pure none
  | .failed lastError => .throw (.win32 lastError)
  | .found streamPointer _ => do
    let streamData ← Traced.read view.memory streamPointer (4 + view.pointerSize)
    return some (streamPointer, uint32At streamData 0)

/-- The record that begins a list of bytes. -/
def moduleAt (bytes : List UInt8) : MINIDUMP_MODULE where
  ModuleNameRva := uint32At bytes 20
  dwFileVersionMS := uint32At bytes 32
  dwFileVersionLS := uint32At bytes 36

/-- `ReadArray` for modules. An array of negative length is not created, and the buffer
checks that what it is to read fits. -/
def readArray (view : MappedView) (offset : ℕ) (count : Int32) :
    Traced ReadException (List MINIDUMP_MODULE) :=
  if count < 0 then .throw .overflow
  else
    let sizeInBytes := moduleSize * count.toInt.toNat
    if view.size < sizeInBytes ∨ view.size - sizeInBytes < offset then .throw .argument
    else do
      let bytes ← Traced.read view.memory offset sizeInBytes
      return (List.range count.toInt.toNat).map fun i => moduleAt (bytes.drop (moduleSize * i))

/-- `ReadModuleList`. -/
def readModuleList (view : MappedView) : Traced ReadException (List MINIDUMP_MODULE) := do
  match ← view.readStream with
  | none => return []
  | some (streamPointer, numberOfModules) =>
    view.readArray (streamPointer + 4) numberOfModules.toInt32

/-- `ReadString`: the length in bytes, and half as many code units. -/
def readString (view : MappedView) (rva : UInt32) : Traced ReadException String := do
  let field ← Traced.read view.memory rva.toNat 4
  let len := (toInt32 field).toInt.tdiv 2
  -- `PtrToStringUni` takes no negative length
  if len < 0 then .throw .argument
  else
    let bytes ← Traced.read view.memory (rva.toNat + 4) (2 * len.toNat)
    return String.ofList (decodeUnits (codeUnits bytes))

/-- `PathAndFileName` of a module. -/
def pathAndFileName (view : MappedView) (module : MINIDUMP_MODULE) :
    Traced ReadException String :=
  view.readString module.ModuleNameRva

/-- The list of modules and the path of every module in it are read inside the view, up to
an error where there is one. -/
def ReadsInside (view : MappedView) : Prop :=
  view.readModuleList.Safe view.size ∧
    ∀ modules, view.readModuleList.result = .ok modules →
      ∀ module ∈ modules, (view.pathAndFileName module).Safe view.size

/-! ### What the file has to say -/

/-- The field `NumberOfModules` of a list at an offset, as the signed number that it is
taken for. -/
def numberOfModules (view : MappedView) (offset : ℕ) : Int :=
  (toInt32 (bytesAt view.memory offset 4)).toInt

/-- The field `ModuleNameRva` of the record with an index in a list at an offset. -/
def moduleNameRva (view : MappedView) (offset i : ℕ) : ℕ :=
  value (bytesAt view.memory (offset + 4 + moduleSize * i + 20) 4)

/-- How many code units a name at an offset has. -/
def stringLength (view : MappedView) (rva : ℕ) : Int :=
  (toInt32 (bytesAt view.memory rva 4)).toInt.tdiv 2

/-- The length of a name, and as many code units as it says, lie inside. -/
def StringFits (view : MappedView) (rva : ℕ) : Prop :=
  rva + 4 + 2 * (view.stringLength rva).toNat ≤ view.size

/-- The header of a list with the pointer that is read with it lies inside; and if the
records of the list do, so do the names that they refer to. -/
structure ListFits (view : MappedView) (offset : ℕ) : Prop where
  header : offset + 4 + view.pointerSize ≤ view.size
  names : ∀ count : ℕ, view.numberOfModules offset = count →
    offset + 4 + moduleSize * count ≤ view.size →
    ∀ i < count, view.StringFits (view.moduleNameRva offset i)

variable {view : MappedView}

theorem toNat_uint32At (bytes : List UInt8) (offset : ℕ) :
    (uint32At bytes offset).toNat = value ((bytes.drop offset).take 4) := by
  have hlt := value_lt ((bytes.drop offset).take 4)
  have hlength : ((bytes.drop offset).take 4).length ≤ 4 := List.length_take_le _ _
  have hpow := Nat.pow_le_pow_right (show 0 < 256 by decide) hlength
  rw [uint32At, UInt32.toNat_ofNat', Nat.mod_eq_of_lt (by omega)]

/-- A name is read inside exactly when it fits. -/
theorem safe_readString_iff (rva : UInt32) :
    (view.readString rva).Safe view.size ↔ view.StringFits rva.toNat := by
  have hlen : (toInt32 (bytesAt view.memory rva.toNat 4)).toInt.tdiv 2 =
      view.stringLength rva.toNat := rfl
  rw [readString, Traced.safe_bind_iff, Traced.safe_read_iff, Traced.result_read, StringFits]
  simp only [Except.ok.injEq, forall_eq', hlen]
  by_cases hneg : view.stringLength rva.toNat < 0
  · rw [if_pos hneg]
    simp only [Traced.safe_throw, and_true]
    omega
  · rw [if_neg hneg, Traced.safe_bind_iff, Traced.safe_read_iff]
    simp only [Traced.safe_pure, implies_true, and_true]
    omega

/-- The buffer never reads outside. -/
theorem safe_readArray (offset : ℕ) (count : Int32) :
    (view.readArray offset count).Safe view.size := by
  rw [readArray]
  dsimp only
  split_ifs with hneg hroom
  · exact Traced.safe_throw _
  · exact Traced.safe_throw _
  · rw [Traced.safe_bind_iff, Traced.safe_read_iff]
    exact ⟨.inr (by omega), fun _ _ => Traced.safe_pure _⟩

/-- If the records of a list lie inside, the buffer reads all of them. -/
theorem result_readArray_eq_ok_iff {offset : ℕ} {count : Int32} {modules : List MINIDUMP_MODULE} :
    (view.readArray offset count).result = .ok modules ↔
      0 ≤ count.toInt ∧ offset + moduleSize * count.toInt.toNat ≤ view.size ∧
        modules = (List.range count.toInt.toNat).map fun i =>
          moduleAt ((bytesAt view.memory offset (moduleSize * count.toInt.toNat)).drop
            (moduleSize * i)) := by
  have hsign : count < 0 ↔ count.toInt < 0 := Int32.lt_iff_toInt_lt
  rw [readArray]
  dsimp only
  split_ifs with hneg hroom
  · rw [hsign] at hneg
    exact ⟨fun h => (nomatch h), fun h => absurd h.1 (by omega)⟩
  · exact ⟨fun h => (nomatch h), fun h => absurd h.2.1 (by omega)⟩
  · rw [hsign] at hneg
    rw [Traced.result_bind_eq_ok_iff]
    simp only [Traced.result_read, Traced.result_pure, Except.ok.injEq, exists_eq_left']
    constructor
    · rintro rfl
      exact ⟨by omega, by omega, rfl⟩
    · rintro ⟨-, -, rfl⟩
      rfl

/-- The name of a record in a list. -/
theorem toNat_moduleNameRva (offset : ℕ) {count i : ℕ} (hi : i < count) :
    (moduleAt ((bytesAt view.memory (offset + 4) (moduleSize * count)).drop
      (moduleSize * i))).ModuleNameRva.toNat = view.moduleNameRva offset i := by
  have hend : moduleSize * i + 20 + 4 ≤ moduleSize * count := by
    unfold moduleSize
    omega
  rw [moduleAt, toNat_uint32At, List.drop_drop, take_drop_bytesAt _ _ hend, moduleNameRva,
    Nat.add_assoc (offset + 4) (moduleSize * i)]

/-- The header of a list tells how many records there are. -/
theorem toInt_numberOfModules (offset : ℕ) :
    (uint32At (bytesAt view.memory offset (4 + view.pointerSize)) 0).toInt32.toInt =
      view.numberOfModules offset := by
  have hend : 0 + 4 ≤ 4 + view.pointerSize.val := by omega
  have hlength : (bytesAt view.memory offset 4).length ≤ 4 := (length_bytesAt ..).le
  rw [uint32At, take_drop_bytesAt _ _ hend, Nat.add_zero, numberOfModules, toInt32,
    List.take_of_length_le hlength]
  rfl

/-- Only the header of a list is read unchecked. -/
theorem safe_readModuleList_iff :
    view.readModuleList.Safe view.size ↔ view.readStream.Safe view.size := by
  rw [readModuleList, Traced.safe_bind_iff]
  constructor
  · exact And.left
  · intro h
    refine ⟨h, ?_⟩
    intro found _
    cases found with
    | none => exact Traced.safe_pure _
    | some found => exact safe_readArray _ _

section Found

variable {offset : ℕ} {inside : offset < view.size}

theorem safe_readStream_iff (hfound : view.moduleListStream = .found offset inside) :
    view.readStream.Safe view.size ↔ offset + 4 + view.pointerSize ≤ view.size := by
  rw [readStream, hfound, Traced.safe_bind_iff, Traced.safe_read_iff]
  simp only [Traced.safe_pure, implies_true, and_true]
  omega

theorem result_readStream (hfound : view.moduleListStream = .found offset inside) :
    view.readStream.result = .ok (some (offset,
      uint32At (bytesAt view.memory offset (4 + view.pointerSize)) 0)) := by
  rw [readStream, hfound]
  rfl

/-- The list is read if its records lie inside, and then record by record. -/
theorem result_readModuleList_eq_ok_iff (hfound : view.moduleListStream = .found offset inside)
    {modules : List MINIDUMP_MODULE} :
    view.readModuleList.result = .ok modules ↔
      ∃ count : ℕ, view.numberOfModules offset = count ∧
        offset + 4 + moduleSize * count ≤ view.size ∧
        modules = (List.range count).map fun i =>
          moduleAt ((bytesAt view.memory (offset + 4) (moduleSize * count)).drop
            (moduleSize * i)) := by
  rw [readModuleList, Traced.result_bind_eq_ok_iff, result_readStream hfound]
  simp only [Except.ok.injEq, exists_eq_left', result_readArray_eq_ok_iff, toInt_numberOfModules]
  constructor
  · rintro ⟨hnonneg, hroom, hmodules⟩
    exact ⟨_, (Int.toNat_of_nonneg hnonneg).symm, hroom, hmodules⟩
  · rintro ⟨count, hcount, hroom, hmodules⟩
    rw [hcount, Int.toNat_natCast]
    exact ⟨Int.natCast_nonneg count, hroom, hmodules⟩

/-- With a list of modules that begins at an offset, reading is safe exactly when the list
fits. -/
theorem readsInside_found_iff (hfound : view.moduleListStream = .found offset inside) :
    view.ReadsInside ↔ view.ListFits offset := by
  rw [ReadsInside, safe_readModuleList_iff, safe_readStream_iff hfound]
  constructor
  · rintro ⟨hheader, hnames⟩
    refine ⟨hheader, fun count hcount hroom i hi => ?_⟩
    have hmodules := (result_readModuleList_eq_ok_iff hfound).mpr ⟨count, hcount, hroom, rfl⟩
    have hname := hnames _ hmodules _ (List.mem_map_of_mem (List.mem_range.mpr hi))
    rwa [pathAndFileName, safe_readString_iff, toNat_moduleNameRva offset hi] at hname
  · rintro ⟨hheader, hnames⟩
    refine ⟨hheader, fun modules hmodules module hmodule => ?_⟩
    obtain ⟨count, hcount, hroom, rfl⟩ := (result_readModuleList_eq_ok_iff hfound).mp hmodules
    obtain ⟨i, hi, rfl⟩ := List.mem_map.mp hmodule
    have hi := List.mem_range.mp hi
    rw [pathAndFileName, safe_readString_iff, toNat_moduleNameRva offset hi]
    exact hnames count hcount hroom i hi

end Found

/-- Without a list there is nothing to read. -/
theorem readsInside_of_readStream (hsafe : view.readStream.Safe view.size)
    (hresult : ∀ found, view.readStream.result ≠ .ok (some found)) : view.ReadsInside := by
  refine ⟨safe_readModuleList_iff.mpr hsafe, ?_⟩
  intro modules hmodules module hmodule
  rw [readModuleList, Traced.result_bind_eq_ok_iff] at hmodules
  obtain ⟨found, hfound, hmodules⟩ := hmodules
  cases found with
  | none =>
    obtain rfl := Except.ok.inj hmodules
    exact absurd hmodule List.not_mem_nil
  | some found => exact absurd hfound (hresult found)

/-- **Modules are read inside the view exactly when their list fits.** For every view and
every list of modules in it: the list and the path of each of its modules are read
inside the view, or an error comes before, if and only if there is no list, or its
header with a pointer behind it lies inside the view and, if its records do, the names
that they refer to do. -/
theorem readsInside_iff (view : MappedView) : view.ReadsInside ↔
    ∀ offset inside, view.moduleListStream = .found offset inside → view.ListFits offset := by
  cases hstream : view.moduleListStream with
  | found offset inside =>
    rw [readsInside_found_iff hstream]
    constructor
    · intro h offset' inside' heq
      cases heq
      exact h
    · intro h
      exact h offset inside rfl
  | notFound =>
    refine ⟨fun _ _ _ heq => (nomatch heq), fun _ => readsInside_of_readStream ?_ ?_⟩
    · rw [readStream, hstream]
      exact Traced.safe_pure _
    · rw [readStream, hstream]
      exact fun found heq => (nomatch heq)
  | failed lastError =>
    refine ⟨fun _ _ _ heq => (nomatch heq), fun _ => readsInside_of_readStream ?_ ?_⟩
    · rw [readStream, hstream]
      exact Traced.safe_throw _
    · rw [readStream, hstream]
      exact fun found heq => (nomatch heq)

/-- A view of 256 bytes with a list of one module at offset 32, whose name is said to be at
offset 65535. Everything else is zero. -/
def forgedView : MappedView where
  memory i := if i = 32 then 1 else if i = 56 ∨ i = 57 then 0xff else 0
  size := 256
  pointerSize := ⟨8, .inr rfl⟩
  moduleListStream := .found 32 (by decide)

/-- The name is read far behind the view. -/
theorem not_readsInside_forgedView : ¬ forgedView.ReadsInside := by
  rw [readsInside_found_iff rfl]
  intro h
  exact absurd (h.names 1 (by decide) (by decide) 0 (by decide)) (by unfold StringFits; decide)

end MappedView

end SMEWindow.DumpReader
