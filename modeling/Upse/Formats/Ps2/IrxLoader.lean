import Upse.Formats.Ps2.IrxParser

/-!
# Loading of IOP modules

A module is relocated in a copy of its image, whose import and export tables are read before the image is
written to the target at once.
-/

namespace Upse.Irx

open Panics

def importMagic : Word := 0x41e00000

def exportMagic : Word := 0x41c00000

/-- One imported function stub. -/
structure ImportStub where
  ordinal : ℕ
  address : ℕ
  deriving DecidableEq, Repr

/-- One import library table. -/
structure ImportLibrary where
  name : Str
  version : ℕ
  mode : ℕ
  tableAddress : ℕ
  stubs : List ImportStub
  deriving DecidableEq, Repr

/-- One export library table. -/
structure ExportLibrary where
  name : Str
  version : ℕ
  mode : ℕ
  tableAddress : ℕ
  functions : List ℕ
  deriving DecidableEq, Repr

/-- Half-open target memory range. -/
structure MemoryRange where
  start : ℕ
  stop : ℕ
  deriving DecidableEq, Repr

/-- Whether a range contains another. -/
def MemoryRange.contains (range : MemoryRange) (address size : ℕ) : Bool :=
  ((checkedAdd 32 size 0).bind (checkedAdd 32 address ·)).any fun stop =>
    range.start ≤ address && stop ≤ range.stop

/-- Abstract destination for a completely staged module image. -/
structure TargetMemory (T : Type) where
  range : T → MemoryRange
  writeImage : T → ℕ → Bytes → Except String Unit × T

/-- What the entry point of a module has made of it. -/
inductive ResidentState where
  | unstarted
  | resident
  | notResident
  | removable
  deriving DecidableEq, Repr

/-- Contiguous allocation selected for a loaded module. -/
structure Allocation where
  address : ℕ
  size : ℕ
  alignment : ℕ
  deriving DecidableEq, Repr

/-- Result of loading and relocating one module. -/
structure LoadedModule where
  description : ModuleDescription
  entry : ℕ
  globalPointer : ℕ
  moduleId : Option ℕ
  allocation : Allocation
  imports : List ImportLibrary
  exports : List ExportLibrary
  residentState : ResidentState
  deriving DecidableEq, Repr

/-! ### Relocation -/

/-- Fails where the condition holds. -/
def rejectAt (origin : String) (c : Prop) [Decidable c] (offset : ℕ) (kind : IrxErrorKind) : Checked Unit :=
  if c then .error (.error ⟨origin, offset, kind⟩) else .ok ()

/-- `ok_or_else`. -/
def okOrAt {α : Type} (origin : String) (o : Option α) (offset : ℕ) (kind : IrxErrorKind) : Checked α :=
  match o with
  | some a => .ok a
  | none => .error (.error ⟨origin, offset, kind⟩)

/-- The signed value of the low half of a word. -/
def lowHalf (word : Word) : ℤ := (word.setWidth 16).toInt

/-- A jump with its field replaced by that of the target. -/
def patchJump (word target : Word) : Word := (word &&& 0xfc000000) ||| (target &&& 0x03ffffff)

/-- A word after its relocation; `image` is where the word of the low half is read. -/
def patchedWord (image : Bytes) (preferredAddress : ℕ) (delta : Word) (kind : RelocationKind)
    (word : Word) : Except IrxErrorKind Word :=
  match kind with
  | .half =>
    let value : ℤ := delta.toNat + lowHalf word
    if -32768 ≤ value ∧ value ≤ 65535 then .ok (patchLow word (BitVec.ofInt 32 value))
    else .error .relocationOverflow
  | .word =>
    match checkedAdd 32 word.toNat delta.toNat with
    | some value => .ok (BitVec.ofNat 32 value)
    | none => .error .relocationOverflow
  | .jump =>
    match checkedAdd 32 delta.toNat ((word &&& 0x03ffffff) <<< 2).toNat with
    | none => .error .relocationOverflow
    | some target =>
      if target % 4 ≠ 0 then .error .relocationOverflow
      else .ok (patchJump word (BitVec.ofNat 32 target >>> 2))
  | .high lowOffset =>
    match (imageOffset lowOffset preferredAddress image.length).bind (readU32 image) with
    | none => .error .malformedRelocationPair
    | some next =>
      let value : ℤ := delta.toNat + (((word &&& 0xffff) <<< 16).toNat + lowHalf next)
      if 0 ≤ value ∧ value ≤ 2 ^ 32 - 1 then
        .ok (patchLow word ((BitVec.ofInt 32 value + 0x8000) >>> 16))
      else .error .relocationOverflow
  | .low => .ok (patchLow word (word + delta))
  -- Not a relocation of one word.
  | .sonyHigh _ => .ok word

/-- Applies a relocation to an image. -/
def applyRelocation (origin : String) (preferredAddress : ℕ) (delta : Word) (image : Bytes)
    (relocation : Relocation) : Checked Bytes := do
  let position ← okOrAt origin (imageOffset relocation.offset preferredAddress image.length)
    relocation.sourceOffset .outOfRange
  let word ← okOrAt origin (readU32 image position) relocation.sourceOffset .outOfRange
  match relocation.kind with
  | .sonyHigh addend =>
    (applySonyHigh origin image position delta addend relocation.sourceOffset).mapError .error
  | kind =>
    let patched ← (patchedWord image preferredAddress delta kind word).mapError fun kind =>
      .error ⟨origin, relocation.sourceOffset, kind⟩
    expect (if position + 4 ≤ image.length then some (writeU32 image position patched) else none)

/-! ### Link tables -/

/-- The import and export tables found so far, and how many stubs and functions they have. -/
structure LinkTables where
  imports : List ImportLibrary
  exports : List ExportLibrary
  entries : ℕ
  deriving DecidableEq, Repr

section LinkTables

variable (origin : String) (image : Bytes) (address : ℕ) (limits : IrxLimits)

/-- Counts one stub or function. -/
def countEntry (cursor entries : ℕ) : Checked ℕ := do
  let entries ← okOrAt origin (checkedAdd 64 entries 1) cursor .overflow
  rejectAt origin (limits.maxLinkEntries < entries) cursor (.limitExceeded "link entries")
  return entries

/-- The stubs from a cursor on, in as many rounds as the image has bytes. -/
def importStubs : ℕ → ℕ → ℕ → List ImportStub → Checked (List ImportStub × ℕ)
  | 0, _, _, _ => .error .panic
  | rounds + 1, cursor, entries, stubs => do
    let stub ← okOrAt origin (getRange image cursor (← usize (cursor + 8))) cursor .invalidLinkTable
    let jump ← expect (readU32 stub 0)
    let ordinalWord ← expect (readU32 stub 4)
    if jump = 0 ∧ ordinalWord = 0 then return (stubs, entries)
    rejectAt origin (jump ≠ 0x03e00008 ∨ ordinalWord &&& 0xffff0000 ≠ 0x24000000) cursor .invalidLinkTable
    let entries ← countEntry origin limits cursor entries
    let stubAddress ← okOrAt origin (checkedAdd 32 address (cursor % 2 ^ 32)) cursor .overflow
    importStubs rounds (← usize (cursor + 8)) entries
      (stubs ++ [⟨ordinalWord.toNat % 2 ^ 16, stubAddress⟩])

/-- The functions from a cursor on, in as many rounds as the image has bytes. -/
def exportFunctions (imageEnd : ℕ) : ℕ → ℕ → ℕ → List ℕ → Checked (List ℕ × ℕ)
  | 0, _, _, _ => .error .panic
  | rounds + 1, cursor, entries, functions => do
    let function ← okOrAt origin (readU32 image cursor) cursor .invalidLinkTable
    if function = 0 then return (functions, entries)
    rejectAt origin ((MemoryRange.mk address imageEnd).contains function.toNat 4 = false) cursor
      .invalidLinkTable
    let entries ← countEntry origin limits cursor entries
    exportFunctions imageEnd rounds (← usize (cursor + 4)) entries (functions ++ [function.toNat])

/-- The table at a position, where there is one. -/
def linkTable (imageEnd : ℕ) (tables : LinkTables) (position : ℕ) : Checked LinkTables := do
  let magic ← expect (readU32 image position)
  if magic ≠ importMagic ∧ magic ≠ exportMagic then return tables
  rejectAt origin (limits.maxLinkTables ≤ tables.imports.length + tables.exports.length) position
    (.limitExceeded "link tables")
  let header ← okOrAt origin (getRange image position (← usize (position + 20))) position
    .invalidLinkTable
  rejectAt origin (readU32 header 4 ≠ some 0) (← usize (position + 4)) .invalidLinkTable
  let version ← expect (readU16 header 8)
  let mode ← expect (readU16 header 10)
  let nameBytes ← expect (getRange header 12 20)
  let name ← okOrAt origin (parseFixedName nameBytes) (← usize (position + 12)) .invalidLinkTable
  let tableAddress ← okOrAt origin (checkedAdd 32 address (position % 2 ^ 32)) position .overflow
  let cursor ← usize (position + 20)
  if magic = importMagic then
    let (stubs, entries) ← importStubs origin image address limits image.length cursor tables.entries []
    return { tables with
      imports := tables.imports ++ [⟨name, version, mode, tableAddress, stubs⟩]
      entries := entries }
  else
    let (functions, entries) ←
      exportFunctions origin image address limits imageEnd image.length cursor tables.entries []
    return { tables with
      exports := tables.exports ++ [⟨name, version, mode, tableAddress, functions⟩]
      entries := entries }

/-- The link tables of an image. -/
def parseLinkTables : Checked (List ImportLibrary × List ExportLibrary) := do
  let imageSize ← okOrAt origin (checkedAdd 32 image.length 0) 0 .overflow
  let imageEnd ← okOrAt origin (checkedAdd 32 address imageSize) 0 .overflow
  let positions := (List.range ((image.length - 3 + 3) / 4)).map (· * 4)
  let tables ← positions.foldlM (linkTable origin image address limits imageEnd) ⟨[], [], 0⟩
  return (tables.imports, tables.exports)

end LinkTables

/-! ### Loading -/

namespace IrxModule

variable (irx : IrxModule)

def allocationSize : ℕ := min irx.image.length (2 ^ 32 - 1)

/-- What relocating adds to addresses. -/
def delta (address : Word) : Word := if irx.description.variant.isRelocatable then address else 0

/-- The image relocated to an address. -/
def relocated (address : Word) : Checked Bytes :=
  irx.relocations.foldlM
    (applyRelocation irx.origin irx.preferredAddress (irx.delta address)) irx.image

/-- Everything before the target sees a write. -/
def stage (range : MemoryRange) (address : Word) : Checked (Bytes × LoadedModule) := do
  let origin := irx.origin
  let remainder ← expect (if irx.alignment = 0 then none else some (address.toNat % irx.alignment))
  rejectAt origin (remainder ≠ 0 ∨ (irx.description.variant.isRelocatable = false ∧
    address.toNat ≠ irx.preferredAddress)) 0 .invalidLoadAddress
  rejectAt origin (range.contains address.toNat irx.image.length = false) 0 .targetRange
  let delta := (irx.delta address).toNat
  let image ← irx.relocated address
  let entry ← okOrAt origin (checkedAdd 32 irx.rawMetadata.entry delta) 0 .overflow
  let globalPointer ← okOrAt origin (checkedAdd 32 irx.rawMetadata.globalPointer delta) 0 .overflow
  let stop ← okOrAt origin (checkedAdd 32 address.toNat irx.allocationSize) 0 .overflow
  rejectAt origin ((MemoryRange.mk address.toNat stop).contains entry 4 = false) 0 .targetRange
  let moduleId ←
    match irx.rawMetadata.moduleId with
    | some value => do
      let value ← okOrAt origin (checkedAdd 32 value delta) 0 .overflow
      pure (some value)
    | none => pure none
  let (imports, exports) ← parseLinkTables origin image address.toNat irx.limits
  return (image, {
    description := irx.description
    entry := entry
    globalPointer := globalPointer
    moduleId := moduleId
    allocation := ⟨address.toNat, irx.allocationSize, irx.alignment⟩
    imports := imports
    exports := exports
    residentState := .unstarted })

/-- Relocates and writes one complete module image to a target. -/
def loadInto {T : Type} (memory : TargetMemory T) (address : Word) (target : T) :
    Checked LoadedModule × T :=
  match irx.stage (memory.range target) address with
  | .error stop => (.error stop, target)
  | .ok (image, loaded) =>
    match memory.writeImage target address.toNat image with
    | (.error message, target) => (.error (.error ⟨irx.origin, 0, .target message⟩), target)
    | (.ok (), target) => (.ok loaded, target)

end IrxModule

end Upse.Irx
