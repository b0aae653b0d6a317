import Mathlib.Data.List.Sort
import Upse.Formats.Ps2.Irx
import Upse.Lib.Panics

/-!
# Parsing of IOP modules

The parser of Sony IOP ELF modules on a 64-bit host.  Indexing, slicing and arithmetic that the program
does not check end in a panic, which is apart from the errors it returns.
-/

namespace Upse.Irx

open Panics

def elfHeaderSize : ℕ := 52

def programHeaderSize : ℕ := 32

def sectionHeaderSize : ℕ := 40

def symbolSize : ℕ := 16

def relSize : ℕ := 8

def ptLoad : ℕ := 1

def ptSceIopmod : ℕ := 0x70000080

def shtNobits : ℕ := 8

def shtRel : ℕ := 9

def shtSymtab : ℕ := 2

def shtStrtab : ℕ := 3

/-- Resource limits for one module. -/
structure IrxLimits where
  maxInputBytes : ℕ
  maxProgramHeaders : ℕ
  maxSectionHeaders : ℕ
  maxImageBytes : ℕ
  maxRelocations : ℕ
  maxLinkTables : ℕ
  maxLinkEntries : ℕ
  maxNameBytes : ℕ
  maxAlignment : ℕ
  deriving DecidableEq, Repr

/-- The default limits. -/
def IrxLimits.default : IrxLimits where
  maxInputBytes := 16 * 1024 * 1024
  maxProgramHeaders := 32
  maxSectionHeaders := 4096
  maxImageBytes := 2 * 1024 * 1024
  maxRelocations := 262144
  maxLinkTables := 4096
  maxLinkEntries := 65536
  maxNameBytes := 127
  maxAlignment := 4096

/-- Supported Sony IOP ELF variant. -/
inductive IrxVariant where
  | relocatableV1
  | relocatableV2
  | executable
  deriving DecidableEq, Repr

def IrxVariant.isRelocatable : IrxVariant → Bool
  | .relocatableV1 | .relocatableV2 => true
  | .executable => false

/-- One loadable range. -/
structure LoadRange where
  sourceOffset : ℕ
  virtualAddress : ℕ
  fileSize : ℕ
  memorySize : ℕ
  flags : ℕ
  alignment : ℕ
  deriving DecidableEq, Repr

/-- Module metadata available before execution. -/
structure ModuleDescription where
  name : Str
  version : ℕ
  variant : IrxVariant
  entry : ℕ
  globalPointer : ℕ
  textSize : ℕ
  dataSize : ℕ
  bssSize : ℕ
  deriving DecidableEq, Repr

/-- An entry of the program header table. -/
structure ProgramHeader where
  kind : ℕ
  offset : ℕ
  virtualAddress : ℕ
  fileSize : ℕ
  memorySize : ℕ
  flags : ℕ
  alignment : ℕ
  deriving DecidableEq, Repr

/-- An entry of the section header table. -/
structure SectionHeader where
  kind : ℕ
  offset : ℕ
  size : ℕ
  link : ℕ
  info : ℕ
  alignment : ℕ
  entrySize : ℕ
  deriving DecidableEq, Repr

/-- How a relocation patches its word. -/
inductive RelocationKind where
  | half
  | word
  | jump
  | high (lowOffset : ℕ)
  | low
  | sonyHigh (addend : Word)
  deriving DecidableEq, Repr

/-- A relocation, with the place of its word. -/
structure Relocation where
  offset : ℕ
  kind : RelocationKind
  sourceOffset : ℕ
  deriving DecidableEq, Repr

/-- What the file says of the module. -/
structure RawMetadata where
  moduleId : Option ℕ
  entry : ℕ
  globalPointer : ℕ
  deriving DecidableEq, Repr

/-- Parsed module ready to be relocated into a target. -/
structure IrxModule where
  origin : String
  limits : IrxLimits
  description : ModuleDescription
  rawMetadata : RawMetadata
  ranges : List LoadRange
  preferredAddress : ℕ
  alignment : ℕ
  image : Bytes
  relocations : List Relocation
  deriving DecidableEq, Repr

/-! ### What stops the program -/

/-- Programs that return errors of modules and may panic. -/
abbrev Checked := MayPanic IrxError

/-- Unchecked arithmetic of `usize`. -/
def usize (n : ℕ) : Checked ℕ := expect (checkedAdd 64 n 0)

/-- `get` with a range. -/
def getRange (input : Bytes) (start stop : ℕ) : Option Bytes :=
  if start ≤ stop ∧ stop ≤ input.length then some (slice input start stop) else none

/-- A little-endian halfword. -/
def readU16 (input : Bytes) (offset : ℕ) : Option ℕ :=
  (getRange input offset (offset + 2)).map ofLeBytes

/-- The offset of an address in the image. -/
def imageOffset (address preferredAddress imageSize : ℕ) : Option ℕ :=
  (checkedSub address preferredAddress).filter (· < imageSize)

/-- Whether a number is a power of two. -/
def isPowerOfTwo (n : ℕ) : Bool := n ≠ 0 && 2 ^ n.log2 = n

/-- `copy_from_slice` into a range. -/
def copyInto (image : Bytes) (destination : ℕ) (bytes : Bytes) : Option Bytes :=
  if destination + bytes.length ≤ image.length then
    some (image.take destination ++ (bytes ++ image.drop (destination + bytes.length)))
  else none

/-! ### Names -/

/-- A name that ends in a zero byte. -/
def parseCName (bytes : Bytes) (max : ℕ) (emptyAllowed : Bool) : Except IrxErrorKind (Option Str) :=
  match (bytes.take (max + 1)).findIdx? (· = 0) with
  | none => .error .invalidModuleMetadata
  | some stop =>
    if stop = 0 then
      if emptyAllowed then .ok none else .error .invalidModuleMetadata
    else if (bytes.take stop).any fun byte => ¬ (32 ≤ byte.toNat ∧ byte.toNat ≤ 126) then
      .error .invalidModuleMetadata
    else .ok (some (bytes.take stop))

/-- A name of eight bytes, filled with zeros. -/
def parseFixedName (bytes : Bytes) : Option Str :=
  let stop := bytes.idxOf 0
  if stop = 0 ∨ (bytes.drop stop).any (· ≠ 0) = true ∨
      (bytes.take stop).any (fun byte => ¬ (33 ≤ byte.toNat ∧ byte.toNat ≤ 126)) = true then none
  else some (bytes.take stop)

/-- The part of the name after the last separator and before the last dot. -/
def fallbackModuleName (origin : String) (max : ℕ) : Option Str :=
  let leaf := (origin.toList.reverse.takeWhile fun c => c ≠ '/' && c ≠ '\\').reverse
  let stem := if '.' ∈ leaf then ((leaf.reverse.dropWhile (· ≠ '.')).drop 1).reverse else leaf
  if stem.isEmpty || max < stem.length || stem.any (fun c => ¬ (33 ≤ c.toNat ∧ c.toNat ≤ 126)) then none
  else some (stem.map fun c => BitVec.ofNat 8 c.toNat)

/-! ### The parser -/

/-- What every part of the parser works on. -/
structure Parser where
  origin : String
  input : Bytes
  limits : IrxLimits

namespace Parser

variable (parser : Parser)

/-- Fails at an offset. -/
def error (offset : ℕ) (kind : IrxErrorKind) : Stop IrxError := .error ⟨parser.origin, offset, kind⟩

/-- Fails where the condition holds. -/
def reject (c : Prop) [Decidable c] (offset : ℕ) (kind : IrxErrorKind) : Checked Unit :=
  if c then .error (parser.error offset kind) else .ok ()

/-- `ok_or_else`. -/
def okOr {α : Type} (o : Option α) (offset : ℕ) (kind : IrxErrorKind) : Checked α :=
  match o with
  | some a => .ok a
  | none => .error (parser.error offset kind)

/-- A range of the input. -/
def slice (offset size : ℕ) : Checked Bytes := do
  let stop ← parser.okOr (checkedAdd 64 offset size) offset .overflow
  parser.okOr (getRange parser.input offset stop) parser.input.length .truncated

/-- A halfword of the input. -/
def u16 (offset : ℕ) : Checked ℕ :=
  parser.okOr (readU16 parser.input offset) parser.input.length .truncated

/-- A word of the input. -/
def u32 (offset : ℕ) : Checked ℕ :=
  parser.okOr ((readU32 parser.input offset).map BitVec.toNat) parser.input.length .truncated

/-- Checks that a table lies in the input. -/
def table (offset count size : ℕ) : Checked Unit := do
  let bytes ← parser.okOr (checkedMul 64 count size) offset .overflow
  let _ ← parser.slice offset bytes

/-- Whether a section lies in the input. -/
def sectionIsComplete (header : SectionHeader) : Bool :=
  (checkedAdd 64 header.offset header.size).any (· ≤ parser.input.length)

/-- The program headers. -/
def programHeaders (offset count : ℕ) : Checked (List ProgramHeader) :=
  (List.range count).mapM fun index => do
    let position ← usize (offset + index * programHeaderSize)
    let kind ← parser.u32 position
    let offset ← parser.u32 (← usize (position + 4))
    let virtualAddress ← parser.u32 (← usize (position + 8))
    let fileSize ← parser.u32 (← usize (position + 16))
    let memorySize ← parser.u32 (← usize (position + 20))
    let flags ← parser.u32 (← usize (position + 24))
    let alignment ← parser.u32 (← usize (position + 28))
    return ⟨kind, offset, virtualAddress, fileSize, memorySize, flags, alignment⟩

/-- Checks a segment after the end of the one before. -/
def validateLoad (variant : IrxVariant) (priorEnd : Option ℕ) (header : ProgramHeader) :
    Checked (Option ℕ) := do
  parser.reject (header.memorySize < header.fileSize) header.offset .outOfRange
  let _ ← parser.slice header.offset header.fileSize
  let stop ← parser.okOr (checkedAdd 32 header.virtualAddress header.memorySize) header.offset .overflow
  parser.reject (priorEnd.any (header.virtualAddress < ·)) header.offset .overlappingRanges
  parser.reject (header.alignment ≠ 0 ∧ (isPowerOfTwo header.alignment = false ∨
      parser.limits.maxAlignment < header.alignment ∨ header.virtualAddress % header.alignment ≠ 0))
    header.offset .invalidProgramLayout
  parser.reject (variant.isRelocatable ∧ parser.limits.maxImageBytes % 2 ^ 32 ≤ header.virtualAddress)
    header.offset .invalidProgramLayout
  return some stop

/-- Checks the loaded segments. -/
def validateLoads (loads : List ProgramHeader) (variant : IrxVariant) : Checked Unit := do
  let _ ← loads.foldlM (parser.validateLoad variant) none

/-- The module ID structure that the metadata points to, or the name beside the metadata. -/
def moduleIdentity (header : ProgramHeader) (image : Bytes) (preferredAddress moduleIdRaw headerVersion : ℕ)
    (headerName : Option Str) : Checked (Option ℕ × Str × ℕ) :=
  if moduleIdRaw = 2 ^ 32 - 1 then do
    let name ← parser.okOr
      (headerName.or (fallbackModuleName parser.origin parser.limits.maxNameBytes))
      (← usize (header.offset + 26)) .invalidModuleMetadata
    return (none, name, headerVersion)
  else do
    let moduleOffset ← parser.okOr (imageOffset moduleIdRaw preferredAddress image.length) header.offset
      .invalidModuleMetadata
    let namePointer ← parser.okOr (readU32 image moduleOffset) header.offset .invalidModuleMetadata
    let idVersion ← parser.okOr (readU16 image (← usize (moduleOffset + 4))) header.offset
      .invalidModuleMetadata
    let nameOffset ← parser.okOr (imageOffset namePointer.toNat preferredAddress image.length)
      header.offset .invalidModuleMetadata
    let rest ← expect (getRange image nameOffset image.length)
    let name ← (parseCName rest parser.limits.maxNameBytes false).mapError fun _ =>
      parser.error header.offset .invalidModuleMetadata
    let name ← parser.okOr name header.offset .invalidModuleMetadata
    parser.reject (headerVersion ≠ 0 ∧ headerVersion ≠ idVersion) (← usize (header.offset + 24))
      .invalidModuleMetadata
    return (some moduleIdRaw, name, idVersion)

/-- The module's metadata and description. -/
def moduleMetadata (header : ProgramHeader) (image : Bytes) (preferredAddress : ℕ) (variant : IrxVariant)
    (elfEntry : ℕ) : Checked (RawMetadata × ModuleDescription) := do
  parser.reject (header.fileSize < 26) header.offset .invalidModuleMetadata
  let bytes ← parser.slice header.offset header.fileSize
  let moduleIdRaw ← expect (readU32 bytes 0)
  let entry ← expect (readU32 bytes 4)
  let globalPointer ← expect (readU32 bytes 8)
  let textSize ← expect (readU32 bytes 12)
  let dataSize ← expect (readU32 bytes 16)
  let bssSize ← expect (readU32 bytes 20)
  let headerVersion ← expect (readU16 bytes 24)
  parser.reject (entry.toNat ≠ elfEntry) (← usize (header.offset + 4)) .invalidModuleMetadata
  parser.reject ((imageOffset entry.toNat preferredAddress image.length).all (· % 4 ≠ 0))
    (← usize (header.offset + 4)) .invalidModuleMetadata
  let declared ← parser.okOr
    ((checkedAdd 32 textSize.toNat dataSize.toNat).bind (checkedAdd 32 · bssSize.toNat))
    (← usize (header.offset + 12)) .overflow
  parser.reject (image.length < declared) (← usize (header.offset + 12)) .invalidModuleMetadata
  let nameAt ← usize (header.offset + 26)
  let headerName ← (parseCName (bytes.drop 26) parser.limits.maxNameBytes true).mapError fun kind =>
    parser.error nameAt kind
  let (moduleId, name, version) ← parser.moduleIdentity header image preferredAddress moduleIdRaw.toNat
    headerVersion headerName
  return (⟨moduleId, entry.toNat, globalPointer.toNat⟩,
    ⟨name, version, variant, entry.toNat, globalPointer.toNat, textSize.toNat, dataSize.toNat,
      bssSize.toNat⟩)

/-- A section header. -/
def sectionHeader (position : ℕ) : Checked SectionHeader := do
  let kind ← parser.u32 (← usize (position + 4))
  let offset ← parser.u32 (← usize (position + 16))
  let size ← parser.u32 (← usize (position + 20))
  let link ← parser.u32 (← usize (position + 24))
  let info ← parser.u32 (← usize (position + 28))
  let alignment ← parser.u32 (← usize (position + 32))
  let entrySize ← parser.u32 (← usize (position + 36))
  -- Linker data may be stripped; other sections are inside the input.
  if kind = shtNobits ∨ kind = shtRel ∨ kind = shtSymtab ∨ kind = shtStrtab then pure ()
  else
    let _ ← parser.slice offset size
  parser.reject (alignment ≠ 0 ∧ isPowerOfTwo alignment = false) (← usize (position + 32)) .invalidSection
  return ⟨kind, offset, size, link, info, alignment, entrySize⟩

/-- The section headers. -/
def sectionHeaders (offset count : ℕ) : Checked (List SectionHeader) :=
  (List.range count).mapM fun index => do
    parser.sectionHeader (← usize (offset + index * sectionHeaderSize))

/-- One symbol of a complete table. -/
def validateSymbol (sections : List SectionHeader) (header : SectionHeader) (strings symbol : Bytes) :
    Checked Unit := do
  let name := (← expect (readU32 symbol 0)).toNat
  let index ← expect (readU16 symbol 14)
  parser.reject (strings.length ≤ name ∨ (name ≠ 0 ∧ 0 ∉ strings.drop name) ∨
    (index < 0xff00 ∧ sections.length ≤ index)) header.offset .invalidSection

/-- `chunks_exact`. -/
def chunksExact (size : ℕ) (bytes : Bytes) : List Bytes :=
  (List.range (bytes.length / size)).map fun index => Upse.slice bytes (index * size) ((index + 1) * size)

/-- Checks a table of symbols and its strings. -/
def validateSymtab (sections : List SectionHeader) (index : ℕ) (header : SectionHeader) :
    Checked Unit := do
  parser.reject (header.entrySize ≠ symbolSize ∨ header.size % symbolSize ≠ 0)
    (← usize (index * sectionHeaderSize)) .invalidSection
  let strings ← parser.okOr (sections[header.link]?.filter fun strings => strings.kind = shtStrtab)
    (← usize (index * sectionHeaderSize)) .invalidSection
  if parser.sectionIsComplete header && parser.sectionIsComplete strings then
    let symbols ← parser.slice header.offset header.size
    let strings ← parser.slice strings.offset strings.size
    (chunksExact symbolSize symbols).forM (parser.validateSymbol sections header strings)
  else return ()

/-- Checks every table of symbols. -/
def validateSymbols (sections : List SectionHeader) : Checked Unit :=
  sections.zipIdx.forM fun (header, index) =>
    if header.kind = shtSymtab then parser.validateSymtab sections index header else return ()

/-- Checks the symbol of a relocation. -/
def validateRelocationSymbol (sections : List SectionHeader) (header : SectionHeader) (symbol : ℕ) :
    Checked Unit := do
  let symtab ← parser.okOr (sections[header.link]?.filter fun symtab => symtab.kind = shtSymtab)
    header.offset .invalidSymbol
  parser.reject (symtab.entrySize ≠ symbolSize ∨ symtab.size / symbolSize ≤ symbol) header.offset
    .invalidSymbol

/-- The offset of a word of the image, from its address. -/
def wordOffset (address preferredAddress imageSize : ℕ) : Option ℕ :=
  (imageOffset address preferredAddress imageSize).filter fun offset =>
    (checkedAdd 64 offset 4).any (· ≤ imageSize) && offset % 4 = 0

/-- The kind of a relocation, from its number and the record after its own, and how many records it
takes. -/
def relocationKind (imageSize preferredAddress : ℕ) (data : Bytes) (position sourceOffset : ℕ) :
    ℕ → Checked (RelocationKind × ℕ)
  | 1 => return (.half, 1)
  | 2 => return (.word, 1)
  | 4 => return (.jump, 1)
  | 5 => do
    let next ← parser.okOr (getRange data (← usize (position + relSize)) (← usize (position + 2 * relSize)))
      sourceOffset .malformedRelocationPair
    let nextInfo ← expect (readU32 next 4)
    parser.reject (nextInfo.toNat % 256 ≠ 6 ∨ nextInfo.toNat / 256 ≠ 0) sourceOffset
      .malformedRelocationPair
    let lowOffset ← expect (readU32 next 0)
    let _ ← parser.okOr (wordOffset lowOffset.toNat preferredAddress imageSize)
      (← usize (sourceOffset + relSize)) .outOfRange
    return (.high lowOffset.toNat, 1)
  | 6 => return (.low, 1)
  | 250 => do
    let next ← parser.okOr (getRange data (← usize (position + relSize)) (← usize (position + 2 * relSize)))
      sourceOffset .malformedRelocationPair
    let nextInfo ← expect (readU32 next 4)
    parser.reject (nextInfo.toNat % 256 ≠ 251 ∨ nextInfo.toNat / 256 ≠ 0) sourceOffset
      .malformedRelocationPair
    let addend ← expect (readU32 next 0)
    return (.sonyHigh addend, 2)
  | 251 => throw (parser.error sourceOffset .malformedRelocationPair)
  | other => do throw (parser.error (← usize (sourceOffset + 4)) (.unsupportedRelocation other))

/-- The entry at an index of a relocation table, and how many records it takes. -/
def relocationEntry (sections : List SectionHeader) (header : SectionHeader)
    (imageSize preferredAddress : ℕ) (data : Bytes) (index : ℕ) : Checked (Option Relocation × ℕ) := do
  let position ← usize (index * relSize)
  let offset ← expect (readU32 data position)
  let info ← expect (readU32 data (← usize (position + 4)))
  let sourceOffset ← usize (header.offset + position)
  if info.toNat / 256 ≠ 0 then
    parser.validateRelocationSymbol sections header (info.toNat / 256)
    throw (parser.error (← usize (sourceOffset + 4)) .invalidSymbol)
  else if info.toNat % 256 = 0 then return (none, 1)
  else
    let _ ← parser.okOr (wordOffset offset.toNat preferredAddress imageSize) sourceOffset .outOfRange
    let (kind, records) ← parser.relocationKind imageSize preferredAddress data position sourceOffset
      (info.toNat % 256)
    return (some ⟨offset.toNat, kind, sourceOffset⟩, records)

/-- The entries of one table from an index on, in as many rounds as it has records. -/
def relocationEntries (sections : List SectionHeader) (header : SectionHeader)
    (imageSize preferredAddress : ℕ) (data : Bytes) (count : ℕ) :
    ℕ → ℕ → List Relocation → Checked (List Relocation)
  | 0, index, output => if index < count then .error .panic else .ok output
  | rounds + 1, index, output =>
    if index < count then do
      let (entry, records) ← parser.relocationEntry sections header imageSize preferredAddress data index
      relocationEntries sections header imageSize preferredAddress data count rounds
        (← usize (index + records)) (output ++ entry.toList)
    else .ok output

/-- The entries of one section, after those of the sections before. -/
def sectionRelocations (sections : List SectionHeader) (variant : IrxVariant)
    (imageSize preferredAddress : ℕ) (output : List Relocation) (header : SectionHeader) :
    Checked (List Relocation) :=
  if header.kind ≠ shtRel then return output
  else do
    parser.reject (variant.isRelocatable = false) header.offset .invalidSection
    parser.reject (header.entrySize ≠ relSize ∨ header.size % relSize ≠ 0 ∨
      sections.length ≤ header.info) header.offset .invalidSection
    let declaredCount := header.size / relSize
    parser.reject (parser.limits.maxRelocations < min (output.length + declaredCount) (2 ^ 64 - 1))
      header.offset (.limitExceeded "relocations")
    let available ← parser.okOr (checkedSub parser.input.length header.offset) parser.input.length
      .truncated
    let count := min available header.size / relSize
    let data ← parser.slice header.offset (← usize (count * relSize))
    parser.relocationEntries sections header imageSize preferredAddress data count count 0 output

/-- The relocations of every section. -/
def relocations (sections : List SectionHeader) (variant : IrxVariant)
    (imageSize preferredAddress : ℕ) : Checked (List Relocation) :=
  sections.foldlM (parser.sectionRelocations sections variant imageSize preferredAddress) []

/-- Copies one loadable range into the image. -/
def copyLoad (preferredAddress : ℕ) (image : Bytes) (header : ProgramHeader) : Checked Bytes := do
  let destination ← expect (checkedSub header.virtualAddress preferredAddress)
  let bytes ← parser.slice header.offset header.fileSize
  expect (copyInto image destination bytes)

/-- The fields of the ELF header. -/
structure ElfHeader where
  variant : IrxVariant
  entry : ℕ
  phoff : ℕ
  phnum : ℕ
  shoff : ℕ
  shnum : ℕ

/-- The variant of an ELF type. -/
def elfVariant : ℕ → Checked IrxVariant
  | 0xff80 => return .relocatableV1
  | 0xff81 => return .relocatableV2
  | 2 => return .executable
  | other => throw (parser.error 16 (.unsupportedType other))

/-- The checked ELF header. -/
def elfHeader : Checked ElfHeader := do
  parser.reject (parser.limits.maxInputBytes < parser.input.length) 0 (.limitExceeded "input bytes")
  let ident ← parser.okOr (getRange parser.input 0 16) parser.input.length .truncated
  let magic ← expect (getRange ident 0 7)
  parser.reject (magic ≠ [0x7f, 69, 76, 70, 1, 1, 1]) 0 .invalidIdentification
  parser.reject (parser.input.length < elfHeaderSize) parser.input.length .truncated
  let variant ← parser.elfVariant (← parser.u16 16)
  let machine ← parser.u16 18
  parser.reject (machine ≠ 8) 18 (.unsupportedMachine machine)
  let version ← parser.u32 20
  parser.reject (version ≠ 1) 20 .invalidIdentification
  let headerSize ← parser.u16 40
  parser.reject (headerSize ≠ elfHeaderSize) 20 .invalidIdentification
  let entry ← parser.u32 24
  let phoff ← parser.u32 28
  let shoff ← parser.u32 32
  let phentsize ← parser.u16 42
  let phnum ← parser.u16 44
  let shentsize ← parser.u16 46
  let shnum ← parser.u16 48
  parser.reject (phnum = 0 ∨ parser.limits.maxProgramHeaders < phnum) 44
    (.limitExceeded "program headers")
  parser.reject (phentsize ≠ programHeaderSize) 42 .invalidEntrySize
  parser.table phoff phnum programHeaderSize
  parser.reject (parser.limits.maxSectionHeaders < shnum) 48 (.limitExceeded "section headers")
  if shnum = 0 then parser.reject (shoff ≠ 0) 32 .invalidSection
  else
    parser.reject (shentsize ≠ sectionHeaderSize) 46 .invalidEntrySize
    parser.table shoff shnum sectionHeaderSize
  return ⟨variant, entry, phoff, phnum, shoff, shnum⟩

/-- Where the image of the loadable ranges starts, its size, and the image. -/
def loadImage (phoff : ℕ) (loads : List ProgramHeader) (variant : IrxVariant) :
    Checked (ℕ × ℕ × Bytes) := do
  let preferredAddress := (← expect loads.head?).virtualAddress
  parser.reject (variant.isRelocatable ∧ preferredAddress ≠ 0) phoff .invalidProgramLayout
  let ends ← loads.mapM fun header => expect (checkedAdd 32 header.virtualAddress header.memorySize)
  let imageEnd ← expect ends.max?
  let imageSize ← parser.okOr (checkedSub imageEnd preferredAddress) phoff .overflow
  parser.reject (parser.limits.maxImageBytes < imageSize) phoff (.limitExceeded "image bytes")
  let image ← loads.foldlM (parser.copyLoad preferredAddress) (List.replicate imageSize 0)
  return (preferredAddress, imageSize, image)

/-- Parses a module. -/
def parse : Checked IrxModule := do
  let elf ← parser.elfHeader
  let headers ← parser.programHeaders elf.phoff elf.phnum
  let metadataHeader := headers.filter (·.kind = ptSceIopmod)
  let loads := headers.filter (·.kind = ptLoad)
  parser.reject (metadataHeader.length ≠ 1 ∨ loads = []) elf.phoff .invalidProgramLayout
  let loads := loads.insertionSort fun a b => a.virtualAddress ≤ b.virtualAddress
  parser.validateLoads loads elf.variant
  let (preferredAddress, imageSize, image) ← parser.loadImage elf.phoff loads elf.variant
  let alignment ← expect (loads.map fun header => max header.alignment 1).max?
  let metadataHeader ← expect metadataHeader.head?
  let (rawMetadata, description) ← parser.moduleMetadata metadataHeader image preferredAddress elf.variant
    elf.entry
  let sections ← parser.sectionHeaders elf.shoff elf.shnum
  parser.validateSymbols sections
  let relocations ← parser.relocations sections elf.variant imageSize preferredAddress
  return {
    origin := parser.origin
    limits := parser.limits
    description := description
    rawMetadata := rawMetadata
    ranges := loads.map fun header => ⟨header.offset, header.virtualAddress, header.fileSize,
      header.memorySize, header.flags, header.alignment⟩
    preferredAddress := preferredAddress
    alignment := alignment
    image := image
    relocations := relocations }

end Parser

/-- Parses a module within resource bounds. -/
def IrxModule.parseWithLimits (origin : String) (input : Bytes) (limits : IrxLimits) : Checked IrxModule :=
  (Parser.mk origin input limits).parse

end Upse.Irx
