import Upse.Formats.Psf.Plan
import Upse.Lib.ErrorState
import Upse.Lib.Sorted

/-!
# The PSF2 virtual filesystem

Each layer of a load plan holds a tree of directory tables and compressed files.  A layer is parsed
into a map of its own, and the layers are then laid over each other in order.
-/

namespace Upse.Vfs

open ErrorState Psf

def nameBytes : ℕ := 36

def entryBytes : ℕ := 48

def specMaxPathBytes : ℕ := 255

def slash : Byte := 47

def backslash : Byte := 92

def colon : Byte := 58

/-- Resource bounds applied while assembling all PSF2 filesystem layers. -/
structure VfsLimits where
  maxDepth : ℕ
  maxEntries : ℕ
  maxPathBytes : ℕ
  maxBlocks : ℕ
  maxFileBytes : ℕ
  maxBlockBytes : ℕ
  maxAggregateBytes : ℕ
  deriving DecidableEq, Repr

/-- The default bounds. -/
def VfsLimits.default : VfsLimits where
  maxDepth := 32
  maxEntries := 65536
  maxPathBytes := specMaxPathBytes
  maxBlocks := 262144
  maxFileBytes := 64 * 1024 * 1024
  maxBlockBytes := 1024 * 1024
  maxAggregateBytes := 256 * 1024 * 1024

/-- Specific reason a PSF2 filesystem could not be constructed or queried. -/
inductive VfsErrorKind where
  | wrongVersion
  | truncated
  | invalidName
  | invalidEntry
  | offsetOrder
  | offsetOverflow
  | limitExceeded (limit : String)
  | invalidZlib (message : String)
  | blockSizeMismatch (expected actual : ℕ)
  | invalidPath
  | notFound
  | isDirectory
  deriving DecidableEq, Repr

/-- Structured PSF2 filesystem diagnostic. -/
structure VfsError where
  origin : Str
  offset : ℕ
  path : Str
  kind : VfsErrorKind
  deriving DecidableEq, Repr

/-- A path from the root. -/
def displayPath (path : Str) : Str := slash :: path

namespace VfsError

/-- An error in a layer. -/
def layer (origin : Str) (offset : ℕ) (path : Str) (kind : VfsErrorKind) : VfsError :=
  ⟨origin, offset, displayPath path, kind⟩

/-- An error of a lookup. -/
def lookup (path : Str) (kind : VfsErrorKind) : VfsError := ⟨ascii "lookup", 0, path, kind⟩

end VfsError

/-- Kind of an immutable filesystem node. -/
inductive NodeKind where
  | directory
  | file
  deriving DecidableEq, Repr

/-! ### Layers -/

/-- Files and directories by their normalized paths. -/
structure Layer where
  files : SortedMap Str Bytes
  directories : SortedSet Str

namespace Layer

/-- A layer without entries. -/
def empty : Layer := ⟨.empty, .empty⟩

/-- Removes a path and everything below it. -/
def removeSubtree (path : Str) (layer : Layer) : Layer :=
  let keep (candidate : Str) : Bool := candidate != path && !(path ++ [slash]).isPrefixOf candidate
  ⟨layer.files.retain keep, layer.directories.retain keep⟩

/-- Puts a file in the place of what was there. -/
def insertFile (path : Str) (data : Bytes) (layer : Layer) : Layer :=
  let layer := layer.removeSubtree path
  { layer with files := layer.files.insert path data }

/-- Puts a directory in the place of a file. -/
def insertDirectory (path : Str) (layer : Layer) : Layer :=
  ⟨layer.files.erase path, layer.directories.insert path⟩

/-- Lays another layer over this one: its directories first, except the root, and then its files. -/
def apply (base layer : Layer) : Layer :=
  let base := layer.directories.toList.foldl (fun base directory =>
    if directory.isEmpty then base else base.insertDirectory directory) base
  layer.files.entries.foldl (fun base file => base.insertFile file.1 file.2) base

end Layer

/-! ### Names and paths -/

/-- A name of a directory table, padded with zeros. -/
def parseName (raw : Bytes) : Except VfsErrorKind Str :=
  let name := raw.takeWhile (· != 0)
  if name.isEmpty || (raw.drop name.length).any (· != 0) then .error .invalidName
  else if name.any fun byte => !(32 ≤ byte && byte ≤ 126) || byte == slash || byte == backslash ||
      byte == colon then
    .error .invalidName
  else .ok (lowercase name)

/-- The path of a name in a directory. -/
def joinPath (parent name : Str) : Str := if parent.isEmpty then name else parent ++ slash :: name

/-- The components of a looked-up path, those that are empty left out. -/
def normalizeComponents : List Str → Except VfsErrorKind (List Str)
  | [] => .ok []
  | component :: components =>
    if component.isEmpty then normalizeComponents components
    else if component = ascii "." ∨ component = ascii ".." ∨ nameBytes < component.length ∨
        component.any (fun byte => !(32 ≤ byte && byte ≤ 126) || byte == colon) then
      .error .invalidPath
    else (lowercase component :: ·) <$> normalizeComponents components

/-- The path a lookup means. -/
def normalizeLookup (path : Str) (maxPathBytes : ℕ) : Except VfsErrorKind Str := do
  if path.any (128 ≤ ·) ∨ maxPathBytes < path.length then throw .invalidPath
  let components ← normalizeComponents (path.splitOnP fun byte => byte == slash || byte == backslash)
  let normalized := [slash].intercalate components
  if maxPathBytes < normalized.length then throw .invalidPath
  return normalized

/-! ### The filesystem -/

/-- An immutable, fully validated PSF2 virtual filesystem. -/
structure Psf2Vfs extends Layer

namespace Psf2Vfs

/-- What lies at a path. -/
def nodeKind (vfs : Psf2Vfs) (path : Str) : Except VfsError (Option NodeKind) := do
  let normalized ← (normalizeLookup path specMaxPathBytes).mapError (.lookup path)
  return if (vfs.files.get? normalized).isSome then some .file
    else if normalized ∈ vfs.directories then some .directory
    else none

/-- The contents of a file. -/
def file (vfs : Psf2Vfs) (path : Str) : Except VfsError Bytes := do
  let normalized ← (normalizeLookup path specMaxPathBytes).mapError (.lookup path)
  match vfs.files.get? normalized with
  | some data => return data
  | none => throw (.lookup path (if normalized ∈ vfs.directories then .isDirectory else .notFound))

end Psf2Vfs

/-! ### Parsing a layer -/

/-- The filesystem under construction and what was charged against its limits. -/
structure Builder extends Layer where
  limits : VfsLimits
  entries : ℕ
  blocks : ℕ
  aggregateBytes : ℕ

/-- A filesystem before its first layer. -/
def Builder.new (limits : VfsLimits) : Builder :=
  { files := .empty
    directories := SortedSet.empty.insert []
    limits := limits
    entries := 0
    blocks := 0
    aggregateBytes := 0 }

/-- The builder, and the layer being parsed. -/
structure Parsing where
  builder : Builder
  layer : Layer

/-- Programs that parse a layer. -/
abbrev ParseM := EStateM VfsError Parsing

/-- Changes the builder. -/
def modifyBuilder (f : Builder → Builder) : ParseM Unit :=
  modify fun s => { s with builder := f s.builder }

/-- Changes the layer. -/
def modifyLayer (f : Layer → Layer) : ParseM Unit := modify fun s => { s with layer := f s.layer }

/-- The word at an offset of the input. -/
def readU32 (input : Bytes) (offset : ℕ) : Option ℕ :=
  if offset + 4 ≤ input.length then some (wordAt input offset) else none

section Parse

variable (codecs : Codecs) (origin : Str) (input : Bytes)

/-- Counts entries against the limit. -/
def chargeEntries (offset : ℕ) (path : Str) (count : ℕ) : ParseM Unit := do
  let builder := (← get).builder
  let entries ← okOr (checkedAdd 64 builder.entries count) (.layer origin offset path .offsetOverflow)
  modifyBuilder fun builder => { builder with entries := entries }
  throwIf (builder.limits.maxEntries < entries)
    (.layer origin offset path (.limitExceeded "entry count"))

/-- Appends the blocks of a stream while they fit the expected length. -/
def fillBlock (expected : ℕ) (block : Bytes) : List Bytes → Except ℕ Bytes
  | [] => .ok block
  | read :: reads =>
    if expected < block.length + read.length then .error (block.length + read.length)
    else fillBlock expected (block ++ read) reads

/-- One compressed block, which must expand to the expected length and be consumed entirely. -/
def decompressBlock (offset : ℕ) (path : Str) (compressed : Bytes) (expected : ℕ) :
    Except VfsError Bytes :=
  let inflated := codecs.inflate compressed
  match fillBlock expected [] inflated.blocks with
  | .error actual => .error (.layer origin offset path (.blockSizeMismatch expected actual))
  | .ok block =>
    match inflated.outcome with
    | .error message => .error (.layer origin offset path (.invalidZlib message))
    | .ok total =>
      if total ≠ compressed.length then
        .error (.layer origin (offset + total) path (.invalidZlib "trailing compressed data"))
      else if block.length ≠ expected then
        .error (.layer origin offset path (.blockSizeMismatch expected block.length))
      else .ok block

/-- The blocks of a file from one on: the sizes are in the table at `offset`, and the blocks follow
each other. -/
def parseBlocks (offset size blockSize : ℕ) (path : Str) :
    ℕ → ℕ → ℕ → Bytes → Except VfsError Bytes
  | 0, _, _, output => .ok output
  | remaining + 1, block, compressedOffset, output =>
    let sizeOffset := offset + block * 4
    match readU32 input sizeOffset with
    | none => .error (.layer origin sizeOffset path .truncated)
    | some compressedSize =>
      match checkedAdd 64 compressedOffset compressedSize with
      | none => .error (.layer origin compressedOffset path .offsetOverflow)
      | some compressedEnd =>
        if input.length < compressedEnd then .error (.layer origin input.length path .truncated)
        else do
          let compressed := slice input compressedOffset compressedEnd
          let expected := min blockSize (size - output.length)
          let decoded ← decompressBlock codecs origin compressedOffset path compressed expected
          parseBlocks offset size blockSize path remaining (block + 1) compressedEnd
            (output ++ decoded)

/-- Reads the blocks of a file. -/
def parseFile (offset size blockSize : ℕ) (path : Str) : ParseM Bytes := do
  let limits := (← get).builder.limits
  throwIf (limits.maxFileBytes < size) (.layer origin offset path (.limitExceeded "file bytes"))
  throwIf (limits.maxBlockBytes < blockSize)
    (.layer origin offset path (.limitExceeded "block bytes"))
  let aggregateBytes ← okOr (checkedAdd 64 (← get).builder.aggregateBytes size)
    (.layer origin offset path .offsetOverflow)
  modifyBuilder fun builder => { builder with aggregateBytes := aggregateBytes }
  throwIf (limits.maxAggregateBytes < aggregateBytes)
    (.layer origin offset path (.limitExceeded "aggregate file bytes"))
  let blockCount := (size + blockSize - 1) / blockSize
  let blocks ← okOr (checkedAdd 64 (← get).builder.blocks blockCount)
    (.layer origin offset path .offsetOverflow)
  modifyBuilder fun builder => { builder with blocks := blocks }
  throwIf (limits.maxBlocks < blocks) (.layer origin offset path (.limitExceeded "block count"))
  let tableBytes ← okOr (checkedMul 64 blockCount 4) (.layer origin offset path .offsetOverflow)
  let compressedOffset ← okOr (checkedAdd 64 offset tableBytes)
    (.layer origin offset path .offsetOverflow)
  throwIf (input.length < compressedOffset) (.layer origin input.length path .truncated)
  ErrorState.ofExcept
    (parseBlocks codecs origin input offset size blockSize path blockCount 0 compressedOffset [])

/-- The entry at an offset of a table; `descend` parses a directory below. -/
def parseEntry (descend : ℕ → Str → ParseM Unit) (parent : Str) (entryOffset : ℕ) : ParseM Unit := do
  let name ← ErrorState.ofExcept ((parseName (slice input entryOffset (entryOffset + nameBytes))).mapError
    (.layer origin entryOffset parent))
  let path := joinPath parent name
  let limits := (← get).builder.limits
  throwIf (min limits.maxPathBytes specMaxPathBytes < path.length)
    (.layer origin entryOffset path (.limitExceeded "path bytes"))
  let childOffset := wordAt input (entryOffset + 36)
  let size := wordAt input (entryOffset + 40)
  let blockSize := wordAt input (entryOffset + 44)
  if childOffset = 0 ∧ size = 0 ∧ blockSize = 0 then modifyLayer (·.insertFile path [])
  else if size = 0 ∧ blockSize = 0 then
    throwIf (childOffset ≤ entryOffset) (.layer origin (entryOffset + 36) path .offsetOrder)
    modifyLayer (·.insertDirectory path)
    descend childOffset path
  else if childOffset ≠ 0 ∧ size ≠ 0 ∧ blockSize ≠ 0 then
    throwIf (childOffset ≤ entryOffset) (.layer origin (entryOffset + 36) path .offsetOrder)
    let data ← parseFile codecs origin input childOffset size blockSize path
    modifyLayer (·.insertFile path data)
  else throw (.layer origin (entryOffset + 36) path .invalidEntry)

/-- A directory table and everything below it.  The recursion is on how many levels of nesting are
left, one more than the difference of the limit and the depth, so that the check of the depth is its
base case. -/
def parseDirectory : ℕ → ℕ → Str → ParseM Unit
  | 0, offset, parent => throw (.layer origin offset parent (.limitExceeded "directory depth"))
  | levels + 1, offset, parent => do
    let count ← okOr (readU32 input offset) (.layer origin offset parent .truncated)
    chargeEntries origin offset parent count
    let tableStart ← okOr (checkedAdd 64 offset 4) (.layer origin offset parent .offsetOverflow)
    let tableBytes ← okOr (checkedMul 64 count entryBytes)
      (.layer origin offset parent .offsetOverflow)
    let tableEnd ← okOr (checkedAdd 64 tableStart tableBytes)
      (.layer origin offset parent .offsetOverflow)
    throwIf (input.length < tableEnd) (.layer origin input.length parent .truncated)
    modifyLayer fun layer => { layer with directories := layer.directories.insert parent }
    (List.range count).forM fun index =>
      parseEntry codecs origin input (parseDirectory levels) parent (tableStart + index * entryBytes)

end Parse

/-- Parses one layer of a plan and lays it over the earlier ones. -/
def addLayer (codecs : Codecs) (layer : PlanLayer) (builder : Builder) : Except VfsError Builder := do
  if layer.container.version ≠ .psf2 then throw (.layer layer.origin 0 [] .wrongVersion)
  match (parseDirectory codecs layer.origin layer.container.reserved (builder.limits.maxDepth + 1) 0
      []).run ⟨builder, .empty⟩ with
  | .error e _ => throw e
  | .ok _ parsed => return { parsed.builder with toLayer := parsed.builder.apply parsed.layer }

/-- Builds the exact filesystem map from a resolved PSF2 load plan. -/
def fromLoadPlan {M : Type} (codecs : Codecs) (plan : Psf2LoadPlan M) (limits : VfsLimits) :
    Except VfsError Psf2Vfs := do
  let builder ← plan.layers.foldlM (fun builder layer => addLayer codecs layer builder)
    (Builder.new limits)
  return ⟨builder.toLayer⟩

end Upse.Vfs
