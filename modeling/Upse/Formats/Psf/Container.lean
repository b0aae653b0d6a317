import Upse.Formats.Psf.Tags
import Upse.Support.Integers

/-!
# PSF containers

The common framing of PSF files: a header, a reserved section, a compressed program under a checksum
and an optional text section.  The checksum and the inflater are parameters.  Offsets are sums of
32-bit fields, which a 64-bit host holds.
-/

namespace Upse.Psf

def headerSize : ℕ := 16

def tagMarker : Bytes := ascii "[TAG]"

def psf1MaxProgram : ℕ := 2033664

/-- Supported PSF format versions. -/
inductive PsfVersion where
  | psf1
  | psf2
  deriving DecidableEq, Repr

namespace PsfVersion

/-- Parses a PSF version byte. -/
def fromByte (value : Byte) : Except ParseErrorKind PsfVersion :=
  if value = 1 then .ok .psf1
  else if value = 2 then .ok .psf2
  else .error (.unsupportedVersion value)

/-- The on-disk version byte. -/
def byte : PsfVersion → Byte
  | .psf1 => 1
  | .psf2 => 2

@[simp] theorem fromByte_byte (version : PsfVersion) : fromByte version.byte = .ok version := by
  cases version <;> rfl

end PsfVersion

/-- A half-open byte range in the original input. -/
structure ByteRange where
  start : ℕ
  stop : ℕ
  deriving DecidableEq, Repr

/-- Resource bounds applied while parsing one container. -/
structure ParseLimits where
  maxInputBytes : ℕ
  maxReservedBytes : ℕ
  maxDecompressedBytes : ℕ
  maxTagBytes : ℕ
  deriving DecidableEq, Repr

/-- What a zlib decoder gives for a stream: the blocks it reads in order, and then the number of bytes
it has taken or why it failed. -/
structure Inflated where
  blocks : List Bytes
  outcome : Except String ℕ

/-- The codecs the formats rely on. -/
structure Codecs where
  inflate : Bytes → Inflated
  crc : Bytes → ℕ

/-- Validated, owned common PSF container data. -/
structure PsfContainer where
  version : PsfVersion
  reserved : Bytes
  compressedProgram : Bytes
  program : Bytes
  tags : Tags
  reservedRange : ByteRange
  compressedRange : ByteRange
  tagRange : Option ByteRange
  deriving DecidableEq, Repr

/-- Appends the blocks to the output while it stays within the limit. -/
def readBlocks (limit : ℕ) (output : Bytes) : List Bytes → Except Unit Bytes
  | [] => .ok output
  | block :: blocks =>
    if limit < output.length + block.length then .error ()
    else readBlocks limit (output ++ block) blocks

variable (codecs : Codecs) (origin : Str)

/-- Inflates a program within a limit. -/
def decompress (compressed : Bytes) (offset limit : ℕ) : Except ParseError Bytes :=
  if compressed.isEmpty then .ok []
  else
    let inflated := codecs.inflate compressed
    match readBlocks limit [] inflated.blocks with
    | .error () => .error ⟨origin, .decompression, offset, .limitExceeded "decompressed program bytes"⟩
    | .ok output =>
      match inflated.outcome with
      | .error message => .error ⟨origin, .decompression, offset, .invalidZlib message⟩
      | .ok total =>
        if total ≠ compressed.length then
          .error ⟨origin, .decompression, offset + total, .invalidZlib "trailing compressed data"⟩
        else .ok output

/-- The optional text section after the program. -/
def parseTagSection (input : Bytes) (limits : ParseLimits) (programEnd : ℕ) :
    Except ParseError (Tags × Option ByteRange) :=
  if programEnd = input.length then .ok (⟨[]⟩, none)
  else
    let markerEnd := programEnd + tagMarker.length
    if input.length < markerEnd ∨ slice input programEnd markerEnd ≠ tagMarker then
      .error ⟨origin, .tags, programEnd, .invalidTagMarker⟩
    else
      let raw := input.drop markerEnd
      if limits.maxTagBytes < raw.length then
        .error ⟨origin, .tags, markerEnd, .limitExceeded "tag bytes"⟩
      else
        (fun tags => (tags, some ⟨markerEnd, input.length⟩)) <$> Tags.parse origin raw markerEnd

/-- Parses one complete container. -/
def parseWithLimits (input : Bytes) (limits : ParseLimits) : Except ParseError PsfContainer := do
  if limits.maxInputBytes < input.length then
    throw ⟨origin, .header, 0, .limitExceeded "input bytes"⟩
  if input.length < headerSize then throw ⟨origin, .header, input.length, .truncated⟩
  if input.take 3 ≠ ascii "PSF" then throw ⟨origin, .header, 0, .invalidSignature⟩
  let version ← (PsfVersion.fromByte (input.getD 3 0)).mapError fun kind => ⟨origin, .header, 3, kind⟩
  let reservedLen := wordAt input 4
  let compressedLen := wordAt input 8
  let expectedCrc := wordAt input 12
  if limits.maxReservedBytes < reservedLen then
    throw ⟨origin, .reserved, headerSize, .limitExceeded "reserved bytes"⟩
  let reservedEnd := headerSize + reservedLen
  let programEnd := reservedEnd + compressedLen
  if input.length < programEnd then throw ⟨origin, .compressedProgram, input.length, .truncated⟩
  let compressed := slice input reservedEnd programEnd
  if codecs.crc compressed ≠ expectedCrc then
    throw ⟨origin, .compressedProgram, reservedEnd, .crcMismatch expectedCrc (codecs.crc compressed)⟩
  let effectiveProgramLimit :=
    if version = .psf1 then min limits.maxDecompressedBytes psf1MaxProgram
    else limits.maxDecompressedBytes
  let program ← decompress codecs origin compressed reservedEnd effectiveProgramLimit
  let (tags, tagRange) ← parseTagSection origin input limits programEnd
  return {
    version := version
    reserved := slice input headerSize reservedEnd
    compressedProgram := compressed
    program := program
    tags := tags
    reservedRange := ⟨headerSize, reservedEnd⟩
    compressedRange := ⟨reservedEnd, programEnd⟩
    tagRange := tagRange }

end Upse.Psf
