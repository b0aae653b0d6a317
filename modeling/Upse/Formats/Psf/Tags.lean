import Mathlib.Data.List.DropRight
import Mathlib.Data.List.Basic
import Upse.Support.Bytes

/-!
# PSF tags

The text section of a PSF file: lines of keys and values, decoded leniently, with adjacent lines of
one key joined.
-/

namespace Upse.Psf

/-! ### Lenient UTF-8 -/

/-- The ranges of the bytes that follow a first byte of more than one. -/
def followers (first : Byte) : Option (List (Byte × Byte)) :=
  if 0xc2 ≤ first ∧ first ≤ 0xdf then some [(0x80, 0xbf)]
  else if first = 0xe0 then some [(0xa0, 0xbf), (0x80, 0xbf)]
  else if first = 0xed then some [(0x80, 0x9f), (0x80, 0xbf)]
  else if 0xe1 ≤ first ∧ first ≤ 0xef then some [(0x80, 0xbf), (0x80, 0xbf)]
  else if first = 0xf0 then some [(0x90, 0xbf), (0x80, 0xbf), (0x80, 0xbf)]
  else if 0xf1 ≤ first ∧ first ≤ 0xf3 then some [(0x80, 0xbf), (0x80, 0xbf), (0x80, 0xbf)]
  else if first = 0xf4 then some [(0x80, 0x8f), (0x80, 0xbf), (0x80, 0xbf)]
  else none

/-- How many of the ranges the next bytes lie in, one after the other. -/
def matchRanges : List (Byte × Byte) → Bytes → ℕ
  | (low, high) :: ranges, byte :: bytes =>
    if low ≤ byte ∧ byte ≤ high then matchRanges ranges bytes + 1 else 0
  | _, _ => 0

/-- Whether a character begins the bytes, and the length of it or of the bytes to replace. -/
def decodeChar (first : Byte) (rest : Bytes) : Bool × ℕ :=
  if first < 0x80 then (true, 1)
  else
    match followers first with
    | none => (false, 1)
    | some ranges => (matchRanges ranges rest = ranges.length, matchRanges ranges rest + 1)

/-- What `String::from_utf8_lossy` puts in place of an ill-formed sequence. -/
def replacementCharacter : Bytes := [0xef, 0xbf, 0xbd]

/-- Decodes as many characters as `rounds`. -/
def decodeLossy : ℕ → Bytes → Str
  | rounds + 1, first :: rest =>
    let (valid, length) := decodeChar first rest
    (if valid then (first :: rest).take length else replacementCharacter) ++
      decodeLossy rounds ((first :: rest).drop length)
  | _, _ => []

/-- `String::from_utf8_lossy`: every character takes at least one byte. -/
def fromUtf8Lossy (bytes : Bytes) : Str := decodeLossy bytes.length bytes

/-- As many characters as `rounds` are well formed. -/
def wellFormed : ℕ → Bytes → Bool
  | rounds + 1, first :: rest =>
    (decodeChar first rest).1 && wellFormed rounds ((first :: rest).drop (decodeChar first rest).2)
  | _, bytes => bytes.isEmpty

/-- Valid UTF-8. -/
def validUtf8 (bytes : Bytes) : Bool := wellFormed bytes.length bytes

theorem decodeLossy_of_wellFormed {rounds : ℕ} {bytes : Bytes}
    (valid : wellFormed rounds bytes = true) : decodeLossy rounds bytes = bytes := by
  induction rounds generalizing bytes with
  | zero => exact (List.isEmpty_iff.mp valid).symm
  | succ rounds ih =>
    cases bytes with
    | nil => rfl
    | cons first rest =>
      obtain ⟨head, tail⟩ := Bool.and_eq_true _ _ |>.mp valid
      rw [decodeLossy]
      dsimp only
      rw [if_pos head, ih tail, List.take_append_drop]

theorem fromUtf8Lossy_of_valid {bytes : Bytes} (valid : validUtf8 bytes = true) :
    fromUtf8Lossy bytes = bytes := decodeLossy_of_wellFormed valid

theorem wellFormed_of_ascii {rounds : ℕ} {bytes : Bytes} (enough : bytes.length ≤ rounds)
    (all : ∀ byte ∈ bytes, byte < 0x80) : wellFormed rounds bytes = true := by
  induction rounds generalizing bytes with
  | zero =>
    rw [List.eq_nil_of_length_eq_zero (Nat.le_zero.mp enough)]
    rfl
  | succ rounds ih =>
    cases bytes with
    | nil => rfl
    | cons first rest =>
      have char : decodeChar first rest = (true, 1) := by
        unfold decodeChar
        rw [if_pos (all first List.mem_cons_self)]
      rw [wellFormed, char]
      exact ih (Nat.le_of_succ_le_succ enough) fun b mem => all b (List.mem_cons_of_mem _ mem)

/-! ### Failures -/

/-- Parser stage associated with a structured failure. -/
inductive ParseStage where
  | header
  | reserved
  | compressedProgram
  | decompression
  | tags
  deriving DecidableEq, Repr

/-- Specific parser failure. -/
inductive ParseErrorKind where
  | truncated
  | invalidSignature
  | unsupportedVersion (version : Byte)
  | offsetOverflow
  | limitExceeded (limit : String)
  | crcMismatch (expected actual : ℕ)
  | invalidZlib (message : String)
  | invalidTagMarker
  | tagNull
  | malformedTagLine
  | invalidTagKey
  deriving DecidableEq, Repr

/-- Structured parse error containing origin, stage, and byte offset. -/
structure ParseError where
  origin : Str
  stage : ParseStage
  offset : ℕ
  kind : ParseErrorKind
  deriving DecidableEq, Repr

/-! ### Tags -/

/-- One ordered tag, preserving original key and value bytes. -/
structure Tag where
  keyRaw : Bytes
  valueRaw : Bytes
  key : Str
  value : Str
  deriving DecidableEq, Repr

/-- Ordered PSF tags with case-insensitive lookup. -/
structure Tags where
  entries : List Tag
  deriving DecidableEq, Repr

def isBlank (byte : Byte) : Bool := 1 ≤ byte && byte ≤ 0x20

/-- A value without the blanks around it. -/
def trimWhitespace (value : Bytes) : Bytes := (value.dropWhile isBlank).rdropWhile isBlank

def newline : Byte := 10

def equalsSign : Byte := 61

def underscore : Byte := 95

/-- Whether a name is an identifier. -/
def validIdentifier : Bytes → Bool
  | [] => false
  | first :: rest =>
    (isAsciiAlphabetic first || first == underscore) &&
      rest.all fun byte => isAsciiAlphabetic byte || isAsciiDigit byte || byte == underscore

namespace Tags

/-- One more line of a tag: the line goes on the last tag where that has the same key. -/
def addLine (entries : List Tag) (key value : Bytes) : List Tag :=
  let fresh := entries ++ [⟨key, value, fromUtf8Lossy key, fromUtf8Lossy value⟩]
  match entries.getLast? with
  | some previous =>
    if eqIgnoreAsciiCase previous.key (fromUtf8Lossy key) then
      let valueRaw := previous.valueRaw ++ newline :: value
      entries.dropLast ++ [{ previous with valueRaw := valueRaw, value := fromUtf8Lossy valueRaw }]
    else fresh
  | none => fresh

/-- The lines of the section in order, `lineStart` bytes into it. -/
def parseLines (origin : Str) (base : ℕ) : ℕ → List Bytes → List Tag → Except ParseError (List Tag)
  | _, [], entries => .ok entries
  | lineStart, line :: lines, entries =>
    let trimmed := trimWhitespace line
    let next := lineStart + (line.length + 1)
    if trimmed.isEmpty then parseLines origin base next lines entries
    else
      match trimmed.findIdx? (· == equalsSign) with
      | none => .error ⟨origin, .tags, base + lineStart, .malformedTagLine⟩
      | some equals =>
        let key := trimWhitespace (trimmed.take equals)
        let value := trimWhitespace (trimmed.drop (equals + 1))
        if validIdentifier key then parseLines origin base next lines (addLine entries key value)
        else .error ⟨origin, .tags, base + lineStart, .invalidTagKey⟩

/-- Parses the tags of a file. -/
def parse (origin : Str) (raw : Bytes) (base : ℕ) : Except ParseError Tags :=
  match raw.findIdx? (· == 0) with
  | some position => .error ⟨origin, .tags, base + position, .tagNull⟩
  | none => Tags.mk <$> parseLines origin base 0 (raw.splitOn newline) []

/-- The first value whose key matches case-insensitively. -/
def get (tags : Tags) (key : Str) : Option Str :=
  (tags.entries.find? fun entry => eqIgnoreAsciiCase entry.key key).map Tag.value

end Tags

end Upse.Psf
