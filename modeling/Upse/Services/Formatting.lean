import Upse.Services.Numbers
import Mathlib.Data.Nat.Digits.Defs

/-!
# Formatted output of the IOP

A directive takes its flags, width and precision from the format and its value from the next argument; a
text is the sequence of its UTF-8 bytes.
-/

namespace Upse.Services

open Psf

def maxFormatted : ℕ := 16 * 1024

/-- The registers of a call. -/
structure ServiceContext where
  register : ℕ → ℕ

/-- The stack pointer. -/
def sp : ℕ := 29

/-- What the services read of a directive. -/
structure FormatSpec where
  left : Bool
  plus : Bool
  space : Bool
  alternate : Bool
  zero : Bool
  width : Option ℕ
  precision : Option ℕ
  deriving DecidableEq, Repr

namespace FormatSpec

/-- No flag, width or precision. -/
def default : FormatSpec := ⟨false, false, false, false, false, none, none⟩

end FormatSpec

/-- The flags of a directive. -/
def parseFlags : FormatSpec → Str → FormatSpec × Str
  | spec, [] => (spec, [])
  | spec, character :: rest =>
    if character = 0x2d then parseFlags { spec with left := true } rest
    else if character = 0x2b then parseFlags { spec with plus := true } rest
    else if character = 0x20 then parseFlags { spec with space := true } rest
    else if character = 0x23 then parseFlags { spec with alternate := true } rest
    else if character = 0x30 then parseFlags { spec with zero := true } rest
    else (spec, character :: rest)

/-- `parse_format_number`. -/
def parseFormatNumber : Option ℕ → Str → Option ℕ × Str
  | value, [] => (value, [])
  | value, character :: rest =>
    match toDigit 10 character with
    | some digit => parseFormatNumber (some (min (value.getD 0 * 10 + digit) maxFormatted)) rest
    | none => (value, character :: rest)

/-- The precision of a directive. -/
def parsePrecision : Str → Option ℕ × Str
  | [] => (none, [])
  | character :: rest =>
    if character = 0x2e then
      let (precision, rest) := parseFormatNumber none rest
      (some (precision.getD 0), rest)
    else (none, character :: rest)

/-- `hlLzjt`. -/
def lengthModifiers : Bytes := [0x68, 0x6c, 0x4c, 0x7a, 0x6a, 0x74]

/-- A directive up to its specifier. -/
def parseSpec (characters : Str) : FormatSpec × Str :=
  let (spec, characters) := parseFlags .default characters
  let (width, characters) := parseFormatNumber none characters
  let (precision, characters) := parsePrecision characters
  ({ spec with width := width, precision := precision }, characters.dropWhile (· ∈ lengthModifiers))

/-- The digit of a value. -/
def digitByte (uppercase : Bool) (digit : ℕ) : Byte :=
  BitVec.ofNat 8 (if digit < 10 then 0x30 + digit else (if uppercase then 0x41 else 0x61) + (digit - 10))

/-- The digits of a number, and none of zero. -/
def digitsOf (radix : ℕ) (uppercase : Bool) (value : ℕ) : Bytes :=
  (Nat.digits radix value).reverse.map (digitByte uppercase)

/-- `apply_format_width`. -/
def applyFormatWidth (text : Str) (spec : FormatSpec) (numeric : Bool) : Str :=
  let width := min (spec.width.getD 0) maxFormatted
  let padding := width - text.length
  if padding = 0 then text
  else if spec.left then text ++ List.replicate padding 0x20
  else if numeric && spec.zero && spec.precision.isNone then
    let signLength := if text.head?.any (· ∈ ([0x2d, 0x2b, 0x20] : Bytes)) then 1 else 0
    let prefixLength := signLength + if (hexPrefix (text.drop signLength)).isSome then 2 else 0
    text.take prefixLength ++ List.replicate padding 0x30 ++ text.drop prefixLength
  else List.replicate padding 0x20 ++ text

/-- `format_integer`. -/
def formatInteger (value radix : ℕ) (uppercase : Bool) (sign : Option Byte) (marker : Str) (spec : FormatSpec) : Str :=
  let digits := if value = 0 then [0x30] else digitsOf radix uppercase value
  let digits := if spec.precision = some 0 ∧ value = 0 then [] else digits
  let digits :=
    match spec.precision with
    | some precision => List.replicate (precision - digits.length) 0x30 ++ digits
    | none => digits
  applyFormatWidth (sign.toList ++ marker ++ digits) spec true

/-- The position of a character of a text. -/
def charStart : ℕ → Str → Option ℕ
  | _, [] => none
  | 0, _ :: _ => some 0
  | n + 1, first :: rest =>
    (charStart n ((first :: rest).drop (decodeChar first rest).2)).map ((decodeChar first rest).2 + ·)

/-- The number of bytes of the first character of a text. -/
def firstSize : Str → ℕ
  | [] => 0
  | first :: rest => (decodeChar first rest).2

/-- `char::from` a byte. -/
def charFrom (byte : Byte) : Str :=
  if byte < 0x80 then [byte] else [0xc0 ||| byte >>> 6, 0x80 ||| (byte &&& 0x3f)]

/-- The value of a 32-bit word as a signed number. -/
def signed (word : ℕ) : ℤ := (BitVec.ofNat 32 word).toInt

/-- `format_value`. -/
def formatValue (guest : GuestMemory) (specifier : Byte) (value : ℕ) (spec : FormatSpec) : Except ServiceError Str :=
  if specifier = 0x64 ∨ specifier = 0x69 then
    .ok (formatInteger (signed value).natAbs 10 false
      (if signed value < 0 then some 0x2d else if spec.plus then some 0x2b else if spec.space then some 0x20 else none)
      [] spec)
  else if specifier = 0x75 then .ok (formatInteger value 10 false none [] spec)
  else if specifier = 0x78 then
    .ok (formatInteger value 16 false none (if spec.alternate ∧ value ≠ 0 then [0x30, 0x78] else []) spec)
  else if specifier = 0x70 then .ok (formatInteger value 16 false none [0x30, 0x78] spec)
  else if specifier = 0x58 then
    .ok (formatInteger value 16 true none (if spec.alternate ∧ value ≠ 0 then [0x30, 0x58] else []) spec)
  else if specifier = 0x6f then
    .ok (formatInteger value 8 false none (if spec.alternate ∧ value ≠ 0 then [0x30] else []) spec)
  else if specifier = 0x63 then .ok (applyFormatWidth (charFrom (BitVec.ofNat 8 value)) spec false)
  else if specifier = 0x73 then do
    -- `(null)`
    let text ← if value = 0 then pure [0x28, 0x6e, 0x75, 0x6c, 0x6c, 0x29] else readCString guest value maxString
    let text :=
      match spec.precision with
      | some precision => text.take ((charStart precision text).getD text.length)
      | none => text
    return applyFormatWidth text spec false
  else .ok [0x25, specifier]

/-- `argument`: the registers, and then the stack. -/
def argument (context : ServiceContext) (guest : GuestMemory) (position : ℕ) : Except ServiceError ℕ :=
  if position < 4 then .ok (context.register (4 + position))
  else
    match checkedAdd 32 16 (min ((position - 4) * 4) u32Max) with
    | none => .error (.invalidArgument "varargs" "stack offset overflow")
    | some offset => readU32 guest (wrappingAdd (context.register sp) offset)

/-- The loop of `format_guest`; every round takes a character of the format. -/
def formatLoop (context : ServiceContext) (guest : GuestMemory) : ℕ → Str → ℕ → Str → Except ServiceError Str
  | 0, _, _, output => .ok output
  | _ + 1, [], _, output => .ok output
  | rounds + 1, character :: rest, nextArgument, output =>
    if character ≠ 0x25 then formatLoop context guest rounds rest nextArgument (output ++ [character])
    else if rest.head? = some 0x25 then
      formatLoop context guest rounds (rest.drop 1) nextArgument (output ++ [0x25])
    else do
      let (spec, rest) := parseSpec rest
      let value ← argument context guest nextArgument
      let text ← formatValue guest (rest.head?.getD 0x25) value spec
      -- a specifier that is not ASCII is written with all its bytes
      let text := text ++ (rest.take (firstSize rest)).drop 1
      if maxFormatted < (output ++ text).length then throw (.resourceLimit "formatted output")
      formatLoop context guest rounds (rest.drop (firstSize rest)) (nextArgument + 1) (output ++ text)

/-- `format_guest`. -/
def formatGuest (context : ServiceContext) (guest : GuestMemory) (formatArgument : ℕ) : Except ServiceError Str := do
  let formatAddress ← argument context guest formatArgument
  let format ← readCString guest formatAddress maxString
  formatLoop context guest format.length format (formatArgument + 1) []

/-- `sprintf`: the length, and the memory with the text. -/
def sprintf (context : ServiceContext) (guest : GuestMemory) : Except ServiceError (ℕ × GuestMemory) := do
  let text ← formatGuest context guest 1
  let guest ← writeMemory guest (context.register 4) (text ++ [0])
  return (text.length, guest)

/-- `printf`: the length, and the text that goes to the terminal. -/
def printf (context : ServiceContext) (guest : GuestMemory) : Except ServiceError (ℕ × Str) := do
  let text ← formatGuest context guest 0
  return (text.length, text)

end Upse.Services
