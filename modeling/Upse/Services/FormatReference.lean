import Upse.Services.Formatting

/-!
# Formatted output of the C library

A format is a row of literal bytes, percent signs and directives, and each directive has a value.  The
reference lays out a number as its sign, its prefix and its digits to a precision, and then pads it to the
width.
-/

namespace Upse.Services

open Psf

/-! ### Formats -/

/-- The flags of a directive. -/
inductive FormatFlag where
  | left
  | plus
  | space
  | alternate
  | zero
  deriving DecidableEq, Repr

/-- The character of a flag. -/
def FormatFlag.byte : FormatFlag → Byte
  | .left => 0x2d
  | .plus => 0x2b
  | .space => 0x20
  | .alternate => 0x23
  | .zero => 0x30

/-- The conversions of a directive. -/
inductive Specifier where
  | d
  | i
  | u
  | x
  | X
  | o
  | c
  | s
  deriving DecidableEq, Repr

/-- The character of a conversion. -/
def Specifier.byte : Specifier → Byte
  | .d => 0x64
  | .i => 0x69
  | .u => 0x75
  | .x => 0x78
  | .X => 0x58
  | .o => 0x6f
  | .c => 0x63
  | .s => 0x73

/-- A directive: its flags in any order, and the digits of its width and precision. -/
structure Directive where
  flags : List FormatFlag
  width : List (Fin 10)
  precision : Option (List (Fin 10))
  specifier : Specifier

/-- The characters of digits. -/
def decimalBytes (digits : List (Fin 10)) : Bytes := digits.map fun digit => BitVec.ofNat 8 (0x30 + digit.val)

/-- A number with further digits. -/
def decimalFrom (value : ℕ) (digits : List (Fin 10)) : ℕ :=
  digits.foldl (fun value digit => value * 10 + digit.val) value

/-- The number digits stand for. -/
def decimalValue (digits : List (Fin 10)) : ℕ := decimalFrom 0 digits

namespace Directive

variable (d : Directive)

/-- The directive after its percent sign, up to its specifier. -/
def front : Bytes :=
  d.flags.map FormatFlag.byte ++ decimalBytes d.width ++
    (d.precision.map fun digits => 0x2e :: decimalBytes digits).getD []

/-- The number of characters that a directive asks for at least. -/
def minimum : ℕ := decimalValue d.width

/-- The number of digits at least, or of characters at most. -/
def limit : Option ℕ := d.precision.map decimalValue

end Directive

/-- A piece of a format string. -/
inductive FormatItem where
  | literal (byte : Byte)
  | percent
  | directive (d : Directive)

namespace FormatItem

/-- The text of an item. -/
def text : FormatItem → Bytes
  | .literal byte => [byte]
  | .percent => [0x25, 0x25]
  | .directive d => 0x25 :: (d.front ++ [d.specifier.byte])

/-- A literal is no percent sign, and a width does not begin with the flag zero. -/
def WellFormed : FormatItem → Prop
  | .literal byte => byte ≠ 0x25
  | .percent => True
  | .directive d => d.width.head? ≠ some 0

end FormatItem

/-- The text of a format. -/
def formatText (items : List FormatItem) : Bytes := items.flatMap FormatItem.text

/-- The value of a directive: a word, and the string that it points to. -/
structure FormatValue where
  word : ℕ
  string : Bytes

/-! ### The reference -/

/-- The digits of a number to a precision. -/
def digitsTo (precision radix : ℕ) (uppercase : Bool) (value : ℕ) : Bytes :=
  List.replicate (precision - (digitsOf radix uppercase value).length) 0x30 ++
    digitsOf radix uppercase value

/-- The sign, the prefix and the digits of a number. -/
structure NumberParts where
  sign : Bytes
  marker : Bytes
  digits : Bytes

namespace Directive

variable (d : Directive)

/-- The precision: the flag `#` raises that of an octal number until its first digit is zero. -/
def raised (value : ℕ) : ℕ :=
  if d.specifier = .o ∧ .alternate ∈ d.flags then
    max (d.limit.getD 1) ((digitsOf 8 false value).length + 1)
  else d.limit.getD 1

/-- The parts of a number. -/
def parts (word : ℕ) : NumberParts :=
  match d.specifier with
  | .d | .i =>
    ⟨if signed word < 0 then [0x2d] else if .plus ∈ d.flags then [0x2b] else if .space ∈ d.flags then [0x20] else [],
      [], digitsTo (d.limit.getD 1) 10 false (signed word).natAbs⟩
  | .x => ⟨[], if .alternate ∈ d.flags ∧ word ≠ 0 then [0x30, 0x78] else [], digitsTo (d.limit.getD 1) 16 false word⟩
  | .X => ⟨[], if .alternate ∈ d.flags ∧ word ≠ 0 then [0x30, 0x58] else [], digitsTo (d.limit.getD 1) 16 true word⟩
  | .o => ⟨[], [], digitsTo (d.raised word) 8 false word⟩
  | _ => ⟨[], [], digitsTo (d.limit.getD 1) 10 false word⟩

/-- Pads a text with spaces to the width. -/
def padded (text : Bytes) : Bytes :=
  if .left ∈ d.flags then text ++ List.replicate (d.minimum - text.length) 0x20
  else List.replicate (d.minimum - text.length) 0x20 ++ text

/-- Lays out a number: the flag `0` puts zeros after the sign and the prefix. -/
def number (parts : NumberParts) : Bytes :=
  let text := parts.sign ++ parts.marker ++ parts.digits
  if .zero ∈ d.flags ∧ .left ∉ d.flags ∧ d.limit = none then
    parts.sign ++ parts.marker ++ List.replicate (d.minimum - text.length) 0x30 ++ parts.digits
  else d.padded text

/-- What the C library writes for a directive. -/
def output (value : FormatValue) : Bytes :=
  match d.specifier with
  | .c => d.padded [BitVec.ofNat 8 value.word]
  | .s => d.padded (match d.limit with | some limit => value.string.take limit | none => value.string)
  | _ => d.number (d.parts value.word)

end Directive

/-- What the C library writes for a format and its values. -/
def formatted : List FormatItem → List FormatValue → Bytes
  | [], _ => []
  | .literal byte :: items, values => byte :: formatted items values
  | .percent :: items, values => 0x25 :: formatted items values
  | .directive d :: items, value :: values => d.output value ++ formatted items values
  | .directive _ :: _, [] => []

/-! ### What the services get right -/

/-- The directives that are written as in C: an alternate octal number whose precision does not reach its
digits already, a character of seven bits, and a string that is read and cut as its bytes are. -/
def Directive.Formats (d : Directive) (value : FormatValue) : Prop :=
  match d.specifier with
  | .o => .alternate ∈ d.flags → ∀ limit, d.limit = some limit →
      if value.word = 0 then limit ≠ 0 else limit ≤ (digitsOf 8 false value.word).length
  | .c => BitVec.ofNat 8 value.word < (0x80 : Byte)
  | .s => value.string.length < maxString ∧
      match d.limit with
      | some limit => if value.string.length ≤ limit then validUtf8 value.string = true else Ascii (value.string.take limit)
      | none => validUtf8 value.string = true
  | _ => True

end Upse.Services
