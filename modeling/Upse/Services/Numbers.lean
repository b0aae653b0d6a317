import Upse.Services.Tokens

/-!
# Numbers in strings

`strtol` and `strtoul` share `parse_integer`; the reference takes what the C library takes.
-/

namespace Upse.Services

open Psf

/-- The characters of more than one byte with the `White_Space` property. -/
def wideSpaces : List Str :=
  [[0xc2, 0x85], [0xc2, 0xa0], [0xe1, 0x9a, 0x80], [0xe2, 0x80, 0xa8], [0xe2, 0x80, 0xa9], [0xe2, 0x80, 0xaf],
    [0xe2, 0x81, 0x9f], [0xe3, 0x80, 0x80]] ++ (List.range 11).map fun last => [0xe2, 0x80, BitVec.ofNat 8 (0x80 + last)]

/-- Whether C skips a byte. -/
def isSpace (byte : Byte) : Bool := (9 ≤ byte.toNat && byte.toNat ≤ 13) || byte == 0x20

/-- The rounds of `str::trim_start`; each of them takes at least a byte. -/
def trimStartLoop : ℕ → Str → Str
  | 0, text => text
  | rounds + 1, text =>
    match text with
    | [] => []
    | byte :: rest =>
      if isSpace byte then trimStartLoop rounds rest
      else
        match wideSpaces.find? (·.isPrefixOf text) with
        | some space => trimStartLoop rounds (text.drop space.length)
        | none => text

/-- `str::trim_start`. -/
def trimStart (text : Str) : Str := trimStartLoop text.length text

/-- `char::to_digit`. -/
def toDigit (base : ℕ) (byte : Byte) : Option ℕ :=
  let n := byte.toNat
  let digit :=
    if 0x30 ≤ n ∧ n ≤ 0x39 then some (n - 0x30)
    else if 0x61 ≤ n ∧ n ≤ 0x7a then some (n - 0x61 + 10)
    else if 0x41 ≤ n ∧ n ≤ 0x5a then some (n - 0x41 + 10)
    else none
  digit.filter (· < base)

/-- What is after `0x` or `0X`. -/
def hexPrefix : Str → Option Str
  | zero :: x :: rest => if zero = 0x30 ∧ (x = 0x78 ∨ x = 0x58) then some rest else none
  | _ => none

/-- The loop over the digits. -/
def digitsLoop (base : ℕ) : ℕ → Str → ℕ
  | value, [] => value
  | value, byte :: rest =>
    match toDigit base byte with
    | none => value
    | some digit => digitsLoop base (wrappingAdd (value * base % 2 ^ 32) digit) rest

/-- The base of the digits after the sign. -/
def detectBase (base : ℕ) (digits : Str) : ℕ :=
  if base = 0 then
    if (hexPrefix digits).isSome then 16
    else if digits.head? = some 0x30 then 8
    else 10
  else base

/-- `wrapping_neg` of a 32-bit value. -/
def wrappingNeg (value : ℕ) : ℕ := (2 ^ 32 - value) % 2 ^ 32

/-- `parse_integer` on the digits after the sign. -/
def parseDigits (digits : Str) (base : ℕ) (negated : Bool) : ℕ :=
  let base := detectBase base digits
  if ¬ (2 ≤ base ∧ base ≤ 36) then 0
  else
    let digits := if base = 16 then (hexPrefix digits).getD digits else digits
    let value := digitsLoop base 0 digits
    if negated then wrappingNeg value else value

/-- `parse_integer` on the string that it has read. -/
def parseText (text : Str) (base : ℕ) (signed : Bool) : ℕ :=
  let trimmed := trimStart text
  if trimmed.head? = some 0x2d then parseDigits (trimmed.drop 1) base signed
  else parseDigits trimmed base false

/-- `parse_integer`. -/
def parseInteger (guest : GuestMemory) (address base : ℕ) (signed : Bool) : Except ServiceError ℕ := do
  return parseText (← readCString guest address maxString) base signed

/-- The services of conversion. -/
inductive Conversion where
  | strtol
  | strtoul
  deriving DecidableEq, Repr

/-- The service of a conversion: the string, the end pointer and the base are its arguments. -/
def convert (guest : GuestMemory) (a0 _a1 a2 : ℕ) : Conversion → Except ServiceError (ℕ × GuestMemory)
  | .strtol => do return (← parseInteger guest a0 10 true, guest)
  | .strtoul => do return (← parseInteger guest a0 a2 false, guest)

/-! ### The reference -/

/-- The first byte is a digit of the base. -/
def startsWithDigit (base : ℕ) : Bytes → Bool
  | [] => false
  | byte :: _ => (toDigit base byte).isSome

/-- The base of what is after the sign, and how long its prefix is: the prefix of a hexadecimal number has a
digit after it. -/
def prefixOf (base : ℕ) (body : Bytes) : ℕ × ℕ :=
  if (base = 16 ∨ base = 0) ∧ startsWithDigit 16 ((hexPrefix body).getD []) = true then (16, 2)
  else if base = 0 then (if body.head? = some 0x30 then 8 else 10, 0)
  else (base, 0)

/-- What the C library takes of a string. -/
structure Numeral where
  spaces : Bytes
  sign : Option Byte
  base : ℕ
  skipped : ℕ
  digits : Bytes

/-- The numeral at the start of a string. -/
def numeral (text : Bytes) (base : ℕ) : Numeral :=
  let spaces := text.takeWhile isSpace
  let rest := text.dropWhile isSpace
  let sign := rest.head?.filter fun byte => byte == 0x2b || byte == 0x2d
  let body := if sign.isSome then rest.drop 1 else rest
  ⟨spaces, sign, (prefixOf base body).1, (prefixOf base body).2,
    (body.drop (prefixOf base body).2).takeWhile fun byte => (toDigit (prefixOf base body).1 byte).isSome⟩

namespace Numeral

variable (n : Numeral)

/-- The number that the digits are. -/
def magnitude : ℕ := n.digits.foldl (fun value byte => value * n.base + (toDigit n.base byte).getD 0) 0

/-- The number, negated for a minus sign, as a word. -/
def word : ℕ := if n.sign = some 0x2d then wrappingNeg (n.magnitude % 2 ^ 32) else n.magnitude % 2 ^ 32

/-- How many characters are consumed: none without digits. -/
def consumed : ℕ :=
  if n.digits = [] then 0 else n.spaces.length + n.sign.toList.length + n.skipped + n.digits.length

/-- The number is in the range of the type of the conversion. -/
def Representable : Conversion → Prop
  | .strtol => if n.sign = some 0x2d then n.magnitude ≤ 2 ^ 31 else n.magnitude < 2 ^ 31
  | .strtoul => n.magnitude < 2 ^ 32

instance : (conversion : Conversion) → Decidable (n.Representable conversion)
  | .strtol => inferInstanceAs (Decidable (if n.sign = some 0x2d then n.magnitude ≤ 2 ^ 31 else n.magnitude < 2 ^ 31))
  | .strtoul => inferInstanceAs (Decidable (n.magnitude < 2 ^ 32))

end Numeral

/-- The conversion returns the number, and stores the address of the first character after it. -/
def Converts (guest : GuestMemory) (a0 a1 a2 : ℕ) (conversion : Conversion) (text : Bytes) : Prop :=
  ∃ guest', convert guest a0 a1 a2 conversion = .ok ((numeral text a2).word, guest') ∧
    (a1 ≠ 0 → guest'.word a1 = a0 + (numeral text a2).consumed)

/-- What a conversion gets right without a plus sign: `strtol` reads in base ten whatever its base, and
`strtoul` does not negate. -/
def Conversion.Reads (text : Bytes) (base : ℕ) : Conversion → Prop
  | .strtol => (numeral text 10).word = (numeral text base).word
  | .strtoul => (numeral text base).sign = some 0x2d →
      (numeral text base).magnitude = 0 ∨ (numeral text base).magnitude = 2 ^ 31

/-- What the conversions get right: they do not take a plus sign, and they do not store an end. -/
def ConvertsWhen (guest : GuestMemory) (a0 a1 a2 : ℕ) (conversion : Conversion) (text : Bytes) : Prop :=
  (if (numeral text a2).sign = some 0x2b then (numeral text a2).magnitude = 0 else conversion.Reads text a2) ∧
    (a1 ≠ 0 → guest.word a1 = a0 + (numeral text a2).consumed)

/-! ### The digits -/

theorem digitsLoop_eq (base value : ℕ) (text : Bytes) :
    digitsLoop base (value % 2 ^ 32) text =
      ((text.takeWhile fun byte => (toDigit base byte).isSome).foldl
        (fun value byte => value * base + (toDigit base byte).getD 0) value) % 2 ^ 32 := by
  induction text generalizing value with
  | nil => rfl
  | cons byte text ih =>
    rw [digitsLoop, List.takeWhile_cons]
    cases found : toDigit base byte with
    | none => rfl
    | some digit =>
      have wraps : wrappingAdd (value % 2 ^ 32 * base % 2 ^ 32) digit = (value * base + digit) % 2 ^ 32 := by
        rw [wrappingAdd, Nat.mod_mul_mod, Nat.mod_add_mod]
      dsimp only
      rw [wraps, ih, Option.isSome_some, if_pos rfl, List.foldl_cons, found]
      rfl

theorem toDigit_x {x : Byte} (hx : x = 0x78 ∨ x = 0x58) {base : ℕ} (small : base ≤ 16) : toDigit base x = none := by
  obtain rfl | rfl := hx
  · show Option.filter (· < base) (some 33) = none
    rw [Option.filter_some, if_neg (by simp; omega)]
  · show Option.filter (· < base) (some 33) = none
    rw [Option.filter_some, if_neg (by simp; omega)]

theorem toDigit_zero {base : ℕ} (positive : 0 < base) : toDigit base 0x30 = some 0 := by
  show Option.filter (· < base) (some 0) = _
  rw [Option.filter_some, if_pos (by simp; omega)]

/-- The value of what is after the sign. -/
def bodyMagnitude (base : ℕ) (body : Bytes) : ℕ :=
  ((body.drop (prefixOf base body).2).takeWhile fun byte => (toDigit (prefixOf base body).1 byte).isSome).foldl
    (fun value byte => value * (prefixOf base body).1 + (toDigit (prefixOf base body).1 byte).getD 0) 0

theorem hexPrefix_eq_some {body rest : Bytes} (h : hexPrefix body = some rest) :
    ∃ x : Byte, (x = 0x78 ∨ x = 0x58) ∧ body = 0x30 :: x :: rest := by
  match body, h with
  | zero :: x :: later, h =>
    rw [hexPrefix] at h
    split at h
    next letters =>
      cases h
      exact ⟨x, letters.2, by rw [letters.1]⟩
    next => cases h

theorem digitsLoop_none {base value : ℕ} {text : Bytes} (none : startsWithDigit base text = false) :
    digitsLoop base value text = value := by
  cases text with
  | nil => rfl
  | cons byte text =>
    rw [digitsLoop]
    cases found : toDigit base byte with
    | none => rfl
    | some digit =>
      rw [startsWithDigit, found] at none
      cases none

/-- Past the prefix, the loop reads what the C library reads. -/
theorem digitsLoop_body (base : ℕ) (body : Bytes) (small : base ≤ 36) :
    digitsLoop (detectBase base body) 0
        (if detectBase base body = 16 then (hexPrefix body).getD body else body) =
      bodyMagnitude base body % 2 ^ 32 := by
  have loop (b : ℕ) (text : Bytes) := digitsLoop_eq b 0 text
  cases hex : hexPrefix body with
  | none =>
    have plain : prefixOf base body = (detectBase base body, 0) := by
      unfold prefixOf detectBase
      rw [hex, if_neg (by rintro ⟨-, ⟨⟩⟩)]
      split <;> rfl
    rw [bodyMagnitude, plain, Option.getD_none, ite_self]
    exact loop _ _
  | some rest =>
    obtain ⟨x, letters, rfl⟩ := hexPrefix_eq_some hex
    by_cases sixteen : base = 16 ∨ base = 0
    · have detected : detectBase base (0x30 :: x :: rest) = 16 := by
        unfold detectBase
        rw [hex]
        obtain rfl | rfl := sixteen
        · rfl
        · rfl
      rw [detected, if_pos rfl, Option.getD_some]
      cases starts : startsWithDigit 16 rest with
      | true =>
        have whole : prefixOf base (0x30 :: x :: rest) = (16, 2) := by
          unfold prefixOf
          rw [hex, Option.getD_some, if_pos ⟨sixteen, starts⟩]
        rw [bodyMagnitude, whole]
        exact loop _ _
      | false =>
        -- the digits are the zero of the prefix
        have zero : ∃ b, 0 < b ∧ b ≤ 16 ∧ prefixOf base (0x30 :: x :: rest) = (b, 0) := by
          unfold prefixOf
          rw [hex, Option.getD_some, starts, if_neg (by rintro ⟨-, ⟨⟩⟩)]
          obtain rfl | rfl := sixteen
          · exact ⟨16, by decide, by decide, rfl⟩
          · exact ⟨8, by decide, by decide, rfl⟩
        obtain ⟨b, positive, low, plain⟩ := zero
        rw [digitsLoop_none starts, bodyMagnitude, plain, List.drop_zero, List.takeWhile_cons,
          toDigit_zero positive, List.takeWhile_cons, toDigit_x letters low]
        rw [Option.isSome_some, Option.isSome_none, if_pos rfl, if_neg Bool.false_ne_true, List.foldl_cons,
          toDigit_zero positive]
        simp
    · have plain : prefixOf base (0x30 :: x :: rest) = (base, 0) := by
        unfold prefixOf
        rw [if_neg fun h => sixteen h.1, if_neg fun h => sixteen (.inr h)]
      have detected : detectBase base (0x30 :: x :: rest) = base := by
        unfold detectBase
        rw [if_neg fun h => sixteen (.inr h)]
      rw [bodyMagnitude, plain, detected, if_neg fun h => sixteen (.inl h)]
      exact loop _ _

/-- A base that the C library takes. -/
def ValidBase (base : ℕ) : Prop := base = 0 ∨ 2 ≤ base ∧ base ≤ 36

theorem parseDigits_eq {base : ℕ} (valid : ValidBase base) (body : Bytes) (negated : Bool) :
    parseDigits body base negated =
      if negated then wrappingNeg (bodyMagnitude base body % 2 ^ 32) else bodyMagnitude base body % 2 ^ 32 := by
  have range : 2 ≤ detectBase base body ∧ detectBase base body ≤ 36 := by
    unfold detectBase
    obtain rfl | valid := valid
    · rw [if_pos rfl]
      split
      · decide
      · split <;> decide
    · rwa [if_neg (by omega)]
  unfold parseDigits
  dsimp only
  rw [if_neg (not_not.mpr range), digitsLoop_body base body (by unfold ValidBase at valid; omega)]

/-! ### The strings -/

theorem head_wideSpaces : ∀ space ∈ wideSpaces, (0x80 : Byte) ≤ space.headD 0 := by decide +kernel

theorem trimStart_ascii {text : Bytes} (ascii : Ascii text) : trimStart text = text.dropWhile isSpace := by
  unfold trimStart
  induction text with
  | nil => rfl
  | cons byte rest ih =>
    rw [List.length_cons, trimStartLoop, List.dropWhile_cons]
    split
    next => exact ih fun b member => ascii b (List.mem_cons_of_mem _ member)
    next =>
      have narrow : byte < 0x80 := ascii byte List.mem_cons_self
      have none : wideSpaces.find? (·.isPrefixOf (byte :: rest)) = none := by
        rw [List.find?_eq_none]
        intro space member isPrefix
        have wide := head_wideSpaces space member
        cases space with
        | nil => exact absurd wide (by decide)
        | cons first others =>
          rw [List.isPrefixOf_iff_prefix, List.cons_prefix_cons] at isPrefix
          rw [List.headD_cons, isPrefix.1] at wide
          exact absurd narrow (BitVec.not_lt.mpr wide)
      rw [none]

section Numeral

variable {text : Bytes} (base : ℕ)

theorem numeral_signed {sign : Byte} {body : Bytes} (rest : text.dropWhile isSpace = sign :: body)
    (isSign : sign = 0x2b ∨ sign = 0x2d) :
    (numeral text base).sign = some sign ∧ (numeral text base).magnitude = bodyMagnitude base body := by
  have found : (some sign).filter (fun byte : Byte => byte == 0x2b || byte == 0x2d) = some sign := by
    obtain rfl | rfl := isSign <;> rfl
  unfold numeral
  dsimp only
  rw [rest, List.head?_cons, found]
  exact ⟨rfl, rfl⟩

theorem numeral_plain (plus : (text.dropWhile isSpace).head? ≠ some 0x2b)
    (minus : (text.dropWhile isSpace).head? ≠ some 0x2d) :
    (numeral text base).sign = none ∧ (numeral text base).magnitude = bodyMagnitude base (text.dropWhile isSpace) := by
  have found : (text.dropWhile isSpace).head?.filter (fun byte : Byte => byte == 0x2b || byte == 0x2d) = none := by
    cases first : (text.dropWhile isSpace).head? with
    | none => rfl
    | some byte =>
      rw [first] at plus minus
      rw [Option.filter_some, if_neg]
      rintro h
      obtain h | h := Bool.or_eq_true_iff.mp h
      · exact plus (congrArg some (beq_iff_eq.mp h))
      · exact minus (congrArg some (beq_iff_eq.mp h))
  unfold numeral
  dsimp only
  rw [found]
  exact ⟨rfl, rfl⟩

/-- A sign is no digit. -/
theorem bodyMagnitude_plus (body : Bytes) : bodyMagnitude base (0x2b :: body) = 0 := by
  have none (b : ℕ) : toDigit b 0x2b = none := rfl
  have plain : (prefixOf base (0x2b :: body)).2 = 0 := by
    have hex : hexPrefix (0x2b :: body) = Option.none := by
      cases body <;> rfl
    unfold prefixOf
    rw [hex, if_neg (by rintro ⟨-, ⟨⟩⟩)]
    split <;> rfl
  rw [bodyMagnitude, plain, List.drop_zero, List.takeWhile_cons, none]
  rfl

variable {base}

/-- What the services compute: nothing after a plus sign, and a minus sign counts for one of them. -/
theorem parseText_eq (ascii : Ascii text) (valid : ValidBase base) (signed : Bool) :
    parseText text base signed =
      if (numeral text base).sign = some 0x2b then 0
      else if (numeral text base).sign = some 0x2d ∧ signed = true then
        wrappingNeg ((numeral text base).magnitude % 2 ^ 32)
      else (numeral text base).magnitude % 2 ^ 32 := by
  unfold parseText
  rw [trimStart_ascii ascii]
  dsimp only
  by_cases minus : (text.dropWhile isSpace).head? = some 0x2d
  · obtain ⟨body, rest⟩ := List.head?_eq_some_iff.mp minus
    obtain ⟨sign, magnitude⟩ := numeral_signed base rest (.inr rfl)
    rw [if_pos minus, sign, magnitude, if_neg (by decide), rest, List.drop_one, List.tail_cons, parseDigits_eq valid]
    cases signed
    · rfl
    · rfl
  · rw [if_neg minus, parseDigits_eq valid, if_neg Bool.false_ne_true]
    by_cases plus : (text.dropWhile isSpace).head? = some 0x2b
    · obtain ⟨body, rest⟩ := List.head?_eq_some_iff.mp plus
      obtain ⟨sign, -⟩ := numeral_signed base rest (.inl rfl)
      rw [sign, if_pos rfl, rest, bodyMagnitude_plus, Nat.zero_mod]
    · obtain ⟨sign, magnitude⟩ := numeral_plain base plus minus
      rw [sign, if_neg nofun, if_neg (by rintro ⟨⟨⟩, -⟩), magnitude]

end Numeral

/-! ### The services -/

section Services

variable {guest : GuestMemory} {a0 a1 a2 : ℕ} {text : Bytes}

theorem parseInteger_eq (held : CString guest a0 text) (short : text.length < maxString) (ascii : Ascii text) (base : ℕ)
    (signed : Bool) : parseInteger guest a0 base signed = .ok (parseText text base signed) := by
  rw [parseInteger, held.read_ascii short ascii]
  rfl

/-- The base that a service reads in. -/
def Conversion.base : Conversion → ℕ → ℕ
  | .strtol, _ => 10
  | .strtoul, base => base

theorem convert_eq (held : CString guest a0 text) (short : text.length < maxString) (ascii : Ascii text)
    (conversion : Conversion) : convert guest a0 a1 a2 conversion =
      .ok (parseText text (conversion.base a2) (conversion == .strtol), guest) := by
  cases conversion with
  | strtol =>
    rw [convert, parseInteger_eq held short ascii]
    rfl
  | strtoul =>
    rw [convert, parseInteger_eq held short ascii]
    rfl

theorem numeral_sign (base other : ℕ) : (numeral text base).sign = (numeral text other).sign := rfl

/-- A service returns the number of the C library. -/
theorem parseText_eq_word_iff (ascii : Ascii text) (valid : ValidBase a2) (conversion : Conversion)
    (fits : (numeral text a2).Representable conversion) :
    parseText text (conversion.base a2) (conversion == .strtol) = (numeral text a2).word ↔
      if (numeral text a2).sign = some 0x2b then (numeral text a2).magnitude = 0 else conversion.Reads text a2 := by
  have readsIn : ValidBase (conversion.base a2) := by
    cases conversion with
    | strtol => exact .inr (by decide : 2 ≤ 10 ∧ 10 ≤ 36)
    | strtoul => exact valid
  have small : (numeral text a2).magnitude < 2 ^ 32 := by
    unfold Numeral.Representable at fits
    cases conversion with
    | strtol =>
      dsimp only at fits
      split at fits <;> omega
    | strtoul => exact fits
  rw [parseText_eq ascii readsIn, numeral_sign (conversion.base a2) a2]
  by_cases plus : (numeral text a2).sign = some 0x2b
  · have positive : (numeral text a2).word = (numeral text a2).magnitude := by
      rw [Numeral.word, plus, if_neg (by decide), Nat.mod_eq_of_lt small]
    rw [if_pos plus, if_pos plus, positive]
    exact eq_comm
  rw [if_neg plus, if_neg plus]
  cases conversion with
  | strtol =>
    have tens : (if (numeral text a2).sign = some 0x2d ∧ (Conversion.strtol == Conversion.strtol) = true then
        wrappingNeg ((numeral text 10).magnitude % 2 ^ 32) else (numeral text 10).magnitude % 2 ^ 32) =
          (numeral text 10).word :=
      if_congr (and_iff_left rfl) rfl rfl
    exact Eq.congr_left tens
  | strtoul =>
    rw [if_neg fun h => Conversion.noConfusion (eq_of_beq h.2), Numeral.word]
    show (numeral text a2).magnitude % 2 ^ 32 = _ ↔ (_ → _)
    rw [Nat.mod_eq_of_lt small]
    by_cases minus : (numeral text a2).sign = some 0x2d
    · rw [if_pos minus, wrappingNeg, forall_prop_of_true minus]
      omega
    · rw [if_neg minus]
      exact ⟨fun _ h => absurd h minus, fun _ => rfl⟩

/-- `strtol` and `strtoul` are those of the C library if and only if the number has no plus sign or is zero,
`strtol` would read the same number in base ten, `strtoul` has a minus sign only before 0 or 2³¹, and the
word at an end pointer is the end already. -/
theorem converts_iff (held : CString guest a0 text) (short : text.length < maxString) (ascii : Ascii text)
    (valid : ValidBase a2) (conversion : Conversion) (fits : (numeral text a2).Representable conversion) :
    Converts guest a0 a1 a2 conversion text ↔ ConvertsWhen guest a0 a1 a2 conversion text := by
  unfold Converts ConvertsWhen
  rw [convert_eq held short ascii, ← parseText_eq_word_iff ascii valid conversion fits]
  constructor
  · rintro ⟨guest', same, stored⟩
    obtain ⟨value, rfl⟩ := Prod.mk.inj (Except.ok.inj same)
    exact ⟨value, stored⟩
  · rintro ⟨value, stored⟩
    exact ⟨guest, by rw [value], stored⟩

end Services

/-- The strings `+7` at 256 and ` -0x80000000;` at 512, and at 1024 the address of the semicolon. -/
def numbersMemory : GuestMemory :=
  ramWith [(256, [0x2b, 0x37]), (512, ascii " -0x80000000;"), (1024, [0x0c, 0x02])]

/-- `strtoul` reads ` -0x80000000;` in base sixteen; an end pointer at 1024 holds its end already, and one
at 1028 does not. -/
theorem converts_iff_sample : Converts numbersMemory 512 1024 16 .strtoul (ascii " -0x80000000;") ∧
    ¬ Converts numbersMemory 512 1028 16 .strtoul (ascii " -0x80000000;") := by
  have held : CString numbersMemory 512 (ascii " -0x80000000;") :=
    ⟨by decide, by decide, by decide, by decide, by decide⟩
  have fits : (numeral (ascii " -0x80000000;") 16).Representable .strtoul := by decide +kernel
  have minus : (numeral (ascii " -0x80000000;") 16).sign = some 0x2d := by decide +kernel
  have reads {a1 : ℕ} : Converts numbersMemory 512 a1 16 .strtoul (ascii " -0x80000000;") ↔ _ :=
    converts_iff held (by decide) (by decide) (.inr (by decide)) .strtoul fits
  refine ⟨reads.mpr ⟨?_, fun _ => by decide +kernel⟩, fun converts => ?_⟩
  · rw [minus, if_neg (by decide)]
    exact fun _ => .inr (by decide +kernel)
  · have stored := (reads.mp converts).2 (by decide)
    exact absurd stored (by decide +kernel)

/-- Neither service reads `+7`. -/
theorem converts_not_plus : CString numbersMemory 256 [0x2b, 0x37] ∧ Ascii [0x2b, 0x37] ∧
    ∀ conversion, (numeral [0x2b, 0x37] 10).Representable conversion ∧
      ¬ Converts numbersMemory 256 0 10 conversion [0x2b, 0x37] := by
  refine ⟨⟨by decide, by decide, by decide, by decide, by decide⟩, by decide, fun conversion => ⟨?_, ?_⟩⟩
  · cases conversion <;> decide +kernel
  · rintro ⟨guest', converted, -⟩
    have returned : (convert numbersMemory 256 0 10 conversion).map Prod.fst = .ok 0 := by
      cases conversion <;> decide +kernel
    have seven : (numeral [0x2b, 0x37] 10).word = 7 := by decide +kernel
    rw [converted, seven] at returned
    cases returned

end Upse.Services
