import Mathlib.Data.List.DropRight
import Upse.Support.Integers

/-!
# Durations

An exact nonnegative duration as reduced rational seconds, parsed from `seconds`, `minutes:seconds` or
`hours:minutes:seconds`.  A text is the sequence of its characters.
-/

namespace Upse.Psf

/-- A text of a tag. -/
abbrev Text := List Char

/-- An exact nonnegative duration represented as reduced rational seconds. -/
structure Duration where
  numerator : ℕ
  denominator : ℕ
  deriving DecidableEq, Repr

/-- Duration parse or conversion failure. -/
inductive DurationError where
  | invalidSyntax
  | outOfRange
  | overflow
  | zeroDenominator
  deriving DecidableEq, Repr

/-- The characters with the `White_Space` property. -/
def isWhitespace (c : Char) : Bool :=
  let n := c.toNat
  (0x9 ≤ n && n ≤ 0xd) || n == 0x20 || n == 0x85 || n == 0xa0 || n == 0x1680 ||
    (0x2000 ≤ n && n ≤ 0x200a) || n == 0x2028 || n == 0x2029 || n == 0x202f || n == 0x205f ||
    n == 0x3000

/-- `str::trim`. -/
def trim (text : Text) : Text := (text.dropWhile isWhitespace).rdropWhile isWhitespace

/-- `split_once`: what is before and after the first separator. -/
def splitOnce (separator : Char) : Text → Option (Text × Text)
  | [] => none
  | c :: rest =>
    if c = separator then some ([], rest)
    else (splitOnce separator rest).map fun parts => (c :: parts.1, parts.2)

/-- The number a row of digits is in base ten. -/
def decimal (text : Text) : ℕ := text.foldl (fun value c => 10 * value + (c.toNat - 48)) 0

/-- A number of digits. -/
def integer (text : Text) : Except DurationError ℕ :=
  if text.isEmpty || !text.all Char.isDigit then .error .invalidSyntax
  else if decimal text < 2 ^ 64 then .ok (decimal text)
  else .error .overflow

/-- The loop of `gcd`; the right number falls every round, so that many rounds are enough. -/
def gcdLoop : ℕ → ℕ → ℕ → ℕ
  | 0, left, _ => left
  | rounds + 1, left, right => if right = 0 then left else gcdLoop rounds right (left % right)

/-- The greatest common divisor, at least one. -/
def gcd (left right : ℕ) : ℕ :=
  let left := gcdLoop right left right
  if left = 0 then 1 else left

namespace Duration

/-- Zero seconds. -/
def zero : Duration := ⟨0, 1⟩

/-- The derived default: every field is zero. -/
def default : Duration := ⟨0, 0⟩

/-- A fraction divided by what its parts have in common. -/
def reduced (numerator denominator : ℕ) : Duration :=
  let divisor := gcd numerator denominator
  ⟨numerator / divisor, denominator / divisor⟩

/-- The hours and minutes of the components, and the text of the seconds. -/
def clock : List Text → Except DurationError (ℕ × ℕ × Text)
  | [seconds] => .ok (0, 0, seconds)
  | [minutes, seconds] => do return (0, ← integer minutes, seconds)
  | [hours, minutes, seconds] => do return (← integer hours, ← integer minutes, seconds)
  | _ => .error .invalidSyntax

/-- The digits after the point and the power of ten they count in.  The length is that of digits
only: a text with other characters is refused as well. -/
def fractionPart : Option Text → Except DurationError (ℕ × ℕ)
  | none => .ok (0, 1)
  | some text =>
    if text.isEmpty then .error .invalidSyntax
    else if 18 < text.length || !text.all Char.isDigit then .error .invalidSyntax
    else if 10 ^ text.length < 2 ^ 64 then do return (← integer text, 10 ^ text.length)
    else .error .overflow

/-- The seconds before the point. -/
def wholeSeconds (hours minutes seconds : ℕ) : Option ℕ := do
  let hourSeconds ← checkedMul 64 hours 3600
  let minuteSeconds ← checkedMul 64 minutes 60
  let value ← checkedAdd 64 hourSeconds minuteSeconds
  checkedAdd 64 value seconds

/-- Parses `seconds`, `minutes:seconds`, or `hours:minutes:seconds`. -/
def parse (input : Text) : Except DurationError Duration := do
  let input := trim input
  if input.isEmpty || input.head? == some '-' || input.head? == some '+' then throw .invalidSyntax
  let components := input.splitOn ':'
  let (hours, minutes, secondsText) ← clock components
  if components.length = 3 ∧ 60 ≤ minutes then throw .outOfRange
  let normalized := secondsText.map fun c => if c = ',' then '.' else c
  if 1 < normalized.count '.' then throw .invalidSyntax
  let (wholeText, fractionText) := match splitOnce '.' normalized with
    | some (whole, fraction) => (whole, some fraction)
    | none => (normalized, none)
  let seconds ← integer wholeText
  if 1 < components.length ∧ 60 ≤ seconds then throw .outOfRange
  let (fraction, scale) ← fractionPart fractionText
  match wholeSeconds hours minutes seconds with
  | none => throw .overflow
  | some whole =>
    match (checkedMul 64 whole scale).bind (checkedAdd 64 · fraction) with
    | none => throw .overflow
    | some numerator => return reduced numerator scale

/-- Constructs a duration from an exact fraction of a second. -/
def fromRatio (numerator denominator : ℕ) : Except DurationError Duration :=
  if denominator = 0 then .error .zeroDenominator else .ok (reduced numerator denominator)

/-- Maps the duration to native frames; `none` is the panic of a division by zero. -/
def toFramesFloor (duration : Duration) (sampleRate : ℕ) : Option (Except DurationError ℕ) :=
  match checkedMul 128 duration.numerator sampleRate with
  | none => some (.error .overflow)
  | some product =>
    if duration.denominator = 0 then none
    else if product / duration.denominator < 2 ^ 64 then some (.ok (product / duration.denominator))
    else some (.error .overflow)

/-! ### Reduced fractions -/

theorem gcdLoop_eq {rounds left right : ℕ} (enough : right ≤ rounds) :
    gcdLoop rounds left right = Nat.gcd left right := by
  induction rounds generalizing left right with
  | zero =>
    obtain rfl := Nat.le_zero.mp enough
    exact (Nat.gcd_zero_right left).symm
  | succ rounds ih =>
    unfold gcdLoop
    split
    next done => rw [done, Nat.gcd_zero_right]
    next more =>
      have smaller := Nat.mod_lt left (Nat.pos_of_ne_zero more)
      rw [ih (by omega), Nat.gcd_comm right, ← Nat.gcd_rec, Nat.gcd_comm]

theorem gcd_eq {left right : ℕ} (nonzero : right ≠ 0) : gcd left right = Nat.gcd left right := by
  have pos : Nat.gcd left right ≠ 0 := (Nat.gcd_pos_of_pos_right left (Nat.pos_of_ne_zero nonzero)).ne'
  show (if gcdLoop right left right = 0 then 1 else gcdLoop right left right) = _
  rw [gcdLoop_eq (Nat.le_refl right), if_neg pos]

/-- A fraction in lowest terms. -/
structure Lowest (d : Duration) : Prop where
  denominator_ne : d.denominator ≠ 0
  coprime : Nat.Coprime d.numerator d.denominator

theorem lowest_zero : zero.Lowest := ⟨by decide, by decide⟩

theorem lowest_reduced {numerator denominator : ℕ} (nonzero : denominator ≠ 0) :
    (reduced numerator denominator).Lowest := by
  have pos : 0 < Nat.gcd numerator denominator :=
    Nat.gcd_pos_of_pos_right _ (Nat.pos_of_ne_zero nonzero)
  unfold reduced
  simp only [gcd_eq nonzero]
  constructor
  · exact (Nat.div_pos (Nat.gcd_le_right _ (Nat.pos_of_ne_zero nonzero)) pos).ne'
  · exact Nat.coprime_div_gcd_div_gcd pos

theorem reduced_value {numerator denominator : ℕ} (nonzero : denominator ≠ 0) :
    (reduced numerator denominator).numerator * denominator =
      numerator * (reduced numerator denominator).denominator := by
  unfold reduced
  simp only [gcd_eq nonzero]
  rw [Nat.div_mul_right_comm (Nat.gcd_dvd_left _ _), Nat.mul_div_assoc _ (Nat.gcd_dvd_right _ _)]

theorem Lowest.eq_of_value {d d' : Duration} (h : d.Lowest) (h' : d'.Lowest)
    (same : d.numerator * d'.denominator = d'.numerator * d.denominator) : d = d' := by
  have left : d.denominator ∣ d'.denominator :=
    h.coprime.symm.dvd_of_dvd_mul_left ⟨d'.numerator, by rw [same, Nat.mul_comm]⟩
  have right : d'.denominator ∣ d.denominator :=
    h'.coprime.symm.dvd_of_dvd_mul_left ⟨d.numerator, by rw [← same, Nat.mul_comm]⟩
  have denominators : d.denominator = d'.denominator := Nat.dvd_antisymm left right
  rw [denominators] at same
  have numerators := Nat.eq_of_mul_eq_mul_right (Nat.pos_of_ne_zero h'.denominator_ne) same
  cases d
  cases d'
  simp only at numerators denominators
  rw [numerators, denominators]

end Duration

end Upse.Psf
