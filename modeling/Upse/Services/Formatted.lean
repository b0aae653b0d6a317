import Upse.Services.FormatReference

/-!
# The services that format

What the parser makes of a directive, how a number and a text are laid out, and the loop over a format.
-/

namespace Upse.Services

open Psf

/-! ### Numbers -/

/-- Bytes that are no sign and no letter of a prefix. -/
def Plain (byte : Byte) : Prop := byte ∉ ([0x78, 0x58, 0x2d, 0x2b, 0x20] : Bytes)

instance (byte : Byte) : Decidable (Plain byte) := inferInstanceAs (Decidable (_ ∉ _))

theorem plain_digitByte : ∀ uppercase, ∀ digit < 16, Plain (digitByte uppercase digit) := by decide

theorem plain_digitsOf {radix value : ℕ} {uppercase : Bool} (low : 1 < radix) (high : radix ≤ 16) :
    ∀ byte ∈ digitsOf radix uppercase value, Plain byte := by
  intro byte member
  obtain ⟨digit, inside, rfl⟩ := List.mem_map.mp member
  have bound := Nat.digits_lt_base low (List.mem_reverse.mp inside)
  exact plain_digitByte uppercase digit (by omega)

theorem plain_digitsTo {precision radix value : ℕ} {uppercase : Bool} (low : 1 < radix) (high : radix ≤ 16) :
    ∀ byte ∈ digitsTo precision radix uppercase value, Plain byte := by
  intro byte member
  obtain zero | digit := List.mem_append.mp member
  · rw [List.eq_of_mem_replicate zero]
    decide
  · exact plain_digitsOf low high byte digit

theorem digitsOf_zero (radix : ℕ) (uppercase : Bool) : digitsOf radix uppercase 0 = [] := by
  rw [digitsOf, Nat.digits_zero]
  rfl

theorem digitsOf_positive (radix : ℕ) {value : ℕ} (uppercase : Bool) (nonzero : value ≠ 0) :
    0 < (digitsOf radix uppercase value).length := by
  rw [digitsOf, List.length_map, List.length_reverse]
  exact List.length_pos_iff.mpr (Nat.digits_ne_nil_iff_ne_zero.mpr nonzero)

/-- The digits of `format_integer`, before their prefix. -/
def integerDigits (value radix : ℕ) (uppercase : Bool) (precision : Option ℕ) : Bytes :=
  let digits := if value = 0 then [0x30] else digitsOf radix uppercase value
  let digits := if precision = some 0 ∧ value = 0 then [] else digits
  match precision with
  | some precision => List.replicate (precision - digits.length) 0x30 ++ digits
  | none => digits

theorem integerDigits_eq (value radix : ℕ) (uppercase : Bool) (precision : Option ℕ) :
    integerDigits value radix uppercase precision = digitsTo (precision.getD 1) radix uppercase value := by
  unfold integerDigits digitsTo
  by_cases zero : value = 0
  · subst zero
    rw [digitsOf_zero]
    match precision with
    | none => rfl
    | some 0 => rfl
    | some (n + 1) =>
      show (List.replicate (n + 1 - (if some (n + 1) = some 0 ∧ 0 = 0 then [] else [(0x30 : Byte)]).length) 0x30 ++
        if some (n + 1) = some 0 ∧ 0 = 0 then [] else [0x30]) = _
      rw [if_neg (by rintro ⟨⟨⟩, -⟩)]
      show List.replicate n 0x30 ++ [0x30] = List.replicate (n + 1) 0x30 ++ []
      rw [List.append_nil, List.replicate_succ']
  · have positive := digitsOf_positive radix uppercase zero
    rw [if_neg zero]
    dsimp only
    rw [if_neg fun h => zero h.2]
    match precision with
    | none =>
      show _ = List.replicate (1 - _) _ ++ _
      rw [Nat.sub_eq_zero_of_le positive]
      rfl
    | some n => rfl

theorem formatInteger_eq (value radix : ℕ) (uppercase : Bool) (sign : Option Byte) (marker : Str) (spec : FormatSpec) :
    formatInteger value radix uppercase sign marker spec =
      applyFormatWidth (sign.toList ++ marker ++ integerDigits value radix uppercase spec.precision) spec true := rfl

/-! ### Widths -/

/-- The specification that the parser makes of a directive. -/
def Directive.spec (d : Directive) : FormatSpec where
  left := .left ∈ d.flags
  plus := .plus ∈ d.flags
  space := .space ∈ d.flags
  alternate := .alternate ∈ d.flags
  zero := .zero ∈ d.flags
  width := if d.width = [] then none else some (min d.minimum maxFormatted)
  precision := d.limit.map (min · maxFormatted)

section Width

variable (d : Directive)

theorem width_spec (small : d.minimum ≤ maxFormatted) : min (d.spec.width.getD 0) maxFormatted = d.minimum := by
  unfold Directive.spec
  dsimp only
  split
  next empty =>
    have zero : d.minimum = 0 := by
      rw [Directive.minimum, empty]
      rfl
    rw [zero]
    exact Nat.zero_min _
  next => rw [Option.getD_some, min_eq_left small, min_eq_left small]

theorem applyFormatWidth_text (small : d.minimum ≤ maxFormatted) (text : Bytes) :
    applyFormatWidth text d.spec false = d.padded text := by
  unfold applyFormatWidth Directive.padded
  rw [width_spec d small]
  dsimp only
  by_cases none : d.minimum - text.length = 0
  · rw [if_pos none, none]
    split
    next => exact (List.append_nil text).symm
    next => rfl
  · rw [if_neg none, Bool.false_and, Bool.false_and, if_neg Bool.false_ne_true]
    exact if_congr decide_eq_true_iff rfl rfl

/-- How much of a number is in front of its digits. -/
theorem prefix_length {sign : Option Byte} {marker digits : Bytes}
    (isSign : ∀ c ∈ sign, c ∈ ([0x2d, 0x2b, 0x20] : Bytes))
    (isMarker : marker = [] ∨ marker = [0x30, 0x78] ∨ marker = [0x30, 0x58]) (plain : ∀ byte ∈ digits, Plain byte) :
    let text := sign.toList ++ marker ++ digits
    let signLength := if text.head?.any (· ∈ ([0x2d, 0x2b, 0x20] : Bytes)) then 1 else 0
    signLength = sign.toList.length ∧
      (if (hexPrefix (text.drop signLength)).isSome then 2 else 0) = marker.length := by
  have bare : (hexPrefix digits) = none := by
    rcases digits with _ | ⟨zero, _ | ⟨x, rest⟩⟩
    · rfl
    · rfl
    · have letter := plain x (by simp)
      rw [hexPrefix, if_neg]
      rintro ⟨-, rfl | rfl⟩
      · exact absurd letter (by decide)
      · exact absurd letter (by decide)
  have markers : (if (hexPrefix (marker ++ digits)).isSome then 2 else 0) = marker.length := by
    obtain rfl | rfl | rfl := isMarker
    · rw [List.nil_append, bare]
      rfl
    · rfl
    · rfl
  have unsigned : (marker ++ digits).head?.any (· ∈ ([0x2d, 0x2b, 0x20] : Bytes)) = false := by
    obtain rfl | rfl | rfl := isMarker
    · cases digits with
      | nil => rfl
      | cons first rest =>
        have digit := plain first List.mem_cons_self
        exact decide_eq_false fun h => digit (List.mem_cons_of_mem _ (List.mem_cons_of_mem _ h))
    · rfl
    · rfl
  dsimp only
  cases sign with
  | none =>
    rw [Option.toList_none, List.nil_append, unsigned, if_neg Bool.false_ne_true, List.drop_zero]
    exact ⟨rfl, markers⟩
  | some c =>
    have here : ((some c).toList ++ marker ++ digits).head?.any (· ∈ ([0x2d, 0x2b, 0x20] : Bytes)) = true :=
      decide_eq_true (isSign c rfl)
    rw [here, if_pos rfl]
    exact ⟨rfl, markers⟩

theorem applyFormatWidth_number (small : d.minimum ≤ maxFormatted) {sign : Option Byte} {marker digits : Bytes}
    (isSign : ∀ c ∈ sign, c ∈ ([0x2d, 0x2b, 0x20] : Bytes))
    (isMarker : marker = [] ∨ marker = [0x30, 0x78] ∨ marker = [0x30, 0x58]) (plain : ∀ byte ∈ digits, Plain byte) :
    applyFormatWidth (sign.toList ++ marker ++ digits) d.spec true = d.number ⟨sign.toList, marker, digits⟩ := by
  obtain ⟨signs, markers⟩ := prefix_length isSign isMarker plain
  have front : (sign.toList ++ marker).length = sign.toList.length + marker.length := List.length_append
  unfold applyFormatWidth Directive.number Directive.padded
  dsimp only
  rw [width_spec d small, markers, signs, ← front, List.take_left, List.drop_left]
  have left : d.spec.left = true ↔ .left ∈ d.flags := decide_eq_true_iff
  have zeros : (true && d.spec.zero && d.spec.precision.isNone) = true ↔ .zero ∈ d.flags ∧ d.limit = none := by
    rw [Bool.true_and, Bool.and_eq_true]
    refine and_congr decide_eq_true_iff ?_
    show (d.limit.map _).isNone = true ↔ _
    rw [Option.isNone_map, Option.isNone_iff_eq_none]
  by_cases none : d.minimum - (sign.toList ++ marker ++ digits).length = 0
  · rw [if_pos none, none]
    split
    next => exact (congrArg (· ++ digits) (List.append_nil (sign.toList ++ marker))).symm
    next =>
      split
      next => exact (List.append_nil _).symm
      next => rfl
  rw [if_neg none]
  by_cases aligned : .left ∈ d.flags
  · rw [if_pos (left.mpr aligned), if_neg fun h => h.2.1 aligned, if_pos aligned]
  rw [if_neg fun h => aligned (left.mp h), if_neg aligned]
  refine if_congr (zeros.trans ⟨fun h => ⟨h.1, aligned, h.2⟩, fun h => ⟨h.1, h.2.2⟩⟩) rfl rfl

end Width

/-! ### Directives -/

section Directives

variable {d : Directive}

theorem minimum_le_padded (text : Bytes) : d.minimum ≤ (d.padded text).length := by
  unfold Directive.padded
  split
  · rw [List.length_append, List.length_replicate]
    omega
  · rw [List.length_append, List.length_replicate]
    omega

theorem minimum_le_number (parts : NumberParts) : d.minimum ≤ (d.number parts).length := by
  unfold Directive.number
  dsimp only
  split
  · simp only [List.length_append, List.length_replicate]
    omega
  · exact minimum_le_padded _

theorem digits_le_number (parts : NumberParts) : parts.digits.length ≤ (d.number parts).length := by
  unfold Directive.number Directive.padded
  dsimp only
  split
  · simp only [List.length_append, List.length_replicate]
    omega
  · split
    · simp only [List.length_append, List.length_replicate]
      omega
    · simp only [List.length_append, List.length_replicate]
      omega

theorem precision_le_digitsTo (precision radix value : ℕ) (uppercase : Bool) :
    precision ≤ (digitsTo precision radix uppercase value).length := by
  rw [digitsTo, List.length_append, List.length_replicate]
  omega

theorem precision_spec (reached : d.limit.getD 1 ≤ maxFormatted) : d.spec.precision.getD 1 = d.limit.getD 1 := by
  unfold Directive.spec
  dsimp only
  cases limit : d.limit with
  | none => rfl
  | some l =>
    rw [limit] at reached
    exact min_eq_left reached

theorem formatInteger_number {value radix : ℕ} {uppercase : Bool} {sign : Option Byte} {marker : Bytes} (low : 1 < radix)
    (high : radix ≤ 16) (isSign : ∀ c ∈ sign, c ∈ ([0x2d, 0x2b, 0x20] : Bytes))
    (isMarker : marker = [] ∨ marker = [0x30, 0x78] ∨ marker = [0x30, 0x58])
    (fits : (d.number ⟨sign.toList, marker, digitsTo (d.limit.getD 1) radix uppercase value⟩).length ≤ maxFormatted) :
    formatInteger value radix uppercase sign marker d.spec =
      d.number ⟨sign.toList, marker, digitsTo (d.limit.getD 1) radix uppercase value⟩ := by
  have reached : d.limit.getD 1 ≤ maxFormatted :=
    (precision_le_digitsTo _ radix value uppercase).trans ((digits_le_number _).trans fits)
  rw [formatInteger_eq, integerDigits_eq, precision_spec reached]
  exact applyFormatWidth_number d ((minimum_le_number _).trans fits) isSign isMarker (plain_digitsTo low high)

theorem digitsTo_raised {value : ℕ} (nonzero : value ≠ 0) (octal : d.specifier = .o) (alternate : .alternate ∈ d.flags)
    (short : ∀ limit, d.limit = some limit → limit ≤ (digitsOf 8 false value).length) :
    digitsTo (d.raised value) 8 false value = 0x30 :: digitsTo (d.limit.getD 1) 8 false value := by
  have positive := digitsOf_positive 8 false nonzero
  have within : d.limit.getD 1 ≤ (digitsOf 8 false value).length := by
    cases limit : d.limit with
    | none => exact positive
    | some l => exact short l limit
  unfold digitsTo Directive.raised
  rw [if_pos ⟨octal, alternate⟩, max_eq_right (by omega), Nat.sub_eq_zero_of_le within, Nat.add_sub_cancel_left]
  rfl

theorem raised_eq {value : ℕ} (plain : .alternate ∉ d.flags ∨ value = 0 ∧ d.limit ≠ some 0) :
    d.raised value = d.limit.getD 1 := by
  unfold Directive.raised
  split
  next octal =>
    obtain other | ⟨rfl, limit⟩ := plain
    · exact absurd octal.2 other
    · rw [digitsOf_zero]
      refine max_eq_left ?_
      cases here : d.limit with
      | none => exact Nat.le_refl 1
      | some l =>
        rw [here] at limit
        exact Nat.one_le_iff_ne_zero.mpr fun zero => limit (congrArg some zero)
  next => rfl

theorem formatInteger_octal {value : ℕ} (octal : d.specifier = .o)
    (formats : .alternate ∈ d.flags → ∀ limit, d.limit = some limit →
      if value = 0 then limit ≠ 0 else limit ≤ (digitsOf 8 false value).length)
    (fits : (d.number ⟨[], [], digitsTo (d.raised value) 8 false value⟩).length ≤ maxFormatted) :
    formatInteger value 8 false none (if d.spec.alternate ∧ value ≠ 0 then [0x30] else []) d.spec =
      d.number ⟨[], [], digitsTo (d.raised value) 8 false value⟩ := by
  have flag : d.spec.alternate = true ↔ .alternate ∈ d.flags := decide_eq_true_iff
  by_cases raises : .alternate ∈ d.flags ∧ value ≠ 0
  · have digits := digitsTo_raised raises.2 octal raises.1 fun limit here => by
      have short := formats raises.1 limit here
      rwa [if_neg raises.2] at short
    rw [digits] at fits ⊢
    have longer : d.limit.getD 1 ≤ maxFormatted := by
      have reached := precision_le_digitsTo (d.limit.getD 1) 8 value false
      have written := (digits_le_number (d := d) ⟨[], [], 0x30 :: digitsTo (d.limit.getD 1) 8 false value⟩).trans fits
      rw [List.length_cons] at written
      omega
    rw [if_pos ⟨flag.mpr raises.1, raises.2⟩, formatInteger_eq, integerDigits_eq, precision_spec longer]
    have plain : ∀ byte ∈ 0x30 :: digitsTo (d.limit.getD 1) 8 false value, Plain byte :=
      List.forall_mem_cons.mpr ⟨by decide, plain_digitsTo (by decide) (by decide)⟩
    have noSign : ∀ c ∈ (none : Option Byte), c ∈ ([0x2d, 0x2b, 0x20] : Bytes) := nofun
    exact applyFormatWidth_number d ((minimum_le_number _).trans fits) noSign (.inl rfl) plain
  · have same : d.raised value = d.limit.getD 1 := by
      refine raised_eq ?_
      by_cases zero : value = 0
      · by_cases alternate : .alternate ∈ d.flags
        · refine .inr ⟨zero, fun limit => ?_⟩
          have nonzero := formats alternate 0 limit
          rw [if_pos zero] at nonzero
          exact nonzero rfl
        · exact .inl alternate
      · exact .inl fun alternate => raises ⟨alternate, zero⟩
    rw [same] at fits ⊢
    rw [if_neg fun h => raises ⟨flag.mp h.1, h.2⟩]
    exact formatInteger_number (by decide) (by decide) nofun (.inl rfl) fits

theorem formatInteger_hex {value : ℕ} {uppercase : Bool} {marker : Bytes}
    (isMarker : marker = [0x30, 0x78] ∨ marker = [0x30, 0x58])
    (fits : (d.number ⟨[], if .alternate ∈ d.flags ∧ value ≠ 0 then marker else [],
      digitsTo (d.limit.getD 1) 16 uppercase value⟩).length ≤ maxFormatted) :
    formatInteger value 16 uppercase none (if d.spec.alternate ∧ value ≠ 0 then marker else []) d.spec =
      d.number ⟨[], if .alternate ∈ d.flags ∧ value ≠ 0 then marker else [],
        digitsTo (d.limit.getD 1) 16 uppercase value⟩ := by
  have same : (if d.spec.alternate ∧ value ≠ 0 then marker else []) =
      if .alternate ∈ d.flags ∧ value ≠ 0 then marker else [] :=
    if_congr (and_congr_left' decide_eq_true_iff) rfl rfl
  rw [same]
  have noSign : ∀ c ∈ (none : Option Byte), c ∈ ([0x2d, 0x2b, 0x20] : Bytes) := nofun
  refine formatInteger_number (by decide) (by decide) noSign ?_ fits
  split
  · exact .inr isMarker
  · exact .inl rfl

theorem formatInteger_signed {word : ℕ}
    (fits : (d.number ⟨if signed word < 0 then [0x2d] else if .plus ∈ d.flags then [0x2b]
      else if .space ∈ d.flags then [0x20] else [], [],
        digitsTo (d.limit.getD 1) 10 false (signed word).natAbs⟩).length ≤ maxFormatted) :
    formatInteger (signed word).natAbs 10 false
        (if signed word < 0 then some 0x2d else if d.spec.plus then some 0x2b
          else if d.spec.space then some 0x20 else none) [] d.spec =
      d.number ⟨if signed word < 0 then [0x2d] else if .plus ∈ d.flags then [0x2b]
        else if .space ∈ d.flags then [0x20] else [], [], digitsTo (d.limit.getD 1) 10 false (signed word).natAbs⟩ := by
  have plus : d.spec.plus = true ↔ .plus ∈ d.flags := decide_eq_true_iff
  have space : d.spec.space = true ↔ .space ∈ d.flags := decide_eq_true_iff
  have signs : (if signed word < 0 then [0x2d] else if .plus ∈ d.flags then [0x2b]
      else if .space ∈ d.flags then [0x20] else []) =
      (if signed word < 0 then some 0x2d else if d.spec.plus then some (0x2b : Byte)
        else if d.spec.space then some 0x20 else none).toList := by
    simp only [plus, space]
    split
    · rfl
    · split
      · rfl
      · split <;> rfl
  rw [signs] at fits ⊢
  refine formatInteger_number (by decide) (by decide) (fun c here => ?_) (.inl rfl) fits
  split at here
  · cases here
    decide
  · split at here
    · cases here
      decide
    · split at here
      · cases here
        decide
      · cases here

end Directives

/-! ### Strings -/

theorem decodeChar_ascii {first : Byte} (ascii : first < 0x80) (rest : Bytes) : decodeChar first rest = (true, 1) :=
  if_pos ascii

theorem decodeChar_pos (first : Byte) (rest : Bytes) : 0 < (decodeChar first rest).2 := by
  unfold decodeChar
  split
  · exact Nat.one_pos
  · split
    · exact Nat.one_pos
    · exact Nat.succ_pos _

theorem fromUtf8Lossy_append {front : Bytes} (ascii : Ascii front) (rest : Bytes) :
    fromUtf8Lossy (front ++ rest) = front ++ fromUtf8Lossy rest := by
  induction front with
  | nil => rfl
  | cons first front ih =>
    have narrow : first < 0x80 := ascii first List.mem_cons_self
    have later := ih fun byte member => ascii byte (List.mem_cons_of_mem _ member)
    unfold fromUtf8Lossy at later ⊢
    rw [List.cons_append, List.length_cons, decodeLossy, decodeChar_ascii narrow]
    dsimp only
    rw [if_pos rfl, List.drop_one, List.tail_cons, later]
    rfl

theorem fromUtf8Lossy_ne_nil {text : Bytes} (nonempty : text ≠ []) : fromUtf8Lossy text ≠ [] := by
  cases text with
  | nil => exact absurd rfl nonempty
  | cons first rest =>
    obtain ⟨length, positive⟩ := Nat.exists_eq_succ_of_ne_zero (decodeChar_pos first rest).ne'
    unfold fromUtf8Lossy
    rw [List.length_cons, decodeLossy]
    dsimp only
    split
    · rw [positive]
      exact List.cons_ne_nil _ _
    · exact List.cons_ne_nil _ _

theorem charStart_none {n : ℕ} {text : Str} (short : text.length ≤ n) : charStart n text = none := by
  induction n generalizing text with
  | zero =>
    rw [List.eq_nil_of_length_eq_zero (Nat.le_zero.mp short)]
    rfl
  | succ n ih =>
    cases text with
    | nil => rfl
    | cons first rest =>
      have positive := decodeChar_pos first rest
      rw [charStart, ih (by rw [List.length_drop]; omega), Option.map_none]

theorem charStart_ascii {front rest : Str} (ascii : Ascii front) (more : rest ≠ []) :
    charStart front.length (front ++ rest) = some front.length := by
  induction front with
  | nil =>
    cases rest with
    | nil => exact absurd rfl more
    | cons first rest => rfl
  | cons first front ih =>
    have narrow : first < 0x80 := ascii first List.mem_cons_self
    rw [List.length_cons, List.cons_append, charStart, decodeChar_ascii narrow, List.drop_one, List.tail_cons,
      ih fun byte member => ascii byte (List.mem_cons_of_mem _ member)]
    exact congrArg some (Nat.add_comm _ _)

theorem cut_eq {d : Directive} {string : Bytes} (short : string.length < maxString)
    (formats : match d.limit with
      | some limit => if string.length ≤ limit then validUtf8 string = true else Ascii (string.take limit)
      | none => validUtf8 string = true) :
    (match d.spec.precision with
      | some precision => (fromUtf8Lossy string).take
          ((charStart precision (fromUtf8Lossy string)).getD (fromUtf8Lossy string).length)
      | none => fromUtf8Lossy string) =
      match d.limit with
      | some limit => string.take limit
      | none => string := by
  have bounds : maxString ≤ maxFormatted := by decide
  show (match d.limit.map (min · maxFormatted) with
      | some precision => (fromUtf8Lossy string).take
          ((charStart precision (fromUtf8Lossy string)).getD (fromUtf8Lossy string).length)
      | none => fromUtf8Lossy string) = _
  cases here : d.limit with
  | none =>
    rw [here] at formats
    exact fromUtf8Lossy_of_valid formats
  | some limit =>
    rw [here] at formats
    dsimp only at formats
    rw [Option.map_some]
    dsimp only
    by_cases whole : string.length ≤ limit
    · rw [if_pos whole] at formats
      rw [fromUtf8Lossy_of_valid formats, charStart_none (le_min whole (by omega)), Option.getD_none, List.take_length,
        List.take_of_length_le whole]
    · rw [if_neg whole] at formats
      have length : (string.take limit).length = limit := by
        rw [List.length_take]
        omega
      have more : string.drop limit ≠ [] := fun none => whole (List.drop_eq_nil_iff.mp none)
      have decoded := fromUtf8Lossy_append formats (string.drop limit)
      rw [List.take_append_drop] at decoded
      have start := charStart_ascii formats (fromUtf8Lossy_ne_nil more)
      rw [length] at start
      rw [min_eq_left (by omega : limit ≤ maxFormatted), decoded, start, Option.getD_some]
      exact List.take_left' length

/-! ### Values -/

section Values

variable {guest : GuestMemory} {d : Directive} {value : FormatValue}

/-- What a directive is given: a 32-bit word, and for a string its address. -/
structure Given (guest : GuestMemory) (d : Directive) (value : FormatValue) : Prop where
  word : value.word < 2 ^ 32
  string : d.specifier = .s → CString guest value.word value.string ∧ value.word ≠ 0

/-- A directive that is written as in C. -/
theorem formatValue_eq (given : Given guest d value) (formats : d.Formats value)
    (fits : (d.output value).length ≤ maxFormatted) :
    formatValue guest d.specifier.byte value.word d.spec = .ok (d.output value) := by
  unfold Directive.Formats at formats
  unfold Directive.output Directive.parts at *
  cases specifier : d.specifier with
  | d =>
    rw [specifier] at fits
    rw [formatValue, if_pos (by decide)]
    exact congrArg Except.ok (formatInteger_signed fits)
  | i =>
    rw [specifier] at fits
    rw [formatValue, if_pos (by decide)]
    exact congrArg Except.ok (formatInteger_signed fits)
  | u =>
    rw [specifier] at fits
    rw [formatValue, if_neg (by decide), if_pos (by decide)]
    exact congrArg Except.ok (formatInteger_number (by decide) (by decide) nofun (.inl rfl) fits)
  | x =>
    rw [specifier] at fits
    rw [formatValue, if_neg (by decide), if_neg (by decide), if_pos (by decide)]
    exact congrArg Except.ok (formatInteger_hex (.inl rfl) fits)
  | X =>
    rw [specifier] at fits
    rw [formatValue, if_neg (by decide), if_neg (by decide), if_neg (by decide), if_neg (by decide),
      if_pos (by decide)]
    exact congrArg Except.ok (formatInteger_hex (.inr rfl) fits)
  | o =>
    rw [specifier] at fits formats
    rw [formatValue, if_neg (by decide), if_neg (by decide), if_neg (by decide), if_neg (by decide),
      if_neg (by decide), if_pos (by decide)]
    exact congrArg Except.ok (formatInteger_octal specifier formats fits)
  | c =>
    rw [specifier] at fits formats
    rw [formatValue, if_neg (by decide), if_neg (by decide), if_neg (by decide), if_neg (by decide),
      if_neg (by decide), if_neg (by decide), if_pos (by decide), charFrom, if_pos formats]
    exact congrArg Except.ok (applyFormatWidth_text d ((minimum_le_padded _).trans fits) _)
  | s =>
    rw [specifier] at fits formats
    obtain ⟨held, nonnull⟩ := given.string specifier
    obtain ⟨short, cut⟩ := formats
    have text := cut_eq short cut
    rw [formatValue, if_neg (by decide), if_neg (by decide), if_neg (by decide), if_neg (by decide),
      if_neg (by decide), if_neg (by decide), if_neg (by decide), if_pos (by decide), if_neg nonnull, held.read short]
    show Except.ok (applyFormatWidth (match d.spec.precision with
      | some precision => (fromUtf8Lossy value.string).take
          ((charStart precision (fromUtf8Lossy value.string)).getD (fromUtf8Lossy value.string).length)
      | none => fromUtf8Lossy value.string) d.spec false) = _
    rw [text]
    exact congrArg Except.ok (applyFormatWidth_text d ((minimum_le_padded _).trans fits) _)

/-! ### What is written otherwise -/

theorem filter_padded (text : Bytes) : (d.padded text).filter (· ≠ 0x20) = text.filter (· ≠ 0x20) := by
  unfold Directive.padded
  split <;> simp

theorem padded_injective {text other : Bytes} (bare : ∀ byte ∈ text, byte ≠ 0x20) (bare' : ∀ byte ∈ other, byte ≠ 0x20)
    (same : d.padded text = d.padded other) : text = other := by
  have filtered := congrArg (List.filter (· ≠ 0x20)) same
  rwa [filter_padded, filter_padded, List.filter_eq_self.mpr (by simpa using bare),
    List.filter_eq_self.mpr (by simpa using bare')] at filtered

theorem not_space_of_plain {byte : Byte} (plain : Plain byte) : byte ≠ 0x20 := by
  rintro rfl
  exact absurd plain (by decide)

theorem charFrom_high (byte : Byte) (high : ¬ byte < 0x80) :
    (charFrom byte).length = 2 ∧ (∀ b ∈ charFrom byte, b ≠ 0x20) ∧ byte ≠ 0x20 := by
  -- Both bytes of the character have their high bit set, and a space has not.
  have first : 0xc0 ||| byte >>> 6 ≠ 0x20 := fun same => by simpa using congrArg (BitVec.getLsbD · 7) same
  have second : 0x80 ||| (byte &&& 0x3f) ≠ 0x20 := fun same => by simpa using congrArg (BitVec.getLsbD · 7) same
  rw [charFrom, if_neg high]
  refine ⟨rfl, List.forall_mem_cons.mpr ⟨first, List.forall_mem_singleton.mpr second⟩, ?_⟩
  rintro rfl
  exact high (by decide)

/-- An octal number whose digits reach the precision without its prefix has a zero too many, and zero to no
digits has none. -/
theorem formatInteger_octal_ne {word limit : ℕ} (octal : d.specifier = .o) (alternate : .alternate ∈ d.flags)
    (here : d.limit = some limit)
    (beyond : ¬ if word = 0 then limit ≠ 0 else limit ≤ (digitsOf 8 false word).length)
    (fits : (d.number ⟨[], [], digitsTo (d.raised word) 8 false word⟩).length ≤ maxFormatted) :
    formatInteger word 8 false none (if d.spec.alternate ∧ word ≠ 0 then [0x30] else []) d.spec ≠
      d.number ⟨[], [], digitsTo (d.raised word) 8 false word⟩ := by
  have flag : d.spec.alternate = true := decide_eq_true alternate
  have noSign : ∀ c ∈ (none : Option Byte), c ∈ ([0x2d, 0x2b, 0x20] : Bytes) := nofun
  have padded (digits : Bytes) : d.number ⟨[], [], digits⟩ = d.padded digits := by
    unfold Directive.number
    dsimp only
    rw [if_neg (by rw [here]; rintro ⟨-, -, ⟨⟩⟩)]
    rfl
  have reached : limit ≤ d.raised word := by
    unfold Directive.raised
    rw [here]
    split
    · exact le_max_left _ _
    · exact Nat.le_refl _
  have small : d.limit.getD 1 ≤ maxFormatted := by
    have written := (precision_le_digitsTo (d.raised word) 8 word false).trans ((digits_le_number _).trans fits)
    rw [here]
    exact reached.trans written
  have digits (precision : ℕ) : ∀ byte ∈ digitsTo precision 8 false word, Plain byte :=
    plain_digitsTo (by decide) (by decide)
  have wide : d.minimum ≤ maxFormatted := (minimum_le_number _).trans fits
  rw [formatInteger_eq, integerDigits_eq, precision_spec small, padded]
  intro same
  by_cases zero : word = 0
  · rw [if_pos zero, not_not] at beyond
    have text : (none : Option Byte).toList ++ (if d.spec.alternate ∧ word ≠ 0 then [0x30] else []) ++
        digitsTo (d.limit.getD 1) 8 false word = (none : Option Byte).toList ++ [] ++ [] := by
      rw [if_neg fun h => h.2 zero, here, beyond, zero, digitsTo, digitsOf_zero]
      rfl
    rw [text, applyFormatWidth_number d wide noSign (.inl rfl) (List.forall_mem_nil _), Option.toList_none, padded] at same
    have equal := padded_injective (List.forall_mem_nil _)
      (fun byte member => not_space_of_plain (digits _ byte member)) same
    have raised := precision_le_digitsTo (d.raised word) 8 word false
    rw [← equal] at raised
    unfold Directive.raised at raised
    rw [if_pos ⟨octal, alternate⟩] at raised
    simp at raised
  · rw [if_neg zero, not_le] at beyond
    have raised : d.raised word = limit := by
      unfold Directive.raised
      rw [if_pos ⟨octal, alternate⟩, here]
      exact max_eq_left beyond
    have plain : ∀ byte ∈ 0x30 :: digitsTo limit 8 false word, Plain byte :=
      List.forall_mem_cons.mpr ⟨by decide, digits limit⟩
    have text : (none : Option Byte).toList ++ (if d.spec.alternate ∧ word ≠ 0 then [0x30] else []) ++
        digitsTo (d.limit.getD 1) 8 false word =
          (none : Option Byte).toList ++ [] ++ (0x30 :: digitsTo limit 8 false word) := by
      rw [if_pos ⟨flag, zero⟩, here]
      rfl
    rw [text, applyFormatWidth_number d wide noSign (.inl rfl) plain, Option.toList_none, padded, raised] at same
    have equal := padded_injective (fun byte member => not_space_of_plain (plain byte member))
      (fun byte member => not_space_of_plain (digits limit byte member)) same
    have lengths := congrArg List.length equal
    rw [List.length_cons] at lengths
    omega

/-- A directive that takes no string is written as in C if and only if it is one of those that are right. -/
theorem formatValue_iff (notString : d.specifier ≠ .s) (word : value.word < 2 ^ 32)
    (fits : (d.output value).length ≤ maxFormatted) :
    formatValue guest d.specifier.byte value.word d.spec = .ok (d.output value) ↔ d.Formats value := by
  refine ⟨fun same => ?_, fun formats => formatValue_eq ⟨word, fun string => absurd string notString⟩ formats fits⟩
  unfold Directive.Formats
  unfold Directive.output Directive.parts at *
  cases specifier : d.specifier with
  | o =>
    rw [specifier] at fits same
    intro alternate limit here
    by_contra beyond
    rw [formatValue, if_neg (by decide), if_neg (by decide), if_neg (by decide), if_neg (by decide),
      if_neg (by decide), if_pos (by decide)] at same
    exact formatInteger_octal_ne specifier alternate here beyond fits (Except.ok.inj same)
  | c =>
    rw [specifier] at fits same
    by_contra high
    obtain ⟨two, bare, nonspace⟩ := charFrom_high _ high
    rw [formatValue, if_neg (by decide), if_neg (by decide), if_neg (by decide), if_neg (by decide),
      if_neg (by decide), if_neg (by decide), if_pos (by decide),
      applyFormatWidth_text d ((minimum_le_padded _).trans fits)] at same
    have equal := padded_injective bare (List.forall_mem_singleton.mpr nonspace) (Except.ok.inj same)
    rw [equal] at two
    cases two
  | s => exact absurd specifier notString
  | d => trivial
  | i => trivial
  | u => trivial
  | x => trivial
  | X => trivial

end Values

end Upse.Services
