import Upse.Services.Formatted

/-!
# Runs over a format

The parser takes a directive apart into what it was written from, and the loop writes one item after the
other.
-/

namespace Upse.Services

open Psf

/-! ### The parser -/

/-- A byte that is no flag. -/
def NoFlag (byte : Byte) : Prop := byte ∉ ([0x2d, 0x2b, 0x20, 0x23, 0x30] : Bytes)

instance (byte : Byte) : Decidable (NoFlag byte) := inferInstanceAs (Decidable (_ ∉ _))

theorem parseFlags_none {spec : FormatSpec} {byte : Byte} (other : NoFlag byte) (rest : Bytes) :
    parseFlags spec (byte :: rest) = (spec, byte :: rest) := by
  unfold NoFlag at other
  simp only [List.mem_cons, not_or] at other
  obtain ⟨left, plus, space, alternate, zero, -⟩ := other
  rw [parseFlags, if_neg left, if_neg plus, if_neg space, if_neg alternate, if_neg zero]

/-- The flags of a specification and of a row of flags. -/
def withFlags (spec : FormatSpec) (flags : List FormatFlag) : FormatSpec :=
  { spec with
    left := spec.left || decide (.left ∈ flags)
    plus := spec.plus || decide (.plus ∈ flags)
    space := spec.space || decide (.space ∈ flags)
    alternate := spec.alternate || decide (.alternate ∈ flags)
    zero := spec.zero || decide (.zero ∈ flags) }

theorem parseFlags_eq (spec : FormatSpec) (flags : List FormatFlag) {byte : Byte} (other : NoFlag byte) (rest : Bytes) :
    parseFlags spec (flags.map FormatFlag.byte ++ byte :: rest) = (withFlags spec flags, byte :: rest) := by
  induction flags generalizing spec with
  | nil =>
    rw [List.map_nil, List.nil_append, parseFlags_none other]
    simp [withFlags]
  | cons flag flags ih =>
    have taken : parseFlags spec (flag.byte :: (flags.map FormatFlag.byte ++ byte :: rest)) =
        parseFlags (withFlags spec [flag]) (flags.map FormatFlag.byte ++ byte :: rest) := by
      cases flag <;> simp [parseFlags, withFlags, FormatFlag.byte]
    rw [List.map_cons, List.cons_append, taken, ih]
    cases flag <;> simp [withFlags]

theorem toDigit_decimal (digit : Fin 10) : toDigit 10 (BitVec.ofNat 8 (0x30 + digit.val)) = some digit.val := by
  revert digit
  decide

theorem parseFormatNumber_some (digits : List (Fin 10)) {byte : Byte} (other : toDigit 10 byte = none) (rest : Bytes)
    (value : ℕ) : parseFormatNumber (some (min value maxFormatted)) (decimalBytes digits ++ byte :: rest) =
      (some (min (decimalFrom value digits) maxFormatted), byte :: rest) := by
  induction digits generalizing value with
  | nil =>
    show parseFormatNumber _ (byte :: rest) = _
    rw [parseFormatNumber, other]
    rfl
  | cons digit digits ih =>
    have capped : min (min value maxFormatted * 10 + digit.val) maxFormatted =
        min (value * 10 + digit.val) maxFormatted := by
      have positive : 0 < maxFormatted := by decide
      omega
    show parseFormatNumber _ (BitVec.ofNat 8 (0x30 + digit.val) :: (decimalBytes digits ++ byte :: rest)) = _
    rw [parseFormatNumber, toDigit_decimal]
    dsimp only
    rw [Option.getD_some, capped, ih]
    rfl

theorem parseFormatNumber_eq (digits : List (Fin 10)) {byte : Byte} (other : toDigit 10 byte = none) (rest : Bytes) :
    parseFormatNumber none (decimalBytes digits ++ byte :: rest) =
      (if digits = [] then none else some (min (decimalValue digits) maxFormatted), byte :: rest) := by
  cases digits with
  | nil =>
    show parseFormatNumber none (byte :: rest) = _
    rw [parseFormatNumber, other]
    rfl
  | cons digit digits =>
    have first := parseFormatNumber_some digits other rest (0 * 10 + digit.val)
    show parseFormatNumber none (BitVec.ofNat 8 (0x30 + digit.val) :: (decimalBytes digits ++ byte :: rest)) = _
    rw [parseFormatNumber, toDigit_decimal, if_neg (List.cons_ne_nil _ _)]
    exact first

theorem specifier_byte (specifier : Specifier) : NoFlag specifier.byte ∧ toDigit 10 specifier.byte = none ∧
    specifier.byte ≠ 0x2e ∧ specifier.byte ∉ lengthModifiers ∧ specifier.byte ≠ 0x25 := by
  cases specifier <;> decide

theorem specifier_ascii (specifier : Specifier) : specifier.byte.toNat < 0x80 := by cases specifier <;> decide

theorem parsePrecision_eq (precision : Option (List (Fin 10))) (specifier : Specifier) (rest : Bytes) :
    parsePrecision ((precision.map fun digits => 0x2e :: decimalBytes digits).getD [] ++ specifier.byte :: rest) =
      (precision.map fun digits => min (decimalValue digits) maxFormatted, specifier.byte :: rest) := by
  obtain ⟨-, digit, point, -⟩ := specifier_byte specifier
  cases precision with
  | none =>
    show parsePrecision (specifier.byte :: rest) = _
    rw [parsePrecision, if_neg point]
    rfl
  | some digits =>
    show parsePrecision (0x2e :: (decimalBytes digits ++ specifier.byte :: rest)) = _
    rw [parsePrecision, if_pos rfl, parseFormatNumber_eq digits digit]
    dsimp only
    split
    next none =>
      rw [none]
      rfl
    next => rfl

theorem nonzero_noFlag : ∀ digit : Fin 10, digit ≠ 0 → NoFlag (BitVec.ofNat 8 (0x30 + digit.val)) := by decide

theorem front_noFlag (d : Directive) (width : d.width.head? ≠ some 0) (rest : Bytes) :
    ∃ byte tail, NoFlag byte ∧ decimalBytes d.width ++
      ((d.precision.map fun digits => 0x2e :: decimalBytes digits).getD [] ++ d.specifier.byte :: rest) = byte :: tail := by
  cases digits : d.width with
  | nil =>
    cases d.precision with
    | none => exact ⟨_, _, (specifier_byte d.specifier).1, rfl⟩
    | some digits => exact ⟨_, _, by decide, rfl⟩
  | cons digit digits =>
    refine ⟨_, _, ?_, rfl⟩
    rw [digits] at width
    exact nonzero_noFlag digit fun zero => width (congrArg some zero)

theorem parseSpec_eq (d : Directive) (width : d.width.head? ≠ some 0) (rest : Bytes) :
    parseSpec (d.front ++ d.specifier.byte :: rest) = (d.spec, d.specifier.byte :: rest) := by
  obtain ⟨-, digit, point, modifier, -⟩ := specifier_byte d.specifier
  obtain ⟨byte, tail, noFlag, front⟩ := front_noFlag d width rest
  have flags := parseFlags_eq .default d.flags noFlag tail
  -- a width ends at the point of the precision or at the specifier
  have widths : parseFormatNumber none (decimalBytes d.width ++
      ((d.precision.map fun digits => 0x2e :: decimalBytes digits).getD [] ++ d.specifier.byte :: rest)) =
        (d.spec.width, (d.precision.map fun digits => 0x2e :: decimalBytes digits).getD [] ++ d.specifier.byte :: rest) := by
    cases d.precision with
    | none => exact parseFormatNumber_eq d.width digit rest
    | some digits => exact parseFormatNumber_eq d.width (by decide) _
  have ends : (d.specifier.byte :: rest).dropWhile (· ∈ lengthModifiers) = d.specifier.byte :: rest := by
    rw [List.dropWhile_cons_of_neg]
    simpa using modifier
  rw [parseSpec, Directive.front, List.append_assoc, List.append_assoc, front, flags, ← front]
  dsimp only
  rw [widths]
  dsimp only
  rw [parsePrecision_eq]
  dsimp only
  rw [ends]
  refine Prod.ext ?_ rfl
  unfold withFlags Directive.spec Directive.limit
  rw [Option.map_map]
  simp only [FormatSpec.default, Bool.false_or, FormatSpec.mk.injEq, true_and]
  rfl

/-! ### Arguments -/

/-- A word is passed at a position: in a register, or on the stack. -/
def Passed (context : ServiceContext) (guest : GuestMemory) (position word : ℕ) : Prop :=
  if position < 4 then context.register (4 + position) = word
  else
    InRange guest (context.register sp + (16 + (position - 4) * 4)) 4 ∧
      guest.word (context.register sp + (16 + (position - 4) * 4)) = word

section Calls

variable {context : ServiceContext} {guest : GuestMemory}

theorem argument_eq {position word : ℕ} (passed : Passed context guest position word) :
    argument context guest position = .ok word := by
  unfold Passed at passed
  unfold argument
  split at passed
  next early => rw [if_pos early, passed]
  next late =>
    obtain ⟨inside, rfl⟩ := passed
    have wide := inside.2.2
    have small : min ((position - 4) * 4) u32Max = (position - 4) * 4 := by
      unfold u32Max
      omega
    have address : wrappingAdd (context.register sp) (16 + (position - 4) * 4) =
        context.register sp + (16 + (position - 4) * 4) := Nat.mod_eq_of_lt (by omega)
    rw [if_neg late, small, checkedAdd_eq_some.mpr ⟨by omega, rfl⟩]
    dsimp only
    rw [address, readU32, readMemory, checkAccess_ok inside]
    rfl

/-! ### The loop -/

/-- The directives of a format. -/
def directives : List FormatItem → List Directive
  | [] => []
  | .directive d :: items => d :: directives items
  | _ :: items => directives items

theorem front_head (d : Directive) (rest : Bytes) : (d.front ++ d.specifier.byte :: rest).head? ≠ some 0x25 := by
  have digit : ∀ digit : Fin 10, BitVec.ofNat 8 (0x30 + digit.val) ≠ (0x25 : Byte) := by decide
  have flag (flag : FormatFlag) : flag.byte ≠ 0x25 := by cases flag <;> decide
  unfold Directive.front
  cases d.flags with
  | cons first flags => exact fun same => flag first (Option.some.inj same)
  | nil =>
    cases d.width with
    | cons first digits => exact fun same => digit first (Option.some.inj same)
    | nil =>
      cases d.precision with
      | none => exact fun same => (specifier_byte d.specifier).2.2.2.2 (Option.some.inj same)
      | some digits => exact fun same => absurd (Option.some.inj same) (by decide)

/-- The loop writes the items that are left as the C library does. -/
theorem formatLoop_eq {items : List FormatItem} (wellFormed : ∀ item ∈ items, item.WellFormed) {values : List FormatValue}
    (given : List.Forall₂ (Given guest) (directives items) values)
    (formats : List.Forall₂ Directive.Formats (directives items) values) {next : ℕ}
    (passed : ∀ i value, values[i]? = some value → Passed context guest (next + i) value.word) {output : Bytes}
    {rounds : ℕ} (enough : (formatText items).length ≤ rounds)
    (fits : (output ++ formatted items values).length ≤ maxFormatted) :
    formatLoop context guest rounds (formatText items) next output = .ok (output ++ formatted items values) := by
  induction items generalizing values next output rounds with
  | nil =>
    have nothing : output ++ formatted [] values = output := List.append_nil output
    rw [nothing]
    cases rounds <;> rfl
  | cons item items ih =>
    have others : ∀ other ∈ items, other.WellFormed := fun other member => wellFormed other (List.mem_cons_of_mem _ member)
    have here := wellFormed item List.mem_cons_self
    cases item with
    | literal byte =>
      have text : formatText (.literal byte :: items) = byte :: formatText items := rfl
      rw [text, List.length_cons] at enough
      obtain ⟨rounds, rfl⟩ : ∃ n, rounds = n + 1 := ⟨rounds - 1, by omega⟩
      have whole : output ++ formatted (.literal byte :: items) values = (output ++ [byte]) ++ formatted items values := by
        rw [List.append_assoc]
        rfl
      rw [whole] at fits ⊢
      rw [text, formatLoop, if_pos (show byte ≠ 0x25 from here)]
      exact ih others given formats passed (by omega) fits
    | percent =>
      have text : formatText (.percent :: items) = 0x25 :: 0x25 :: formatText items := rfl
      rw [text, List.length_cons, List.length_cons] at enough
      obtain ⟨rounds, rfl⟩ : ∃ n, rounds = n + 1 := ⟨rounds - 1, by omega⟩
      have whole : output ++ formatted (.percent :: items) values = (output ++ [0x25]) ++ formatted items values := by
        rw [List.append_assoc]
        rfl
      rw [whole] at fits ⊢
      rw [text, formatLoop, if_neg (not_not.mpr rfl), if_pos List.head?_cons]
      exact ih others given formats passed (by omega) fits
    | directive d =>
      have text : formatText (.directive d :: items) = 0x25 :: (d.front ++ d.specifier.byte :: formatText items) := by
        show 0x25 :: (d.front ++ [d.specifier.byte]) ++ formatText items = _
        simp
      rw [text, List.length_cons, List.length_append, List.length_cons] at enough
      obtain ⟨rounds, rfl⟩ : ∃ n, rounds = n + 1 := ⟨rounds - 1, by omega⟩
      cases given with
      | cons given givens =>
        cases formats with
        | cons formats rest =>
          rename_i value values
          have whole : output ++ formatted (.directive d :: items) (value :: values) =
              (output ++ d.output value) ++ formatted items values := by
            rw [List.append_assoc]
            rfl
          rw [whole] at fits ⊢
          have written : (output ++ d.output value).length ≤ maxFormatted := by
            rw [List.length_append] at fits
            omega
          have own : (d.output value).length ≤ maxFormatted := by
            rw [List.length_append] at written
            omega
          have word := argument_eq (passed 0 value rfl)
          rw [text, formatLoop, if_neg (not_not.mpr rfl), if_neg (front_head d _), parseSpec_eq d here]
          show (argument context guest next >>= fun value' => _) = _
          rw [Nat.add_zero] at word
          rw [word]
          show (formatValue guest d.specifier.byte value.word d.spec >>= fun text' => _) = _
          rw [formatValue_eq given formats own]
          have single : firstSize (d.specifier.byte :: formatText items) = 1 := by
            rw [firstSize, decodeChar_ascii (specifier_ascii d.specifier)]
          have enough' : (formatText items).length ≤ rounds := by omega
          simp only [single, List.take_succ_cons, List.take_zero, List.drop_succ_cons, List.drop_zero, List.append_nil]
          show (if maxFormatted < (output ++ d.output value).length then _ else _) = _
          rw [if_neg (not_lt.mpr written)]
          refine ih others givens rest (fun i later found => ?_) enough' fits
          have word' := passed (i + 1) later found
          rwa [Nat.add_left_comm, Nat.add_comm] at word'

/-! ### Calls -/

/-- A call of a formatting service: its format is at one position, and the values follow it. -/
structure Call (context : ServiceContext) (guest : GuestMemory) (first : ℕ) (items : List FormatItem)
    (values : List FormatValue) : Prop where
  format : ∃ address, Passed context guest first address ∧ CString guest address (formatText items)
  wellFormed : ∀ item ∈ items, item.WellFormed
  given : List.Forall₂ (Given guest) (directives items) values
  passed : ∀ i value, values[i]? = some value → Passed context guest (first + 1 + i) value.word

/-- What the services get right: the format is read as it is, and each of its directives is written as in
C. -/
structure FormatsWhen (items : List FormatItem) (values : List FormatValue) : Prop where
  short : (formatText items).length < maxString
  valid : validUtf8 (formatText items) = true
  formats : List.Forall₂ Directive.Formats (directives items) values

variable {items : List FormatItem} {values : List FormatValue}

theorem formatGuest_eq {first : ℕ} (call : Call context guest first items values) (right : FormatsWhen items values)
    (fits : (formatted items values).length ≤ maxFormatted) :
    formatGuest context guest first = .ok (formatted items values) := by
  obtain ⟨address, passed, held⟩ := call.format
  rw [formatGuest, argument_eq passed]
  show (readCString guest address maxString >>= fun format => _) = _
  rw [held.read right.short, fromUtf8Lossy_of_valid right.valid]
  exact formatLoop_eq call.wellFormed call.given right.formats call.passed (Nat.le_refl _) fits

/-- `sprintf` and `printf` write what the C library writes, and return its length, where the format and the
strings are valid and short, no character has its high bit set, no alternate octal number has a precision
beyond its digits, and no precision cuts a string after a character of more than one byte; a directive that
takes no string is written as in C if and only if it keeps to this. -/
theorem formats_as_in_c (right : FormatsWhen items values) (fits : (formatted items values).length ≤ maxFormatted) :
    (Call context guest 1 items values → InRange guest (context.register 4) ((formatted items values).length + 1) →
      guest.accepts (context.register 4) ((formatted items values).length + 1) = true →
      sprintf context guest = .ok ((formatted items values).length,
        guest.store (context.register 4) (formatted items values ++ [0]))) ∧
    (Call context guest 0 items values →
      printf context guest = .ok ((formatted items values).length, formatted items values)) ∧
    ∀ (d : Directive) (value : FormatValue), d.specifier ≠ .s → value.word < 2 ^ 32 →
      (d.output value).length ≤ maxFormatted →
      (formatValue guest d.specifier.byte value.word d.spec = .ok (d.output value) ↔ d.Formats value) := by
  refine ⟨?_, ?_, fun d value => formatValue_iff⟩
  · intro call inside takes
    have length : (formatted items values ++ [0]).length = (formatted items values).length + 1 := List.length_append
    rw [sprintf, formatGuest_eq call right fits]
    show (writeMemory guest (context.register 4) (formatted items values ++ [0]) >>= fun guest => _) = _
    rw [writeMemory_eq_ok.mpr ⟨⟨by rwa [length], by rwa [length]⟩, rfl⟩]
    rfl
  · intro call
    rw [printf, formatGuest_eq call right fits]
    rfl

end Calls

/-- Minus seven, a string at 384, and 42. -/
def mixedValues : List FormatValue := [⟨2 ^ 32 - 7, []⟩, ⟨384, ascii "abc"⟩, ⟨42, []⟩]

/-- The format at 256 and the string at 384, `%c` at 512, and the third value on the stack at 1024. -/
def formatsMemory : GuestMemory :=
  ramWith [(256, ascii "%0+6d|%-4.2s%%%#.4x"), (384, ascii "abc"), (512, [0x25, 0x63]), (1024 + 16, [42])]

/-- The arguments of a call in the registers, with the stack at 1024. -/
def formatCall (arguments : List ℕ) : ServiceContext where
  register index := if index = sp then 1024 else if 4 ≤ index then arguments.getD (index - 4) 0 else 0

/-- The format at 256, with the values passed to it. -/
theorem call_mixed : ∃ items,
    Call (formatCall [2048, 256, 2 ^ 32 - 7, 384]) formatsMemory 1 items mixedValues ∧
      FormatsWhen items mixedValues ∧ formatted items mixedValues = ascii "-00007|ab  %0x002a" := by
  refine ⟨[.directive ⟨[.zero, .plus], [6], none, .d⟩, .literal 0x7c,
    .directive ⟨[.left], [4], some [2], .s⟩, .percent, .directive ⟨[.alternate], [], some [4], .x⟩], ?_, ?_,
    by decide +kernel⟩
  · constructor
    case format => exact ⟨256, rfl, by decide, by decide, by decide, by decide, by decide⟩
    case wellFormed => simp [FormatItem.WellFormed]
    case given =>
      refine .cons ⟨by decide, by exact nofun⟩ (.cons ⟨by decide, fun _ => ⟨?_, by decide⟩⟩
        (.cons ⟨by decide, by exact nofun⟩ .nil))
      exact ⟨by decide, by decide, by decide, by decide, by decide⟩
    case passed =>
      intro i value found
      match i with
      | 0 => cases found; rfl
      | 1 => cases found; rfl
      | 2 =>
        cases found
        exact ⟨⟨by decide, by decide, by decide⟩, by decide⟩
      | i + 3 => cases found
  · have cut : Ascii ((ascii "abc").take 2) := by decide
    exact ⟨by decide, by decide +kernel, .cons trivial (.cons ⟨by decide, cut⟩ (.cons trivial .nil))⟩

/-- `sprintf` writes `-00007|ab  %0x002a`. -/
theorem formats_as_in_c_sample :
    sprintf (formatCall [2048, 256, 2 ^ 32 - 7, 384]) formatsMemory =
      .ok (18, formatsMemory.store 2048 (ascii "-00007|ab  %0x002a\x00")) := by
  obtain ⟨items, call, right, text⟩ := call_mixed
  have fits : (formatted items mixedValues).length ≤ maxFormatted := by
    rw [text]
    decide
  have inside : InRange formatsMemory 2048 ((formatted items mixedValues).length + 1) := by
    rw [text]
    exact ⟨by decide, by decide, by decide⟩
  have written := (formats_as_in_c right fits).1 call inside (by rw [text]; rfl)
  rw [text] at written
  exact written

/-- `%c` of `0x80` is written as two bytes. -/
theorem printf_not_byte : Call (formatCall [512, 0x80]) formatsMemory 0 [.directive ⟨[], [], none, .c⟩] [⟨0x80, []⟩] ∧
    formatted [.directive ⟨[], [], none, .c⟩] [⟨0x80, []⟩] = [0x80] ∧
    printf (formatCall [512, 0x80]) formatsMemory ≠ .ok (1, [0x80]) := by
  refine ⟨⟨⟨512, rfl, by decide, by decide, by decide, by decide, by decide⟩,
    List.forall_mem_singleton.mpr (by exact nofun),
    .cons ⟨by decide, by exact nofun⟩ .nil, fun i other found => ?_⟩, by decide +kernel, fun written => ?_⟩
  · cases i with
    | zero =>
      cases found
      rfl
    | succ i => cases found
  · have twice : (printf (formatCall [512, 0x80]) formatsMemory).map Prod.fst = .ok 2 := by decide +kernel
    rw [written] at twice
    cases twice

end Upse.Services
