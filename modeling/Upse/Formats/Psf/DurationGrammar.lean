import Mathlib.Algebra.Order.Floor.Semifield
import Mathlib.Data.Rat.Floor
import Upse.Formats.Psf.Duration
import Upse.Lib.ErrorState

/-!
# What the parser of durations accepts

The grammar of durations, with the number of seconds each text stands for.  The parser accepts exactly
that grammar, with exactly that value in lowest terms.
-/

namespace Upse.Psf

open ErrorState

theorem except_unless_ok {ε α β : Type} {c : Prop} [Decidable c] {e : ε} {f : α → Except ε β}
    {m : Except ε β} {b : β} :
    (if c then throw e >>= f else m) = .ok b ↔ ¬ c ∧ m = .ok b := by
  split
  next fails => exact ⟨nofun, fun h => absurd fails h.1⟩
  next passes => exact ⟨fun h => ⟨passes, h⟩, And.right⟩

/-- A row of digits that is a 64-bit number. -/
structure IsComponent (text : Text) : Prop where
  nonempty : text ≠ []
  digits : ∀ c ∈ text, c.isDigit = true
  fits : decimal text < 2 ^ 64

theorem integer_eq_ok {text : Text} {n : ℕ} :
    integer text = .ok n ↔ IsComponent text ∧ n = decimal text := by
  unfold integer
  split
  next bad =>
    refine ⟨nofun, fun h => ?_⟩
    obtain ⟨⟨nonempty, digits, -⟩, -⟩ := h
    simp only [Bool.or_eq_true, List.isEmpty_iff, Bool.not_eq_true', List.all_eq_false] at bad
    obtain empty | ⟨c, mem, not⟩ := bad
    · exact absurd empty nonempty
    · exact absurd (digits c mem) not
  next good =>
    simp only [Bool.or_eq_true, List.isEmpty_iff, Bool.not_eq_true', not_or,
      Bool.not_eq_false, List.all_eq_true] at good
    split
    next fits =>
      constructor
      · intro h
        cases h
        exact ⟨⟨good.1, good.2, fits⟩, rfl⟩
      · rintro ⟨-, rfl⟩
        rfl
    next large => exact ⟨nofun, fun h => absurd h.1.fits large⟩

/-! ### The grammar -/

/-- The parts of a duration as it is written: the point of the fraction is kept. -/
structure Written where
  hours : Option Text
  minutes : Option Text
  seconds : Text
  fraction : Option (Char × Text)

namespace Written

/-- The point and the digits after it. -/
def tail : Option (Char × Text) → Text
  | some (point, digits) => point :: digits
  | none => []

def components (w : Written) : List Text :=
  w.hours.toList ++ w.minutes.toList ++ [w.seconds ++ tail w.fraction]

/-- The components with colons between them. -/
def text (w : Written) : Text := [':'].intercalate w.components

/-- The number an optional row of digits is. -/
def value (digits : Option Text) : ℕ := (digits.map decimal).getD 0

def whole (w : Written) : ℕ := value w.hours * 3600 + value w.minutes * 60 + decimal w.seconds

/-- How many digits follow the point. -/
def places (fraction : Option (Char × Text)) : ℕ := (tail fraction).length - 1

/-- The seconds in units of the last digit. -/
def scaled (w : Written) : ℕ :=
  w.whole * 10 ^ places w.fraction + value (w.fraction.map Prod.snd)

/-- The seconds the text stands for. -/
def length (w : Written) : ℚ :=
  w.whole + value (w.fraction.map Prod.snd) / 10 ^ places w.fraction

/-- One point or comma and up to eighteen digits. -/
structure IsFraction (fraction : Char × Text) : Prop where
  point : fraction.1 = '.' ∨ fraction.1 = ','
  nonempty : fraction.2 ≠ []
  digits : ∀ c ∈ fraction.2, c.isDigit = true
  short : fraction.2.length ≤ 18

/-- The texts of the grammar. -/
structure WellFormed (w : Written) : Prop where
  minutes_of_hours : w.hours.isSome → w.minutes.isSome
  hours : ∀ t ∈ w.hours, IsComponent t
  minutes : ∀ t ∈ w.minutes, IsComponent t
  seconds : IsComponent w.seconds
  fraction : ∀ f ∈ w.fraction, IsFraction f
  minutes_lt : w.hours.isSome → value w.minutes < 60
  seconds_lt : w.minutes.isSome → decimal w.seconds < 60
  fits : w.scaled < 2 ^ 64

end Written

open Written

/-! ### Components -/

variable {c : Char} {text : Text}

theorem not_mem_of_digits (digits : ∀ c ∈ text, c.isDigit = true)
    (other : c.isDigit = false) : c ∉ text := by
  intro mem
  rw [digits c mem] at other
  cases other

theorem clock_eq_ok {components : List Text} {hours minutes : ℕ} {secondsText : Text} :
    Duration.clock components = .ok (hours, minutes, secondsText) ↔
      ∃ h m : Option Text, (h.isSome → m.isSome) ∧ (∀ t ∈ h, IsComponent t) ∧
        (∀ t ∈ m, IsComponent t) ∧ components = h.toList ++ m.toList ++ [secondsText] ∧
        hours = value h ∧ minutes = value m := by
  constructor
  · intro ok
    match components, ok with
    | [seconds], ok =>
      cases ok
      exact ⟨none, none, nofun, nofun, nofun, rfl, rfl, rfl⟩
    | [m, seconds], ok =>
      obtain ⟨n, read, same⟩ := except_bind_ok.mp ok
      cases same
      obtain ⟨component, rfl⟩ := integer_eq_ok.mp read
      refine ⟨none, some m, nofun, nofun, ?_, rfl, rfl, rfl⟩
      rintro t ⟨⟩
      exact component
    | [h, m, seconds], ok =>
      obtain ⟨n, readHours, ok⟩ := except_bind_ok.mp ok
      obtain ⟨n', readMinutes, same⟩ := except_bind_ok.mp ok
      cases same
      obtain ⟨hourComponent, rfl⟩ := integer_eq_ok.mp readHours
      obtain ⟨minuteComponent, rfl⟩ := integer_eq_ok.mp readMinutes
      refine ⟨some h, some m, fun _ => rfl, ?_, ?_, rfl, rfl, rfl⟩
      · rintro t ⟨⟩
        exact hourComponent
      · rintro t ⟨⟩
        exact minuteComponent
  · rintro ⟨h, m, both, hourComponent, minuteComponent, rfl, rfl, rfl⟩
    cases m with
    | none =>
      cases h with
      | none => rfl
      | some h => cases both rfl
    | some m =>
      have minutes := integer_eq_ok.mpr ⟨minuteComponent m rfl, rfl⟩
      cases h with
      | none =>
        exact except_bind_ok.mpr ⟨_, minutes, rfl⟩
      | some h =>
        have hours := integer_eq_ok.mpr ⟨hourComponent h rfl, rfl⟩
        exact except_bind_ok.mpr ⟨_, hours, except_bind_ok.mpr ⟨_, minutes, rfl⟩⟩

/-! ### The point -/

/-- `replace(',', ".")` of a character. -/
def dot (c : Char) : Char := if c = ',' then '.' else c

theorem dot_eq_point : dot c = '.' ↔ c = '.' ∨ c = ',' := by
  unfold dot
  split
  next comma => exact ⟨fun _ => .inr comma, fun _ => rfl⟩
  next other => exact ⟨.inl, fun h => h.resolve_right other⟩

theorem dot_of_digit (digit : (dot c).isDigit = true) : dot c = c := by
  unfold dot at digit ⊢
  split
  next comma =>
    rw [if_pos comma] at digit
    cases digit
  next => rfl

theorem map_dot_of_digits (digits : ∀ c ∈ text.map dot, c.isDigit = true) :
    text.map dot = text := by
  have same : text.map dot = text.map id := List.map_congr_left fun c mem =>
    dot_of_digit (digits _ (List.mem_map_of_mem mem))
  rw [same, List.map_id]

theorem splitOnce_eq_none : splitOnce c text = none ↔ c ∉ text := by
  induction text with
  | nil => exact ⟨fun _ => List.not_mem_nil, fun _ => rfl⟩
  | cons d rest ih =>
    unfold splitOnce
    split
    next same => exact ⟨nofun, fun not => absurd (same ▸ List.mem_cons_self) not⟩
    next other =>
      rw [Option.map_eq_none_iff, ih, List.mem_cons, not_or]
      exact ⟨fun h => ⟨fun same => other same.symm, h⟩, And.right⟩

theorem splitOnce_append {before after : Text} (first : c ∉ before) :
    splitOnce c (before ++ c :: after) = some (before, after) := by
  induction before with
  | nil => exact if_pos rfl
  | cons d rest ih =>
    have other : d ≠ c := fun same => first (same ▸ List.mem_cons_self)
    have later : c ∉ rest := fun mem => first (List.mem_cons_of_mem _ mem)
    show (if d = c then _ else _) = _
    rw [if_neg other]
    exact congrArg (Option.map _) (ih later)

theorem eq_append_of_splitOnce {text before after : Text}
    (h : splitOnce c text = some (before, after)) : text = before ++ c :: after := by
  induction text generalizing before with
  | nil => cases h
  | cons d rest ih =>
    unfold splitOnce at h
    split at h
    next same =>
      cases h
      rw [same]
      rfl
    next =>
      obtain ⟨⟨b, a⟩, inner, same⟩ := Option.map_eq_some_iff.mp h
      cases same
      rw [ih inner]
      rfl

theorem decimal_append (text : Text) (c : Char) :
    decimal (text ++ [c]) = 10 * decimal text + (c.toNat - 48) := List.foldl_concat ..

theorem decimal_lt (digits : ∀ c ∈ text, c.isDigit = true) :
    decimal text < 10 ^ text.length := by
  induction text using List.reverseRecOn with
  | nil => exact Nat.zero_lt_one
  | append_singleton text c ih =>
    have before := ih fun d mem => digits d (List.mem_append_left _ mem)
    have digit := digits c (List.mem_append_right _ (List.mem_singleton_self c))
    have last : c.toNat - 48 < 10 := by
      simp only [Char.isDigit, Bool.and_eq_true, decide_eq_true_eq] at digit
      have high : c.toNat ≤ 57 := digit.2
      omega
    rw [decimal_append, List.length_append, List.length_singleton, Nat.pow_succ]
    omega

theorem fractionPart_some (t : Text) :
    Duration.fractionPart (some t) =
      if t.isEmpty then .error .invalidSyntax
      else if 18 < t.length || !t.all Char.isDigit then .error .invalidSyntax
      else if 10 ^ t.length < 2 ^ 64 then do return (← integer t, 10 ^ t.length)
      else .error .overflow := rfl

theorem fractionPart_eq_ok {digits : Option Text} {fraction scale : ℕ} :
    Duration.fractionPart digits = .ok (fraction, scale) ↔
      (∀ t ∈ digits, t ≠ [] ∧ t.length ≤ 18 ∧ ∀ c ∈ t, c.isDigit = true) ∧
        fraction = value digits ∧ scale = 10 ^ (digits.map List.length).getD 0 := by
  cases digits with
  | none =>
    constructor
    · intro h
      cases h
      exact ⟨nofun, rfl, rfl⟩
    · rintro ⟨-, rfl, rfl⟩
      rfl
  | some t =>
    constructor
    · intro h
      rw [fractionPart_some] at h
      split at h
      next => cases h
      next nonempty =>
        split at h
        next => cases h
        next good =>
          simp only [Bool.or_eq_true, decide_eq_true_eq, Bool.not_eq_true', not_or, Nat.not_lt,
            Bool.not_eq_false, List.all_eq_true] at good
          split at h
          next =>
            obtain ⟨n, read, same⟩ := except_bind_ok.mp h
            cases same
            obtain ⟨-, rfl⟩ := integer_eq_ok.mp read
            refine ⟨?_, rfl, rfl⟩
            rintro _ ⟨⟩
            exact ⟨fun empty => nonempty (List.isEmpty_iff.mpr empty), good.1, good.2⟩
          next => cases h
    · rintro ⟨good, rfl, rfl⟩
      obtain ⟨nonempty, short, digits⟩ := good t rfl
      have power : 10 ^ t.length ≤ 10 ^ 18 := Nat.pow_le_pow_right (by decide) short
      have bounded : 10 ^ 18 < 2 ^ 64 := by decide
      have component : IsComponent t := ⟨nonempty, digits, by have := decimal_lt digits; omega⟩
      rw [fractionPart_some, if_neg (fun empty => nonempty (List.isEmpty_iff.mp empty)), if_neg, if_pos (by omega)]
      · exact except_bind_ok.mpr ⟨_, integer_eq_ok.mpr ⟨component, rfl⟩, rfl⟩
      · simp only [Bool.or_eq_true, decide_eq_true_eq, Bool.not_eq_true', not_or, Nat.not_lt,
          Bool.not_eq_false, List.all_eq_true]
        exact ⟨short, digits⟩

/-! ### Seconds -/

/-- The text of the seconds at its point. -/
def splitSeconds (text : Text) : Text × Option Text :=
  match splitOnce '.' text with
  | some (whole, fraction) => (whole, some fraction)
  | none => (text, none)

theorem written_of_read {secondsText whole : Text} {digits : Option Text}
    (split : splitSeconds (secondsText.map dot) = (whole, digits)) (component : IsComponent whole)
    (fraction : ∀ t ∈ digits, t ≠ [] ∧ t.length ≤ 18 ∧ ∀ c ∈ t, c.isDigit = true) :
    ∃ f : Option (Char × Text), secondsText = whole ++ tail f ∧ (∀ p ∈ f, IsFraction p) ∧
      f.map Prod.snd = digits := by
  unfold splitSeconds at split
  cases parted : splitOnce '.' (secondsText.map dot) with
  | none =>
    rw [parted] at split
    cases split
    refine ⟨none, ?_, nofun, rfl⟩
    rw [map_dot_of_digits component.digits]
    exact (List.append_nil _).symm
  | some parts =>
    rw [parted] at split
    cases split
    obtain ⟨before, rest, parted, front, point⟩ := List.map_eq_append_iff.mp (eq_append_of_splitOnce parted)
    cases rest with
    | nil => cases point
    | cons c after =>
      obtain ⟨isPoint, back⟩ := List.cons_eq_cons.mp point
      obtain ⟨nonempty, short, all⟩ := fraction _ rfl
      have backDigits : after.map dot = after := map_dot_of_digits (back ▸ all)
      have frontDigits : before.map dot = before := map_dot_of_digits (front ▸ component.digits)
      rw [frontDigits] at front
      rw [backDigits] at back
      refine ⟨some (c, after), ?_, ?_, ?_⟩
      · rw [parted, front]
        rfl
      · rintro _ ⟨⟩
        rw [← back] at nonempty short all
        exact ⟨dot_eq_point.mp isPoint, nonempty, all, short⟩
      · rw [← back]
        rfl

theorem map_dot_digits (digits : ∀ c ∈ text, c.isDigit = true) :
    text.map dot = text := by
  have same : text.map dot = text.map id := List.map_congr_left fun c mem => by
    have other : c ≠ ',' := fun comma => by
      have digit := digits c mem
      rw [comma] at digit
      cases digit
    exact if_neg other
  rw [same, List.map_id]

theorem read_of_written {seconds : Text} {f : Option (Char × Text)} (component : IsComponent seconds)
    (fraction : ∀ p ∈ f, IsFraction p) :
    splitSeconds ((seconds ++ tail f).map dot) = (seconds, f.map Prod.snd) ∧
      ((seconds ++ tail f).map dot).count '.' ≤ 1 := by
  have noPoint : '.' ∉ seconds := not_mem_of_digits component.digits rfl
  cases f with
  | none =>
    have same : (seconds ++ tail none).map dot = seconds := by
      rw [tail, List.append_nil, map_dot_digits component.digits]
    rw [same]
    unfold splitSeconds
    rw [splitOnce_eq_none.mpr noPoint, List.count_eq_zero.mpr noPoint]
    exact ⟨rfl, Nat.zero_le 1⟩
  | some p =>
    obtain ⟨point, -, digits, -⟩ := fraction p rfl
    have noPoint' : '.' ∉ p.2 := not_mem_of_digits digits rfl
    have same : (seconds ++ tail (some p)).map dot = seconds ++ '.' :: p.2 := by
      rw [tail, List.map_append, List.map_cons, map_dot_digits component.digits,
        map_dot_digits digits, dot_eq_point.mpr point]
    rw [same]
    unfold splitSeconds
    rw [splitOnce_append noPoint, List.count_append, List.count_cons_self,
      List.count_eq_zero.mpr noPoint, List.count_eq_zero.mpr noPoint']
    exact ⟨rfl, Nat.le_refl 1⟩

/-! ### The parser -/

theorem wholeSeconds_eq_some {hours minutes seconds whole : ℕ} :
    Duration.wholeSeconds hours minutes seconds = some whole ↔
      hours * 3600 + minutes * 60 + seconds < 2 ^ 64 ∧
        whole = hours * 3600 + minutes * 60 + seconds := by
  simp only [Duration.wholeSeconds, Option.bind_eq_bind, Option.bind_eq_some_iff,
    checkedMul_eq_some, checkedAdd_eq_some]
  constructor
  · rintro ⟨_, ⟨-, rfl⟩, _, ⟨-, rfl⟩, _, ⟨-, rfl⟩, fits, rfl⟩
    exact ⟨fits, rfl⟩
  · rintro ⟨fits, rfl⟩
    have sum : hours * 3600 + minutes * 60 < 2 ^ 64 := Nat.lt_of_le_of_lt (Nat.le_add_right _ _) fits
    have first : hours * 3600 < 2 ^ 64 := Nat.lt_of_le_of_lt (Nat.le_add_right _ _) sum
    have second : minutes * 60 < 2 ^ 64 := Nat.lt_of_le_of_lt (Nat.le_add_left _ _) sum
    exact ⟨_, ⟨first, rfl⟩, _, ⟨second, rfl⟩, _, ⟨sum, rfl⟩, fits, rfl⟩

namespace Written

variable {w : Written}

theorem length_components : w.components.length = w.hours.toList.length + w.minutes.toList.length + 1 := by
  simp [components, Nat.add_assoc]

theorem three_components (h : w.hours.isSome → w.minutes.isSome) :
    w.components.length = 3 ↔ w.hours.isSome := by
  rw [length_components]
  cases hours : w.hours <;> cases minutes : w.minutes <;> simp_all

theorem several_components (h : w.hours.isSome → w.minutes.isSome) :
    1 < w.components.length ↔ w.minutes.isSome := by
  rw [length_components]
  cases hours : w.hours <;> cases minutes : w.minutes <;> simp_all

theorem places_eq (f : Option (Char × Text)) :
    places f = ((f.map Prod.snd).map List.length).getD 0 := by
  cases f <;> rfl

theorem WellFormed.splitOn_text (h : w.WellFormed) : w.text.splitOn ':' = w.components := by
  apply List.splitOn_intercalate
  · intro part mem
    have digits {t : Text} (component : IsComponent t) : ':' ∉ t :=
      not_mem_of_digits component.digits rfl
    simp only [components, List.mem_append, Option.mem_toList, List.mem_singleton] at mem
    obtain (mem | mem) | rfl := mem
    · exact digits (h.hours _ mem)
    · exact digits (h.minutes _ mem)
    · rw [List.mem_append, not_or]
      refine ⟨digits h.seconds, ?_⟩
      cases f : w.fraction with
      | none => exact List.not_mem_nil
      | some p =>
        obtain ⟨point, -, all, -⟩ := h.fraction p f
        rw [tail, List.mem_cons, not_or]
        refine ⟨fun colon => ?_, not_mem_of_digits all rfl⟩
        rw [← colon] at point
        obtain point | point := point <;> cases point
  · exact List.append_ne_nil_of_right_ne_nil _ (List.cons_ne_nil _ _)

theorem WellFormed.head_text (h : w.WellFormed) : ∃ c rest, w.text = c :: rest ∧ c.isDigit = true := by
  have first {t rest : Text} (component : IsComponent t) :
      ∃ c rest', t ++ rest = c :: rest' ∧ c.isDigit = true := by
    obtain ⟨c, t', rfl⟩ := List.exists_cons_of_ne_nil component.nonempty
    exact ⟨c, t' ++ rest, rfl, component.digits c List.mem_cons_self⟩
  unfold text components
  cases hours : w.hours with
  | some t =>
    cases minutes : w.minutes with
    | some t' =>
      simp only [Option.toList_some, List.cons_append, List.nil_append, List.intercalate_cons_cons,
        List.append_assoc]
      exact first (h.hours t hours)
    | none =>
      have both := h.minutes_of_hours (by rw [hours]; rfl)
      rw [minutes] at both
      cases both
  | none =>
    cases minutes : w.minutes with
    | some t =>
      simp only [Option.toList_some, Option.toList_none, List.nil_append, List.cons_append,
        List.intercalate_cons_cons, List.append_assoc]
      exact first (h.minutes t minutes)
    | none =>
      simp only [Option.toList_none, List.nil_append, List.intercalate_singleton]
      exact first h.seconds

end Written

/-- The duration of parts that were read. -/
def total (hours minutes seconds : ℕ) (fraction : ℕ × ℕ) : Except DurationError Duration :=
  match Duration.wholeSeconds hours minutes seconds with
  | none => throw .overflow
  | some whole =>
    match (checkedMul 64 whole fraction.2).bind (checkedAdd 64 · fraction.1) with
    | none => throw .overflow
    | some numerator => pure (.reduced numerator fraction.2)

variable {d : Duration}

theorem total_eq_ok {hours minutes seconds fraction scale : ℕ} (pos : 0 < scale) :
    total hours minutes seconds (fraction, scale) = .ok d ↔
      (hours * 3600 + minutes * 60 + seconds) * scale + fraction < 2 ^ 64 ∧
        d = .reduced ((hours * 3600 + minutes * 60 + seconds) * scale + fraction) scale := by
  have bound (whole : ℕ) : whole ≤ whole * scale := Nat.le_mul_of_pos_right whole pos
  unfold total
  constructor
  · intro ok
    cases read : Duration.wholeSeconds hours minutes seconds with
    | none =>
      rw [read] at ok
      cases ok
    | some whole =>
      rw [read] at ok
      obtain ⟨-, rfl⟩ := wholeSeconds_eq_some.mp read
      dsimp only at ok
      cases summed : (checkedMul 64 (hours * 3600 + minutes * 60 + seconds) scale).bind
          (checkedAdd 64 · fraction) with
      | none =>
        rw [summed] at ok
        cases ok
      | some numerator =>
        rw [summed] at ok
        cases ok
        obtain ⟨_, multiplied, added⟩ := Option.bind_eq_some_iff.mp summed
        obtain ⟨-, rfl⟩ := checkedMul_eq_some.mp multiplied
        obtain ⟨fits, rfl⟩ := checkedAdd_eq_some.mp added
        exact ⟨fits, rfl⟩
  · rintro ⟨fits, rfl⟩
    have product := Nat.lt_of_le_of_lt (Nat.le_add_right _ _) fits
    have whole := wholeSeconds_eq_some.mpr ⟨Nat.lt_of_le_of_lt (bound _) product, rfl⟩
    have summed : (checkedMul 64 (hours * 3600 + minutes * 60 + seconds) scale).bind
        (checkedAdd 64 · fraction) = some _ :=
      Option.bind_eq_some_iff.mpr
        ⟨_, checkedMul_eq_some.mpr ⟨product, rfl⟩, checkedAdd_eq_some.mpr ⟨fits, rfl⟩⟩
    rw [whole]
    dsimp only
    rw [summed]
    rfl

theorem parse_stages {input : Text} :
    Duration.parse input = .ok d ↔
      ¬ ((trim input).isEmpty || (trim input).head? == some '-' || (trim input).head? == some '+') = true ∧
        ∃ c, Duration.clock ((trim input).splitOn ':') = .ok c ∧
          ¬ (((trim input).splitOn ':').length = 3 ∧ 60 ≤ c.2.1) ∧
          ¬ 1 < (c.2.2.map dot).count '.' ∧
          ∃ seconds, integer (splitSeconds (c.2.2.map dot)).1 = .ok seconds ∧
            ¬ (1 < ((trim input).splitOn ':').length ∧ 60 ≤ seconds) ∧
            ∃ f, Duration.fractionPart (splitSeconds (c.2.2.map dot)).2 = .ok f ∧
              total c.1 c.2.1 seconds f = .ok d := by
  unfold Duration.parse
  dsimp only
  simp only [except_unless_ok, except_bind_ok]
  rfl

/-- A text is accepted exactly where it is of the grammar, and stands for its seconds. -/
theorem parse_eq_ok {input : Text} :
    Duration.parse input = .ok d ↔ ∃ w : Written, w.WellFormed ∧ trim input = w.text ∧
      d = .reduced w.scaled (10 ^ places w.fraction) := by
  rw [parse_stages]
  constructor
  · rintro ⟨-, ⟨hours, minutes, secondsText⟩, clocked, minuteRange, -, seconds, read, secondRange,
      ⟨fraction, scale⟩, parted, ok⟩
    obtain ⟨h, m, both, hourComponent, minuteComponent, split, rfl, rfl⟩ := clock_eq_ok.mp clocked
    simp only at minuteRange read secondRange parted ok
    obtain ⟨⟨whole, digits⟩, halves⟩ : ∃ halves, splitSeconds (secondsText.map dot) = halves :=
      ⟨_, rfl⟩
    rw [halves] at read parted
    obtain ⟨component, rfl⟩ := integer_eq_ok.mp read
    obtain ⟨allDigits, rfl, rfl⟩ := fractionPart_eq_ok.mp parted
    obtain ⟨f, same, isFraction, rfl⟩ := written_of_read halves component allDigits
    obtain ⟨w, rfl, rfl, rfl, rfl⟩ : ∃ w : Written, w.hours = h ∧ w.minutes = m ∧ w.seconds = whole ∧
      w.fraction = f := ⟨⟨h, m, whole, f⟩, rfl, rfl, rfl, rfl⟩
    have components : (trim input).splitOn ':' = w.components := by
      rw [split, same]
      rfl
    rw [components, three_components both] at minuteRange
    rw [components, several_components both] at secondRange
    rw [← places_eq, total_eq_ok (Nat.pow_pos (by decide))] at ok
    refine ⟨w, ⟨both, hourComponent, minuteComponent, component, isFraction,
      fun given => ?_, fun given => ?_, ok.1⟩, ?_, ok.2⟩
    · exact Nat.not_le.mp fun large => minuteRange ⟨given, large⟩
    · exact Nat.not_le.mp fun large => secondRange ⟨given, large⟩
    · rw [text, ← components]
      exact (List.intercalate_splitOn ':').symm
  · rintro ⟨w, h, trimmed, rfl⟩
    obtain ⟨c, rest, begins, digit⟩ := h.head_text
    obtain ⟨split, single⟩ := read_of_written h.seconds h.fraction
    rw [trimmed, h.splitOn_text, begins]
    have notMinus : c ≠ '-' := fun same => by rw [same] at digit; cases digit
    have notPlus : c ≠ '+' := fun same => by rw [same] at digit; cases digit
    refine ⟨by simp [notMinus, notPlus], _,
      clock_eq_ok.mpr ⟨_, _, h.minutes_of_hours, h.hours, h.minutes, rfl, rfl, rfl⟩, ?_,
      Nat.not_lt.mpr single, decimal w.seconds, ?_, ?_, (_, _), ?_,
      (total_eq_ok (Nat.pow_pos (by decide))).mpr ⟨h.fits, rfl⟩⟩
    · rw [three_components h.minutes_of_hours]
      exact fun ⟨given, large⟩ => Nat.not_le.mpr (h.minutes_lt given) large
    · rw [split]
      exact integer_eq_ok.mpr ⟨h.seconds, rfl⟩
    · rw [several_components h.minutes_of_hours]
      exact fun ⟨given, large⟩ => Nat.not_le.mpr (h.seconds_lt given) large
    · rw [split, places_eq]
      refine fractionPart_eq_ok.mpr ⟨?_, rfl, rfl⟩
      intro t mem
      obtain ⟨p, given, rfl⟩ := Option.map_eq_some_iff.mp mem
      exact ⟨(h.fraction p given).nonempty, (h.fraction p given).short, (h.fraction p given).digits⟩

/-! ### The value -/

/-- The seconds of a duration. -/
def Duration.value (d : Duration) : ℚ := d.numerator / d.denominator

theorem Duration.value_reduced {numerator denominator : ℕ} (nonzero : denominator ≠ 0) :
    (Duration.reduced numerator denominator).value = (numerator : ℚ) / denominator := by
  have lowest : (Duration.reduced numerator denominator).denominator ≠ 0 :=
    (Duration.lowest_reduced nonzero).denominator_ne
  unfold Duration.value
  rw [div_eq_div_iff (Nat.cast_ne_zero.mpr lowest) (Nat.cast_ne_zero.mpr nonzero)]
  exact_mod_cast Duration.reduced_value nonzero

theorem Duration.Lowest.eq_of_value_eq {d d' : Duration} (h : d.Lowest) (h' : d'.Lowest)
    (same : d.value = d'.value) : d = d' := by
  unfold Duration.value at same
  rw [div_eq_div_iff (Nat.cast_ne_zero.mpr h.denominator_ne) (Nat.cast_ne_zero.mpr h'.denominator_ne)]
    at same
  exact h.eq_of_value h' (by exact_mod_cast same)

theorem Written.value_scaled (w : Written) :
    (w.scaled : ℚ) / (10 ^ places w.fraction : ℕ) = w.length := by
  have power : (10 ^ places w.fraction : ℚ) ≠ 0 := pow_ne_zero _ (by norm_num)
  unfold Written.scaled Written.length
  push_cast
  rw [add_div, mul_div_cancel_right₀ _ power]

theorem Duration.toFramesFloor_eq {rate : ℕ} (lowest : d.Lowest)
    (narrow : d.numerator < 2 ^ 64) (rate_lt : rate < 2 ^ 32) :
    d.toFramesFloor rate = some (if ⌊d.value * rate⌋₊ < 2 ^ 64 then .ok ⌊d.value * rate⌋₊
      else .error .overflow) := by
  have product : d.numerator * rate < 2 ^ 128 := by
    have := Nat.mul_le_mul (Nat.le_of_lt narrow) (Nat.le_of_lt rate_lt)
    omega
  have floor : ⌊d.value * rate⌋₊ = d.numerator * rate / d.denominator := by
    unfold Duration.value
    rw [div_mul_eq_mul_div, ← Nat.cast_mul, Nat.floor_div_eq_div]
  unfold Duration.toFramesFloor
  rw [checkedMul_eq_some.mpr ⟨product, rfl⟩, floor]
  simp only [if_neg lowest.denominator_ne]
  split <;> rfl

theorem narrow_of_parse {input : Text} (ok : Duration.parse input = .ok d) :
    d.numerator < 2 ^ 64 := by
  obtain ⟨w, h, -, rfl⟩ := parse_eq_ok.mp ok
  exact Nat.lt_of_le_of_lt (Nat.div_le_self _ _) h.fits

/-- A duration too long to be counted in 64-bit frames. -/
theorem long_duration_overflows : ∃ d, Duration.parse "18446744073709551615".toList = .ok d ∧
    d.value = 18446744073709551615 ∧ d.toFramesFloor 2 = some (.error .overflow) := by
  refine ⟨⟨18446744073709551615, 1⟩, by decide +kernel, ?_, by decide +kernel⟩
  simp [Duration.value]

/-- The parser accepts exactly the texts of the grammar, and gives each its seconds in lowest terms;
the frames of the result are the floor of the exact product wherever that fits 64 bits. -/
theorem parse_exact (input : Text) (d : Duration) :
    (Duration.parse input = .ok d ↔ ∃ w : Written, w.WellFormed ∧ trim input = w.text ∧
      d.Lowest ∧ d.value = w.length) ∧
    (Duration.parse input = .ok d → ∀ rate < 2 ^ 32,
      d.toFramesFloor rate = some (if ⌊d.value * rate⌋₊ < 2 ^ 64 then .ok ⌊d.value * rate⌋₊
        else .error .overflow)) := by
  have nonzero (w : Written) : 10 ^ places w.fraction ≠ 0 := (Nat.pow_pos (by decide)).ne'
  have accepted : Duration.parse input = .ok d ↔ ∃ w : Written, w.WellFormed ∧
      trim input = w.text ∧ d.Lowest ∧ d.value = w.length := by
    rw [parse_eq_ok]
    refine exists_congr fun w => and_congr_right fun _ => and_congr_right fun _ => ?_
    constructor
    · rintro rfl
      refine ⟨Duration.lowest_reduced (nonzero w), ?_⟩
      rw [Duration.value_reduced (nonzero w), w.value_scaled]
    · rintro ⟨lowest, same⟩
      apply lowest.eq_of_value_eq (Duration.lowest_reduced (nonzero w))
      rw [same, Duration.value_reduced (nonzero w), w.value_scaled]
  refine ⟨accepted, fun ok rate rate_lt => ?_⟩
  obtain ⟨_, -, -, lowest, -⟩ := accepted.mp ok
  exact Duration.toFramesFloor_eq lowest (narrow_of_parse ok) rate_lt

example : Duration.parse "1:02:03.125".toList = .ok ⟨29785, 8⟩ := by decide +kernel

/-! ### Every way to make a duration -/

/-- The ways to make a duration outside its module. -/
inductive Construction where
  | parse (input : Text)
  | fromRatio (numerator denominator : ℕ)
  | zero
  | default

/-- Makes the duration. -/
def Construction.make : Construction → Except DurationError Duration
  | .parse input => Duration.parse input
  | .fromRatio numerator denominator => Duration.fromRatio numerator denominator
  | .zero => .ok Duration.zero
  | .default => .ok Duration.default

theorem Construction.lowest_of_make {c : Construction} (given : c ≠ .default)
    (made : c.make = .ok d) : d.Lowest := by
  cases c with
  | parse input =>
    obtain ⟨w, -, -, rfl⟩ := parse_eq_ok.mp made
    exact Duration.lowest_reduced (Nat.pow_pos (by decide)).ne'
  | fromRatio numerator denominator =>
    have made : Duration.fromRatio numerator denominator = .ok d := made
    unfold Duration.fromRatio at made
    split at made
    next => cases made
    next nonzero =>
      cases made
      exact Duration.lowest_reduced nonzero
  | zero =>
    cases made
    exact Duration.lowest_zero
  | default => exact absurd rfl given

theorem Duration.toFramesFloor_ne_none (nonzero : d.denominator ≠ 0) (rate : ℕ) :
    d.toFramesFloor rate ≠ none := by
  unfold Duration.toFramesFloor
  cases checkedMul 128 d.numerator rate with
  | none => exact nofun
  | some product =>
    simp only [if_neg nonzero]
    split <;> exact nofun

/-- The derived default has no denominator, and its frames are a division by zero. -/
theorem default_not_reduced : ∃ d, Construction.default.make = .ok d ∧ d.denominator = 0 ∧
    d.toFramesFloor 44100 = none := ⟨Duration.default, rfl, rfl, by decide +kernel⟩

/-- A constructed duration is in lowest terms, and its frames can be counted, exactly where it is not
the derived default; and two such durations of one value are equal. -/
theorem constructed_lowest_iff (c : Construction) (d : Duration) (made : c.make = .ok d) :
    ((d.Lowest ∧ ∀ rate, d.toFramesFloor rate ≠ none) ↔ c ≠ .default) ∧
      (c ≠ .default → ∀ (c' : Construction) (d' : Duration), c' ≠ .default → c'.make = .ok d' →
        d.value = d'.value → d = d') := by
  constructor
  · constructor
    · rintro ⟨lowest, -⟩ rfl
      cases made
      exact lowest.denominator_ne rfl
    · intro given
      have lowest := Construction.lowest_of_make given made
      exact ⟨lowest, Duration.toFramesFloor_ne_none lowest.denominator_ne⟩
  · intro given c' d' given' made' same
    exact (Construction.lowest_of_make given made).eq_of_value_eq
      (Construction.lowest_of_make given' made') same

theorem constructed_lowest_six_fourths : ((⟨3, 2⟩ : Duration).Lowest ∧
    ∀ rate, (⟨3, 2⟩ : Duration).toFramesFloor rate ≠ none) :=
  (constructed_lowest_iff (.fromRatio 6 4) ⟨3, 2⟩ (by rfl)).1.mpr nofun

end Upse.Psf
