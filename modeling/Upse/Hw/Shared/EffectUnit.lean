import Upse.Lib.MemoryPrograms
import Upse.Support.Integers
import Mathlib.Data.Int.Notation
import Mathlib.Tactic.Linarith
import Mathlib.Tactic.NormNum
import Mathlib.Tactic.Ring

/-!
# The reverb effect unit

The two sound processors share the arithmetic of their effects: saturated samples, products of Q15
values, and circular addresses within a work area of the sound RAM.  The effect graph is the same as
well; they differ in the registers that hold its taps and volumes, and in how a tap becomes an address.
-/

namespace Upse.EffectUnit

open MemoryPrograms Program

/-- A signed 16-bit sample or volume. -/
abbrev Sample := BitVec 16

/-- The two channels. -/
inductive Channel where
  | left
  | right
  deriving DecidableEq, Repr

/-- One value for each channel. -/
abbrev Stereo := Channel → Sample

/-- The pair of a left and a right sample. -/
def stereo (left right : Sample) : Stereo
  | .left => left
  | .right => right

/-! ### Fixed-point operations -/

/-- `clamp_i16`, which `clamp_i64_to_i16` computes of a wider accumulator. -/
def clampI16 (value : ℤ) : Sample :=
  if value < -2 ^ 15 then BitVec.intMin 16
  else if 2 ^ 15 - 1 < value then BitVec.intMax 16
  else BitVec.ofInt 16 value

/-- `multiply_q15`. -/
def multiplyQ15 (left right : Sample) : ℤ := (left.toInt * right.toInt) >>> (15 : ℕ)

/-- `saturating_add` of 32-bit values. -/
def saturatingAddI32 (a b : ℤ) : ℤ := max (-2 ^ 31) (min (2 ^ 31 - 1) (a + b))

/-- An `i64` result, which panics where it overflows. -/
def i64 (value : ℤ) : Program ℤ :=
  if -2 ^ 63 ≤ value ∧ value < 2 ^ 63 then done value else panic

theorem i64_eq {value : ℤ} (lower : -2 ^ 63 ≤ value) (upper : value < 2 ^ 63) :
    i64 value = done value :=
  if_pos ⟨lower, upper⟩

theorem toInt_mul_bounds (a b : Sample) :
    -2 ^ 30 ≤ a.toInt * b.toInt ∧ a.toInt * b.toInt ≤ 2 ^ 30 := by
  have ha := BitVec.le_toInt a
  have ha' := BitVec.toInt_lt (x := a)
  have hb := BitVec.le_toInt b
  have hb' := BitVec.toInt_lt (x := b)
  norm_num at ha ha' hb hb'
  constructor <;> nlinarith

theorem multiplyQ15_bounds (a b : Sample) : -2 ^ 15 ≤ multiplyQ15 a b ∧ multiplyQ15 a b ≤ 2 ^ 15 := by
  have bounds := toInt_mul_bounds a b
  unfold multiplyQ15
  rw [Int.shiftRight_eq_div_pow]
  omega

/-! ### Circular addresses -/

/-- Circular byte address constrained to a caller-supplied effects area. -/
structure RingBufferAddress where
  base : ℕ
  length : ℕ
  position : ℕ
  deriving DecidableEq, Repr

namespace RingBufferAddress

/-- `RingBufferAddress::new`. -/
def new (base length : ℕ) : Option RingBufferAddress :=
  if length = 0 then none else some { base, length, position := 0 }

/-- `RingBufferAddress::get`. -/
def get (self : RingBufferAddress) : Option ℕ := checkedAdd 64 self.base self.position

/-- The position that `advance` computes; `none` where its unsigned arithmetic overflows. -/
def advancedPosition (self : RingBufferAddress) (offset : ℤ) : Option ℕ :=
  let distance := offset.natAbs % self.length
  if 0 ≤ offset then do
    let remaining ← checkedSub self.length self.position
    if remaining ≤ distance then checkedSub distance remaining
    else checkedAdd 64 self.position distance
  else if self.position < distance then do
    checkedSub self.length (← checkedSub distance self.position)
  else checkedSub self.position distance

/-- `RingBufferAddress::advance`. -/
def advance (self : RingBufferAddress) (offset : ℤ) : Option RingBufferAddress :=
  (self.advancedPosition offset).map fun position => { self with position }

/-- The address is inside its area, whose length is a `usize`. -/
structure Inside (address : RingBufferAddress) : Prop where
  position_lt : address.position < address.length
  length_lt : address.length < 2 ^ 64

variable {address : RingBufferAddress}

theorem inside_new {base length : ℕ} (made : new base length = some address)
    (fits : length < 2 ^ 64) : address.Inside := by
  unfold new at made
  split at made
  next => cases made
  next nonzero =>
    cases made
    exact ⟨Nat.pos_of_ne_zero nonzero, fits⟩

theorem toNat_emod {length position : ℕ} {offset : ℤ} {i : ℕ} (turns : ℤ) (lt : i < length)
    (same : position + offset = i + length * turns) : ((position + offset) % length).toNat = i := by
  rw [same, Int.add_mul_emod_self_left, Int.emod_eq_of_lt (by omega) (by omega)]
  rfl

/-- Every offset wraps to the Euclidean remainder, without overflow. -/
theorem advance_eq (h : address.Inside) (offset : ℤ) :
    address.advance offset =
      some { address with position := ((address.position + offset) % address.length).toNat } := by
  obtain ⟨base, length, position⟩ := address
  have inside : position < length := h.position_lt
  have fits : length < 2 ^ 64 := h.length_lt
  have short : offset.natAbs % length < length := Nat.mod_lt _ (by omega)
  have whole : (offset.natAbs : ℤ) = length * (offset.natAbs / length : ℕ) + (offset.natAbs % length : ℕ) := by
    exact_mod_cast (Nat.div_add_mod offset.natAbs length).symm
  suffices found : advancedPosition ⟨base, length, position⟩ offset =
      some ((position + offset) % length).toNat by
    rw [advance, found]
    rfl
  -- the distance within one turn either stays inside or crosses the end of the area
  unfold advancedPosition
  generalize offset.natAbs % length = distance at short whole ⊢
  generalize offset.natAbs / length = turns at whole
  dsimp only
  split
  next forward =>
    have size : (offset.natAbs : ℤ) = offset := Int.natAbs_of_nonneg forward
    rw [show checkedSub length position = some (length - position) from if_pos inside.le, Option.bind_eq_bind,
      Option.bind_some]
    split
    next crosses =>
      rw [checkedSub, if_pos crosses]
      refine congrArg some (toNat_emod (turns + 1) (by omega) ?_).symm
      rw [← size, whole, mul_add, mul_one]
      omega
    next stays =>
      rw [checkedAdd, if_pos (by omega)]
      refine congrArg some (toNat_emod turns (by omega) ?_).symm
      rw [← size, whole]
      omega
  next backward =>
    have size : offset = -(offset.natAbs : ℤ) := by omega
    split
    next crosses =>
      rw [show checkedSub distance position = some (distance - position) from if_pos crosses.le,
        Option.bind_eq_bind, Option.bind_some, checkedSub, if_pos (by omega)]
      refine congrArg some (toNat_emod (-(turns + 1)) (by omega) ?_).symm
      rw [size, whole, mul_neg, mul_add, mul_one]
      omega
    next stays =>
      rw [checkedSub, if_pos (by omega)]
      refine congrArg some (toNat_emod (-turns) (by omega) ?_).symm
      rw [size, whole, mul_neg]
      omega

theorem Inside.advance {address after : RingBufferAddress} (h : address.Inside) {offset : ℤ}
    (advanced : address.advance offset = some after) : after.Inside := by
  rw [advance_eq h] at advanced
  cases advanced
  have inside := h.position_lt
  have lt := Int.emod_lt_of_pos (address.position + offset) (by omega : (0 : ℤ) < address.length)
  refine ⟨?_, h.length_lt⟩
  show ((address.position + offset) % address.length).toNat < address.length
  omega

/-- An address as the source builds one; lengths are `usize`. -/
inductive Built : RingBufferAddress → Prop
  | new {base length : ℕ} {address : RingBufferAddress} (fits : length < 2 ^ 64) :
      RingBufferAddress.new base length = some address → Built address
  | advance {address after : RingBufferAddress} (offset : ℤ) :
      Built address → address.advance offset = some after → Built after

theorem Built.inside (h : Built address) : address.Inside := by
  induction h with
  | new fits made => exact inside_new made fits
  | advance offset _ advanced ih => exact ih.advance advanced

/-- The halfword at an even offset of an area of halfwords. -/
def IsHalfwordOf (base length address : ℕ) : Prop :=
  2 ∣ address ∧ base ≤ address ∧ address + 1 < base + length

/-- `new`, `advance` and `get` in turn. -/
def wrapped (base length : ℕ) (offset : ℤ) : Program ℕ := do
  let address ← expect (new base length)
  let address ← expect (address.advance offset)
  expect address.get

theorem wrapped_confined {base length : ℕ} {offset : ℤ} {P : ℕ → Prop} (evenBase : 2 ∣ base)
    (evenLength : 2 ∣ length) (even : 2 ∣ offset) (nonempty : 0 < length)
    (fits : base + length < 2 ^ 64) :
    (wrapped base length offset).Confined P (IsHalfwordOf base length) := by
  have made : new base length = some ⟨base, length, 0⟩ := if_neg nonempty.ne'
  have advanced := advance_eq (inside_new made (by omega)) offset
  dsimp only at advanced
  have lt := Int.emod_lt_of_pos (((0 : ℕ) : ℤ) + offset) (by omega : (0 : ℤ) < length)
  have nonneg := Int.emod_nonneg (((0 : ℕ) : ℤ) + offset) (by omega : (length : ℤ) ≠ 0)
  have evenPosition : (((0 : ℕ) : ℤ) + offset) % length % 2 = (((0 : ℕ) : ℤ) + offset) % 2 :=
    Int.emod_emod_of_dvd _ (by exact_mod_cast evenLength)
  generalize (((0 : ℕ) : ℤ) + offset) % length = position at advanced lt nonneg evenPosition
  have got : get ⟨base, length, position.toNat⟩ = some (base + position.toNat) := if_pos (by
    show base + position.toNat < 2 ^ 64
    omega)
  rw [wrapped, made, expect_some, done_bind, advanced, expect_some, done_bind, got]
  refine ⟨?_, ?_, ?_⟩ <;> omega

end RingBufferAddress

/-! ### The effect graph -/

/-- The taps of the graph, as the registers hold them. -/
structure Taps (ω : Type) where
  dApf1 : ω
  dApf2 : ω
  mLsame : ω
  mRsame : ω
  dLsame : ω
  dRsame : ω
  mLdiff : ω
  mRdiff : ω
  dLdiff : ω
  dRdiff : ω
  mLcomb : Vector ω 4
  mRcomb : Vector ω 4
  mLapf1 : ω
  mRapf1 : ω
  mLapf2 : ω
  mRapf2 : ω

/-- The volumes of the graph. -/
structure Volumes where
  iir : Sample
  comb : Vector Sample 4
  wall : Sample
  apf1 : Sample
  apf2 : Sample
  lin : Sample
  rin : Sample

/-- `read` and `write` of a processor: the access to the halfword of a tap, the extra offset in bytes. -/
structure WorkArea (ω : Type) where
  read : ω → ℤ → Program Sample
  write : ω → Sample → Program Unit

section Graph

variable {ω : Type} (area : WorkArea ω)

/-- `reflection`. -/
def reflection (input : Sample) (source destination : ω) (wallVolume iirVolume : Sample) :
    Program Sample := do
  let wall := multiplyQ15 (← area.read source 0) wallVolume
  let old ← area.read destination (-2)
  let incident := clampI16 (saturatingAddI32 input.toInt wall)
  let delta := clampI16 (incident.toInt - old.toInt)
  pure (clampI16 (saturatingAddI32 (multiplyQ15 delta iirVolume) old.toInt))

/-- The accumulator of `comb`. -/
def combSum : List (ω × Sample) → ℤ → Program ℤ
  | [], sum => pure sum
  | (source, volume) :: taps, sum => do
    let read ← area.read source 0
    combSum taps (← i64 (sum + multiplyQ15 read volume))

/-- `comb`. -/
def comb (sources : Vector ω 4) (volumes : Vector Sample 4) : Program Sample := do
  let accumulator ← combSum area (sources.toList.zip volumes.toList) 0
  pure (clampI16 accumulator)

/-- `all_pass`. -/
def allPass (input : Sample) (destination feedbackSource : ω) (volume : Sample) (writesEnabled : Bool) :
    Program Sample := do
  let feedback ← area.read feedbackSource 0
  let stored := clampI16 (input.toInt - multiplyQ15 feedback volume)
  if writesEnabled then area.write destination stored
  pure (clampI16 (saturatingAddI32 (multiplyQ15 stored volume) feedback.toInt))

/-- The reflections of the input, written after all four of them are computed. -/
def reflect (taps : Taps ω) (volumes : Volumes) (scaledLeft scaledRight : Sample) : Program Unit := do
  let leftSame ← reflection area scaledLeft taps.dLsame taps.mLsame volumes.wall volumes.iir
  let rightSame ← reflection area scaledRight taps.dRsame taps.mRsame volumes.wall volumes.iir
  let leftDifferent ← reflection area scaledLeft taps.dRdiff taps.mLdiff volumes.wall volumes.iir
  let rightDifferent ← reflection area scaledRight taps.dLdiff taps.mRdiff volumes.wall volumes.iir
  area.write taps.mLsame leftSame
  area.write taps.mRsame rightSame
  area.write taps.mLdiff leftDifferent
  area.write taps.mRdiff rightDifferent

/-- The comb filters and the all-pass filters, of either channel in turn. -/
def diffuse [Sub ω] (taps : Taps ω) (volumes : Volumes) (writesEnabled : Bool) : Program Stereo := do
  let leftComb ← comb area taps.mLcomb volumes.comb
  let rightComb ← comb area taps.mRcomb volumes.comb
  let left ← allPass area leftComb taps.mLapf1 (taps.mLapf1 - taps.dApf1) volumes.apf1 writesEnabled
  let right ← allPass area rightComb taps.mRapf1 (taps.mRapf1 - taps.dApf1) volumes.apf1 writesEnabled
  let left ← allPass area left taps.mLapf2 (taps.mLapf2 - taps.dApf2) volumes.apf2 writesEnabled
  let right ← allPass area right taps.mRapf2 (taps.mRapf2 - taps.dApf2) volumes.apf2 writesEnabled
  pure (stereo left right)

/-- The graph of the effects, without the step of the cursor that follows it. -/
def graph [Sub ω] (taps : Taps ω) (volumes : Volumes) (writesEnabled : Bool) (input : Stereo) :
    Program Stereo := do
  let scaledLeft := clampI16 (multiplyQ15 (input .left) volumes.lin)
  let scaledRight := clampI16 (multiplyQ15 (input .right) volumes.rin)
  if writesEnabled then reflect area taps volumes scaledLeft scaledRight
  diffuse area taps volumes writesEnabled

end Graph

section Confinement

variable {ω : Type} {area : WorkArea ω} {P : ℕ → Prop}

/-- Every tap finds its halfword at an address of `P`. -/
structure WorkArea.Confined (area : WorkArea ω) (P : ℕ → Prop) : Prop where
  read : ∀ tap extra, extra = 0 ∨ extra = -2 → (area.read tap extra).Confined P fun _ => True
  write : ∀ tap value, (area.write tap value).Confined P fun _ => True

theorem WorkArea.Confined.reflection (h : area.Confined P) (input : Sample) (source destination : ω)
    (wallVolume iirVolume : Sample) :
    (reflection area input source destination wallVolume iirVolume).Confined P fun _ => True := by
  refine (h.read source 0 (.inl rfl)).bind fun wall _ => ?_
  exact (h.read destination (-2) (.inr rfl)).bind fun old _ => trivial

theorem WorkArea.Confined.combSum (h : area.Confined P) (taps : List (ω × Sample)) (sum : ℤ)
    (lower : -2 ^ 62 + 2 ^ 15 * taps.length ≤ sum) (upper : sum + 2 ^ 15 * taps.length < 2 ^ 62) :
    (combSum area taps sum).Confined P fun _ => True := by
  induction taps generalizing sum with
  | nil => trivial
  | cons tap taps ih =>
    rw [List.length_cons] at lower upper
    refine (h.read tap.1 0 (.inl rfl)).bind fun read _ => ?_
    have product := multiplyQ15_bounds read tap.2
    push_cast at lower upper
    rw [i64_eq (by omega) (by omega), done_bind]
    exact ih _ (by omega) (by omega)

theorem WorkArea.Confined.comb (h : area.Confined P) (sources : Vector ω 4) (volumes : Vector Sample 4) :
    (comb area sources volumes).Confined P fun _ => True := by
  have short : (sources.toList.zip volumes.toList).length = 4 := by simp
  exact (h.combSum _ 0 (by omega) (by omega)).bind fun _ _ => trivial

theorem WorkArea.Confined.allPass (h : area.Confined P) (input : Sample) (destination feedbackSource : ω)
    (volume : Sample) (writesEnabled : Bool) :
    (allPass area input destination feedbackSource volume writesEnabled).Confined P fun _ => True := by
  refine (h.read feedbackSource 0 (.inl rfl)).bind fun feedback _ => ?_
  cases writesEnabled with
  | true => exact (h.write destination _).bind fun _ _ => trivial
  | false => trivial

theorem WorkArea.Confined.reflect (h : area.Confined P) (taps : Taps ω) (volumes : Volumes)
    (scaledLeft scaledRight : Sample) :
    (reflect area taps volumes scaledLeft scaledRight).Confined P fun _ => True := by
  refine (h.reflection _ _ _ _ _).bind fun _ _ => ?_
  refine (h.reflection _ _ _ _ _).bind fun _ _ => ?_
  refine (h.reflection _ _ _ _ _).bind fun _ _ => ?_
  refine (h.reflection _ _ _ _ _).bind fun _ _ => ?_
  refine (h.write _ _).bind fun _ _ => ?_
  refine (h.write _ _).bind fun _ _ => ?_
  exact (h.write _ _).bind fun _ _ => h.write _ _

theorem WorkArea.Confined.diffuse [Sub ω] (h : area.Confined P) (taps : Taps ω) (volumes : Volumes)
    (writesEnabled : Bool) : (diffuse area taps volumes writesEnabled).Confined P fun _ => True := by
  refine (h.comb _ _).bind fun _ _ => ?_
  refine (h.comb _ _).bind fun _ _ => ?_
  refine (h.allPass _ _ _ _ _).bind fun _ _ => ?_
  refine (h.allPass _ _ _ _ _).bind fun _ _ => ?_
  refine (h.allPass _ _ _ _ _).bind fun _ _ => ?_
  exact (h.allPass _ _ _ _ _).bind fun _ _ => trivial

theorem WorkArea.Confined.graph [Sub ω] (h : area.Confined P) (taps : Taps ω) (volumes : Volumes)
    (writesEnabled : Bool) (input : Stereo) :
    (graph area taps volumes writesEnabled input).Confined P fun _ => True := by
  cases writesEnabled with
  | true => exact (h.reflect taps volumes _ _).bind fun _ _ => h.diffuse taps volumes true
  | false => exact h.diffuse taps volumes false

end Confinement

end Upse.EffectUnit
