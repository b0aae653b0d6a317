import Upse.Hw.Shared.EffectUnit
import Mathlib.Logic.Function.Iterate
import Mathlib.Algebra.Order.Ring.Int

/-!
# Envelopes

An envelope changes its level by steps that are some clocks apart, both of which depend on the phase and
the level.  `advance` takes the clocks up to the next step in one go; it is the same as clock after clock,
so how calls divide the time does not matter, and the phases are a matter of single clocks.
-/

namespace Upse.Adsr

open EffectUnit

/-- A product of 32-bit values, which panics where it overflows. -/
def mulI32 (a b : ℤ) : Option ℤ := if -2 ^ 31 ≤ a * b ∧ a * b < 2 ^ 31 then some (a * b) else none

/-- `saturating_mul` of 32-bit values. -/
def saturatingMulI32 (a b : ℤ) : ℤ := max (-2 ^ 31) (min (2 ^ 31 - 1) (a * b))

/-- `EnvelopeRate`. -/
structure EnvelopeRate where
  shift : ℕ
  step : ℤ
  deriving DecidableEq, Repr

namespace EnvelopeRate

/-- `EnvelopeRate::new`. -/
def new (shift : ℕ) (step : ℤ) : EnvelopeRate where
  shift := if 31 < shift then 31 else shift
  step := step

/-- `interval`. -/
def interval (self : EnvelopeRate) (level : ℕ) (exponentialIncrease : Bool) : ℕ :=
  let interval := if 11 < self.shift then 2 ^ (self.shift - 11) else 1
  if exponentialIncrease && 0x6000 < level then min u64Max (interval * 4) else interval

/-- `delta`; `none` is an overflow. -/
def delta (self : EnvelopeRate) (level : ℕ) (exponentialDecrease : Bool) : Option ℤ :=
  let delta := if self.shift < 11 then saturatingMulI32 self.step (2 ^ (11 - self.shift)) else self.step
  if exponentialDecrease then do
    let delta := (← mulI32 delta level) >>> (15 : ℕ)
    pure (if delta = 0 ∧ level ≠ 0 ∧ self.step < 0 then -1 else delta)
  else pure delta

end EnvelopeRate

/-- `EnvelopePhase`. -/
inductive EnvelopePhase where
  | off
  | attack
  | decay
  | sustain
  | release
  deriving DecidableEq, Repr

/-- `EnvelopeConfig`. -/
structure EnvelopeConfig where
  attack : EnvelopeRate
  attackExponential : Bool
  decay : EnvelopeRate
  sustainLevel : ℕ
  sustain : EnvelopeRate
  sustainDecrease : Bool
  sustainExponential : Bool
  release : EnvelopeRate
  releaseExponential : Bool
  deriving DecidableEq, Repr

/-- `EnvelopeConfig::from_registers`. -/
def EnvelopeConfig.fromRegisters (low high : BitVec 16) : EnvelopeConfig :=
  let attackStep : ℤ := 7 - (low.extractLsb' 8 2).toNat
  let sustainDecrease := high.getLsbD 14
  let sustainIndex : ℤ := (high.extractLsb' 6 2).toNat
  let sustainStep := if sustainDecrease then -8 + sustainIndex else 7 - sustainIndex
  { attack := .new (low.extractLsb' 10 5).toNat attackStep
    attackExponential := low.getLsbD 15
    decay := .new (low.extractLsb' 4 4).toNat (-8)
    sustainLevel := min (((low.extractLsb' 0 4).toNat + 1) * 0x0800) 0x7fff
    sustain := .new (high.extractLsb' 8 5).toNat sustainStep
    sustainDecrease
    sustainExponential := high.getLsbD 15
    release := .new (high.extractLsb' 0 5).toNat (-8)
    releaseExponential := high.getLsbD 5 }

/-- `Envelope`. -/
structure Envelope where
  level : ℕ
  phase : EnvelopePhase
  clocksUntilStep : ℕ
  deriving DecidableEq, Repr

namespace Envelope

/-- `Envelope::new`. -/
def new : Envelope := { level := 0, phase := .off, clocksUntilStep := 0 }

/-- `key_on`. -/
def keyOn (_ : Envelope) : Envelope := { level := 0, phase := .attack, clocksUntilStep := 0 }

/-- `key_off`. -/
def keyOff (self : Envelope) : Envelope :=
  if self.phase ≠ .off then { self with phase := .release, clocksUntilStep := 0 } else self

variable (config : EnvelopeConfig)

/-- `current_interval`. -/
def currentInterval (self : Envelope) : ℕ :=
  match self.phase with
  | .attack => config.attack.interval self.level config.attackExponential
  | .decay => config.decay.interval self.level false
  | .sustain => config.sustain.interval self.level (config.sustainExponential && !config.sustainDecrease)
  | .release => config.release.interval self.level false
  | .off => 1

/-- The change of the level at a step. -/
def stepDelta (self : Envelope) : Option ℤ :=
  match self.phase with
  | .attack => config.attack.delta self.level false
  | .decay => config.decay.delta self.level true
  | .sustain => config.sustain.delta self.level (config.sustainExponential && config.sustainDecrease)
  | .release => config.release.delta self.level config.releaseExponential
  | .off => some 0

/-- The phase after a step that has reached a level. -/
def nextPhase (phase : EnvelopePhase) (level : ℕ) : EnvelopePhase :=
  match phase with
  | .attack => if level = 0x7fff then .decay else .attack
  | .decay => if level ≤ config.sustainLevel then .sustain else .decay
  | .release => if level = 0 then .off else .release
  | phase => phase

/-- `apply_step`. -/
def applyStep (self : Envelope) : Option Envelope := do
  let delta ← self.stepDelta config
  let next := max 0 (min 0x7fff (saturatingAddI32 self.level delta))
  let level := next.toNat
  pure { self with level, phase := nextPhase config self.phase level }

/-- The clocks up to the next step. -/
def untilStep (self : Envelope) : ℕ :=
  if self.clocksUntilStep = 0 then self.currentInterval config else self.clocksUntilStep

/-- The envelope some clocks nearer to its step, which applies if it is due. -/
def elapse (self : Envelope) (elapsed : ℕ) : Option Envelope :=
  let self := { self with clocksUntilStep := self.untilStep config - elapsed }
  if self.clocksUntilStep = 0 then self.applyStep config else some self

theorem interval_pos (rate : EnvelopeRate) (level : ℕ) (exponential : Bool) :
    0 < rate.interval level exponential := by
  unfold EnvelopeRate.interval
  have positive : 0 < if 11 < rate.shift then 2 ^ (rate.shift - 11) else 1 := by
    split
    next => exact Nat.two_pow_pos _
    next => exact Nat.one_pos
  dsimp only
  generalize (if 11 < rate.shift then 2 ^ (rate.shift - 11) else 1) = interval at positive ⊢
  split
  next =>
    unfold u64Max
    omega
  next => exact positive

theorem untilStep_pos (self : Envelope) : 0 < self.untilStep config := by
  unfold untilStep
  split
  next =>
    unfold currentInterval
    split
    case h_5 => exact Nat.one_pos
    all_goals exact interval_pos _ _ _
  next nonzero => exact Nat.pos_of_ne_zero nonzero

/-- `advance`; `none` is an overflow in a step. -/
def advance (self : Envelope) (clocks : ℕ) : Option Envelope :=
  if _running : clocks ≠ 0 ∧ self.phase ≠ .off then do
    let elapsed := min clocks (self.untilStep config)
    advance (← self.elapse config elapsed) (clocks - elapsed)
  else some self
termination_by clocks
decreasing_by
  have := untilStep_pos config self
  omega

/-! ### Clocks -/

section Clocks

variable {config} {self : Envelope} {clocks : ℕ}

theorem advance_zero : self.advance config 0 = some self := by
  rw [advance, dif_neg fun running => running.1 rfl]

theorem advance_off (off : self.phase = .off) : self.advance config clocks = some self := by
  rw [advance, dif_neg fun running => running.2 off]

theorem advance_running (some_clocks : clocks ≠ 0) (on : self.phase ≠ .off) :
    self.advance config clocks = (self.elapse config (min clocks (self.untilStep config))).bind
      fun next => next.advance config (clocks - min clocks (self.untilStep config)) := by
  rw [advance, dif_pos ⟨some_clocks, on⟩]
  rfl

theorem advance_one (on : self.phase ≠ .off) : self.advance config 1 = self.elapse config 1 := by
  have positive := untilStep_pos config self
  rw [advance_running (by decide) on, Nat.min_eq_left (by omega), Nat.sub_self]
  simp only [advance_zero, Option.bind_fun_some]

/-- The first of the clocks can be taken by itself. -/
theorem advance_succ : self.advance config (clocks + 1) =
    (self.advance config 1).bind fun next => next.advance config clocks := by
  by_cases on : self.phase = .off
  · rw [advance_off on, advance_off on, Option.bind_some, advance_off on]
  · rw [advance_one on, advance_running (by omega) on]
    have positive := untilStep_pos config self
    by_cases due : self.untilStep config = 1
    · rw [due, Nat.min_eq_right (by omega), Nat.add_sub_cancel]
    · -- the step is due later: the clocks that follow the first go on with what is left of the interval
      have short : self.elapse config 1 =
          some { self with clocksUntilStep := self.untilStep config - 1 } :=
        if_neg (by
          show self.untilStep config - 1 ≠ 0
          omega)
      rw [short, Option.bind_some]
      cases clocks with
      | zero =>
        rw [zero_add, Nat.min_eq_left (by omega), short, Option.bind_some, Nat.sub_self]
      | succ clocks =>
        have rest : { self with clocksUntilStep := self.untilStep config - 1 : Envelope }.untilStep config =
            self.untilStep config - 1 := if_neg (by
          show self.untilStep config - 1 ≠ 0
          omega)
        have still : { self with clocksUntilStep := self.untilStep config - 1 : Envelope }.phase ≠ .off := on
        rw [advance_running (by omega) still, rest]
        have later : min (clocks + 1 + 1) (self.untilStep config) =
          min (clocks + 1) (self.untilStep config - 1) + 1 := by omega
        rw [later, Nat.add_sub_add_right]
        refine congrArg (Option.bind · _) ?_
        unfold elapse
        rw [rest, Nat.sub_sub, Nat.add_comm 1]

theorem advance_add (self : Envelope) (a b : ℕ) : self.advance config (a + b) =
    (self.advance config a).bind fun next => next.advance config b := by
  induction a generalizing self with
  | zero => rw [zero_add, advance_zero, Option.bind_some]
  | succ a ih =>
    rw [Nat.add_right_comm, @advance_succ config self (a + b), @advance_succ config self a, Option.bind_assoc]
    exact congrArg _ (funext ih)

end Clocks

end Envelope

/-!
## Progress of envelopes

With what the registers can hold, no step overflows, and each step of the attack, the decay and the
release moves the level towards the end of its phase.  The clocks up to the next step and the distance of
the level make a rank that every clock of such a phase lowers, so each of them ends.
-/

/-! ### Rates -/

/-- A rate that the registers can hold. -/
structure EnvelopeRate.Bounded (rate : EnvelopeRate) : Prop where
  shift_le : rate.shift ≤ 31
  le_step : -8 ≤ rate.step
  step_le : rate.step ≤ 7

/-- What the registers can hold. -/
structure EnvelopeConfig.Decoded (config : EnvelopeConfig) : Prop where
  attack : config.attack.Bounded
  attack_rises : 0 < config.attack.step
  decay : config.decay.Bounded
  decay_falls : config.decay.step < 0
  sustain : config.sustain.Bounded
  release : config.release.Bounded
  release_falls : config.release.step < 0

theorem EnvelopeRate.bounded_new {shift : ℕ} {step : ℤ} (lower : -8 ≤ step) (upper : step ≤ 7) :
    (EnvelopeRate.new shift step).Bounded where
  shift_le := by
    unfold EnvelopeRate.new
    dsimp only
    split <;> omega
  le_step := lower
  step_le := upper

theorem decoded_fromRegisters (low high : BitVec 16) : (EnvelopeConfig.fromRegisters low high).Decoded := by
  have attackIndex := (low.extractLsb' 8 2).isLt
  have sustainIndex := (high.extractLsb' 6 2).isLt
  exact {
    attack := EnvelopeRate.bounded_new (by omega) (by omega)
    attack_rises := by
      show (0 : ℤ) < 7 - (low.extractLsb' 8 2).toNat
      omega
    decay := EnvelopeRate.bounded_new (by decide) (by decide)
    decay_falls := by
      show (-8 : ℤ) < 0
      decide
    sustain := EnvelopeRate.bounded_new (by split <;> omega) (by split <;> omega)
    release := EnvelopeRate.bounded_new (by decide) (by decide)
    release_falls := by
      show (-8 : ℤ) < 0
      decide }

theorem EnvelopeRate.Bounded.interval_le {rate : EnvelopeRate} (h : rate.Bounded) (level : ℕ)
    (exponential : Bool) : rate.interval level exponential ≤ 2 ^ 22 := by
  have shift := h.shift_le
  have power : 2 ^ (rate.shift - 11) ≤ 2 ^ 20 := Nat.pow_le_pow_right (by decide) (by omega)
  have base : (if 11 < rate.shift then 2 ^ (rate.shift - 11) else 1) ≤ 2 ^ 20 := by
    split
    next => exact power
    next => decide
  unfold interval
  dsimp only
  generalize (if 11 < rate.shift then 2 ^ (rate.shift - 11) else 1) = interval at base ⊢
  split <;> omega

theorem EnvelopeRate.Bounded.scaled {rate : EnvelopeRate} (h : rate.Bounded) :
    ∃ scaled : ℤ, (if rate.shift < 11 then saturatingMulI32 rate.step (2 ^ (11 - rate.shift)) else rate.step) =
        scaled ∧ -2 ^ 14 ≤ scaled ∧ scaled < 2 ^ 14 ∧ (0 < rate.step → 0 < scaled) ∧
      (rate.step < 0 → scaled < 0) := by
  have lower := h.le_step
  have upper := h.step_le
  refine ⟨_, rfl, ?_⟩
  split
  next =>
    have positive : (1 : ℤ) ≤ 2 ^ (11 - rate.shift) := one_le_pow₀ (by decide)
    have bound : (2 : ℤ) ^ (11 - rate.shift) ≤ 2 ^ 11 := pow_le_pow_right₀ (by decide) (by omega)
    unfold saturatingMulI32
    generalize (2 : ℤ) ^ (11 - rate.shift) = magnitude at positive bound ⊢
    generalize rate.step = step at lower upper ⊢
    have low : -2 ^ 14 ≤ step * magnitude := by nlinarith
    have high : step * magnitude < 2 ^ 14 := by nlinarith
    have rises : 0 < step → 0 < step * magnitude := fun rising => by nlinarith
    have falls : step < 0 → step * magnitude < 0 := fun falling => by nlinarith
    generalize step * magnitude = scaled at low high rises falls ⊢
    rw [min_eq_right (by omega), max_eq_right (by omega)]
    exact ⟨low, high, rises, falls⟩
  next => exact ⟨by omega, by omega, id, id⟩

/-- A change does not overflow, and it goes the way of its step; only a level of zero stays. -/
theorem EnvelopeRate.Bounded.delta {rate : EnvelopeRate} (h : rate.Bounded) {level : ℕ}
    (fits : level ≤ 0x7fff) (exponential : Bool) :
    ∃ delta, rate.delta level exponential = some delta ∧ -2 ^ 14 ≤ delta ∧ delta ≤ 2 ^ 14 ∧
      (0 < rate.step → exponential = false → 0 < delta) ∧ (rate.step < 0 → delta ≤ 0) ∧
      (rate.step < 0 → level ≠ 0 → delta < 0) := by
  obtain ⟨scaled, same, lower, upper, rises, falls⟩ := h.scaled
  unfold EnvelopeRate.delta
  rw [same]
  cases exponential with
  | false =>
    refine ⟨scaled, rfl, lower, upper.le, fun rising _ => rises rising, fun falling => ?_,
      fun falling _ => falls falling⟩
    have := falls falling
    omega
  | true =>
    have low : -2 ^ 29 ≤ scaled * level := by nlinarith
    have high : scaled * level ≤ 2 ^ 29 := by nlinarith
    have sign : rate.step < 0 → level ≠ 0 → scaled * level < 0 := fun falling nonzero => by
      have := falls falling
      have : 0 < level := Nat.pos_of_ne_zero nonzero
      nlinarith
    have zero : level = 0 → scaled * level = 0 := fun none => by rw [none, Nat.cast_zero, mul_zero]
    rw [if_pos rfl, mulI32, if_pos ⟨by omega, by omega⟩]
    generalize scaled * level = product at low high sign zero ⊢
    refine ⟨_, rfl, ?_⟩
    rw [Int.shiftRight_eq_div_pow]
    have quotient : product / (2 ^ 15 : ℕ) = product / 32768 := rfl
    rw [quotient]
    split
    next stuck =>
      refine ⟨by decide, by decide, fun _ exponential => Bool.noConfusion exponential, fun _ => by decide,
        fun _ _ => by decide⟩
    next moves =>
      refine ⟨by omega, by omega, fun _ exponential => Bool.noConfusion exponential, fun falling => ?_,
        fun falling nonzero => ?_⟩
      · rcases Nat.eq_zero_or_pos level with none | some_level
        · have := zero none
          omega
        · have := sign falling (by omega)
          omega
      · have := sign falling nonzero
        omega

/-! ### Steps -/

/-- How a phase ends. -/
def Exits (config : EnvelopeConfig) (phase : EnvelopePhase) (t : Envelope) : Prop :=
  match phase with
  | .attack => t.phase = .decay ∧ t.level = 0x7fff
  | .decay => t.phase = .sustain ∧ t.level ≤ config.sustainLevel
  | .release => t.phase = .off ∧ t.level = 0
  | _ => False

/-- The distance of the level from the end of the phase. -/
def distance (s : Envelope) : ℕ :=
  match s.phase with
  | .attack => 0x7fff - s.level
  | .decay => s.level
  | .release => s.level
  | _ => 0

/-- The phases that end by themselves. -/
def EnvelopePhase.Ends (phase : EnvelopePhase) : Prop := phase = .attack ∨ phase = .decay ∨ phase = .release

/-- The level and the time of an envelope that is in use. -/
structure Envelope.Valid (s : Envelope) : Prop where
  level_le : s.level ≤ 0x7fff
  clocks_le : s.clocksUntilStep ≤ 2 ^ 22

section Steps

variable {config : EnvelopeConfig} {s : Envelope}

theorem stepDelta_spec (decoded : config.Decoded) (fits : s.level ≤ 0x7fff) :
    ∃ delta, s.stepDelta config = some delta ∧ -2 ^ 14 ≤ delta ∧ delta ≤ 2 ^ 14 ∧
      (s.phase = .attack → 0 < delta) ∧
      (s.phase = .decay ∨ s.phase = .release → delta ≤ 0 ∧ (s.level ≠ 0 → delta < 0)) := by
  unfold Envelope.stepDelta
  cases s.phase with
  | off => exact ⟨0, rfl, by decide, by decide, nofun, nofun⟩
  | attack =>
    obtain ⟨delta, same, lower, upper, rises, -, -⟩ := decoded.attack.delta fits false
    exact ⟨delta, same, lower, upper, fun _ => rises decoded.attack_rises rfl, nofun⟩
  | decay =>
    obtain ⟨delta, same, lower, upper, -, down, falls⟩ := decoded.decay.delta fits true
    exact ⟨delta, same, lower, upper, nofun, fun _ => ⟨down decoded.decay_falls, falls decoded.decay_falls⟩⟩
  | sustain =>
    obtain ⟨delta, same, lower, upper, -⟩ :=
      decoded.sustain.delta fits (config.sustainExponential && config.sustainDecrease)
    exact ⟨delta, same, lower, upper, nofun, nofun⟩
  | release =>
    obtain ⟨delta, same, lower, upper, -, down, falls⟩ := decoded.release.delta fits config.releaseExponential
    exact ⟨delta, same, lower, upper, nofun, fun _ => ⟨down decoded.release_falls,
      falls decoded.release_falls⟩⟩

/-- A step stays in range, and it ends its phase or comes nearer to the end. -/
theorem applyStep_spec (decoded : config.Decoded) (fits : s.level ≤ 0x7fff) :
    ∃ t, s.applyStep config = some t ∧ t.level ≤ 0x7fff ∧ t.clocksUntilStep = s.clocksUntilStep ∧
      (s.phase.Ends → Exits config s.phase t ∨ t.phase = s.phase ∧ distance t < distance s) := by
  obtain ⟨delta, same, lower, upper, rises, falls⟩ := stepDelta_spec decoded fits
  obtain ⟨level, next, range⟩ : ∃ level : ℕ, (max 0 (min 0x7fff (saturatingAddI32 s.level delta))).toNat = level ∧
      level ≤ 0x7fff ∧ (0 < delta → s.level < level ∨ level = 0x7fff) ∧
      (delta < 0 → level < s.level ∨ level = 0) ∧ (delta ≤ 0 → level ≤ s.level) := by
    refine ⟨_, rfl, ?_⟩
    unfold saturatingAddI32
    omega
  obtain ⟨bound, up, down, stay⟩ := range
  have stepped : s.applyStep config =
      some { s with level, phase := Envelope.nextPhase config s.phase level } := by
    rw [Envelope.applyStep, same, ← next]
    rfl
  refine ⟨_, stepped, bound, rfl, fun ends => ?_⟩
  unfold Exits distance Envelope.nextPhase
  dsimp only
  -- a level above zero comes down, and a level of zero ends the decay and the release
  rcases ends with phase | phase | phase
  · have := up (rises phase)
    rw [phase]
    dsimp only
    split
    next full => exact .inl ⟨rfl, full⟩
    next => exact .inr ⟨rfl, by dsimp only; omega⟩
  · obtain ⟨nonpos, negative⟩ := falls (.inl phase)
    have := stay nonpos
    rw [phase]
    dsimp only
    split
    next low => exact .inl ⟨rfl, low⟩
    next high =>
      refine .inr ⟨rfl, ?_⟩
      have := down (negative (by omega))
      dsimp only
      omega
  · obtain ⟨nonpos, negative⟩ := falls (.inr phase)
    have := stay nonpos
    rw [phase]
    dsimp only
    split
    next silent => exact .inl ⟨rfl, silent⟩
    next sounding =>
      refine .inr ⟨rfl, ?_⟩
      have := down (negative (by omega))
      dsimp only
      omega

theorem currentInterval_le (decoded : config.Decoded) (s : Envelope) : s.currentInterval config ≤ 2 ^ 22 := by
  unfold Envelope.currentInterval
  split
  case h_1 => exact decoded.attack.interval_le _ _
  case h_2 => exact decoded.decay.interval_le _ _
  case h_3 => exact decoded.sustain.interval_le _ _
  case h_4 => exact decoded.release.interval_le _ _
  case h_5 => decide

theorem Envelope.Valid.untilStep_le (valid : s.Valid) (decoded : config.Decoded) :
    s.untilStep config ≤ 2 ^ 22 := by
  unfold Envelope.untilStep
  split
  next => exact currentInterval_le decoded s
  next => exact valid.clocks_le

/-- The clocks that a phase may still take. -/
def rank (config : EnvelopeConfig) (s : Envelope) : ℕ := s.untilStep config + distance s * 2 ^ 22

theorem advance_one_spec (decoded : config.Decoded) (valid : s.Valid) :
    ∃ t, s.advance config 1 = some t ∧ t.Valid ∧
      (s.phase.Ends → Exits config s.phase t ∨ t.phase = s.phase ∧ rank config t < rank config s) := by
  by_cases on : s.phase = .off
  · refine ⟨s, Envelope.advance_off on, valid, fun ends => ?_⟩
    rw [on] at ends
    rcases ends with ends | ends | ends <;> cases ends
  rw [Envelope.advance_one on, Envelope.elapse]
  have positive := Envelope.untilStep_pos config s
  have bound := valid.untilStep_le decoded
  dsimp only
  by_cases due : s.untilStep config - 1 = 0
  · obtain ⟨t, stepped, level, clocks, moves⟩ := applyStep_spec decoded
      (show { s with clocksUntilStep := s.untilStep config - 1 : Envelope }.level ≤ 0x7fff from valid.level_le)
    have valid' : t.Valid := ⟨level, by rw [clocks]; dsimp only; omega⟩
    rw [if_pos due]
    refine ⟨t, stepped, valid', fun ends => (moves ends).imp_right fun ⟨same, nearer⟩ => ⟨same, ?_⟩⟩
    have next := valid'.untilStep_le decoded
    have nearer : distance t < distance s := nearer
    unfold rank
    omega
  · rw [if_neg due]
    refine ⟨_, rfl, ⟨valid.level_le, by dsimp only; omega⟩, fun _ => .inr ⟨rfl, ?_⟩⟩
    have left : { s with clocksUntilStep := s.untilStep config - 1 : Envelope }.untilStep config =
      s.untilStep config - 1 := if_neg due
    have still : distance { s with clocksUntilStep := s.untilStep config - 1 } = distance s := rfl
    unfold rank
    rw [left, still]
    omega

/-- The envelope remains in its phase until, at `clocks`, it is as the phase ends. -/
structure LeavesAt (config : EnvelopeConfig) (s : Envelope) (clocks : ℕ) : Prop where
  remains : ∀ before < clocks, ∃ t, s.advance config before = some t ∧ t.phase = s.phase
  exits : ∃ t, s.advance config clocks = some t ∧ Exits config s.phase t

theorem leaves (decoded : config.Decoded) (valid : s.Valid) (ends : s.phase.Ends) :
    ∃ clocks ≤ rank config s, LeavesAt config s clocks := by
  induction bound : rank config s using Nat.strong_induction_on generalizing s with
  | _ n ih =>
    obtain ⟨t, advanced, valid', moves⟩ := advance_one_spec decoded valid
    have here : ∃ t, s.advance config 0 = some t ∧ t.phase = s.phase := ⟨s, Envelope.advance_zero, rfl⟩
    rcases moves ends with exits | ⟨same, lower⟩
    · have positive := Envelope.untilStep_pos config s
      refine ⟨1, ?_, ⟨fun before early => ?_, t, advanced, exits⟩⟩
      · unfold rank at bound
        omega
      · rw [Nat.lt_one_iff.mp early]
        exact here
    · obtain ⟨clocks, within, remains, u, reached, exits⟩ :=
        ih (rank config t) (by omega) valid' (by rw [same]; exact ends) rfl
      refine ⟨clocks + 1, by omega, ⟨fun before early => ?_, u, ?_, by rw [← same]; exact exits⟩⟩
      · cases before with
        | zero => exact here
        | succ before =>
          rw [Envelope.advance_succ, advanced, Option.bind_some, ← same]
          exact remains before (by omega)
      · rw [Envelope.advance_succ, advanced, Option.bind_some]
        exact reached

theorem advance_spec (decoded : config.Decoded) (valid : s.Valid) (clocks : ℕ) :
    ∃ t, s.advance config clocks = some t ∧ t.Valid := by
  induction clocks generalizing s with
  | zero => exact ⟨s, Envelope.advance_zero, valid⟩
  | succ clocks ih =>
    obtain ⟨t, advanced, valid', -⟩ := advance_one_spec decoded valid
    rw [Envelope.advance_succ, advanced]
    exact ih valid'

end Steps

/-! ### Runs -/

/-- The envelopes that key switches and advances lead to, with registers that may change between them. -/
inductive Envelope.Reachable : Envelope → Prop
  | new : Reachable Envelope.new
  | keyOn {s : Envelope} : Reachable s → Reachable s.keyOn
  | keyOff {s : Envelope} : Reachable s → Reachable s.keyOff
  | advance {s t : Envelope} (low high : BitVec 16) (clocks : ℕ) : Reachable s →
      s.advance (.fromRegisters low high) clocks = some t → Reachable t

theorem Envelope.Valid.keyOn (s : Envelope) : s.keyOn.Valid := ⟨Nat.zero_le _, Nat.zero_le _⟩

theorem Envelope.Valid.keyOff {s : Envelope} (valid : s.Valid) : s.keyOff.Valid := by
  unfold Envelope.keyOff
  split
  next => exact ⟨valid.level_le, Nat.zero_le _⟩
  next => exact valid

theorem Envelope.Reachable.valid {s : Envelope} (h : s.Reachable) : s.Valid := by
  induction h with
  | new => exact ⟨by decide, by decide⟩
  | keyOn _ _ => exact .keyOn _
  | keyOff _ ih => exact ih.keyOff
  | advance low high clocks _ advanced ih =>
    obtain ⟨t, found, valid⟩ := advance_spec (decoded_fromRegisters low high) ih clocks
    cases Option.some.inj (found.symm.trans advanced)
    exact valid

theorem rank_lt {config : EnvelopeConfig} (decoded : config.Decoded) {s : Envelope} (valid : s.Valid) :
    rank config s < 2 ^ 64 := by
  have near := valid.untilStep_le decoded
  have level := valid.level_le
  have far : distance s ≤ 0x7fff := by
    unfold distance
    split <;> omega
  unfold rank
  omega

/-- The level of a reachable envelope is bounded, calls may divide the time as they like, and the phases
that end do so after finitely many clocks, with the level at their end. -/
theorem envelope_progress (s : Envelope) (reachable : s.Reachable) (low high : BitVec 16) :
    s.level ≤ 0x7fff ∧
    (∀ clocks, ∃ t, s.advance (.fromRegisters low high) clocks = some t ∧ t.level ≤ 0x7fff) ∧
    (∀ a b, (s.advance (.fromRegisters low high) a).bind (fun t => t.advance (.fromRegisters low high) b) =
      s.advance (.fromRegisters low high) (a + b)) ∧
    (s.phase = .attack ∨ s.phase = .decay ∨ s.phase = .release →
      ∃ clocks < 2 ^ 64, LeavesAt (.fromRegisters low high) s clocks) := by
  have valid := reachable.valid
  have decoded := decoded_fromRegisters low high
  refine ⟨valid.level_le, fun clocks => ?_, fun a b => (Envelope.advance_add s a b).symm, fun ends => ?_⟩
  · obtain ⟨t, advanced, valid'⟩ := advance_spec decoded valid clocks
    exact ⟨t, advanced, valid'.level_le⟩
  · obtain ⟨clocks, within, leaves⟩ := leaves decoded valid ends
    exact ⟨clocks, within.trans_lt (rank_lt decoded valid), leaves⟩

/-- An envelope that has just been keyed on. -/
theorem envelope_progress_keyOn :
    ∃ clocks < 2 ^ 64, LeavesAt (.fromRegisters 0x8f7a 0xc523) Envelope.new.keyOn clocks :=
  (envelope_progress Envelope.new.keyOn (.keyOn .new) 0x8f7a 0xc523).2.2.2 (.inl rfl)

end Upse.Adsr
