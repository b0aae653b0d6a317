import Upse.Hw.Shared.EffectUnit
import Upse.Lib.Rings
import Mathlib.Algebra.BigOperators.Fin
import Mathlib.Algebra.Order.BigOperators.Group.Finset

/-!
# The PS1 reverb

The effects run at half the sample rate.  A 39-tap half-band filter takes the wet send down to it and
the output back up; its zero taps are left out, and the two phases take turns.  The filters keep their
pasts in rings, and the graph works on the sound RAM from the reverb base to the end.
-/

namespace Upse.SpuReverb

open MemoryPrograms Program EffectUnit HistoryRings

/-- `SOUND_RAM_SIZE`. -/
def soundRamSize : ℕ := 512 * 1024

/-- `RESAMPLE_COEFFICIENTS`. -/
def resampleCoefficients : Vector ℤ 20 :=
  #v[-0x0001, 0x0002, -0x000a, 0x0023, -0x0067, 0x010a, -0x0268, 0x0534, -0x0b90, 0x2806,
    0x2806, -0x0b90, 0x0534, -0x0268, 0x010a, -0x0067, 0x0023, -0x000a, 0x0002, -0x0001]

/-- The reverb's cursor, input history and output history; the position wraps at the longer ring. -/
structure Reverb where
  currentAddress : ℕ
  resamplePosition : Fin 64
  downsampleHistory : Channel → Vector Sample 64
  upsampleHistory : Channel → Vector Sample 32

/-- What the sound processor passes with each sample. -/
structure Setup where
  baseRegister : BitVec 16
  registers : Vector (BitVec 16) 32
  writesEnabled : Bool

/-- `wrapping_sub` of `usize`. -/
def wrappingSub (a b : ℕ) : ℕ := (a + 2 ^ 64 - b) % 2 ^ 64

namespace Reverb

/-- `Reverb::new`. -/
def new : Reverb where
  currentAddress := 0
  resamplePosition := 0
  downsampleHistory _ := Vector.replicate 64 0
  upsampleHistory _ := Vector.replicate 32 0

/-- `set_base`. -/
def setBase (self : Reverb) (baseRegister : BitVec 16) : Reverb :=
  { self with currentAddress := baseRegister.toNat * 8 }

/-! ### The effect -/

/-- `memory_address`. -/
def memoryAddress (self : Reverb) (baseRegister offset : BitVec 16) (extra : ℤ) : Program ℕ := do
  let base := baseRegister.toNat * 8
  let length ← expect (checkedSub soundRamSize base)
  let current := self.currentAddress - base
  let current : ℤ := if current < 2 ^ 63 then current else 0
  RingBufferAddress.wrapped base length (← i64 ((← i64 (current + offset.toNat * 8)) + extra))

/-- `read`. -/
def read (self : Reverb) (baseRegister offset : BitVec 16) (extra : ℤ) : Program Sample := do
  loadHalf (← self.memoryAddress baseRegister offset extra)

/-- `write`. -/
def write (self : Reverb) (baseRegister offset : BitVec 16) (value : Sample) : Program Unit := do
  storeHalf (← self.memoryAddress baseRegister offset 0) value

/-- The work area of a base register. -/
def workArea (self : Reverb) (baseRegister : BitVec 16) : WorkArea (BitVec 16) where
  read := self.read baseRegister
  write := self.write baseRegister

/-- The taps among the registers. -/
def taps (registers : Vector (BitVec 16) 32) : Taps (BitVec 16) where
  dApf1 := registers[0]
  dApf2 := registers[1]
  mLsame := registers[10]
  mRsame := registers[11]
  dLsame := registers[16]
  dRsame := registers[17]
  mLdiff := registers[18]
  mRdiff := registers[19]
  dLdiff := registers[24]
  dRdiff := registers[25]
  mLcomb := #v[registers[12], registers[14], registers[20], registers[22]]
  mRcomb := #v[registers[13], registers[15], registers[21], registers[23]]
  mLapf1 := registers[26]
  mRapf1 := registers[27]
  mLapf2 := registers[28]
  mRapf2 := registers[29]

/-- The volumes among the registers. -/
def volumes (registers : Vector (BitVec 16) 32) : Volumes where
  iir := registers[2]
  comb := #v[registers[3], registers[4], registers[5], registers[6]]
  wall := registers[7]
  apf1 := registers[8]
  apf2 := registers[9]
  lin := registers[30]
  rin := registers[31]

/-- The cursor after a tick of the effect. -/
def advanceCursor (self : Reverb) (baseRegister : BitVec 16) : Reverb :=
  let next := self.currentAddress + 2
  { self with currentAddress := if soundRamSize ≤ next then baseRegister.toNat * 8 else next }

/-- `effect_tick`. -/
def effectTick (self : Reverb) (setup : Setup) (input : Stereo) : Program (Stereo × Reverb) := do
  let output ← graph (self.workArea setup.baseRegister) (taps setup.registers) (volumes setup.registers)
    setup.writesEnabled input
  pure (output, self.advanceCursor setup.baseRegister)

/-! ### The resamplers -/

/-- The sum that a filter accumulates of the products of the coefficients. -/
def accumulate (sample : Fin 20 → Sample) (start : ℤ) : Program ℤ :=
  (List.finRange 20).foldlM (fun sum tap => i64 (sum + (sample tap).toInt * resampleCoefficients[tap])) start

/-- `downsample` of a channel. -/
def downsampleChannel (self : Reverb) (channel : Channel) : Program Sample := do
  let start := wrappingSub self.resamplePosition 38 % 64
  let accumulator ← accumulate (fun tap => (self.downsampleHistory channel)[(start + tap * 2) % 64]) 0
  let centre := (start + 19) % 64
  let accumulator ← i64 (accumulator + (self.downsampleHistory channel)[centre].toInt * 0x4000)
  pure (clampI16 (accumulator >>> (15 : ℕ)))

/-- `downsample`. -/
def downsample (self : Reverb) : Program Stereo := do
  let left ← self.downsampleChannel .left
  let right ← self.downsampleChannel .right
  pure (stereo left right)

/-- `centre_upsample_phase`. -/
def centreUpsamplePhase (self : Reverb) : Stereo :=
  let index := wrappingSub (self.resamplePosition / 2) 10 % 32
  fun channel => (self.upsampleHistory channel)[index]

/-- `fir_upsample_phase` of a channel. -/
def firUpsampleChannel (self : Reverb) (channel : Channel) : Program Sample := do
  let start := wrappingSub (self.resamplePosition / 2) 19 % 32
  let accumulator ← accumulate (fun tap => (self.upsampleHistory channel)[(start + tap) % 32]) 0
  pure (clampI16 (accumulator >>> (14 : ℕ)))

/-- `fir_upsample_phase`. -/
def firUpsamplePhase (self : Reverb) : Program Stereo := do
  let left ← self.firUpsampleChannel .left
  let right ← self.firUpsampleChannel .right
  pure (stereo left right)

/-- The input enters the history at the position. -/
def feed (self : Reverb) (input : Stereo) : Reverb :=
  { self with
    downsampleHistory := fun channel =>
      (self.downsampleHistory channel).set self.resamplePosition (input channel) }

/-- The output of the effect enters its history. -/
def keep (self : Reverb) (effectOutput : Stereo) : Reverb :=
  { self with
    upsampleHistory := fun channel =>
      (self.upsampleHistory channel).set (self.resamplePosition / 2) (effectOutput channel) (by omega) }

/-- The position of the next sample. -/
def nextPosition (self : Reverb) : Reverb :=
  { self with resamplePosition := Fin.ofNat 64 (self.resamplePosition + 1) }

/-- `process`. -/
def process (self : Reverb) (setup : Setup) (input : Stereo) : Program (Stereo × Reverb) := do
  let self := self.feed input
  if self.resamplePosition.val % 2 = 0 then
    pure (self.centreUpsamplePhase, self.nextPosition)
  else do
    let downsampled ← self.downsample
    let (effectOutput, self) ← self.effectTick setup downsampled
    let self := self.keep effectOutput
    let output ← self.firUpsamplePhase
    pure (output, self.nextPosition)

/-! ### Where the effect goes -/

/-- The halfwords of the work area of a base register. -/
def InArea (baseRegister : BitVec 16) (address : ℕ) : Prop :=
  2 ∣ address ∧ baseRegister.toNat * 8 ≤ address ∧ address + 1 < soundRamSize

/-- The cursor is at a halfword of the sound RAM. -/
structure Placed (reverb : Reverb) : Prop where
  even : 2 ∣ reverb.currentAddress
  inside : reverb.currentAddress < soundRamSize

theorem placed_new : new.Placed := ⟨by decide, by decide⟩

variable {self : Reverb}

theorem memoryAddress_confined (placed : self.Placed) (baseRegister offset : BitVec 16)
    {extra : ℤ} (small : extra = 0 ∨ extra = -2) {P : ℕ → Prop} :
    (self.memoryAddress baseRegister offset extra).Confined P (InArea baseRegister) := by
  have base := baseRegister.isLt
  have offsetLt := offset.isLt
  have even := placed.even
  have inside := placed.inside
  have room : checkedSub soundRamSize (baseRegister.toNat * 8) =
      some (soundRamSize - baseRegister.toNat * 8) := if_pos (by unfold soundRamSize; omega)
  unfold soundRamSize at inside
  rw [memoryAddress, room, expect_some, done_bind]
  dsimp only
  rw [if_pos (by omega), i64_eq (by omega) (by omega), done_bind,
    i64_eq (by omega) (by omega), done_bind]
  refine (RingBufferAddress.wrapped_confined ?_ ?_ ?_ ?_ ?_).mono ?_
  · omega
  · unfold soundRamSize
    omega
  · omega
  · unfold soundRamSize
    omega
  · unfold soundRamSize
    omega
  · rintro address ⟨halfword, first, last⟩
    refine ⟨halfword, first, ?_⟩
    unfold soundRamSize at *
    omega

theorem workArea_confined (placed : self.Placed) (baseRegister : BitVec 16) :
    (self.workArea baseRegister).Confined (InArea baseRegister) where
  read tap _ small :=
    (memoryAddress_confined placed baseRegister tap small).bind fun _ => confined_loadHalf
  write tap _ :=
    (memoryAddress_confined placed baseRegister tap (.inl rfl)).bind fun _ => confined_storeHalf

theorem Placed.setBase (self : Reverb) (baseRegister : BitVec 16) : (self.setBase baseRegister).Placed := by
  have := baseRegister.isLt
  constructor
  · show 2 ∣ baseRegister.toNat * 8
    omega
  · show baseRegister.toNat * 8 < soundRamSize
    unfold soundRamSize
    omega

theorem Placed.advanceCursor (placed : self.Placed) (baseRegister : BitVec 16) :
    (self.advanceCursor baseRegister).Placed := by
  have even := placed.even
  have := baseRegister.isLt
  unfold Reverb.advanceCursor
  constructor
  all_goals
    dsimp only
    split
    all_goals
      unfold soundRamSize at *
      omega

theorem effectTick_confined (placed : self.Placed) (setup : Setup) (input : Stereo) :
    (self.effectTick setup input).Confined (InArea setup.baseRegister)
      fun result => result.2 = self.advanceCursor setup.baseRegister :=
  ((workArea_confined placed setup.baseRegister).graph _ _ _ _).bind fun _ _ => rfl

/-! ### The filters -/

/-- The sum of the products with the coefficients. -/
def weighted (sample : Fin 20 → Sample) : ℤ :=
  ∑ k : Fin 20, resampleCoefficients[k] * (sample k).toInt

theorem coefficient_bounds : ∀ k : Fin 20, -2 ^ 15 ≤ resampleCoefficients[k] ∧ resampleCoefficients[k] ≤ 2 ^ 15 := by
  decide

theorem weighted_term_bounds (sample : Sample) (k : Fin 20) :
    -2 ^ 30 ≤ sample.toInt * resampleCoefficients[k] ∧ sample.toInt * resampleCoefficients[k] ≤ 2 ^ 30 := by
  obtain ⟨lower, upper⟩ := coefficient_bounds k
  have := BitVec.le_toInt sample
  have := BitVec.toInt_lt (x := sample)
  generalize resampleCoefficients[k] = c at lower upper ⊢
  norm_num at *
  constructor <;> nlinarith

theorem accumulate_list (term : Fin 20 → ℤ) (bound : ∀ k, -2 ^ 30 ≤ term k ∧ term k ≤ 2 ^ 30)
    (taps : List (Fin 20)) (start : ℤ) (lower : -2 ^ 62 + 2 ^ 30 * taps.length ≤ start)
    (upper : start + 2 ^ 30 * taps.length < 2 ^ 62) :
    taps.foldlM (fun sum tap => i64 (sum + term tap)) start = done (start + (taps.map term).sum) := by
  induction taps generalizing start with
  | nil => simp
  | cons tap taps ih =>
    rw [List.length_cons] at lower upper
    push_cast at lower upper
    have := bound tap
    rw [List.foldlM_cons, i64_eq (by omega) (by omega), done_bind, ih _ (by omega) (by omega), List.map_cons,
      List.sum_cons, add_assoc]

theorem accumulate_eq (sample : Fin 20 → Sample) : accumulate sample 0 = done (weighted sample) := by
  unfold accumulate weighted
  rw [accumulate_list (fun k => (sample k).toInt * resampleCoefficients[k])
    (fun k => weighted_term_bounds (sample k) k) _ 0 (by simp) (by simp), zero_add, Fin.sum_univ_def]
  simp only [mul_comm]

theorem weighted_bounds (sample : Fin 20 → Sample) :
    -2 ^ 35 ≤ weighted sample ∧ weighted sample ≤ 2 ^ 35 := by
  have lower : ∑ k : Fin 20, (-2 ^ 30 : ℤ) ≤ weighted sample :=
    Finset.sum_le_sum fun k _ => by
      have := (weighted_term_bounds (sample k) k).1
      rwa [mul_comm] at this
  have upper : weighted sample ≤ ∑ k : Fin 20, (2 ^ 30 : ℤ) :=
    Finset.sum_le_sum fun k _ => by
      have := (weighted_term_bounds (sample k) k).2
      rwa [mul_comm] at this
  simp only [Finset.sum_const, Finset.card_univ, Fintype.card_fin, nsmul_eq_mul] at lower upper
  norm_num at lower upper ⊢
  omega

end Reverb

/-!
## The resamplers of the PS1 reverb

Whatever the registers hold and the sound RAM contains from sample to sample, the masked indices of the
rings find the values of the times that the half-band filter is about, and those before the first sample
are zero.
-/

namespace Reverb

/-! ### One sample -/

/-- What `downsample` computes of a channel. -/
def downsampled (self : Reverb) (channel : Channel) : Sample :=
  let start := wrappingSub self.resamplePosition 38 % 64
  clampI16 ((weighted (fun tap => (self.downsampleHistory channel)[(start + tap * 2) % 64]) +
    0x4000 * (self.downsampleHistory channel)[(start + 19) % 64].toInt) >>> (15 : ℕ))

/-- What `fir_upsample_phase` computes of a channel. -/
def upsampled (self : Reverb) (channel : Channel) : Sample :=
  let start := wrappingSub (self.resamplePosition / 2) 19 % 32
  clampI16 (weighted (fun tap => (self.upsampleHistory channel)[(start + tap) % 32]) >>> (14 : ℕ))

theorem stereo_channels (samples : Stereo) : stereo (samples .left) (samples .right) = samples := by
  funext channel
  cases channel with
  | left => rfl
  | right => rfl

theorem downsampleChannel_eq (self : Reverb) (channel : Channel) :
    self.downsampleChannel channel = done (self.downsampled channel) := by
  unfold downsampleChannel downsampled
  dsimp only
  rw [accumulate_eq, done_bind]
  have bounds := weighted_bounds fun tap =>
    (self.downsampleHistory channel)[(wrappingSub self.resamplePosition 38 % 64 + tap * 2) % 64]
  generalize weighted _ = total at bounds ⊢
  generalize (self.downsampleHistory channel)[(wrappingSub self.resamplePosition 38 % 64 + 19) % 64] = centre
  have := BitVec.le_toInt centre
  have := BitVec.toInt_lt (x := centre)
  rw [i64_eq (by omega) (by omega), done_bind, pure_eq, mul_comm]

theorem downsample_eq (self : Reverb) : self.downsample = done self.downsampled := by
  rw [downsample, downsampleChannel_eq, done_bind, downsampleChannel_eq, done_bind, pure_eq, stereo_channels]

theorem firUpsampleChannel_eq (self : Reverb) (channel : Channel) :
    self.firUpsampleChannel channel = done (self.upsampled channel) := by
  unfold firUpsampleChannel upsampled
  dsimp only
  rw [accumulate_eq, done_bind, pure_eq]

theorem firUpsamplePhase_eq (self : Reverb) : self.firUpsamplePhase = done self.upsampled := by
  rw [firUpsamplePhase, firUpsampleChannel_eq, done_bind, firUpsampleChannel_eq, done_bind, pure_eq,
    stereo_channels]

theorem process_even {self : Reverb} (even : self.resamplePosition.val % 2 = 0) (setup : Setup)
    (input : Stereo) :
    self.process setup input =
      done ((self.feed input).centreUpsamplePhase, (self.feed input).nextPosition) :=
  if_pos even

/-- The reverb after the effect has returned its output. -/
def resumed (self : Reverb) (setup : Setup) (effectOutput : Stereo) : Reverb :=
  (self.advanceCursor setup.baseRegister).keep effectOutput

theorem process_odd {self : Reverb} (odd : self.resamplePosition.val % 2 ≠ 0) (setup : Setup) (input : Stereo) :
    self.process setup input =
      ((self.feed input).effectTick setup (self.feed input).downsampled >>= fun (effectOutput, moved) =>
        pure ((moved.keep effectOutput).upsampled, (moved.keep effectOutput).nextPosition)) := by
  unfold process
  dsimp only
  rw [if_neg (show (self.feed input).resamplePosition.val % 2 ≠ 0 from odd), downsample_eq, done_bind]
  refine congrArg (_ >>= ·) (funext fun result => ?_)
  rw [firUpsamplePhase_eq, done_bind]

theorem run_effectTick {self : Reverb} (placed : self.Placed) (setup : Setup) (input : Stereo)
    (ram : Memory soundRamSize) :
    ∃ output after, (self.effectTick setup input).run ram =
      some ((output, self.advanceCursor setup.baseRegister), after) := by
  obtain ⟨⟨output, moved⟩, after, ran, same, -⟩ :=
    (effectTick_confined placed setup input).run (fun _ area => area.2.2) ram
  cases same
  exact ⟨output, after, ran⟩

/-! ### Histories -/

/-- The rings hold the inputs before `time` and the outputs of the effect before it. -/
structure Remembers (reverb : Reverb) (x : Channel → ℕ → Sample) (y : Channel → ℕ → Sample) (time : ℕ) :
    Prop where
  position : reverb.resamplePosition.val = time % 64
  inputs : ∀ channel, Holds (reverb.downsampleHistory channel) (history 0 (x channel)) time
  outputs : ∀ channel, Holds (reverb.upsampleHistory channel) (history 0 (y channel)) (time / 2 : ℕ)

section Histories

variable {reverb : Reverb} {x y : Channel → ℕ → Sample} {time j : ℕ}

theorem remembers_new : new.Remembers x y 0 where
  position := rfl
  inputs channel := holds_replicate 0 (x channel)
  outputs channel := holds_replicate 0 (y channel)

theorem Remembers.feed (h : reverb.Remembers x y time) (channel : Channel) :
    Holds ((reverb.feed fun channel => x channel time).downsampleHistory channel) (history 0 (x channel))
      (time + 1 : ℕ) := by
  have here : reverb.resamplePosition.val = slot 64 time := by
    rw [h.position]
    unfold slot
    omega
  have pushed := (h.inputs channel).push reverb.resamplePosition.isLt here
  rw [history_natCast] at pushed
  exact pushed

theorem Remembers.downsampled (h : reverb.Remembers x y time) (channel : Channel) :
    (reverb.feed fun channel => x channel time).downsampled channel =
      clampI16 ((weighted (fun k => history 0 (x channel) (time - 38 + 2 * k)) +
        0x4000 * (history 0 (x channel) (time - 19)).toInt) >>> (15 : ℕ)) := by
  have fed := h.feed channel
  have position : (reverb.feed fun channel => x channel time).resamplePosition.val = time % 64 := h.position
  unfold Reverb.downsampled
  dsimp only
  congr 3
  · congr 1
    funext k
    refine fed.read _ ?_ (by omega) (by omega)
    rw [position]
    unfold slot wrappingSub
    omega
  · refine congrArg (fun sample => 0x4000 * BitVec.toInt sample) (fed.read _ ?_ (by omega) (by omega))
    rw [position]
    unfold slot wrappingSub
    omega

theorem Remembers.centre (h : reverb.Remembers x y (2 * j)) (input : Stereo) (channel : Channel) :
    (reverb.feed input).centreUpsamplePhase channel = history 0 (y channel) (j - 10) := by
  have held := h.outputs channel
  rw [Nat.mul_div_cancel_left j (by omega)] at held
  have position : (reverb.feed input).resamplePosition.val = 2 * j % 64 := h.position
  unfold centreUpsamplePhase
  refine held.read _ ?_ (by omega) (by omega)
  rw [position]
  unfold slot wrappingSub
  omega

theorem Remembers.keep (h : reverb.Remembers x y (2 * j + 1)) (setup : Setup) (channel : Channel) :
    Holds ((reverb.resumed setup fun channel => y channel j).upsampleHistory channel)
      (history 0 (y channel)) (j + 1 : ℕ) := by
  have held := h.outputs channel
  rw [show (2 * j + 1) / 2 = j by omega] at held
  have here : reverb.resamplePosition.val / 2 = slot 32 j := by
    rw [h.position]
    unfold slot
    omega
  have pushed := held.push (by omega : reverb.resamplePosition.val / 2 < 32) here
  rw [history_natCast] at pushed
  exact pushed

theorem Remembers.upsampled (h : reverb.Remembers x y (2 * j + 1)) (setup : Setup) (channel : Channel) :
    (reverb.resumed setup fun channel => y channel j).upsampled channel =
      clampI16 (weighted (fun k => history 0 (y channel) (j - 19 + k)) >>> (14 : ℕ)) := by
  have kept := h.keep setup channel
  have position : (reverb.resumed setup fun channel => y channel j).resamplePosition.val =
    (2 * j + 1) % 64 := h.position
  unfold Reverb.upsampled
  dsimp only
  congr 3
  funext k
  refine kept.read _ ?_ (by omega) (by omega)
  rw [position]
  unfold slot wrappingSub
  omega

theorem Remembers.next_even (h : reverb.Remembers x y (2 * j)) :
    ((reverb.feed fun channel => x channel (2 * j)).nextPosition).Remembers x y (2 * j + 1) where
  position := by
    show (reverb.resamplePosition.val + 1) % 64 = _
    rw [h.position]
    omega
  inputs := h.feed
  outputs channel := by
    rw [show (2 * j + 1) / 2 = 2 * j / 2 by omega]
    exact h.outputs channel

theorem Remembers.next_odd (h : reverb.Remembers x y (2 * j + 1)) (setup : Setup) :
    (((reverb.feed fun channel => x channel (2 * j + 1)).resumed setup fun channel =>
      y channel j).nextPosition).Remembers x y (2 * j + 2) where
  position := by
    show (reverb.resamplePosition.val + 1) % 64 = _
    rw [h.position]
    omega
  inputs := h.feed
  outputs channel := by
    rw [show (2 * j + 2) / 2 = j + 1 by omega]
    exact h.keep setup channel

end Histories

/-! ### Runs -/

/-- One sample of a run: what is programmed before it, and what the sound RAM holds then. -/
structure Call where
  ram : Memory soundRamSize
  rebase : Option (BitVec 16)
  setup : Setup
  input : Stereo

/-- The reverb as a call has it: a write of the base register has moved the cursor. -/
def rebased (self : Reverb) (call : Call) : Reverb := call.rebase.elim self self.setBase

/-- A run of the reverb over calls: the reverb before each sample, the wet samples that come out, and
what passes between the resamplers and the effect. -/
structure Trace (calls : ℕ → Call) where
  before : ℕ → Reverb
  wet : ℕ → Stereo
  sent : ℕ → Stereo
  effect : ℕ → Stereo
  start : before 0 = new
  sample : ∀ t, ∃ ram, (((before t).rebased (calls t)).process (calls t).setup (calls t).input).run (calls t).ram =
    some ((wet t, before (t + 1)), ram)
  sends : ∀ j, (((before (2 * j + 1)).rebased (calls (2 * j + 1))).feed (calls (2 * j + 1)).input).downsample =
    done (sent j)
  ticks : ∀ j, ∃ moved ram,
    ((((before (2 * j + 1)).rebased (calls (2 * j + 1))).feed (calls (2 * j + 1)).input).effectTick
      (calls (2 * j + 1)).setup (sent j)).run (calls (2 * j + 1)).ram = some ((effect j, moved), ram)

theorem Placed.rebased {reverb : Reverb} (placed : reverb.Placed) (call : Call) :
    (reverb.rebased call).Placed := by
  unfold Reverb.rebased
  cases call.rebase with
  | none => exact placed
  | some baseRegister => exact Placed.setBase reverb baseRegister

theorem Remembers.rebased {reverb : Reverb} {x y : Channel → ℕ → Sample} {time : ℕ}
    (h : reverb.Remembers x y time) (call : Call) : (reverb.rebased call).Remembers x y time := by
  unfold Reverb.rebased
  cases call.rebase with
  | none => exact h
  | some baseRegister => exact ⟨h.position, h.inputs, h.outputs⟩

/-- A sample returns on any sound RAM, and the cursor remains on it. -/
theorem run_process {reverb : Reverb} (placed : reverb.Placed) (setup : Setup) (input : Stereo)
    (ram : Memory soundRamSize) :
    ∃ wet after left, (reverb.process setup input).run ram = some ((wet, after), left) ∧ after.Placed := by
  have fed : (reverb.feed input).Placed := ⟨placed.even, placed.inside⟩
  by_cases even : reverb.resamplePosition.val % 2 = 0
  · rw [process_even even]
    exact ⟨_, _, ram, rfl, fed.even, fed.inside⟩
  · obtain ⟨output, left, ran⟩ := run_effectTick fed setup (reverb.feed input).downsampled ram
    have moved := fed.advanceCursor setup.baseRegister
    rw [process_odd even, run_bind, ran]
    exact ⟨_, _, left, rfl, moved.even, moved.inside⟩

section Runs

variable {calls : ℕ → Call}

/-- The wet sample of a call, and the reverb after it. -/
def called (call : Call) (self : Reverb) : Stereo × Reverb :=
  match ((self.rebased call).process call.setup call.input).run call.ram with
  | some (result, _) => result
  | none => (fun _ => 0, self)

/-- The reverb before each sample of a run. -/
def ran (calls : ℕ → Call) : ℕ → Reverb
  | 0 => new
  | t + 1 => (called (calls t) (ran calls t)).2

theorem run_called {reverb : Reverb} (placed : reverb.Placed) (call : Call) :
    ∃ left, ((reverb.rebased call).process call.setup call.input).run call.ram =
      some (called call reverb, left) ∧ (called call reverb).2.Placed := by
  obtain ⟨wet, after, left, run, good⟩ := run_process (placed.rebased call) call.setup call.input call.ram
  have same : called call reverb = (wet, after) := by
    rw [called, run]
  rw [same]
  exact ⟨left, run, good⟩

theorem placed_ran (calls : ℕ → Call) (t : ℕ) : (ran calls t).Placed := by
  induction t with
  | zero => exact placed_new
  | succ t ih => exact (run_called ih (calls t)).choose_spec.2

theorem exists_trace (calls : ℕ → Call) : Nonempty (Trace calls) := by
  have samples (t : ℕ) := (run_called (placed_ran calls t) (calls t)).imp fun _ found => found.1
  have fed (t : ℕ) : (((ran calls t).rebased (calls t)).feed (calls t).input).Placed :=
    ⟨((placed_ran calls t).rebased _).even, ((placed_ran calls t).rebased _).inside⟩
  choose effect left ticks using fun j => run_effectTick (fed (2 * j + 1)) (calls (2 * j + 1)).setup
    (((ran calls (2 * j + 1)).rebased (calls (2 * j + 1))).feed (calls (2 * j + 1)).input).downsampled
    (calls (2 * j + 1)).ram
  exact ⟨{
    before := ran calls
    wet := fun t => (called (calls t) (ran calls t)).1
    sent := fun j => _
    effect := effect
    start := rfl
    sample := samples
    sends := fun j => downsample_eq _
    ticks := fun j => ⟨_, _, ticks j⟩ }⟩

namespace Trace

variable (trace : Trace calls)

/-- The inputs of a channel. -/
def inputs (_ : Trace calls) (channel : Channel) (t : ℕ) : Sample := (calls t).input channel

/-- The outputs of the effect on a channel. -/
def effects (channel : Channel) (j : ℕ) : Sample := trace.effect j channel

theorem placed (t : ℕ) : (trace.before t).Placed := by
  induction t with
  | zero =>
    rw [trace.start]
    exact placed_new
  | succ t ih =>
    obtain ⟨left, sampled⟩ := trace.sample t
    obtain ⟨wet, after, other, run, good⟩ :=
      run_process (ih.rebased (calls t)) (calls t).setup (calls t).input (calls t).ram
    cases Option.some.inj (run.symm.trans sampled)
    exact good

theorem sent_eq (j : ℕ) : trace.sent j =
    (((trace.before (2 * j + 1)).rebased (calls (2 * j + 1))).feed (calls (2 * j + 1)).input).downsampled := by
  have sends := trace.sends j
  rw [downsample_eq] at sends
  exact (Program.done.inj sends).symm

theorem at_even {j : ℕ} (h : (trace.before (2 * j)).Remembers trace.inputs trace.effects (2 * j)) :
    (trace.wet (2 * j), trace.before (2 * j + 1)) =
      ((((trace.before (2 * j)).rebased (calls (2 * j))).feed (calls (2 * j)).input).centreUpsamplePhase,
        (((trace.before (2 * j)).rebased (calls (2 * j))).feed (calls (2 * j)).input).nextPosition) := by
  obtain ⟨left, sampled⟩ := trace.sample (2 * j)
  have even : ((trace.before (2 * j)).rebased (calls (2 * j))).resamplePosition.val % 2 = 0 := by
    rw [(h.rebased _).position]
    omega
  rw [process_even even] at sampled
  exact (Prod.mk.inj (Option.some.inj sampled)).1.symm

theorem at_odd {j : ℕ}
    (h : (trace.before (2 * j + 1)).Remembers trace.inputs trace.effects (2 * j + 1)) :
    (trace.wet (2 * j + 1), trace.before (2 * j + 2)) =
      (((((trace.before (2 * j + 1)).rebased (calls (2 * j + 1))).feed (calls (2 * j + 1)).input).resumed
          (calls (2 * j + 1)).setup (trace.effect j)).upsampled,
        ((((trace.before (2 * j + 1)).rebased (calls (2 * j + 1))).feed (calls (2 * j + 1)).input).resumed
          (calls (2 * j + 1)).setup (trace.effect j)).nextPosition) := by
  obtain ⟨left, sampled⟩ := trace.sample (2 * j + 1)
  obtain ⟨moved, other, ticked⟩ := trace.ticks j
  have placed := (trace.placed (2 * j + 1)).rebased (calls (2 * j + 1))
  have fed : (((trace.before (2 * j + 1)).rebased (calls (2 * j + 1))).feed (calls (2 * j + 1)).input).Placed :=
    ⟨placed.even, placed.inside⟩
  have odd : ((trace.before (2 * j + 1)).rebased (calls (2 * j + 1))).resamplePosition.val % 2 ≠ 0 := by
    rw [(h.rebased _).position]
    omega
  obtain ⟨output, after, ran⟩ :=
    run_effectTick fed (calls (2 * j + 1)).setup (trace.sent j) (calls (2 * j + 1)).ram
  cases Option.some.inj (ran.symm.trans ticked)
  rw [process_odd odd, ← trace.sent_eq, run_bind, ticked] at sampled
  exact (Prod.mk.inj (Option.some.inj sampled)).1.symm

theorem remembers (j : ℕ) : (trace.before (2 * j)).Remembers trace.inputs trace.effects (2 * j) ∧
    (trace.before (2 * j + 1)).Remembers trace.inputs trace.effects (2 * j + 1) := by
  have even {j : ℕ} (h : (trace.before (2 * j)).Remembers trace.inputs trace.effects (2 * j)) :
      (trace.before (2 * j + 1)).Remembers trace.inputs trace.effects (2 * j + 1) := by
    rw [(Prod.mk.inj (trace.at_even h)).2]
    exact (h.rebased _).next_even
  induction j with
  | zero =>
    have start : (trace.before 0).Remembers trace.inputs trace.effects 0 := by
      rw [trace.start]
      exact remembers_new
    exact ⟨start, even start⟩
  | succ j ih =>
    have next : (trace.before (2 * j + 2)).Remembers trace.inputs trace.effects (2 * j + 2) := by
      rw [(Prod.mk.inj (trace.at_odd ih.2)).2]
      exact (ih.2.rebased _).next_odd _
    exact ⟨next, even next⟩

end Trace

/-- The resamplers are the 39-tap half-band filter at every time of every run. -/
theorem resamplers_half_band (calls : ℕ → Call) :
    Nonempty (Trace calls) ∧ ∀ (trace : Trace calls) (channel : Channel),
      let x := history 0 fun t => (calls t).input channel
      let y := history 0 fun j => trace.effect j channel
      ∀ j : ℕ,
        trace.sent j channel =
          clampI16 ((∑ k : Fin 20, resampleCoefficients[k] * (x (2 * j + 1 - 38 + 2 * k)).toInt +
            0x4000 * (x (2 * j + 1 - 19)).toInt) >>> (15 : ℕ)) ∧
        trace.wet (2 * j) channel = y (j - 10) ∧
        trace.wet (2 * j + 1) channel =
          clampI16 ((∑ k : Fin 20, resampleCoefficients[k] * (y (j - 19 + k)).toInt) >>> (14 : ℕ)) := by
  refine ⟨exists_trace calls, ?_⟩
  intro trace channel x y j
  refine ⟨?_, ?_, ?_⟩
  · rw [trace.sent_eq]
    exact_mod_cast ((trace.remembers j).2.rebased _).downsampled channel
  · rw [(Prod.mk.inj (trace.at_even (trace.remembers j).1)).1]
    exact ((trace.remembers j).1.rebased _).centre _ channel
  · rw [(Prod.mk.inj (trace.at_odd (trace.remembers j).2)).1]
    exact ((trace.remembers j).2.rebased _).upsampled (calls (2 * j + 1)).setup channel

end Runs

end Reverb

/-!
## The work area of the PS1 reverb

The registers that the reverb reads may change between any two samples, and other units write the sound
RAM.  A write of the base moves the cursor with it, so that the cursor is in the work area whenever a
sample comes, and after it.
-/

open Reverb

/-- `CONTROL`. -/
def controlAddress : ℕ := 0x1f801daa

/-- `REVERB_BASE`. -/
def reverbBaseAddress : ℕ := 0x1f801da2

/-- `REVERB_REGISTERS_START`. -/
def reverbRegistersStart : ℕ := 0x1f801dc0

/-- `SPU_END`. -/
def spuEnd : ℕ := 0x1f801dff

/-- The part of the sound processor that its reverb works with. -/
structure Spu where
  control : BitVec 16
  reverbBase : BitVec 16
  reverbRegisters : Vector (BitVec 16) 32
  reverb : Reverb
  ram : Memory soundRamSize

namespace Spu

/-- `Spu::new`. -/
def new : Spu where
  control := 0
  reverbBase := 0
  reverbRegisters := Vector.replicate 32 0
  reverb := .new
  ram := Vector.replicate soundRamSize 0

/-- `write_register` at an even address, as far as the reverb sees it. -/
def writeRegister (self : Spu) (address : ℕ) (value : BitVec 16) : Spu :=
  if address = reverbBaseAddress then
    { self with reverbBase := value, reverb := self.reverb.setBase value }
  else if address = controlAddress then { self with control := value }
  else if h : reverbRegistersStart ≤ address ∧ address ≤ spuEnd then
    { self with
      reverbRegisters := self.reverbRegisters.set ((address - reverbRegistersStart) / 2) value
        (by unfold reverbRegistersStart spuEnd at h; unfold reverbRegistersStart; omega) }
  else self

/-- What `render_frame` passes to the reverb. -/
def setup (self : Spu) : Setup where
  baseRegister := self.reverbBase
  registers := self.reverbRegisters
  writesEnabled := self.control.getLsbD 7

/-- The sample of the reverb in `render_frame`; `none` is a panic. -/
def renderReverb (self : Spu) (wetSend : Stereo) : Option (Stereo × Spu) :=
  ((self.reverb.process self.setup wetSend).run self.ram).map fun ((wet, reverb), ram) =>
    (wet, { self with reverb, ram })

/-- What happens to the reverb between samples, and the samples. -/
inductive Step : Spu → Spu → Prop
  | register {s : Spu} (address : ℕ) (value : BitVec 16) : Step s (s.writeRegister address value)
  | transfer {s : Spu} (ram : Memory soundRamSize) : Step s { s with ram }
  | sample {s t : Spu} {wetSend wet : Stereo} : s.renderReverb wetSend = some (wet, t) → Step s t

/-- The states of a sound processor. -/
inductive Reachable : Spu → Prop
  | start : Reachable new
  | step {s t : Spu} : Reachable s → Step s t → Reachable t

/-- The cursor is at a halfword of the work area. -/
def CursorInArea (s : Spu) : Prop := InArea s.reverbBase s.reverb.currentAddress

variable {s : Spu}

theorem CursorInArea.placed (h : s.CursorInArea) : s.reverb.Placed := by
  obtain ⟨even, -, inside⟩ := h
  exact ⟨even, by omega⟩

theorem inArea_base (baseRegister : BitVec 16) : InArea baseRegister (baseRegister.toNat * 8) := by
  have := baseRegister.isLt
  unfold InArea soundRamSize
  omega

theorem inArea_advanceCursor {reverb : Reverb} {baseRegister : BitVec 16}
    (h : InArea baseRegister reverb.currentAddress) :
    InArea baseRegister (reverb.advanceCursor baseRegister).currentAddress := by
  unfold Reverb.advanceCursor
  dsimp only
  split
  next => exact inArea_base baseRegister
  next below =>
    unfold InArea soundRamSize at *
    omega

/-- A sample touches the work area only, and the cursor remains there. -/
theorem process_confined (h : s.CursorInArea) (wetSend : Stereo) :
    (s.reverb.process s.setup wetSend).Confined (InArea s.reverbBase)
      fun result => InArea s.reverbBase result.2.currentAddress := by
  by_cases even : s.reverb.resamplePosition.val % 2 = 0
  · rw [process_even even]
    exact h
  · have fed : (s.reverb.feed wetSend).Placed := ⟨h.placed.even, h.placed.inside⟩
    rw [process_odd even]
    refine (effectTick_confined fed s.setup _).bind fun result moved => ?_
    show InArea s.reverbBase result.2.currentAddress
    rw [moved]
    exact inArea_advanceCursor h

theorem renderReverb_returns (h : s.CursorInArea) (wetSend : Stereo) :
    ∃ wet after, s.renderReverb wetSend = some (wet, after) ∧ after.reverbBase = s.reverbBase ∧
      after.CursorInArea ∧ ∀ i < s.reverbBase.toNat * 8, after.ram[i]? = s.ram[i]? := by
  obtain ⟨⟨wet, reverb⟩, ram, ran, inside, same⟩ :=
    (process_confined h wetSend).run (fun _ area => area.2.2) s.ram
  refine ⟨wet, { s with reverb, ram }, ?_, rfl, inside, fun i below => same i fun address area => ?_⟩
  · rw [renderReverb, ran]
    rfl
  · have := area.2.1
    omega

theorem cursorInArea_writeRegister (h : s.CursorInArea) (address : ℕ) (value : BitVec 16) :
    (s.writeRegister address value).CursorInArea := by
  unfold writeRegister
  split
  next => exact inArea_base value
  next =>
    split
    next => exact h
    next =>
      split
      next => exact h
      next => exact h

theorem Reachable.cursorInArea (h : Reachable s) : s.CursorInArea := by
  induction h with
  | start => exact inArea_base 0
  | step _ step ih =>
    cases step with
    | register address value => exact cursorInArea_writeRegister ih address value
    | transfer ram => exact ih
    | sample rendered =>
      obtain ⟨wet, after, found, -, good, -⟩ := renderReverb_returns ih _
      cases Option.some.inj (found.symm.trans rendered)
      exact good

end Spu

end Upse.SpuReverb
