import Upse.Hw.Shared.EffectUnit

/-!
# The effects of an SPU2 core

The work area of a core goes from its start to its end, and the taps are signed distances from a cursor
in it.  The registers may change between any two samples: a sample whose area has no halfword returns
silence, and any other first brings the cursor into the area.
-/

namespace Upse.Spu2Effects

open MemoryPrograms Program EffectUnit

/-- `SOUND_RAM_SIZE`. -/
def soundRamSize : ℕ := 2 * 1024 * 1024

/-- `normalize_address`: the even address in the sound RAM. -/
def normalizeAddress (address : Word) : ℕ := address.toNat % soundRamSize / 2 * 2

/-- `Effects`. -/
structure Effects where
  current : ℕ

/-- What a core passes with each sample. -/
structure Setup where
  start : Word
  last : Word
  addresses : Vector Word 22
  coefficients : Vector (BitVec 16) 10
  writesEnabled : Bool

/-- The first byte of the work area. -/
def Setup.areaStart (setup : Setup) : ℕ := normalizeAddress setup.start

/-- The last byte of the work area: the odd address of its last halfword. -/
def Setup.areaEnd (setup : Setup) : ℕ := normalizeAddress setup.last + 1

namespace Effects

/-- `set_start`. -/
def setStart (start : Word) : Effects := ⟨normalizeAddress start⟩

/-- `memory_address`. -/
def memoryAddress (self : Effects) (start last : ℕ) (offset : Word) (extra : ℤ) : Program ℕ := do
  let length := (← expect (checkedSub last start)) + 1
  let current := self.current - start
  let signedOffset := offset.toInt * 8
  let current : ℤ := if current < 2 ^ 63 then current else 0
  RingBufferAddress.wrapped start length (← i64 ((← i64 (current + signedOffset)) + extra))

/-- `read`. -/
def read (self : Effects) (start last : ℕ) (offset : Word) (extra : ℤ) : Program Sample := do
  loadHalf (← self.memoryAddress start last offset extra)

/-- `write`. -/
def write (self : Effects) (start last : ℕ) (offset : Word) (value : Sample) : Program Unit := do
  storeHalf (← self.memoryAddress start last offset 0) value

/-- The work area between two addresses. -/
def workArea (self : Effects) (start last : ℕ) : WorkArea Word where
  read := self.read start last
  write := self.write start last

/-- The taps among the addresses. -/
def taps (addresses : Vector Word 22) : Taps Word where
  dApf1 := addresses[0]
  dApf2 := addresses[1]
  mLsame := addresses[2]
  mRsame := addresses[3]
  dLsame := addresses[8]
  dRsame := addresses[9]
  mLdiff := addresses[10]
  mRdiff := addresses[11]
  dLdiff := addresses[16]
  dRdiff := addresses[17]
  mLcomb := #v[addresses[4], addresses[6], addresses[12], addresses[14]]
  mRcomb := #v[addresses[5], addresses[7], addresses[13], addresses[15]]
  mLapf1 := addresses[18]
  mRapf1 := addresses[19]
  mLapf2 := addresses[20]
  mRapf2 := addresses[21]

/-- The volumes among the coefficients. -/
def volumes (coefficients : Vector (BitVec 16) 10) : Volumes where
  iir := coefficients[0]
  comb := #v[coefficients[1], coefficients[2], coefficients[3], coefficients[4]]
  wall := coefficients[5]
  apf1 := coefficients[6]
  apf2 := coefficients[7]
  lin := coefficients[8]
  rin := coefficients[9]

/-- The cursor that a sample starts from. -/
def entered (self : Effects) (start last : ℕ) : Effects :=
  if self.current < start ∨ last < self.current then ⟨start⟩ else self

/-- The cursor after a sample. -/
def stepped (self : Effects) (start last : ℕ) : Effects :=
  if last < self.current + 2 then ⟨start⟩ else ⟨self.current + 2⟩

/-- `process`. -/
def process (self : Effects) (setup : Setup) (input : Stereo) : Program (Stereo × Effects) :=
  let start := setup.areaStart
  let last := setup.areaEnd
  if soundRamSize ≤ start ∨ last < start then pure (fun _ => 0, self)
  else do
    let self := self.entered start last
    let output ← graph (self.workArea start last) (taps setup.addresses) (volumes setup.coefficients)
      setup.writesEnabled input
    pure (output, self.stepped start last)

end Effects

/-! ### Where the effects go -/

/-- The halfwords of a work area. -/
def InArea (setup : Setup) (address : ℕ) : Prop :=
  2 ∣ address ∧ setup.areaStart ≤ address ∧ address + 1 ≤ setup.areaEnd

section Areas

variable (setup : Setup)

theorem even_areaStart : 2 ∣ setup.areaStart := Nat.dvd_mul_left ..

theorem even_areaEnd : 2 ∣ setup.areaEnd + 1 := by
  unfold Setup.areaEnd normalizeAddress
  omega

theorem areaStart_lt : setup.areaStart < soundRamSize := by
  unfold Setup.areaStart normalizeAddress soundRamSize
  omega

theorem areaEnd_lt : setup.areaEnd < soundRamSize := by
  unfold Setup.areaEnd normalizeAddress soundRamSize
  omega

end Areas

section Confinement

variable {setup : Setup} {effects : Effects}

theorem inArea_start (nonempty : setup.areaStart ≤ setup.areaEnd) : InArea setup setup.areaStart := by
  have := even_areaStart setup
  have := even_areaEnd setup
  unfold InArea
  omega

theorem inArea_entered (nonempty : setup.areaStart ≤ setup.areaEnd) (even : 2 ∣ effects.current) :
    InArea setup (effects.entered setup.areaStart setup.areaEnd).current := by
  unfold Effects.entered
  split
  next => exact inArea_start nonempty
  next inside =>
    have := even_areaEnd setup
    unfold InArea
    omega

theorem inArea_stepped (h : InArea setup effects.current) :
    InArea setup (effects.stepped setup.areaStart setup.areaEnd).current := by
  obtain ⟨even, first, last⟩ := h
  unfold Effects.stepped
  split
  next => exact inArea_start (by omega)
  next inside =>
    have := even_areaEnd setup
    unfold InArea
    dsimp only
    omega

theorem memoryAddress_confined (h : InArea setup effects.current) (offset : Word) {extra : ℤ}
    (small : extra = 0 ∨ extra = -2) {P : ℕ → Prop} :
    (effects.memoryAddress setup.areaStart setup.areaEnd offset extra).Confined P (InArea setup) := by
  obtain ⟨even, first, last⟩ := h
  have evenStart := even_areaStart setup
  have evenEnd := even_areaEnd setup
  have bound := areaEnd_lt setup
  have room : checkedSub setup.areaEnd setup.areaStart = some (setup.areaEnd - setup.areaStart) :=
    if_pos (by omega)
  have lower := BitVec.le_toInt offset
  have upper := BitVec.toInt_lt (x := offset)
  unfold soundRamSize at bound
  rw [Effects.memoryAddress, room, expect_some, done_bind]
  dsimp only
  rw [if_pos (by omega), i64_eq (by omega) (by omega), done_bind, i64_eq (by omega) (by omega), done_bind]
  refine (RingBufferAddress.wrapped_confined evenStart ?_ ?_ ?_ ?_).mono ?_
  · omega
  · omega
  · omega
  · omega
  · rintro address ⟨halfword, low, high⟩
    exact ⟨halfword, low, by omega⟩

theorem workArea_confined (h : InArea setup effects.current) :
    (effects.workArea setup.areaStart setup.areaEnd).Confined (InArea setup) where
  read tap _ small := (memoryAddress_confined h tap small).bind fun _ => confined_loadHalf
  write tap _ := (memoryAddress_confined h tap (.inl rfl)).bind fun _ => confined_storeHalf

/-- A sample touches the work area only, and leaves the cursor there if there is any. -/
theorem process_confined (even : 2 ∣ effects.current) (input : Stereo) :
    (effects.process setup input).Confined (InArea setup) fun result =>
      2 ∣ result.2.current ∧ (setup.areaStart ≤ setup.areaEnd → InArea setup result.2.current) := by
  unfold Effects.process
  dsimp only
  refine Confined.ite (fun empty => ⟨even, fun nonempty => ?_⟩) fun nonempty => ?_
  · have := areaStart_lt setup
    omega
  · have entered := inArea_entered (by omega : setup.areaStart ≤ setup.areaEnd) even
    refine ((workArea_confined entered).graph _ _ _ _).bind fun _ _ => ?_
    have stepped := inArea_stepped entered
    exact ⟨stepped.1, fun _ => stepped⟩

end Confinement

/-! ### Runs -/

/-- `decode_sound_address`. -/
def decodeSoundAddress (high low : BitVec 16) : Word :=
  ((high.setWidth 32 <<< 17) ||| ((low &&& 0xfff8).setWidth 32 <<< 1)) &&& BitVec.ofNat 32 (soundRamSize - 1)

/-- `decode_effect_offset`. -/
def decodeEffectOffset (high low : BitVec 16) : Word :=
  (high.setWidth 32 <<< 14) ||| (low.setWidth 32 >>> 2)

/-- `decode_effect_end`. -/
def decodeEffectEnd (high : BitVec 16) : Word :=
  ((high.setWidth 32 <<< 17) ||| 0x1ffff) &&& BitVec.ofNat 32 (soundRamSize - 1)

/-- The part of a core that its effects work with, and the sound RAM that it shares. -/
structure Core where
  effectStart : Word
  effectEnd : Word
  effectAddresses : Vector Word 22
  effectCoefficients : Vector (BitVec 16) 10
  effects : Effects
  ram : Memory soundRamSize

namespace Core

/-- `Core::default`, on a sound RAM that is zero. -/
def new : Core where
  effectStart := 0
  effectEnd := BitVec.ofNat 32 (soundRamSize - 1)
  effectAddresses := Vector.replicate 22 0
  effectCoefficients := Vector.replicate 10 0
  effects := ⟨0⟩
  ram := Vector.replicate soundRamSize 0

/-- What `render` passes to the effects. -/
def setup (self : Core) : Setup where
  start := self.effectStart
  last := self.effectEnd
  addresses := self.effectAddresses
  coefficients := self.effectCoefficients
  writesEnabled := true

/-- The sample of the effects in `render`; `none` is a panic. -/
def renderEffects (self : Core) (wet : Stereo) : Option (Stereo × Core) :=
  ((self.effects.process self.setup wet).run self.ram).map fun ((effect, effects), ram) =>
    (effect, { self with effects, ram })

/-- What happens to the effects between samples, and the samples.  The halves of an address are what the
register file holds after the write of either of them. -/
inductive Step : Core → Core → Prop
  | effectStart {s : Core} (high low : BitVec 16) : Step s
      { s with
        effectStart := decodeSoundAddress high low
        effects := Effects.setStart (decodeSoundAddress high low) }
  | effectEnd {s : Core} (high : BitVec 16) : Step s { s with effectEnd := decodeEffectEnd high }
  | effectAddress {s : Core} (index : Fin 22) (high low : BitVec 16) : Step s
      { s with effectAddresses := s.effectAddresses.set index (decodeEffectOffset high low) }
  | coefficient {s : Core} (index : Fin 10) (value : BitVec 16) : Step s
      { s with effectCoefficients := s.effectCoefficients.set index value }
  | ram {s : Core} (ram : Memory soundRamSize) : Step s { s with ram }
  | sample {s t : Core} {wet effect : Stereo} : s.renderEffects wet = some (effect, t) → Step s t

/-- The states of a core. -/
inductive Reachable : Core → Prop
  | start : Reachable new
  | step {s t : Core} : Reachable s → Step s t → Reachable t

/-- A sample returns, and it leaves the sound RAM outside the work area as it was. -/
theorem renderEffects_returns {s : Core} (even : 2 ∣ s.effects.current) (wet : Stereo) :
    ∃ effect after, s.renderEffects wet = some (effect, after) ∧ after.setup = s.setup ∧
      2 ∣ after.effects.current ∧
      (s.setup.areaStart ≤ s.setup.areaEnd → InArea s.setup after.effects.current) ∧
      ∀ i, i < s.setup.areaStart ∨ s.setup.areaEnd < i → after.ram[i]? = s.ram[i]? := by
  have bound := areaEnd_lt s.setup
  obtain ⟨⟨effect, effects⟩, ram, ran, good, same⟩ := (process_confined even wet).run
    (fun address (area : InArea s.setup address) => Nat.lt_of_le_of_lt area.2.2 bound) s.ram
  refine ⟨effect, { s with effects, ram }, ?_, rfl, good.1, good.2, fun i outside => same i fun address area => ?_⟩
  · rw [renderEffects, ran]
    rfl
  · obtain ⟨-, first, last⟩ := area
    omega

theorem renderEffects_empty {s : Core} (empty : s.setup.areaEnd < s.setup.areaStart) {wet : Stereo} :
    s.renderEffects wet = some (fun _ => 0, s) := by
  unfold renderEffects Effects.process
  dsimp only
  rw [if_pos (.inr empty)]
  rfl

theorem Reachable.even {s : Core} (h : Reachable s) : 2 ∣ s.effects.current := by
  induction h with
  | start => exact dvd_zero 2
  | step _ step ih =>
    cases step with
    | effectStart high low => exact Nat.dvd_mul_left ..
    | effectEnd high => exact ih
    | effectAddress index high low => exact ih
    | coefficient index value => exact ih
    | ram ram => exact ih
    | sample rendered =>
      obtain ⟨effect, after, found, -, even, -⟩ := renderEffects_returns ih _
      cases Option.some.inj (found.symm.trans rendered)
      exact even

end Core

end Upse.Spu2Effects
