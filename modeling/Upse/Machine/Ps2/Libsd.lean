import Upse.Hw.Ps2.RegisterRoundTrips

/-!
# The registers of libsd

A selector packs a kind, a core and a voice.  Its kind names a register of the SPU2 that is one halfword
wide, or two halves of a switch or of an address.
-/

namespace Upse.Libsd

open SoundRegisters

/-- The core of a selector: `entry & 1`. -/
def entryCore (entry : BitVec 16) : Fin 2 := ⟨entry.toNat % 2, Nat.mod_lt _ (by decide)⟩

/-- The kind of a selector: `entry >> 8`. -/
def entryKind (entry : BitVec 16) : ℕ := entry.toNat / 256

/-- The voice of a selector: `(entry & 0x3e) >> 1`. -/
def entryVoice (entry : BitVec 16) : ℕ := entry.toNat / 2 % 32

/-- What a selector is refused with, as in "invalid libsd parameter selector"; its text is dropped below. -/
inductive BackendError where
  | invalidParameter (entry : BitVec 16)
  | invalidSwitch (entry : BitVec 16)
  | invalidAddress (entry : BitVec 16)
  deriving DecidableEq, Repr

/-- `core_base`. -/
def coreBase (core : Fin 2) : ℕ := spu2Base + core.val * coreStride

/-- `primary_base`. -/
def primaryBaseOf (core : Fin 2) : ℕ := spu2Base + primaryBase + core.val * primaryStride

/-- `parameter_address`. -/
def parameterAddress (entry : BitVec 16) : Except BackendError ℕ :=
  let core := entryCore entry
  let kind := entryKind entry
  let voice := entryVoice entry
  if kind ≤ 7 ∧ voice < 24 then .ok (coreBase core + voice * voiceStride + kind * 2)
  else if kind = 8 then .ok (coreBase core + 0x198)
  else if 9 ≤ kind ∧ kind ≤ 18 then .ok (primaryBaseOf core + (kind - 9) * 2)
  else .error (.invalidParameter entry)

/-- `switch_address`. -/
def switchAddress (entry : BitVec 16) : Except BackendError ℕ :=
  let core := entryCore entry
  match entryKind entry with
  | 0x13 => .ok (coreBase core + 0x180)
  | 0x14 => .ok (coreBase core + 0x184)
  | 0x15 => .ok (coreBase core + 0x1a0)
  | 0x16 => .ok (coreBase core + 0x1a4)
  | 0x17 => .ok (coreBase core + 0x340)
  | 0x18 => .ok (coreBase core + 0x188)
  | 0x19 => .ok (coreBase core + 0x18c)
  | 0x1a => .ok (coreBase core + 0x190)
  | 0x1b => .ok (coreBase core + 0x194)
  | _ => .error (.invalidSwitch entry)

/-- `address_register`: the register, and whether it has its high half only. -/
def addressRegister (entry : BitVec 16) : Except BackendError (ℕ × Bool) :=
  let core := entryCore entry
  let voice := entryVoice entry
  let voiceAddress := coreBase core + voiceAddressBase + voice * voiceAddressStride
  match entryKind entry with
  | 0x1c => .ok (coreBase core + 0x2e0, false)
  | 0x1d => .ok (coreBase core + 0x33c, true)
  | 0x1e => .ok (coreBase core + 0x1a8, false)
  | 0x1f => .ok (coreBase core + 0x19c, false)
  | 0x20 => if voice < 24 then .ok (voiceAddress, false) else .error (.invalidAddress entry)
  | 0x21 => if voice < 24 then .ok (voiceAddress + 4, false) else .error (.invalidAddress entry)
  | 0x22 => if voice < 24 then .ok (voiceAddress + 8, false) else .error (.invalidAddress entry)
  | _ => .error (.invalidAddress entry)

/-- What an invalid selector becomes. -/
def invalidSelector (_ : BackendError) : Spu2Error := .invalidRegister (spu2Base + 0x800)

section Services

variable (sound : Spu2) (entry : BitVec 16)

/-- `write_sound_parameter`. -/
def writeSoundParameter (value : BitVec 16) : Except Spu2Error Spu2 := do
  let address ← (parameterAddress entry).mapError invalidSelector
  sound.writeRegister address value

/-- `read_sound_parameter`. -/
def readSoundParameter : Except Spu2Error (BitVec 16) := do
  let address ← (parameterAddress entry).mapError invalidSelector
  sound.readRegister address

/-- `write_sound_switch`. -/
def writeSoundSwitch (value : Word) : Except Spu2Error Spu2 := do
  let address ← (switchAddress entry).mapError invalidSelector
  let sound ← sound.writeRegister address (value.setWidth 16)
  sound.writeRegister (address + 2) ((value >>> 16).setWidth 16)

/-- `read_sound_switch`. -/
def readSoundSwitch : Except Spu2Error Word := do
  let address ← (switchAddress entry).mapError invalidSelector
  let low ← sound.readRegister address
  let high ← sound.readRegister (address + 2)
  return low.setWidth 32 ||| (high.setWidth 32 <<< 16)

/-- `write_sound_address`. -/
def writeSoundAddress (value : Word) : Except Spu2Error Spu2 := do
  let (address, highOnly) ← (addressRegister entry).mapError invalidSelector
  let sound ← sound.writeRegister address ((value >>> 17).setWidth 16)
  if highOnly then return sound
  else sound.writeRegister (address + 2) (((value >>> 1) &&& 0xfff8).setWidth 16)

/-- `read_sound_address`. -/
def readSoundAddress : Except Spu2Error Word := do
  let (address, highOnly) ← (addressRegister entry).mapError invalidSelector
  let high ← sound.readRegister address
  let low : Word ← if highOnly then pure 0x1ffff else do pure ((← sound.readRegister (address + 2)).setWidth 32 <<< 1)
  return ((high.setWidth 32 <<< 17) ||| low) &&& 0x1fffff

end Services

/-- A selector of one of the three families. -/
inductive Selector where
  | parameter (entry : BitVec 16)
  | switch (entry : BitVec 16)
  | address (entry : BitVec 16)
  deriving DecidableEq, Repr

namespace Selector

/-- The packed fields. -/
def entry : Selector → BitVec 16
  | parameter entry | switch entry | address entry => entry

/-- Its register is set through libsd. -/
def set (sound : Spu2) (value : Word) : Selector → Except Spu2Error Spu2
  | parameter entry => writeSoundParameter sound entry (value.setWidth 16)
  | switch entry => writeSoundSwitch sound entry value
  | address entry => writeSoundAddress sound entry value

/-- Its register is got through libsd. -/
def get (sound : Spu2) : Selector → Except Spu2Error Word
  | parameter entry => do return (← readSoundParameter sound entry).setWidth 32
  | switch entry => readSoundSwitch sound entry
  | address entry => readSoundAddress sound entry

/-- Both name one register: the voice counts where there is one register a voice. -/
def Same (σ τ : Selector) : Prop :=
  entryKind σ.entry = entryKind τ.entry ∧ entryCore σ.entry = entryCore τ.entry ∧
    (entryKind σ.entry ≤ 7 ∨ 0x20 ≤ entryKind σ.entry → entryVoice σ.entry = entryVoice τ.entry)

/-- The second is the current volume of the volume that the first is. -/
def Mirrored (σ τ : Selector) : Prop :=
  entryKind σ.entry ≤ 1 ∧ entryKind τ.entry = entryKind σ.entry + 6 ∧ entryCore σ.entry = entryCore τ.entry ∧
    entryVoice σ.entry = entryVoice τ.entry

end Selector

/-! ### The bank -/

section Bank

variable (sound : Spu2) {offset : ℕ}

theorem decodeRegister_offset (even : offset % 2 = 0) (inside : offset ≤ registerEnd) :
    decodeRegister (spu2Base + offset) = .ok offset := by
  unfold registerEnd at inside
  unfold decodeRegister spu2Base spu2End
  rw [if_neg (by omega), Nat.add_sub_cancel_left]

theorem writeRegister_offset (even : offset % 2 = 0) (inside : offset ≤ registerEnd) (value : BitVec 16) :
    sound.writeRegister (spu2Base + offset) value = .ok (sound.writeOffset offset value) := by
  unfold Spu2.writeRegister
  rw [decodeRegister_offset even inside]
  exact if_neg (Nat.not_lt.2 inside)

theorem readRegister_offset (even : offset % 2 = 0) (inside : offset ≤ registerEnd) :
    sound.readRegister (spu2Base + offset) = .ok (sound.readOffset offset) := by
  unfold Spu2.readRegister
  rw [decodeRegister_offset even inside]
  exact if_neg (Nat.not_lt.2 inside)

end Bank

/-! ### The registers of selectors -/

namespace Selector

/-- The offset of the register of a selector, and whether it has two halves. -/
def Reaches (offset : ℕ) (wide : Bool) : Selector → Prop
  | parameter entry => parameterAddress entry = .ok (spu2Base + offset) ∧ wide = false
  | switch entry => switchAddress entry = .ok (spu2Base + offset) ∧ wide = true
  | address entry => addressRegister entry = .ok (spu2Base + offset, !wide)

/-- The kinds with one register a core, and the places of these. -/
def places : List (ℕ × ℕ) :=
  [(8, 0x198), (0x13, 0x180), (0x14, 0x184), (0x15, 0x1a0), (0x16, 0x1a4), (0x17, 0x340), (0x18, 0x188),
    (0x19, 0x18c), (0x1a, 0x190), (0x1b, 0x194), (0x1c, 0x2e0), (0x1d, 0x33c), (0x1e, 0x1a8), (0x1f, 0x19c)]

/-- Where the register of a selector is. -/
inductive Placed (core kind voice : ℕ) : ℕ → Bool → Prop
  | parameter (few : voice < 24) (low : kind ≤ 7) :
      Placed core kind voice (core * 0x400 + voice * 0x10 + kind * 2) false
  | primary (low : 9 ≤ kind) (high : kind ≤ 18) : Placed core kind voice (0x760 + core * 0x28 + (kind - 9) * 2) false
  | core {place : ℕ} {wide : Bool} (listed : (kind, place) ∈ places) (narrow : kind = 8 → wide = false) :
      Placed core kind voice (core * 0x400 + place) wide
  | voice (few : voice < 24) (low : 0x20 ≤ kind) (high : kind ≤ 0x22) :
      Placed core kind voice (core * 0x400 + 0x1c0 + voice * 0xc + (kind - 0x20) * 4) true

theorem places_spec : ∀ listed ∈ places, listed.2 % 4 = 0 ∧ 0x180 ≤ listed.2 ∧ listed.2 < 0x344 ∧
    (listed.2 < 0x1c0 ∨ 0x2e0 ≤ listed.2) ∧ 8 ≤ listed.1 ∧ listed.1 < 0x20 ∧ (listed.2 = 0x198 → listed.1 = 8) := by
  decide

theorem places_injective : ∀ first ∈ places, ∀ second ∈ places, first.2 / 4 = second.2 / 4 → first.1 = second.1 := by
  decide

theorem places_primary : ∀ listed ∈ places, ¬ (9 ≤ listed.1 ∧ listed.1 ≤ 18) := by
  decide

theorem pair_eq {core core' place place' : ℕ} (low : place < 0x400) (low' : place' < 0x400)
    (same : (core * 0x400 + place) / 4 = (core' * 0x400 + place') / 4) : core = core' ∧ place / 4 = place' / 4 := by
  omega

section Apart

variable {core kind voice offset core' kind' voice' other : ℕ} {wide broad : Bool}

theorem Placed.shape (placed : Placed core kind voice offset wide) :
    (wide = false ∧ kind ≤ 7 ∧ voice < 24 ∧ offset = core * 0x400 + voice * 0x10 + kind * 2) ∨
      (wide = false ∧ 9 ≤ kind ∧ kind ≤ 18 ∧ offset = 0x760 + core * 0x28 + (kind - 9) * 2) ∨
      ∃ place, offset = core * 0x400 + place ∧ place % 4 = 0 ∧ 0x180 ≤ place ∧ place < 0x344 ∧
        (place = 0x198 → wide = false) ∧ 8 ≤ kind ∧ ¬ (9 ≤ kind ∧ kind ≤ 18) := by
  cases placed with
  | parameter few low => exact .inl ⟨rfl, low, few, rfl⟩
  | primary low high => exact .inr (.inl ⟨rfl, low, high, rfl⟩)
  | core listed narrow =>
    obtain ⟨pairs, low, high, -, least, -, mixer⟩ := places_spec _ listed
    exact .inr (.inr ⟨_, rfl, pairs, low, high, fun it => narrow (mixer it), least, places_primary _ listed⟩)
  | voice few low high =>
    refine .inr (.inr ⟨0x1c0 + voice * 0xc + (kind - 0x20) * 4, ?_, ?_, ?_, ?_, ?_, ?_, ?_⟩) <;> omega

theorem Placed.pair (placed : Placed core kind voice offset wide) (against : Placed core' kind' voice' other broad)
    (pairs : 8 ≤ kind ∧ ¬ (9 ≤ kind ∧ kind ≤ 18)) (others : 8 ≤ kind' ∧ ¬ (9 ≤ kind' ∧ kind' ≤ 18))
    (same : offset / 4 = other / 4) : kind = kind' ∧ core = core' ∧ (0x20 ≤ kind → voice = voice') := by
  cases placed with
  | parameter _ low => omega
  | primary low high => exact absurd ⟨low, high⟩ pairs.2
  | core listed _ =>
    obtain ⟨-, -, high, range, -, least, -⟩ := places_spec _ listed
    cases against with
    | parameter _ low => omega
    | primary low high => exact absurd ⟨low, high⟩ others.2
    | core second _ =>
      obtain ⟨cores, place⟩ := pair_eq (lt_trans high (by decide))
        (lt_trans (places_spec _ second).2.2.1 (by decide)) same
      exact ⟨places_injective _ listed _ second place, cores, fun voiced => absurd voiced (Nat.not_le.2 least)⟩
    | voice few low top =>
      rw [Nat.add_assoc, Nat.add_assoc] at same
      obtain ⟨-, place⟩ := pair_eq (lt_trans high (by decide)) (by omega) same
      dsimp only at place range high
      omega
  | voice few low top =>
    rw [Nat.add_assoc, Nat.add_assoc] at same
    cases against with
    | parameter _ low => omega
    | primary low high => exact absurd ⟨low, high⟩ others.2
    | core second _ =>
      obtain ⟨-, -, high, range, -, -, -⟩ := places_spec _ second
      obtain ⟨-, place⟩ := pair_eq (by omega) (lt_trans high (by decide)) same
      dsimp only at place range high
      omega
    | voice few' low' top' =>
      rw [Nat.add_assoc _ (voice' * 0xc), Nat.add_assoc] at same
      obtain ⟨cores, place⟩ := pair_eq (by omega) (by omega) same
      omega

end Apart

/-- The register of one selector is apart from that of another, but for the current volumes. -/
theorem Placed.apart {σ τ : Selector} {offset other : ℕ} {wide broad : Bool}
    (placed : Placed (entryCore σ.entry) (entryKind σ.entry) (entryVoice σ.entry) offset wide)
    (against : Placed (entryCore τ.entry) (entryKind τ.entry) (entryVoice τ.entry) other broad)
    (different : ¬ σ.Same τ) (mirror : ¬ σ.Mirrored τ) {written read : ℕ}
    (mine : written = offset ∨ wide = true ∧ written = offset + 2)
    (its : read = other ∨ broad = true ∧ read = other + 2) :
    ¬ Touches written read := by
  have pair := placed.pair against
  unfold Same at different
  unfold Mirrored at mirror
  rw [Fin.ext_iff] at different mirror
  have mineCore := (entryCore σ.entry).isLt
  have itsCore := (entryCore τ.entry).isLt
  unfold Touches InPairs Mirrors primaryBase voiceParameterEnd coreStride voiceStride
  rcases placed.shape with ⟨rfl, low, few, placed⟩ | ⟨rfl, low, high, placed⟩ |
      ⟨place, placed, even, low, high, -, pairs⟩ <;>
    rcases against.shape with ⟨rfl, low', few', against⟩ | ⟨rfl, low', high', against⟩ |
      ⟨place', against, even', low', high', -, others⟩
  case inr.inr.inr.inr =>
    have first : written / 4 = offset / 4 := by omega
    have second : read / 4 = other / 4 := by omega
    have within : 0x180 ≤ written % 0x400 := by omega
    clear mine its placed against
    rintro touches
    have same : offset / 4 = other / 4 := by omega
    obtain ⟨kinds, cores, voices⟩ := pair pairs others same
    exact different ⟨kinds, cores, fun voiced => voices (by omega)⟩
  all_goals clear pair
  all_goals simp only [Bool.false_eq_true, false_and, or_false] at mine its
  all_goals omega

/-! ### Selectors and the bank -/

theorem Placed.inside {core : Fin 2} {kind voice offset : ℕ} {wide : Bool}
    (placed : Placed core kind voice offset wide) : offset % 2 = 0 ∧ offset + 2 ≤ registerEnd := by
  have bound := core.isLt
  unfold registerEnd
  rcases placed.shape with ⟨-, low, few, rfl⟩ | ⟨-, low, high, rfl⟩ | ⟨place, rfl, even, low, high, -⟩ <;> omega

theorem parameterAddress_placed {entry : BitVec 16} {address : ℕ} (accepted : parameterAddress entry = .ok address) :
    ∃ offset, address = spu2Base + offset ∧
      Placed (entryCore entry) (entryKind entry) (entryVoice entry) offset false := by
  unfold parameterAddress at accepted
  dsimp only at accepted
  split at accepted
  next named =>
    cases accepted
    exact ⟨_, by rw [coreBase, Nat.add_assoc, Nat.add_assoc, ← Nat.add_assoc (_ * _)]; rfl, .parameter named.2 named.1⟩
  next =>
    split at accepted
    next mixer =>
      cases accepted
      refine ⟨_, by rw [coreBase, Nat.add_assoc]; rfl, .core ?_ fun _ => rfl⟩
      rw [mixer]
      decide
    next =>
      split at accepted
      next named =>
        cases accepted
        exact ⟨_, by rw [primaryBaseOf, Nat.add_assoc, Nat.add_assoc, ← Nat.add_assoc primaryBase]; rfl,
          .primary named.1 named.2⟩
      next => cases accepted

theorem switchAddress_placed {entry : BitVec 16} {address : ℕ} (accepted : switchAddress entry = .ok address) :
    ∃ offset, address = spu2Base + offset ∧
      Placed (entryCore entry) (entryKind entry) (entryVoice entry) offset true := by
  unfold switchAddress at accepted
  dsimp only at accepted
  split at accepted
  case h_10 => cases accepted
  all_goals
    rename_i named
    cases accepted
    refine ⟨_, by rw [coreBase, Nat.add_assoc]; rfl, .core (by rw [named]; decide) fun mixer => ?_⟩
    rw [named] at mixer
    cases mixer

theorem addressRegister_placed {entry : BitVec 16} {address : ℕ} {highOnly : Bool}
    (accepted : addressRegister entry = .ok (address, highOnly)) :
    ∃ offset, address = spu2Base + offset ∧
      Placed (entryCore entry) (entryKind entry) (entryVoice entry) offset (!highOnly) := by
  unfold addressRegister at accepted
  dsimp only at accepted
  have loops {kind : ℕ} (named : entryKind entry = kind) (few : entryVoice entry < 24) (low : 0x20 ≤ kind)
      (high : kind ≤ 0x22) :
      Placed (entryCore entry) (entryKind entry) (entryVoice entry)
        ((entryCore entry).val * coreStride + voiceAddressBase + entryVoice entry * voiceAddressStride +
          (kind - 0x20) * 4) true := by
    subst named
    exact .voice few low high
  split at accepted
  case h_8 => cases accepted
  case h_5 named =>
    split at accepted <;> cases accepted
    refine ⟨_, ?_, loops named ‹_› (by decide) (by decide)⟩
    unfold coreBase
    omega
  case h_6 named =>
    split at accepted <;> cases accepted
    refine ⟨_, ?_, loops named ‹_› (by decide) (by decide)⟩
    unfold coreBase
    omega
  case h_7 named =>
    split at accepted <;> cases accepted
    refine ⟨_, ?_, loops named ‹_› (by decide) (by decide)⟩
    unfold coreBase
    omega
  all_goals
    rename_i named
    cases accepted
    refine ⟨_, by rw [coreBase, Nat.add_assoc]; rfl, .core (by rw [named]; decide) fun mixer => ?_⟩
    rw [named] at mixer
    cases mixer

theorem reaches (σ : Selector) :
    (∀ sound value, σ.set sound value = .error (.invalidRegister (spu2Base + 0x800))) ∧
        (∀ sound, σ.get sound = .error (.invalidRegister (spu2Base + 0x800))) ∨
      ∃ offset wide, σ.Reaches offset wide ∧
        Placed (entryCore σ.entry) (entryKind σ.entry) (entryVoice σ.entry) offset wide := by
  cases σ with
  | parameter entry =>
    cases address : parameterAddress entry with
    | error refused =>
      refine .inl ⟨fun sound value => ?_, fun sound => ?_⟩
      · unfold set writeSoundParameter
        dsimp only
        rw [address]
        rfl
      · unfold get readSoundParameter
        dsimp only
        rw [address]
        rfl
    | ok found =>
      obtain ⟨offset, rfl, placed⟩ := parameterAddress_placed address
      exact .inr ⟨offset, false, ⟨address, rfl⟩, placed⟩
  | switch entry =>
    cases address : switchAddress entry with
    | error refused =>
      refine .inl ⟨fun sound value => ?_, fun sound => ?_⟩
      · unfold set writeSoundSwitch
        dsimp only
        rw [address]
        rfl
      · unfold get readSoundSwitch
        dsimp only
        rw [address]
        rfl
    | ok found =>
      obtain ⟨offset, rfl, placed⟩ := switchAddress_placed address
      exact .inr ⟨offset, true, ⟨address, rfl⟩, placed⟩
  | address entry =>
    cases address : addressRegister entry with
    | error refused =>
      refine .inl ⟨fun sound value => ?_, fun sound => ?_⟩
      · unfold set writeSoundAddress
        dsimp only
        rw [address]
        rfl
      · unfold get readSoundAddress
        dsimp only
        rw [address]
        rfl
    | ok found =>
      obtain ⟨found, highOnly⟩ := found
      obtain ⟨offset, rfl, placed⟩ := addressRegister_placed address
      exact .inr ⟨offset, !highOnly, address.trans (by rw [Bool.not_not]), placed⟩

section Reached

variable {σ : Selector} {offset : ℕ} {wide : Bool} {sound : Spu2}

/-- A register is set by a write, or by two. -/
def written (offset : ℕ) (wide : Bool) (high low : BitVec 16) (sound : Spu2) : Spu2 :=
  if wide then sound.writePair offset high low else sound.writeOffset offset high

theorem written_narrow (offset : ℕ) (high low : BitVec 16) (sound : Spu2) :
    written offset false high low sound = sound.writeOffset offset high := rfl

/-- The first half that is written for a value. -/
def firstHalf (value : Word) : Selector → BitVec 16
  | parameter _ | switch _ => value.setWidth 16
  | address _ => addressHalf value true

/-- The second half that is written for a value. -/
def secondHalf (value : Word) : Selector → BitVec 16
  | parameter _ | switch _ => (value >>> 16).setWidth 16
  | address _ => addressHalf value false

/-- The value of the halves that are read. -/
def valueOf (wide : Bool) (first second : BitVec 16) : Selector → Word
  | parameter _ => first.setWidth 32
  | switch _ => first.setWidth 32 ||| (second.setWidth 32 <<< 16)
  | address _ => if wide then assembled first second else ((first.setWidth 32 <<< 17) ||| 0x1ffff) &&& 0x1fffff

theorem set_eq (reached : σ.Reaches offset wide) (inside : offset % 2 = 0 ∧ offset + 2 ≤ registerEnd) (value : Word) :
    σ.set sound value = .ok (written offset wide (σ.firstHalf value) (σ.secondHalf value) sound) := by
  have first := fun (sound : Spu2) => writeRegister_offset sound inside.1 (by omega)
  have second := fun (sound : Spu2) (value : BitVec 16) =>
    (congrArg (fun address => sound.writeRegister address value) (Nat.add_assoc spu2Base offset 2)).trans
      (writeRegister_offset sound (by omega) inside.2 value)
  cases σ with
  | parameter entry =>
    obtain ⟨address, rfl⟩ := reached
    unfold set writeSoundParameter
    dsimp only
    rw [address]
    exact first ..
  | switch entry =>
    obtain ⟨address, rfl⟩ := reached
    unfold set writeSoundSwitch
    dsimp only
    rw [address]
    show (sound.writeRegister (spu2Base + offset) _ >>= _) = _
    rw [first]
    exact second ..
  | address entry =>
    unfold set writeSoundAddress
    dsimp only
    rw [show addressRegister entry = _ from reached]
    show (sound.writeRegister (spu2Base + offset) _ >>= _) = _
    rw [first]
    cases wide with
    | false => rfl
    | true => exact second ..

theorem get_eq (reached : σ.Reaches offset wide) (inside : offset % 2 = 0 ∧ offset + 2 ≤ registerEnd) :
    σ.get sound = .ok (σ.valueOf wide (sound.readOffset offset) (sound.readOffset (offset + 2))) := by
  have first := readRegister_offset sound inside.1 (by omega)
  have second := (congrArg sound.readRegister (Nat.add_assoc spu2Base offset 2)).trans
    (readRegister_offset sound (by omega) inside.2)
  cases σ with
  | parameter entry =>
    obtain ⟨address, rfl⟩ := reached
    unfold get readSoundParameter
    dsimp only
    rw [address]
    show (sound.readRegister (spu2Base + offset) >>= _) = _
    rw [first]
    rfl
  | switch entry =>
    obtain ⟨address, rfl⟩ := reached
    unfold get readSoundSwitch
    dsimp only
    rw [address]
    show (sound.readRegister (spu2Base + offset) >>= fun low => sound.readRegister (spu2Base + offset + 2) >>= _) = _
    rw [first, second]
    rfl
  | address entry =>
    unfold get readSoundAddress
    dsimp only
    rw [show addressRegister entry = _ from reached]
    cases wide with
    | false =>
      show (sound.readRegister (spu2Base + offset) >>= _) = _
      rw [first]
      rfl
    | true =>
      show (sound.readRegister (spu2Base + offset) >>= fun high => sound.readRegister (spu2Base + offset + 2) >>= _) = _
      rw [first, second]
      rfl

end Reached

end Selector

end Upse.Libsd
