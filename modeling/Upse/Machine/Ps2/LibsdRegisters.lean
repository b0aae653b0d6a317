import Upse.Machine.Ps2.Libsd

/-!
# What libsd keeps of a value

The parameters, the switches and the addresses that the sound cores use are got as they were set, as far as
their registers keep them, and no other selector is got differently afterwards.
-/

namespace Upse.Libsd

open SoundRegisters
open Spu2Effects (decodeEffectEnd)

/-! ### The registers by name -/

/-- The voice of a selector, if a core has it. -/
def voiceOf (entry : BitVec 16) : Option (Fin 24) :=
  if few : entryVoice entry < 24 then some ⟨entryVoice entry, few⟩ else none

/-- The parameters that are settable. -/
inductive ParameterRegister where
  | voiced (voice : Fin 24) (parameter : Parameter)
  | mixer
  | volume (level : Volume)
  deriving DecidableEq, Repr

namespace ParameterRegister

/-- What the core uses. -/
def used (core : Core) : ParameterRegister → BitVec 16
  | voiced voice parameter => parameter.get (core.voices voice)
  | mixer => core.mix
  | volume level => level.get core

/-- What is kept of a value: a pitch is at most `0x3fff`. -/
def kept (value : BitVec 16) : ParameterRegister → BitVec 16
  | voiced _ parameter => parameter.kept value
  | _ => value

/-- The bits of a kept value that the core uses. -/
def usable : ParameterRegister → BitVec 16
  | mixer => 0x0fff
  | _ => 0xffff

/-- Its offset in the bank. -/
def offset (core : Fin 2) : ParameterRegister → ℕ
  | voiced voice parameter => coreOffset core (parameterPlace voice parameter.place)
  | mixer => coreOffset core mixPlace
  | volume level => primaryOffset core level.place

theorem used_write (r : ParameterRegister) (sound : Spu2) (core : Fin 2) (value : BitVec 16) :
    r.used ((sound.writeOffset (r.offset core) value).cores core) = r.kept value &&& r.usable := by
  cases r with
  | voiced voice parameter => exact (parameter.get_write sound core voice value).trans BitVec.and_allOnes.symm
  | mixer => exact mix_write sound core value
  | volume level => exact (level.get_write sound core value).trans BitVec.and_allOnes.symm

theorem read_write (r : ParameterRegister) (sound : Spu2) (core : Fin 2) (value : BitVec 16) :
    (sound.writeOffset (r.offset core) value).readOffset (r.offset core) = r.kept value := by
  cases r with
  | voiced voice parameter => exact parameter.read_write sound core voice value
  | mixer => exact mix_read_write sound core value
  | volume level => exact level.read_write sound core value

end ParameterRegister

/-- The parameter that a selector names. -/
def parameterRegister (entry : BitVec 16) : Option ParameterRegister :=
  match entryKind entry with
  | 0 => (voiceOf entry).map (.voiced · .volumeLeft)
  | 1 => (voiceOf entry).map (.voiced · .volumeRight)
  | 2 => (voiceOf entry).map (.voiced · .pitch)
  | 3 => (voiceOf entry).map (.voiced · .adsrLow)
  | 4 => (voiceOf entry).map (.voiced · .adsrHigh)
  | 8 => some .mixer
  | 9 => some (.volume (.master 0))
  | 10 => some (.volume (.master 1))
  | 11 => some (.volume (.effect 0))
  | 12 => some (.volume (.effect 1))
  | 13 => some (.volume (.inputA 0))
  | 14 => some (.volume (.inputA 1))
  | 15 => some (.volume (.inputB 0))
  | 16 => some (.volume (.inputB 1))
  | _ => none

/-- The mask that a selector names. -/
def switchMask (entry : BitVec 16) : Option Mask :=
  match entryKind entry with
  | 0x13 => some .pitchModulation
  | 0x14 => some .noise
  | 0x18 => some .dryLeft
  | 0x19 => some .effectLeft
  | 0x1a => some .dryRight
  | 0x1b => some .effectRight
  | _ => none

/-- The addresses that are settable. -/
inductive AddressRegister where
  | core (address : CoreAddress)
  | effectEnd
  | voiced (voice : Fin 24) (address : VoiceAddress)
  deriving DecidableEq, Repr

namespace AddressRegister

/-- What the core uses. -/
def used (sound : Core) : AddressRegister → Word
  | core address => address.get sound
  | effectEnd => sound.effectEnd
  | voiced voice address => address.get (sound.voices voice)

/-- What is kept of a value. -/
def kept (value : Word) : AddressRegister → Word
  | effectEnd => (value &&& 0x1e0000) ||| 0x1ffff
  | _ => value &&& 0x1ffff0

/-- Its offset in the bank. -/
def offset (core : Fin 2) : AddressRegister → ℕ
  | .core address => coreOffset core address.place
  | effectEnd => coreOffset core effectEndPlace
  | voiced voice address => coreOffset core (voiceAddressPlace voice address.place)

/-- Whether it has a low half. -/
def wide : AddressRegister → Bool
  | effectEnd => false
  | _ => true

end AddressRegister

/-- The address that a selector names. -/
def namedAddress (entry : BitVec 16) : Option AddressRegister :=
  match entryKind entry with
  | 0x1c => some (.core .effectStart)
  | 0x1d => some .effectEnd
  | 0x1e => some (.core .transfer)
  | 0x1f => some (.core .interrupt)
  | 0x20 => (voiceOf entry).map (.voiced · .start)
  | 0x21 => (voiceOf entry).map (.voiced · .loop)
  | _ => none

variable {entry : BitVec 16}

theorem voiceOf_eq_some {voice : Fin 24} (named : voiceOf entry = some voice) :
    entryVoice entry < 24 ∧ entryVoice entry = voice := by
  unfold voiceOf at named
  split at named <;> cases named
  exact ⟨‹_›, rfl⟩

theorem parameterAddress_named {r : ParameterRegister} (named : parameterRegister entry = some r) :
    parameterAddress entry = .ok (spu2Base + r.offset (entryCore entry)) := by
  have voiced {kind : ℕ} {parameter : Parameter} (chosen : entryKind entry = kind) (low : kind ≤ 7)
      (place : parameter.place = kind * 2)
      (mapped : (voiceOf entry).map (ParameterRegister.voiced · parameter) = some r) :
      parameterAddress entry = .ok (spu2Base + r.offset (entryCore entry)) := by
    obtain ⟨voice, found, rfl⟩ := Option.map_eq_some_iff.1 mapped
    obtain ⟨few, same⟩ := voiceOf_eq_some found
    unfold parameterAddress
    dsimp only
    rw [if_pos ⟨by omega, few⟩, chosen, same]
    unfold ParameterRegister.offset coreOffset parameterPlace coreBase
    dsimp only
    rw [place, Nat.add_assoc, Nat.add_assoc]
  have primary {kind : ℕ} {volume : Volume} (chosen : entryKind entry = kind) (low : 9 ≤ kind) (high : kind ≤ 18)
      (place : volume.place = (kind - 9) * 2) (mapped : some (ParameterRegister.volume volume) = some r) :
      parameterAddress entry = .ok (spu2Base + r.offset (entryCore entry)) := by
    cases mapped
    unfold parameterAddress
    dsimp only
    rw [chosen, if_neg (by omega), if_neg (by omega), if_pos ⟨low, high⟩, ← place]
    unfold ParameterRegister.offset primaryOffset primaryBaseOf
    dsimp only
    rw [Nat.add_assoc, Nat.add_assoc, Nat.add_assoc]
  unfold parameterRegister at named
  split at named
  case h_6 mixer =>
    cases named
    unfold parameterAddress
    dsimp only
    rw [mixer, if_neg (by omega), if_pos rfl]
    exact congrArg Except.ok (Nat.add_assoc ..)
  case h_15 => cases named
  all_goals
    rename_i chosen
    first
    | exact voiced chosen (by decide) rfl named
    | exact primary chosen (by decide) (by decide) rfl named

theorem switchAddress_named {mask : Mask} (named : switchMask entry = some mask) :
    switchAddress entry = .ok (spu2Base + coreOffset (entryCore entry) mask.place) := by
  unfold switchMask at named
  split at named
  case h_7 => cases named
  all_goals
    rename_i chosen
    cases named
    unfold switchAddress
    dsimp only
    rw [chosen]
    exact congrArg Except.ok (Nat.add_assoc ..)

theorem addressRegister_named {r : AddressRegister} (named : namedAddress entry = some r) :
    addressRegister entry = .ok (spu2Base + r.offset (entryCore entry), !r.wide) := by
  have voiced {address : VoiceAddress} (mapped : (voiceOf entry).map (AddressRegister.voiced · address) = some r)
      (found : entryVoice entry < 24 → addressRegister entry = .ok
        (coreBase (entryCore entry) + voiceAddressBase + entryVoice entry * voiceAddressStride + address.place,
          false)) :
      addressRegister entry = .ok (spu2Base + r.offset (entryCore entry), !r.wide) := by
    obtain ⟨voice, given, rfl⟩ := Option.map_eq_some_iff.1 mapped
    obtain ⟨few, same⟩ := voiceOf_eq_some given
    rw [found few, same]
    unfold AddressRegister.offset coreOffset voiceAddressPlace coreBase
    dsimp only
    rw [Nat.add_assoc, Nat.add_assoc, Nat.add_assoc, Nat.add_assoc]
    rfl
  unfold namedAddress at named
  split at named
  case h_5 chosen =>
    refine voiced named fun few => ?_
    unfold addressRegister
    dsimp only
    rw [chosen]
    exact if_pos few
  case h_6 chosen =>
    refine voiced named fun few => ?_
    unfold addressRegister
    dsimp only
    rw [chosen]
    exact if_pos few
  case h_7 => cases named
  all_goals
    rename_i chosen
    cases named
    unfold addressRegister
    dsimp only
    rw [chosen]
    exact congrArg (fun address => Except.ok (address, _)) (Nat.add_assoc ..)

/-! ### What other selectors are got -/

namespace Selector

theorem valueOf_congr {σ : Selector} {offset : ℕ} {wide : Bool} (reached : σ.Reaches offset wide)
    {first second second' : BitVec 16} (same : wide = true → second = second') :
    σ.valueOf wide first second = σ.valueOf wide first second' := by
  cases σ with
  | parameter entry => rfl
  | switch entry => rw [same reached.2]
  | address entry =>
    cases wide with
    | false => rfl
    | true => rw [same rfl]

theorem Placed.control {core : Fin 2} {kind voice offset : ℕ} {wide : Bool}
    (placed : Placed core kind voice offset wide) {written : ℕ}
    (mine : written = offset ∨ wide = true ∧ written = offset + 2) : ¬ IsControl written := by
  have bound := core.isLt
  unfold IsControl primaryBase coreStride
  rcases placed.shape with ⟨narrow, low, few, rfl⟩ | ⟨narrow, low, high, rfl⟩ | ⟨place, rfl, even, low, high, mixer, -⟩
  · rw [narrow] at mine
    simp only [Bool.false_eq_true, false_and, or_false] at mine
    omega
  · rw [narrow] at mine
    simp only [Bool.false_eq_true, false_and, or_false] at mine
    omega
  · rintro ⟨below, control⟩
    obtain rfl | ⟨broad, rfl⟩ := mine
    · omega
    · rw [broad] at mixer
      have other : place ≠ 0x198 := fun it => Bool.noConfusion (mixer it)
      omega

theorem readOffset_written {offset read : ℕ} {wide : Bool} {high low : BitVec 16} {sound : Spu2}
    (control : ∀ written, written = offset ∨ wide = true ∧ written = offset + 2 → ¬ IsControl written)
    (apart : ∀ written, written = offset ∨ wide = true ∧ written = offset + 2 → ¬ Touches written read) :
    (written offset wide high low sound).readOffset read = sound.readOffset read := by
  cases wide with
  | false => exact readOffset_writeOffset high (control _ (.inl rfl)) (apart _ (.inl rfl))
  | true =>
    exact (readOffset_writeOffset low (control _ (.inr ⟨rfl, rfl⟩)) (apart _ (.inr ⟨rfl, rfl⟩))).trans
      (readOffset_writeOffset high (control _ (.inl rfl)) (apart _ (.inl rfl)))

/-- Whatever is set, no other selector is got differently, but for the current volume of a volume. -/
theorem get_set_other {σ τ : Selector} {sound sound' : Spu2} {value : Word} (accepted : σ.set sound value = .ok sound')
    (different : ¬ σ.Same τ) (mirror : ¬ σ.Mirrored τ) : τ.get sound' = τ.get sound := by
  obtain ⟨refused, -⟩ | ⟨offset, wide, reached, placed⟩ := σ.reaches
  · rw [refused] at accepted
    cases accepted
  obtain ⟨-, refused⟩ | ⟨other, broad, against, elsewhere⟩ := τ.reaches
  · rw [refused, refused]
  rw [set_eq reached placed.inside] at accepted
  cases accepted
  have kept {read : ℕ} (its : read = other ∨ broad = true ∧ read = other + 2) :
      (written offset wide (σ.firstHalf value) (σ.secondHalf value) sound).readOffset read = sound.readOffset read :=
    readOffset_written (fun _ mine => placed.control mine)
      fun _ mine => placed.apart elsewhere different mirror mine its
  rw [get_eq against elsewhere.inside, get_eq against elsewhere.inside, kept (.inl rfl)]
  exact congrArg Except.ok (valueOf_congr against fun broad => kept (.inr ⟨broad, rfl⟩))

end Selector

/-! ### What is got of what was set -/

section Set

variable (sound : Spu2) {entry : BitVec 16} (value : Word)

theorem parameter_round_trip {r : ParameterRegister} (named : parameterRegister entry = some r) :
    ∃ sound', (Selector.parameter entry).set sound value = .ok sound' ∧
      (Selector.parameter entry).get sound' = .ok ((r.kept (value.setWidth 16)).setWidth 32) ∧
      r.used (sound'.cores (entryCore entry)) = r.kept (value.setWidth 16) &&& r.usable := by
  have address := parameterAddress_named named
  obtain ⟨offset, same, placed⟩ := Selector.parameterAddress_placed address
  cases Nat.add_left_cancel same
  have reached : (Selector.parameter entry).Reaches (r.offset (entryCore entry)) false := ⟨address, rfl⟩
  refine ⟨_, Selector.set_eq reached placed.inside value, (Selector.get_eq reached placed.inside).trans ?_, ?_⟩
  · exact congrArg (fun half => Except.ok (BitVec.setWidth 32 half)) (r.read_write sound (entryCore entry) _)
  · exact r.used_write sound (entryCore entry) _

theorem switch_round_trip {mask : Mask} (named : switchMask entry = some mask) :
    ∃ sound', (Selector.switch entry).set sound value = .ok sound' ∧ (Selector.switch entry).get sound' = .ok value ∧
      mask.get (sound'.cores (entryCore entry)) = value &&& 0xffffff := by
  have address := switchAddress_named named
  obtain ⟨offset, same, placed⟩ := Selector.switchAddress_placed address
  cases Nat.add_left_cancel same
  have reached : (Selector.switch entry).Reaches (coreOffset (entryCore entry) mask.place) true := ⟨address, rfl⟩
  obtain ⟨first, second⟩ := readOffset_writePair sound (entryCore entry) mask.plain (value.setWidth 16)
    ((value >>> 16).setWidth 16)
  refine ⟨_, Selector.set_eq reached placed.inside value, (Selector.get_eq reached placed.inside).trans ?_, ?_⟩
  · refine Eq.trans (congrArg Except.ok ?_) (congrArg Except.ok (switchHalves value))
    exact congrArg₂ (fun low high => BitVec.setWidth 32 low ||| (BitVec.setWidth 32 high <<< 16)) first second
  · exact mask.get_write sound (entryCore entry) value

variable (entry) in
theorem AddressRegister.written (r : AddressRegister) (core : Fin 2) :
    (Selector.address entry).valueOf r.wide
        ((Selector.written (r.offset core) r.wide (addressHalf value true) (addressHalf value false) sound).readOffset
          (r.offset core))
        ((Selector.written (r.offset core) r.wide (addressHalf value true) (addressHalf value false) sound).readOffset
          (r.offset core + 2)) = r.kept value ∧
      r.used ((Selector.written (r.offset core) r.wide (addressHalf value true) (addressHalf value false) sound).cores
        core) = r.kept value := by
  cases r with
  | core address =>
    obtain ⟨first, second⟩ := readOffset_writePair sound core address.plain (addressHalf value true)
      (addressHalf value false)
    refine ⟨(congrArg₂ assembled first second).trans (assembled_addressHalf value), ?_⟩
    exact (address.get_write sound core _ _).trans (decodeSoundAddress_addressHalf value)
  | effectEnd =>
    have kept : AddressRegister.effectEnd.kept value = decodeEffectEnd (addressHalf value true) :=
      (decodeEffectEnd_addressHalf value).symm
    have high := effectEnd_read_write sound core (addressHalf value true)
    rw [kept]
    dsimp only [AddressRegister.wide, AddressRegister.offset, AddressRegister.used]
    rw [Selector.written_narrow, decodeEffectEnd_eq]
    refine ⟨?_, (effectEnd_write sound core (addressHalf value true)).trans (decodeEffectEnd_eq _)⟩
    exact congrArg (fun high => ((BitVec.setWidth 32 high <<< 17) ||| 0x1ffff) &&& 0x1fffff) high
  | voiced voice address =>
    obtain ⟨first, second⟩ := address.read_write sound core voice (addressHalf value true) (addressHalf value false)
    rw [decodeSoundAddress_addressHalf] at first second
    refine ⟨(congrArg₂ assembled first second).trans (assembled_assembled value), ?_⟩
    exact (address.get_write sound core voice _ _).trans (decodeSoundAddress_addressHalf value)

theorem address_round_trip {r : AddressRegister} (named : namedAddress entry = some r) :
    ∃ sound', (Selector.address entry).set sound value = .ok sound' ∧
      (Selector.address entry).get sound' = .ok (r.kept value) ∧
      r.used (sound'.cores (entryCore entry)) = r.kept value := by
  have address := addressRegister_named named
  obtain ⟨offset, same, placed⟩ := Selector.addressRegister_placed address
  cases Nat.add_left_cancel same
  rw [Bool.not_not] at placed
  have reached : (Selector.address entry).Reaches (r.offset (entryCore entry)) r.wide := address
  obtain ⟨got, used⟩ := AddressRegister.written sound entry value r (entryCore entry)
  exact ⟨_, Selector.set_eq reached placed.inside value,
    (Selector.get_eq reached placed.inside).trans (congrArg Except.ok got), used⟩

end Set

/-- What is set through libsd is got as its register keeps it, the core uses that value, and but for the current
volume of a volume no other selector is got differently. -/
theorem libsd_registers :
    (∀ (sound : Spu2) (entry : BitVec 16) (r : ParameterRegister) (value : Word), parameterRegister entry = some r →
      ∃ sound', (Selector.parameter entry).set sound value = .ok sound' ∧
        (Selector.parameter entry).get sound' = .ok ((r.kept (value.setWidth 16)).setWidth 32) ∧
        r.used (sound'.cores (entryCore entry)) = r.kept (value.setWidth 16) &&& r.usable) ∧
    (∀ (sound : Spu2) (entry : BitVec 16) (mask : Mask) (value : Word), switchMask entry = some mask →
      ∃ sound', (Selector.switch entry).set sound value = .ok sound' ∧ (Selector.switch entry).get sound' = .ok value ∧
        mask.get (sound'.cores (entryCore entry)) = value &&& 0xffffff) ∧
    (∀ (sound : Spu2) (entry : BitVec 16) (r : AddressRegister) (value : Word), namedAddress entry = some r →
      ∃ sound', (Selector.address entry).set sound value = .ok sound' ∧
        (Selector.address entry).get sound' = .ok (r.kept value) ∧
        r.used (sound'.cores (entryCore entry)) = r.kept value) ∧
    ∀ (sound sound' : Spu2) (σ τ : Selector) (value : Word), σ.set sound value = .ok sound' → ¬ σ.Same τ →
      ¬ σ.Mirrored τ → τ.get sound' = τ.get sound :=
  ⟨fun sound _ _ value named => parameter_round_trip sound value named,
    fun sound _ _ value named => switch_round_trip sound value named,
    fun sound _ _ value named => address_round_trip sound value named,
    fun _ _ _ _ _ accepted different mirror => Selector.get_set_other accepted different mirror⟩

theorem libsd_registers_pitch : ∃ sound', (Selector.parameter 0x0204).set default 0x5000 = .ok sound' ∧
    (Selector.parameter 0x0204).get sound' = .ok 0x3fff ∧
    (Selector.address 0x2004).get sound' = (Selector.address 0x2004).get default := by
  obtain ⟨sound', set, get, -⟩ := libsd_registers.1 default 0x0204 (.voiced 2 .pitch) 0x5000 (by decide)
  refine ⟨sound', set, get, libsd_registers.2.2.2 _ _ _ _ _ set ?_ ?_⟩
  · rintro ⟨kind, -⟩
    exact absurd kind (by decide)
  · rintro ⟨low, -⟩
    exact absurd low (by decide)

end Upse.Libsd
