import Upse.Hw.Ps2.RegisterFrames

/-!
# What a register keeps of a value

The registers of the volumes, the masks and the addresses of a core are named; a value that is written to one
of them, in one or two halves, is read back as the core uses it.
-/

namespace Upse.SoundRegisters

open Spu2Effects

/-! ### Halves of a word -/

/-- The halves of an address, in the form in which registers hold them. -/
def assembled (high low : BitVec 16) : Word := ((high.setWidth 32 <<< 17) ||| (low.setWidth 32 <<< 1)) &&& 0x1fffff

theorem decodeSoundAddress_addressHalf (value : Word) :
    decodeSoundAddress (addressHalf value true) (addressHalf value false) = value &&& 0x1ffff0 := by
  unfold decodeSoundAddress addressHalf soundRamSize
  apply BitVec.eq_of_getLsbD_eq
  intro i inside
  interval_cases i <;> simp

theorem assembled_addressHalf (value : Word) :
    assembled (addressHalf value true) (addressHalf value false) = value &&& 0x1ffff0 := by
  unfold assembled addressHalf
  apply BitVec.eq_of_getLsbD_eq
  intro i inside
  interval_cases i <;> simp

theorem assembled_assembled (value : Word) :
    assembled (addressHalf (value &&& 0x1ffff0) true) (addressHalf (value &&& 0x1ffff0) false) =
      value &&& 0x1ffff0 := by
  rw [assembled_addressHalf, BitVec.and_assoc, BitVec.and_self]

theorem decodeEffectEnd_eq (high : BitVec 16) :
    decodeEffectEnd high = ((high.setWidth 32 <<< 17) ||| 0x1ffff) &&& 0x1fffff := by
  unfold decodeEffectEnd soundRamSize
  simp only [Nat.reduceMul, Nat.reduceSub]
  rfl

theorem decodeEffectEnd_addressHalf (value : Word) :
    decodeEffectEnd (addressHalf value true) = (value &&& 0x1e0000) ||| 0x1ffff := by
  unfold decodeEffectEnd addressHalf soundRamSize
  apply BitVec.eq_of_getLsbD_eq
  intro i inside
  interval_cases i <;> simp

theorem setHalves (mask value : Word) :
    setLowSwitchHalf (setHighSwitchHalf mask (value.setWidth 16)) ((value >>> 16).setWidth 16) =
      value &&& 0xffffff := by
  unfold setLowSwitchHalf setHighSwitchHalf
  apply BitVec.eq_of_getLsbD_eq
  intro i inside
  interval_cases i <;> simp

theorem switchHalves (value : Word) :
    ((value.setWidth 16 : BitVec 16).setWidth 32) ||| (((value >>> 16).setWidth 16 : BitVec 16).setWidth 32 <<< 16) =
      value := by
  apply BitVec.eq_of_getLsbD_eq
  intro i inside
  interval_cases i <;> simp

/-! ### Registers after writes -/

theorem cores_modifyCore (s : Spu2) (core : Fin 2) (f : Core → Core) :
    (s.modifyCore core f).cores core = f (s.cores core) :=
  Function.update_self ..

section Registers

variable (s : Spu2) (offset : ℕ) (value : BitVec 16)

theorem registers_writeCoreRegister (core : Fin 2) (place : ℕ) :
    (s.writeCoreRegister core place offset value).registers = s.registers := by
  unfold Spu2.writeCoreRegister
  split
  case h_14 =>
    unfold Spu2.writeAttributes
    dsimp only
    split <;> rfl
  case h_30 => split <;> rfl
  all_goals rfl

theorem registers_writePrimaryRegister (core : Fin 2) (place : ℕ) :
    (s.writePrimaryRegister core place value).registers = s.registers := by
  unfold Spu2.writePrimaryRegister
  split
  case h_9 => split <;> rfl
  all_goals rfl

theorem registers_writeOffset :
    (s.writeOffset offset value).registers = Function.update s.registers (offset / 2) value := by
  unfold Spu2.writeOffset
  dsimp only
  split
  · rfl
  · split
    · split
      · rfl
      · split
        · rfl
        · exact registers_writeCoreRegister ..
    · split
      · exact registers_writePrimaryRegister ..
      · rfl

/-- The high half is written and then the low half. -/
def Spu2.writePair (high low : BitVec 16) : Spu2 := (s.writeOffset offset high).writeOffset (offset + 2) low

theorem registers_writePair (high low : BitVec 16) :
    (s.writePair offset high low).registers (offset / 2) = high ∧
      (s.writePair offset high low).registers ((offset + 2) / 2) = low := by
  have next : (offset + 2) / 2 = offset / 2 + 1 := by omega
  unfold Spu2.writePair
  rw [registers_writeOffset, registers_writeOffset, next, Function.update_self,
    Function.update_of_ne (Nat.ne_add_one _), Function.update_self]
  exact ⟨rfl, rfl⟩

end Registers

/-! ### Offsets of the named registers -/

/-- The offset of a register of a core. -/
def coreOffset (core : Fin 2) (place : ℕ) : ℕ := core.val * coreStride + place

/-- The offset of a primary register. -/
def primaryOffset (core : Fin 2) (place : ℕ) : ℕ := primaryBase + core.val * primaryStride + place

theorem decodeCoreRegister_coreOffset (core : Fin 2) {place : ℕ} (inside : place < 0x360) :
    decodeCoreRegister (coreOffset core place) = some (core, place) := by
  unfold decodeCoreRegister coreOffset coreStride primaryBase
  match core with
  | 0 =>
    rw [Fin.val_zero, if_pos (by omega), Nat.zero_mul, Nat.zero_add]
  | 1 =>
    rw [Fin.val_one, if_neg (by omega), if_pos (by omega), Nat.one_mul, Nat.add_sub_cancel_left]

theorem coreOffset_ne_irqInfo (core : Fin 2) {place : ℕ} (inside : place < 0x360) :
    coreOffset core place ≠ irqInfoRegister := by
  have bound := core.isLt
  unfold coreOffset coreStride irqInfoRegister
  omega

theorem decodeRegister_primaryOffset (core : Fin 2) {place : ℕ} (inside : place < primaryStride) :
    decodeCoreRegister (primaryOffset core place) = none ∧
      decodePrimaryRegister (primaryOffset core place) = some (core, place) ∧
      primaryOffset core place ≠ irqInfoRegister := by
  unfold primaryStride at inside
  unfold decodeCoreRegister decodePrimaryRegister primaryOffset coreStride primaryBase primaryStride irqInfoRegister
  match core with
  | 0 =>
    rw [Fin.val_zero]
    refine ⟨?_, ?_, by omega⟩
    · rw [if_neg (by omega), if_neg (by omega)]
    · rw [if_pos (by omega)]
      exact congrArg (fun place => some (0, place)) (by omega)
  | 1 =>
    rw [Fin.val_one]
    refine ⟨?_, ?_, by omega⟩
    · rw [if_neg (by omega), if_neg (by omega)]
    · rw [if_neg (by omega), if_pos (by omega)]
      exact congrArg (fun place => some (1, place)) (by omega)

theorem decodeVoiceAddress_eq (voice : Fin 24) {register : ℕ} (inside : register < voiceAddressStride) :
    decodeVoiceAddress (voiceAddressBase + voice.val * voiceAddressStride + register) = some (voice.val, register) := by
  have few := voice.isLt
  unfold voiceAddressStride at inside
  unfold decodeVoiceAddress voiceAddressBase voiceAddressStride voicesPerCore
  rw [if_neg (by omega)]
  exact congrArg some (Prod.ext (by dsimp only; omega) (by dsimp only; omega))

/-! ### Reads and writes at the named registers -/

/-- The places of a core that are read as they were written. -/
def Plain (place : ℕ) : Prop :=
  place < 0x360 ∧ ¬ place < voiceParameterEnd ∧ decodeVoiceAddress place = none ∧
    place ∉ [0x340, 0x342, 0x1a0, 0x1a2, 0x1a4, 0x1a6, 0x344]

instance (place : ℕ) : Decidable (Plain place) := inferInstanceAs (Decidable (_ ∧ _ ∧ _ ∧ _))

section Places

variable (s : Spu2) (core : Fin 2) (value : BitVec 16) {place : ℕ}

theorem writeOffset_core (plain : Plain place) :
    s.writeOffset (coreOffset core place) value =
      Spu2.writeCoreRegister { s with registers := Function.update s.registers (coreOffset core place / 2) value } core
        place (coreOffset core place) value := by
  obtain ⟨inside, outside, voiceless, -⟩ := plain
  unfold Spu2.writeOffset
  dsimp only
  rw [if_neg (coreOffset_ne_irqInfo core inside), decodeCoreRegister_coreOffset core inside]
  dsimp only
  rw [if_neg outside, voiceless]

theorem readOffset_core (plain : Plain place) :
    s.readOffset (coreOffset core place) = s.registers (coreOffset core place / 2) := by
  obtain ⟨inside, outside, voiceless, flags⟩ := plain
  unfold Spu2.readOffset
  dsimp only
  rw [if_neg (coreOffset_ne_irqInfo core inside), decodeCoreRegister_coreOffset core inside]
  dsimp only
  unfold Core.read
  rw [if_neg outside, voiceless]
  dsimp only
  split <;> first | rfl | exact absurd (by decide) flags

theorem coreOffset_next : coreOffset core place + 2 = coreOffset core (place + 2) := Nat.add_assoc ..

theorem readOffset_writePair (plain : Plain place ∧ Plain (place + 2)) (high low : BitVec 16) :
    (s.writePair (coreOffset core place) high low).readOffset (coreOffset core place) = high ∧
      (s.writePair (coreOffset core place) high low).readOffset (coreOffset core place + 2) = low := by
  obtain ⟨first, second⟩ := registers_writePair s (coreOffset core place) high low
  refine ⟨(readOffset_core _ core plain.1).trans first, ?_⟩
  rw [coreOffset_next] at second ⊢
  exact (readOffset_core _ core plain.2).trans second

theorem writeOffset_primary (inside : place < primaryStride) :
    s.writeOffset (primaryOffset core place) value =
      Spu2.writePrimaryRegister { s with registers := Function.update s.registers (primaryOffset core place / 2) value }
        core place value := by
  obtain ⟨none, found, other⟩ := decodeRegister_primaryOffset core inside
  unfold Spu2.writeOffset
  dsimp only
  rw [if_neg other, none]
  dsimp only
  rw [found]

theorem readOffset_primary (inside : place < primaryStride) :
    s.readOffset (primaryOffset core place) = s.registers (primaryOffset core place / 2) := by
  obtain ⟨none, -, other⟩ := decodeRegister_primaryOffset core inside
  unfold Spu2.readOffset
  dsimp only
  rw [if_neg other, none]

end Places

/-! ### Volumes and the mixer -/

/-- The volumes of a core. -/
inductive Volume where
  | master (side : Fin 2)
  | effect (side : Fin 2)
  | inputA (side : Fin 2)
  | inputB (side : Fin 2)
  deriving DecidableEq, Repr

namespace Volume

/-- Its place among the primary registers. -/
def place : Volume → ℕ
  | master side => 2 * side.val
  | effect side => 4 + 2 * side.val
  | inputA side => 8 + 2 * side.val
  | inputB side => 12 + 2 * side.val

/-- The volume itself. -/
def get : Volume → Core → BitVec 16
  | master side, c => c.masterVolume side
  | effect side, c => c.effectVolume side
  | inputA side, c => c.inputAVolume side
  | inputB side, c => c.inputBVolume side

/-- A core with another volume. -/
def set (value : BitVec 16) : Volume → Core → Core
  | master side, c => { c with masterVolume := Function.update c.masterVolume side value }
  | effect side, c => { c with effectVolume := Function.update c.effectVolume side value }
  | inputA side, c => { c with inputAVolume := Function.update c.inputAVolume side value }
  | inputB side, c => { c with inputBVolume := Function.update c.inputBVolume side value }

theorem get_set (value : BitVec 16) (volume : Volume) (c : Core) : volume.get (volume.set value c) = value := by
  cases volume <;> exact Function.update_self ..

theorem place_lt (volume : Volume) : volume.place < primaryStride := by
  unfold primaryStride
  cases volume <;> unfold place <;> dsimp only <;> omega

theorem writePrimaryRegister_place (volume : Volume) (s : Spu2) (core : Fin 2) (value : BitVec 16) :
    s.writePrimaryRegister core volume.place value = s.modifyCore core (volume.set value) := by
  have side (side : Fin 2) : side = 0 ∨ side = 1 := by omega
  rcases volume with chosen | chosen | chosen | chosen <;> rcases side chosen with rfl | rfl <;> rfl

theorem get_write (volume : Volume) (s : Spu2) (core : Fin 2) (value : BitVec 16) :
    volume.get ((s.writeOffset (primaryOffset core volume.place) value).cores core) = value := by
  rw [writeOffset_primary s core value volume.place_lt, writePrimaryRegister_place, cores_modifyCore, get_set]

theorem read_write (volume : Volume) (s : Spu2) (core : Fin 2) (value : BitVec 16) :
    (s.writeOffset (primaryOffset core volume.place) value).readOffset (primaryOffset core volume.place) = value := by
  rw [readOffset_primary _ core volume.place_lt, registers_writeOffset, Function.update_self]

end Volume

/-- The place of the mixer word. -/
def mixPlace : ℕ := 0x198

theorem mix_write (s : Spu2) (core : Fin 2) (value : BitVec 16) :
    ((s.writeOffset (coreOffset core mixPlace) value).cores core).mix = value &&& 0x0fff := by
  rw [writeOffset_core s core value (by decide)]
  exact congrArg Core.mix (cores_modifyCore _ core fun c => { c with mix := value &&& 0x0fff })

theorem mix_read_write (s : Spu2) (core : Fin 2) (value : BitVec 16) :
    (s.writeOffset (coreOffset core mixPlace) value).readOffset (coreOffset core mixPlace) = value := by
  rw [readOffset_core _ core (by decide), registers_writeOffset, Function.update_self]

/-! ### Masks of the voices -/

/-- The masks of a core. -/
inductive Mask where
  | pitchModulation
  | noise
  | dryLeft
  | effectLeft
  | dryRight
  | effectRight
  deriving DecidableEq, Repr

namespace Mask

/-- The place of its high half. -/
def place : Mask → ℕ
  | pitchModulation => 0x180
  | noise => 0x184
  | dryLeft => 0x188
  | effectLeft => 0x18c
  | dryRight => 0x190
  | effectRight => 0x194

/-- The mask itself. -/
def get : Mask → Core → Word
  | pitchModulation, c => c.pitchModMask
  | noise, c => c.noiseMask
  | dryLeft, c => c.voiceDryLeft
  | effectLeft, c => c.voiceEffectLeft
  | dryRight, c => c.voiceDryRight
  | effectRight, c => c.voiceEffectRight

/-- A core with the mask changed. -/
def modify (f : Word → Word) : Mask → Core → Core
  | pitchModulation, c => { c with pitchModMask := f c.pitchModMask }
  | noise, c => { c with noiseMask := f c.noiseMask }
  | dryLeft, c => { c with voiceDryLeft := f c.voiceDryLeft }
  | effectLeft, c => { c with voiceEffectLeft := f c.voiceEffectLeft }
  | dryRight, c => { c with voiceDryRight := f c.voiceDryRight }
  | effectRight, c => { c with voiceEffectRight := f c.voiceEffectRight }

theorem get_modify (f : Word → Word) (mask : Mask) (c : Core) : mask.get (mask.modify f c) = f (mask.get c) := by
  cases mask <;> rfl

theorem writeCoreRegister_high (mask : Mask) (s : Spu2) (core : Fin 2) (offset : ℕ) (value : BitVec 16) :
    s.writeCoreRegister core mask.place offset value =
      s.modifyCore core (mask.modify fun old => setHighSwitchHalf old value) := by
  cases mask <;> rfl

theorem writeCoreRegister_low (mask : Mask) (s : Spu2) (core : Fin 2) (offset : ℕ) (value : BitVec 16) :
    s.writeCoreRegister core (mask.place + 2) offset value =
      s.modifyCore core (mask.modify fun old => setLowSwitchHalf old value) := by
  cases mask <;> rfl

theorem plain (mask : Mask) : Plain mask.place ∧ Plain (mask.place + 2) := by
  cases mask <;> decide

theorem get_high (mask : Mask) (s : Spu2) (core : Fin 2) (value : BitVec 16) :
    mask.get ((s.writeOffset (coreOffset core mask.place) value).cores core) =
      setHighSwitchHalf (mask.get (s.cores core)) value := by
  rw [writeOffset_core s core value mask.plain.1, writeCoreRegister_high, cores_modifyCore, get_modify]

theorem get_low (mask : Mask) (s : Spu2) (core : Fin 2) (value : BitVec 16) :
    mask.get ((s.writeOffset (coreOffset core (mask.place + 2)) value).cores core) =
      setLowSwitchHalf (mask.get (s.cores core)) value := by
  rw [writeOffset_core s core value mask.plain.2, writeCoreRegister_low, cores_modifyCore, get_modify]

theorem get_write (mask : Mask) (s : Spu2) (core : Fin 2) (value : Word) :
    mask.get ((s.writePair (coreOffset core mask.place) (value.setWidth 16) ((value >>> 16).setWidth 16)).cores core) =
      value &&& 0xffffff := by
  unfold Spu2.writePair
  rw [coreOffset_next, get_low, get_high, setHalves]

end Mask

/-! ### Addresses of a core -/

/-- The addresses of a core that both halves are kept of. -/
inductive CoreAddress where
  | effectStart
  | transfer
  | interrupt
  deriving DecidableEq, Repr

namespace CoreAddress

/-- The place of its high half. -/
def place : CoreAddress → ℕ
  | effectStart => 0x2e0
  | transfer => 0x1a8
  | interrupt => 0x19c

/-- The address itself. -/
def get : CoreAddress → Core → Word
  | effectStart, c => c.effectStart
  | transfer, c => c.transferAddress
  | interrupt, c => c.irqAddress

/-- A core with another address. -/
def set (value : Word) : CoreAddress → Core → Core
  | effectStart, c => { c with effectStart := value, effects := Effects.setStart value }
  | transfer, c => { c with transferAddress := value }
  | interrupt, c => { c with irqAddress := value }

theorem get_set (value : Word) (address : CoreAddress) (c : Core) : address.get (address.set value c) = value := by
  cases address <;> rfl

theorem writeCoreRegister_low (address : CoreAddress) (s : Spu2) (core : Fin 2) (offset : ℕ) (value : BitVec 16) :
    s.writeCoreRegister core (address.place + 2) offset value =
      s.modifyCore core (address.set (s.decodeRegisterPair offset (address.place + 2))) := by
  cases address <;> rfl

theorem plain (address : CoreAddress) : Plain address.place ∧ Plain (address.place + 2) := by
  cases address <;> decide

theorem get_write (address : CoreAddress) (s : Spu2) (core : Fin 2) (high low : BitVec 16) :
    address.get ((s.writePair (coreOffset core address.place) high low).cores core) = decodeSoundAddress high low := by
  have later : ¬ (address.place + 2) % 4 < 2 := by cases address <;> decide
  have next : (coreOffset core address.place + 2) / 2 = coreOffset core address.place / 2 + 1 := by omega
  unfold Spu2.writePair
  rw [coreOffset_next, writeOffset_core _ core low address.plain.2, writeCoreRegister_low, cores_modifyCore, get_set]
  unfold Spu2.decodeRegisterPair
  dsimp only
  rw [if_neg later, ← coreOffset_next, Nat.add_sub_cancel, registers_writeOffset, next, Function.update_self,
    Function.update_of_ne (Nat.ne_add_one _), Function.update_self]

end CoreAddress

/-- The place of the end of the effects. -/
def effectEndPlace : ℕ := 0x33c

theorem effectEnd_write (s : Spu2) (core : Fin 2) (value : BitVec 16) :
    ((s.writeOffset (coreOffset core effectEndPlace) value).cores core).effectEnd = decodeEffectEnd value := by
  rw [writeOffset_core s core value (by decide)]
  refine (congrArg Core.effectEnd (cores_modifyCore _ core fun c => { c with effectEnd := decodeEffectEnd _ })).trans ?_
  exact congrArg decodeEffectEnd (Function.update_self ..)

theorem effectEnd_read_write (s : Spu2) (core : Fin 2) (value : BitVec 16) :
    (s.writeOffset (coreOffset core effectEndPlace) value).readOffset (coreOffset core effectEndPlace) = value := by
  rw [readOffset_core _ core (by decide), registers_writeOffset, Function.update_self]

/-! ### Parameters and addresses of a voice -/

/-- The parameters of a voice that can be set. -/
inductive Parameter where
  | volumeLeft
  | volumeRight
  | pitch
  | adsrLow
  | adsrHigh
  deriving DecidableEq, Repr

namespace Parameter

/-- Its place among the parameters. -/
def place : Parameter → ℕ
  | volumeLeft => 0
  | volumeRight => 2
  | pitch => 4
  | adsrLow => 6
  | adsrHigh => 8

/-- The parameter itself. -/
def get : Parameter → Voice → BitVec 16
  | volumeLeft, v => v.volumeLeft
  | volumeRight, v => v.volumeRight
  | pitch, v => v.pitch
  | adsrLow, v => v.adsrLow
  | adsrHigh, v => v.adsrHigh

/-- What a parameter keeps of a value. -/
def kept (value : BitVec 16) : Parameter → BitVec 16
  | pitch => if value.toNat < 0x3fff then value else 0x3fff
  | _ => value

theorem get_writeParameter (parameter : Parameter) (value : BitVec 16) (v : Voice) :
    parameter.get (Spu2.writeParameter value parameter.place v) = parameter.kept value := by
  cases parameter <;> rfl

theorem readParameter_place (parameter : Parameter) (raw : BitVec 16) (v : Voice) :
    v.readParameter raw parameter.place = parameter.get v := by
  cases parameter <;> rfl

end Parameter

/-- The place of a parameter of a voice. -/
def parameterPlace (voice : Fin 24) (register : ℕ) : ℕ := voice.val * voiceStride + register

theorem parameterPlace_spec (voice : Fin 24) {register : ℕ} (inside : register < voiceStride) :
    parameterPlace voice register < voiceParameterEnd ∧ parameterPlace voice register / voiceStride = voice.val ∧
      parameterPlace voice register % voiceStride = register := by
  have few := voice.isLt
  unfold parameterPlace voiceParameterEnd voiceStride at *
  omega

theorem writeOffset_parameter (s : Spu2) (core : Fin 2) (voice : Fin 24) {register : ℕ}
    (inside : register < voiceStride) (value : BitVec 16) :
    s.writeOffset (coreOffset core (parameterPlace voice register)) value =
      Spu2.modifyVoice
        { s with registers := Function.update s.registers (coreOffset core (parameterPlace voice register) / 2) value }
        core voice (Spu2.writeParameter value register) := by
  obtain ⟨below, mine, own⟩ := parameterPlace_spec voice inside
  have small : parameterPlace voice register < 0x360 := lt_trans below (by decide)
  unfold Spu2.writeOffset
  dsimp only
  rw [if_neg (coreOffset_ne_irqInfo core small), decodeCoreRegister_coreOffset core small]
  dsimp only
  rw [if_pos below, mine, own]

theorem readOffset_voiceParameter (s : Spu2) (core : Fin 2) (voice : Fin 24) {register : ℕ}
    (inside : register < voiceStride) :
    s.readOffset (coreOffset core (parameterPlace voice register)) =
      ((s.cores core).voices voice).readParameter (s.registers (coreOffset core (parameterPlace voice register) / 2))
        register := by
  obtain ⟨below, mine, own⟩ := parameterPlace_spec voice inside
  have small : parameterPlace voice register < 0x360 := lt_trans below (by decide)
  unfold Spu2.readOffset
  dsimp only
  rw [if_neg (coreOffset_ne_irqInfo core small), decodeCoreRegister_coreOffset core small]
  dsimp only
  unfold Core.read
  rw [if_pos below, mine, own]

theorem voices_modifyVoice (s : Spu2) (core : Fin 2) (voice : ℕ) (f : Voice → Voice) :
    ((s.modifyVoice core voice f).cores core).voices voice = f ((s.cores core).voices voice) := by
  unfold Spu2.modifyVoice
  rw [cores_modifyCore]
  exact Function.update_self ..

namespace Parameter

theorem place_lt (parameter : Parameter) : parameter.place < voiceStride := by
  cases parameter <;> decide

theorem get_write (parameter : Parameter) (s : Spu2) (core : Fin 2) (voice : Fin 24) (value : BitVec 16) :
    parameter.get (((s.writeOffset (coreOffset core (parameterPlace voice parameter.place)) value).cores core).voices
      voice) = parameter.kept value := by
  rw [writeOffset_parameter s core voice parameter.place_lt, voices_modifyVoice, get_writeParameter]

theorem read_write (parameter : Parameter) (s : Spu2) (core : Fin 2) (voice : Fin 24) (value : BitVec 16) :
    (s.writeOffset (coreOffset core (parameterPlace voice parameter.place)) value).readOffset
      (coreOffset core (parameterPlace voice parameter.place)) = parameter.kept value := by
  rw [readOffset_voiceParameter _ core voice parameter.place_lt, readParameter_place, get_write]

end Parameter

/-- The addresses of a voice that can be set. -/
inductive VoiceAddress where
  | start
  | loop
  deriving DecidableEq, Repr

namespace VoiceAddress

/-- The place of its high half among the addresses. -/
def place : VoiceAddress → ℕ
  | start => 0
  | loop => 4

/-- The address itself. -/
def get : VoiceAddress → Voice → Word
  | start, v => v.startAddress
  | loop, v => v.repeatAddress

theorem get_writeAddress (address : VoiceAddress) (high low : BitVec 16) (v : Voice) :
    address.get (Spu2.writeAddress high low (address.place + 2) v) = decodeSoundAddress high low := by
  cases address <;> rfl

theorem readAddress_place (address : VoiceAddress) (raw : BitVec 16) (v : Voice) :
    v.readAddress raw address.place = addressHalf (address.get v) true ∧
      v.readAddress raw (address.place + 2) = addressHalf (address.get v) false := by
  cases address <;> exact ⟨rfl, rfl⟩

end VoiceAddress

/-- The place of an address of a voice. -/
def voiceAddressPlace (voice : Fin 24) (register : ℕ) : ℕ :=
  voiceAddressBase + voice.val * voiceAddressStride + register

theorem voiceAddressPlace_next (core : Fin 2) (voice : Fin 24) (register : ℕ) :
    coreOffset core (voiceAddressPlace voice register) + 2 = coreOffset core (voiceAddressPlace voice (register + 2)) :=
  coreOffset_next core

theorem voiceAddressPlace_spec (voice : Fin 24) {register : ℕ} (inside : register < voiceAddressStride) :
    voiceAddressPlace voice register < 0x360 ∧ ¬ voiceAddressPlace voice register < voiceParameterEnd ∧
      decodeVoiceAddress (voiceAddressPlace voice register) = some (voice.val, register) := by
  have few := voice.isLt
  have decoded := decodeVoiceAddress_eq voice inside
  refine ⟨?_, ?_, decoded⟩ <;> unfold voiceAddressPlace voiceAddressBase voiceAddressStride at *
  · omega
  · unfold voiceParameterEnd
    omega

theorem readOffset_voiceAddress (s : Spu2) (core : Fin 2) (voice : Fin 24) {register : ℕ}
    (inside : register < voiceAddressStride) :
    s.readOffset (coreOffset core (voiceAddressPlace voice register)) =
      ((s.cores core).voices voice).readAddress (s.registers (coreOffset core (voiceAddressPlace voice register) / 2))
        register := by
  obtain ⟨small, outside, voiced⟩ := voiceAddressPlace_spec voice inside
  unfold Spu2.readOffset
  dsimp only
  rw [if_neg (coreOffset_ne_irqInfo core small), decodeCoreRegister_coreOffset core small]
  dsimp only
  unfold Core.read
  rw [if_neg outside, voiced]

theorem writeOffset_voiceAddress (s : Spu2) (core : Fin 2) (voice : Fin 24) {register : ℕ}
    (inside : register < voiceAddressStride) (value : BitVec 16) {offset : ℕ}
    (placed : offset = coreOffset core (voiceAddressPlace voice register)) :
    s.writeOffset offset value =
      Spu2.modifyVoice { s with registers := Function.update s.registers (offset / 2) value } core voice
        (Spu2.writeAddress
          (Function.update s.registers (offset / 2) value ((offset - register / 2 % 2 * 2) / 2))
          (Function.update s.registers (offset / 2) value ((offset - register / 2 % 2 * 2) / 2 + 1)) register) := by
  obtain ⟨small, outside, voiced⟩ := voiceAddressPlace_spec voice inside
  subst placed
  unfold Spu2.writeOffset
  dsimp only
  rw [if_neg (coreOffset_ne_irqInfo core small), decodeCoreRegister_coreOffset core small]
  dsimp only
  rw [if_neg outside, voiced]

namespace VoiceAddress

theorem place_lt (address : VoiceAddress) :
    address.place + 2 < voiceAddressStride ∧ address.place < voiceAddressStride := by
  cases address <;> decide

theorem get_write (address : VoiceAddress) (s : Spu2) (core : Fin 2) (voice : Fin 24) (high low : BitVec 16) :
    address.get (((s.writePair (coreOffset core (voiceAddressPlace voice address.place)) high low).cores core).voices
      voice) = decodeSoundAddress high low := by
  have half : (address.place + 2) / 2 % 2 * 2 = 2 := by cases address <;> decide
  have next : (coreOffset core (voiceAddressPlace voice address.place) + 2) / 2 =
      coreOffset core (voiceAddressPlace voice address.place) / 2 + 1 := by omega
  unfold Spu2.writePair
  rw [writeOffset_voiceAddress _ core voice address.place_lt.1 low (voiceAddressPlace_next ..), voices_modifyVoice,
    get_writeAddress, half, Nat.add_sub_cancel, registers_writeOffset, next, Function.update_self,
    Function.update_of_ne (Nat.ne_add_one _), Function.update_self]

theorem read_write (address : VoiceAddress) (s : Spu2) (core : Fin 2) (voice : Fin 24) (high low : BitVec 16) :
    (s.writePair (coreOffset core (voiceAddressPlace voice address.place)) high low).readOffset
        (coreOffset core (voiceAddressPlace voice address.place)) = addressHalf (decodeSoundAddress high low) true ∧
      (s.writePair (coreOffset core (voiceAddressPlace voice address.place)) high low).readOffset
        (coreOffset core (voiceAddressPlace voice address.place) + 2) =
        addressHalf (decodeSoundAddress high low) false := by
  rw [voiceAddressPlace_next, readOffset_voiceAddress _ core voice address.place_lt.1,
    readOffset_voiceAddress _ core voice address.place_lt.2, (address.readAddress_place _ _).1,
    (address.readAddress_place _ _).2, get_write]
  exact ⟨rfl, rfl⟩

end VoiceAddress

end Upse.SoundRegisters
