import Upse.Hw.Ps2.Effects
import Mathlib.Logic.Function.Basic
import Mathlib.Tactic.IntervalCases

/-!
# The registers of the SPU2

Every register keeps the halfword that was written to it; some of them are read from the voices and the
cores, and most writes also go there.
-/

namespace Upse.SoundRegisters

open Spu2Effects

def spu2Base : ℕ := 0x1f900000
def spu2End : ℕ := 0x1f90ffff
def registerEnd : ℕ := 0x7ff
def coreStride : ℕ := 0x400
def voiceParameterEnd : ℕ := 0x180
def voiceStride : ℕ := 0x10
def voiceAddressBase : ℕ := 0x1c0
def voiceAddressStride : ℕ := 0x0c
def voicesPerCore : ℕ := 24
def primaryBase : ℕ := 0x760
def primaryStride : ℕ := 0x28
def irqInfoRegister : ℕ := 0x7c2
def statusDmaReady : BitVec 16 := 1 <<< 7
def coreAttrDmaMask : BitVec 16 := 3 <<< 4
def coreAttrIrqEnable : BitVec 16 := 1 <<< 6

/-- The fields of a voice that its registers reach. -/
structure Voice where
  volumeLeft : BitVec 16
  volumeRight : BitVec 16
  pitch : BitVec 16
  adsrLow : BitVec 16
  adsrHigh : BitVec 16
  level : BitVec 16
  startAddress : Word
  repeatAddress : Word
  repeatAddressWritten : Bool
  currentAddress : ℕ
  deriving Inhabited

instance : Inhabited Effects := ⟨⟨0⟩⟩

/-- The fields of a core that its registers reach. -/
structure Core where
  voices : ℕ → Voice
  pitchModMask : Word
  noiseMask : Word
  voiceDryLeft : Word
  voiceDryRight : Word
  voiceEffectLeft : Word
  voiceEffectRight : Word
  mix : BitVec 16
  attributes : BitVec 16
  endx : Word
  keyOnPending : Word
  keyOffPending : Word
  irqAddress : Word
  transferAddress : Word
  effectStart : Word
  effectEnd : Word
  effectAddresses : ℕ → Word
  effectCoefficients : ℕ → BitVec 16
  masterVolume : Fin 2 → BitVec 16
  effectVolume : Fin 2 → BitVec 16
  inputAVolume : Fin 2 → BitVec 16
  inputBVolume : Fin 2 → BitVec 16
  effects : Effects
  irqRequest : Bool
  status : BitVec 16
  deriving Inhabited

/-- The sound processor, as far as its registers reach it. -/
structure Spu2 where
  ram : ℕ → BitVec 8
  cores : Fin 2 → Core
  registers : ℕ → BitVec 16
  irqInfo : BitVec 16
  deriving Inhabited

/-- An access to no register. -/
inductive Spu2Error where
  | invalidRegister (address : ℕ)
  deriving DecidableEq, Repr

/-- `decode_register`: the offset of an address in the window. -/
def decodeRegister (address : ℕ) : Except Spu2Error ℕ :=
  if ¬ (spu2Base ≤ address ∧ address ≤ spu2End) ∨ address % 2 ≠ 0 then .error (.invalidRegister address)
  else .ok (address - spu2Base)

/-- `decode_core_register`. -/
def decodeCoreRegister (offset : ℕ) : Option (Fin 2 × ℕ) :=
  if offset < coreStride then some (0, offset)
  else if offset < primaryBase then some (1, offset - coreStride)
  else none

/-- `decode_primary_register`. -/
def decodePrimaryRegister (offset : ℕ) : Option (Fin 2 × ℕ) :=
  if primaryBase ≤ offset ∧ offset < primaryBase + primaryStride then some (0, offset - primaryBase)
  else if primaryBase + primaryStride ≤ offset ∧ offset < primaryBase + primaryStride * 2 then
    some (1, offset - primaryBase - primaryStride)
  else none

/-- `decode_voice_address`. -/
def decodeVoiceAddress (place : ℕ) : Option (ℕ × ℕ) :=
  if ¬ (voiceAddressBase ≤ place ∧ place < voiceAddressBase + voiceAddressStride * voicesPerCore) then none
  else some ((place - voiceAddressBase) / voiceAddressStride, (place - voiceAddressBase) % voiceAddressStride)

/-- `address_half`. -/
def addressHalf (address : Word) (high : Bool) : BitVec 16 :=
  if high then (address >>> 17).setWidth 16 else ((address >>> 1) &&& 0xfff8).setWidth 16

/-- `high_switch_half`. -/
def highSwitchHalf (value : Word) : BitVec 16 := (value &&& 0xffff).setWidth 16

/-- `low_switch_half`. -/
def lowSwitchHalf (value : Word) : BitVec 16 := ((value >>> 16) &&& 0xff).setWidth 16

/-- `set_high_switch_half`. -/
def setHighSwitchHalf (target : Word) (value : BitVec 16) : Word := (target &&& 0x00ff0000) ||| value.setWidth 32

/-- `set_low_switch_half`. -/
def setLowSwitchHalf (target : Word) (value : BitVec 16) : Word :=
  (target &&& 0x0000ffff) ||| ((value &&& 0xff).setWidth 32 <<< 16)

/-- `direct_volume`. -/
def directVolume (register : BitVec 16) : ℤ :=
  let direct := register &&& 0x7fff
  if direct &&& 0x4000 ≠ 0 then direct.toNat - 0x8000 else direct.toNat

/-- `current_volume`. -/
def currentVolume (register : BitVec 16) : BitVec 16 := BitVec.ofInt 16 (directVolume register)

/-! ### Reads -/

/-- A parameter of a voice. -/
def Voice.readParameter (voice : Voice) (raw : BitVec 16) : ℕ → BitVec 16
  | 0 => voice.volumeLeft
  | 2 => voice.volumeRight
  | 4 => voice.pitch
  | 6 => voice.adsrLow
  | 8 => voice.adsrHigh
  | 0x0a => voice.level
  | 0x0c => currentVolume voice.volumeLeft
  | 0x0e => currentVolume voice.volumeRight
  | _ => raw

/-- An address of a voice. -/
def Voice.readAddress (voice : Voice) (raw : BitVec 16) (register : ℕ) : BitVec 16 :=
  if register = 0 ∨ register = 2 then addressHalf voice.startAddress (register = 0)
  else if register = 4 ∨ register = 6 then addressHalf voice.repeatAddress (register = 4)
  else if register = 8 ∨ register = 10 then
    addressHalf (if voice.currentAddress < 2 ^ 32 then BitVec.ofNat 32 voice.currentAddress else 0) (register = 8)
  else raw

/-- A register of a core. -/
def Core.read (core : Core) (raw : BitVec 16) (place : ℕ) : BitVec 16 :=
  if place < voiceParameterEnd then (core.voices (place / voiceStride)).readParameter raw (place % voiceStride)
  else
    match decodeVoiceAddress place with
    | some (voice, register) => (core.voices voice).readAddress raw register
    | none =>
      match place with
      | 0x340 => highSwitchHalf core.endx
      | 0x342 => lowSwitchHalf core.endx
      | 0x1a0 | 0x1a2 | 0x1a4 | 0x1a6 => 0
      | 0x344 => core.status ||| if core.attributes &&& coreAttrDmaMask ≠ 0 then statusDmaReady else 0
      | _ => raw

namespace Spu2

variable (self : Spu2)

/-- `read_register` at an offset of the bank. -/
def readOffset (offset : ℕ) : BitVec 16 :=
  let raw := self.registers (offset / 2)
  if offset = irqInfoRegister then self.irqInfo
  else
    match decodeCoreRegister offset with
    | some (core, place) => (self.cores core).read raw place
    | none => raw

/-- `read_register`. -/
def readRegister (address : ℕ) : Except Spu2Error (BitVec 16) := do
  let offset ← decodeRegister address
  if registerEnd < offset then return 0
  else return self.readOffset offset

/-! ### Writes -/

/-- `normalize_ram_address`, `check_irq_address` and the data port of a transfer. -/
def writeTransferHalfword (core : Fin 2) (value : BitVec 16) : Spu2 :=
  let c := self.cores core
  let address := normalizeAddress c.transferAddress
  let hit := c.attributes &&& coreAttrIrqEnable ≠ 0 ∧ address / 16 * 16 = normalizeAddress c.irqAddress / 16 * 16
  { self with
    ram := Function.update (Function.update self.ram address (value.setWidth 8)) ((address + 1) % soundRamSize)
      ((value >>> 8).setWidth 8)
    cores := Function.update self.cores core
      { c with
        irqRequest := c.irqRequest || decide hit
        transferAddress := BitVec.ofNat 32 ((address + 2) % soundRamSize) } }

/-- `decode_register_pair`. -/
def decodeRegisterPair (offset place : ℕ) : Word :=
  let highOffset := if place % 4 < 2 then offset else offset - 2
  decodeSoundAddress (self.registers (highOffset / 2)) (self.registers ((highOffset + 2) / 2))

/-- A change of one core. -/
def modifyCore (core : Fin 2) (f : Core → Core) : Spu2 :=
  { self with cores := Function.update self.cores core (f (self.cores core)) }

/-- The control word of a core. -/
def writeAttributes (core : Fin 2) (value : BitVec 16) : Spu2 :=
  let self := self.modifyCore core fun c =>
    { c with
      attributes := value
      status := if value &&& coreAttrDmaMask ≠ 0 then c.status &&& ~~~statusDmaReady else c.status
      irqRequest := if value &&& coreAttrIrqEnable = 0 then false else c.irqRequest }
  let info : BitVec 16 := 1 <<< (core.val + 2)
  if value &&& coreAttrIrqEnable = 0 then { self with irqInfo := self.irqInfo &&& (~~~info) } else self

/-- `write_core_register`. -/
def writeCoreRegister (core : Fin 2) (place offset : ℕ) (value : BitVec 16) : Spu2 :=
  match place with
  | 0x180 => self.modifyCore core fun c => { c with pitchModMask := setHighSwitchHalf c.pitchModMask value }
  | 0x182 => self.modifyCore core fun c => { c with pitchModMask := setLowSwitchHalf c.pitchModMask value }
  | 0x184 => self.modifyCore core fun c => { c with noiseMask := setHighSwitchHalf c.noiseMask value }
  | 0x186 => self.modifyCore core fun c => { c with noiseMask := setLowSwitchHalf c.noiseMask value }
  | 0x188 => self.modifyCore core fun c => { c with voiceDryLeft := setHighSwitchHalf c.voiceDryLeft value }
  | 0x18a => self.modifyCore core fun c => { c with voiceDryLeft := setLowSwitchHalf c.voiceDryLeft value }
  | 0x18c => self.modifyCore core fun c => { c with voiceEffectLeft := setHighSwitchHalf c.voiceEffectLeft value }
  | 0x18e => self.modifyCore core fun c => { c with voiceEffectLeft := setLowSwitchHalf c.voiceEffectLeft value }
  | 0x190 => self.modifyCore core fun c => { c with voiceDryRight := setHighSwitchHalf c.voiceDryRight value }
  | 0x192 => self.modifyCore core fun c => { c with voiceDryRight := setLowSwitchHalf c.voiceDryRight value }
  | 0x194 => self.modifyCore core fun c => { c with voiceEffectRight := setHighSwitchHalf c.voiceEffectRight value }
  | 0x196 => self.modifyCore core fun c => { c with voiceEffectRight := setLowSwitchHalf c.voiceEffectRight value }
  | 0x198 => self.modifyCore core fun c => { c with mix := value &&& 0x0fff }
  | 0x19a => self.writeAttributes core value
  | 0x19c | 0x19e => self.modifyCore core fun c => { c with irqAddress := self.decodeRegisterPair offset place }
  | 0x1a0 => self.modifyCore core fun c => { c with keyOnPending := c.keyOnPending ||| value.setWidth 32 }
  | 0x1a2 => self.modifyCore core fun c =>
      { c with keyOnPending := c.keyOnPending ||| ((value &&& 0xff).setWidth 32 <<< 16) }
  | 0x1a4 => self.modifyCore core fun c => { c with keyOffPending := c.keyOffPending ||| value.setWidth 32 }
  | 0x1a6 => self.modifyCore core fun c =>
      { c with keyOffPending := c.keyOffPending ||| ((value &&& 0xff).setWidth 32 <<< 16) }
  | 0x1a8 | 0x1aa => self.modifyCore core fun c => { c with transferAddress := self.decodeRegisterPair offset place }
  | 0x1ac => self.writeTransferHalfword core value
  | 0x2e0 | 0x2e2 => self.modifyCore core fun c =>
      { c with
        effectStart := self.decodeRegisterPair offset place
        effects := Effects.setStart (self.decodeRegisterPair offset place) }
  | 0x33c | 0x33e => self.modifyCore core fun c =>
      { c with effectEnd := decodeEffectEnd (self.registers ((offset - place % 4) / 2)) }
  | 0x340 => self.modifyCore core fun c => { c with endx := c.endx &&& (~~~(value.setWidth 32 : Word)) }
  | 0x342 => self.modifyCore core fun c =>
      { c with endx := c.endx &&& (~~~(((value &&& 0xff).setWidth 32 : Word) <<< 16)) }
  | _ =>
    if 0x2e4 ≤ place ∧ place ≤ 0x33a then
      let highOffset := offset - place % 4
      let address := decodeEffectOffset (self.registers (highOffset / 2)) (self.registers ((highOffset + 2) / 2))
      self.modifyCore core fun c =>
        { c with effectAddresses := Function.update c.effectAddresses ((place - 0x2e4) / 4) address }
    else self

/-- `write_primary_register`. -/
def writePrimaryRegister (core : Fin 2) (place : ℕ) (value : BitVec 16) : Spu2 :=
  match place with
  | 0 => self.modifyCore core fun c => { c with masterVolume := Function.update c.masterVolume 0 value }
  | 2 => self.modifyCore core fun c => { c with masterVolume := Function.update c.masterVolume 1 value }
  | 4 => self.modifyCore core fun c => { c with effectVolume := Function.update c.effectVolume 0 value }
  | 6 => self.modifyCore core fun c => { c with effectVolume := Function.update c.effectVolume 1 value }
  | 8 => self.modifyCore core fun c => { c with inputAVolume := Function.update c.inputAVolume 0 value }
  | 0x0a => self.modifyCore core fun c => { c with inputAVolume := Function.update c.inputAVolume 1 value }
  | 0x0c => self.modifyCore core fun c => { c with inputBVolume := Function.update c.inputBVolume 0 value }
  | 0x0e => self.modifyCore core fun c => { c with inputBVolume := Function.update c.inputBVolume 1 value }
  | _ =>
    if 0x14 ≤ place ∧ place ≤ 0x26 ∧ place % 2 = 0 then
      self.modifyCore core fun c =>
        { c with effectCoefficients := Function.update c.effectCoefficients ((place - 0x14) / 2) value }
    else self

/-- A change of one voice. -/
def modifyVoice (core : Fin 2) (voice : ℕ) (f : Voice → Voice) : Spu2 :=
  self.modifyCore core fun c => { c with voices := Function.update c.voices voice (f (c.voices voice)) }

/-- A parameter of a voice. -/
def writeParameter (value : BitVec 16) (register : ℕ) (voice : Voice) : Voice :=
  match register with
  | 0 => { voice with volumeLeft := value }
  | 2 => { voice with volumeRight := value }
  | 4 => { voice with pitch := if value.toNat < 0x3fff then value else 0x3fff }
  | 6 => { voice with adsrLow := value }
  | 8 => { voice with adsrHigh := value }
  | _ => voice

/-- An address of a voice, from the halves that the registers hold. -/
def writeAddress (high low : BitVec 16) (register : ℕ) (voice : Voice) : Voice :=
  if register = 0 ∨ register = 2 then { voice with startAddress := decodeSoundAddress high low }
  else if register = 4 ∨ register = 6 then
    { voice with repeatAddress := decodeSoundAddress high low, repeatAddressWritten := true }
  else voice

/-- `write_register` at an offset of the bank. -/
def writeOffset (offset : ℕ) (value : BitVec 16) : Spu2 :=
  let self := { self with registers := Function.update self.registers (offset / 2) value }
  if offset = irqInfoRegister then { self with irqInfo := self.irqInfo &&& value }
  else
    match decodeCoreRegister offset with
    | some (core, place) =>
      if place < voiceParameterEnd then
        self.modifyVoice core (place / voiceStride) (writeParameter value (place % voiceStride))
      else
        match decodeVoiceAddress place with
        | some (voice, register) =>
          let pair := (offset - register / 2 % 2 * 2) / 2
          self.modifyVoice core voice (writeAddress (self.registers pair) (self.registers (pair + 1)) register)
        | none => self.writeCoreRegister core place offset value
    | none =>
      match decodePrimaryRegister offset with
      | some (core, place) => self.writePrimaryRegister core place value
      | none => self

/-- `write_register`. -/
def writeRegister (address : ℕ) (value : BitVec 16) : Except Spu2Error Spu2 := do
  let offset ← decodeRegister address
  if registerEnd < offset then return self
  else return self.writeOffset offset value

end Spu2

end Upse.SoundRegisters
