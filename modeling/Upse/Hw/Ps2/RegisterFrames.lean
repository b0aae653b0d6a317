import Upse.Hw.Ps2.SoundRegisters

/-!
# What a register write leaves

A write changes what its own register is read as, the other half of what has two halves, and the current
volume of a voice; every other register is read as before.  The control word of a core is the only register
whose write also shows in others.
-/

namespace Upse.SoundRegisters

open Spu2Effects

/-! ### Offsets -/

theorem decodeCoreRegister_eq_some {offset place : ℕ} {core : Fin 2}
    (decoded : decodeCoreRegister offset = some (core, place)) :
    offset < primaryBase ∧ place < coreStride ∧ offset = core.val * coreStride + place := by
  unfold decodeCoreRegister at decoded
  unfold coreStride primaryBase at *
  split at decoded
  next low =>
    cases decoded
    exact ⟨by omega, low, by simp⟩
  next high =>
    split at decoded
    next =>
      cases decoded
      refine ⟨by assumption, by omega, ?_⟩
      rw [Fin.val_one]
      omega
    next => cases decoded

theorem decodeVoiceAddress_eq_some {place voice register : ℕ}
    (decoded : decodeVoiceAddress place = some (voice, register)) :
    register < voiceAddressStride ∧ place = voiceAddressBase + voice * voiceAddressStride + register := by
  unfold decodeVoiceAddress at decoded
  split at decoded
  next => cases decoded
  next inside =>
    obtain ⟨rfl, rfl⟩ := Prod.ext_iff.1 (Option.some.inj decoded)
    unfold voiceAddressBase voiceAddressStride at *
    dsimp only
    omega

/-- The registers that have a high and a low half. -/
def InPairs (offset : ℕ) : Prop := offset < primaryBase ∧ voiceParameterEnd ≤ offset % coreStride

/-- The control word of a core. -/
def IsControl (offset : ℕ) : Prop := offset < primaryBase ∧ offset % coreStride = 0x19a

/-- The current volume of the volume of a voice. -/
def Mirrors (offset other : ℕ) : Prop :=
  offset < primaryBase ∧ offset % coreStride < voiceParameterEnd ∧ offset % voiceStride ≤ 2 ∧ other = offset + 12

/-- What a write may change the reading of. -/
def Touches (offset other : ℕ) : Prop :=
  other / 2 = offset / 2 ∨ (InPairs offset ∧ other / 4 = offset / 4) ∨ Mirrors offset other

/-! ### What registers are read from -/

/-- The fields of a core that its registers are read from. -/
structure Quiet (before after : Core) : Prop where
  voices : after.voices = before.voices
  endx : after.endx = before.endx
  attributes : after.attributes = before.attributes
  status : after.status = before.status

theorem Quiet.read {before after : Core} (quiet : Quiet before after) (raw : BitVec 16) (place : ℕ) :
    after.read raw place = before.read raw place := by
  unfold Core.read
  rw [quiet.voices, quiet.endx, quiet.attributes, quiet.status]

theorem read_endx (c : Core) (endx : Word) (raw : BitVec 16) {place : ℕ} (apart : place / 4 ≠ 0x340 / 4) :
    ({ c with endx } : Core).read raw place = c.read raw place := by
  unfold Core.read
  dsimp only
  split
  · rfl
  · split
    · rfl
    · split <;> first | rfl | exact absurd rfl apart

section Frames

variable {s t : Spu2} {other : ℕ}

theorem readOffset_congr (registers : t.registers (other / 2) = s.registers (other / 2))
    (irqInfo : t.irqInfo = s.irqInfo)
    (cores : ∀ core place, decodeCoreRegister other = some (core, place) →
      ∀ raw, (t.cores core).read raw place = (s.cores core).read raw place) :
    t.readOffset other = s.readOffset other := by
  unfold Spu2.readOffset
  rw [irqInfo, registers]
  dsimp only
  cases decoded : decodeCoreRegister other with
  | none => rfl
  | some found => exact congrArg (ite _ _) (cores found.1 found.2 decoded _)

theorem readOffset_modifyCore (core : Fin 2) {f : Core → Core}
    (same : ∀ place, decodeCoreRegister other = some (core, place) →
      ∀ raw, (f (s.cores core)).read raw place = (s.cores core).read raw place) :
    (s.modifyCore core f).readOffset other = s.readOffset other := by
  refine readOffset_congr rfl rfl fun read place decoded raw => ?_
  show Core.read (Function.update s.cores core (f (s.cores core)) read) raw place = _
  by_cases mine : read = core
  · subst mine
    rw [Function.update_self]
    exact same place decoded raw
  · rw [Function.update_of_ne mine]

theorem readOffset_quiet (core : Fin 2) {f : Core → Core} (quiet : ∀ c, Quiet c (f c)) :
    (s.modifyCore core f).readOffset other = s.readOffset other :=
  readOffset_modifyCore core fun place _ raw => (quiet _).read raw place

theorem readOffset_endx (core : Fin 2) (f : Core → Word)
    (apart : ∀ place, decodeCoreRegister other = some (core, place) → place / 4 ≠ 0x340 / 4) :
    (s.modifyCore core fun c => { c with endx := f c }).readOffset other = s.readOffset other :=
  readOffset_modifyCore core fun place decoded raw => read_endx _ _ raw (apart place decoded)

theorem readOffset_registers {index : ℕ} {value : BitVec 16} (apart : other / 2 ≠ index) :
    ({ s with registers := Function.update s.registers index value } : Spu2).readOffset other = s.readOffset other :=
  readOffset_congr (Function.update_of_ne apart ..) rfl fun _ _ _ _ => rfl

theorem readOffset_writeTransferHalfword (core : Fin 2) (value : BitVec 16) :
    (s.writeTransferHalfword core value).readOffset other = s.readOffset other := by
  refine readOffset_congr rfl rfl fun read place _ raw => ?_
  unfold Spu2.writeTransferHalfword
  dsimp only
  by_cases mine : read = core
  · subst mine
    rw [Function.update_self]
    exact Quiet.read ⟨rfl, rfl, rfl, rfl⟩ raw place
  · rw [Function.update_of_ne mine]

theorem readOffset_writeCoreRegister (core : Fin 2) (place offset : ℕ) (value : BitVec 16) (control : place ≠ 0x19a)
    (apart : place / 4 = 0x340 / 4 → ∀ read, decodeCoreRegister other = some (core, read) → read / 4 ≠ 0x340 / 4) :
    (s.writeCoreRegister core place offset value).readOffset other = s.readOffset other := by
  have quiet {f : Core → Core} (quiet : ∀ c, Quiet c (f c)) :
      (s.modifyCore core f).readOffset other = s.readOffset other := readOffset_quiet core quiet
  unfold Spu2.writeCoreRegister
  split
  case h_14 => exact absurd rfl control
  case h_23 => exact readOffset_writeTransferHalfword core value
  case h_28 => exact readOffset_endx core _ (apart rfl)
  case h_29 => exact readOffset_endx core _ (apart rfl)
  case h_30 =>
    split
    · exact quiet fun _ => ⟨rfl, rfl, rfl, rfl⟩
    · rfl
  all_goals exact quiet fun _ => ⟨rfl, rfl, rfl, rfl⟩

theorem readOffset_writePrimaryRegister (core : Fin 2) (place : ℕ) (value : BitVec 16) :
    (s.writePrimaryRegister core place value).readOffset other = s.readOffset other := by
  have quiet {f : Core → Core} (quiet : ∀ c, Quiet c (f c)) :
      (s.modifyCore core f).readOffset other = s.readOffset other := readOffset_quiet core quiet
  unfold Spu2.writePrimaryRegister
  split
  case h_9 =>
    split
    · exact quiet fun _ => ⟨rfl, rfl, rfl, rfl⟩
    · rfl
  all_goals exact quiet fun _ => ⟨rfl, rfl, rfl, rfl⟩

end Frames

/-! ### Voices -/

section Voices

variable {c : Core} {voice : ℕ} {v : Voice} {raw : BitVec 16} {place : ℕ}

theorem read_update (parameter : place < voiceParameterEnd → place / voiceStride = voice →
      v.readParameter raw (place % voiceStride) = (c.voices voice).readParameter raw (place % voiceStride))
    (address : ∀ register, decodeVoiceAddress place = some (voice, register) →
      v.readAddress raw register = (c.voices voice).readAddress raw register) :
    ({ c with voices := Function.update c.voices voice v } : Core).read raw place = c.read raw place := by
  unfold Core.read
  dsimp only
  split
  next inside =>
    by_cases mine : place / voiceStride = voice
    · rw [mine, Function.update_self]
      exact parameter inside mine
    · rw [Function.update_of_ne mine]
  next =>
    cases decoded : decodeVoiceAddress place with
    | none => rfl
    | some found =>
      obtain ⟨other, register⟩ := found
      dsimp only
      by_cases mine : other = voice
      · subst mine
        rw [Function.update_self]
        exact address register decoded
      · rw [Function.update_of_ne mine]

theorem readParameter_writeParameter (value : BitVec 16) {register other : ℕ} (apart : other ≠ register)
    (mirror : ¬ (register ≤ 2 ∧ other = register + 12)) :
    (Spu2.writeParameter value register v).readParameter raw other = v.readParameter raw other := by
  unfold Spu2.writeParameter
  split <;> unfold Voice.readParameter <;> split <;> first | rfl | omega

theorem readAddress_writeParameter (value : BitVec 16) (register other : ℕ) :
    (Spu2.writeParameter value register v).readAddress raw other = v.readAddress raw other := by
  unfold Spu2.writeParameter
  split <;> rfl

theorem readParameter_writeAddress (high low : BitVec 16) (register other : ℕ) :
    (Spu2.writeAddress high low register v).readParameter raw other = v.readParameter raw other := by
  unfold Spu2.writeAddress
  split
  · rfl
  · split <;> rfl

theorem readAddress_writeAddress (high low : BitVec 16) {register other : ℕ} (apart : other / 4 ≠ register / 4) :
    (Spu2.writeAddress high low register v).readAddress raw other = v.readAddress raw other := by
  unfold Spu2.writeAddress
  split
  next start =>
    have mine : ¬ (other = 0 ∨ other = 2) := by omega
    unfold Voice.readAddress
    rw [if_neg mine, if_neg mine]
  next =>
    split
    next repeats =>
      have mine : ¬ (other = 4 ∨ other = 6) := by omega
      unfold Voice.readAddress
      dsimp only
      rw [if_neg mine, if_neg mine]
    next => rfl

end Voices

/-! ### A write -/

section Write

variable {s : Spu2} {offset other : ℕ}

theorem readOffset_parameter {core : Fin 2} {place : ℕ} (decoded : decodeCoreRegister offset = some (core, place))
    (inside : place < voiceParameterEnd) (value : BitVec 16) (apart : ¬ Touches offset other) :
    (s.modifyVoice core (place / voiceStride) (Spu2.writeParameter value (place % voiceStride))).readOffset other =
      s.readOffset other := by
  obtain ⟨below, -, rfl⟩ := decodeCoreRegister_eq_some decoded
  refine readOffset_modifyCore core fun read found raw => read_update (fun parameter same => ?_) fun register _ => ?_
  · obtain ⟨-, -, rfl⟩ := decodeCoreRegister_eq_some found
    unfold Touches Mirrors at apart
    unfold voiceParameterEnd coreStride voiceStride at *
    exact readParameter_writeParameter value (by omega) (by omega)
  · exact readAddress_writeParameter ..

theorem readOffset_address {core : Fin 2} {place voice register : ℕ}
    (decoded : decodeCoreRegister offset = some (core, place)) (outside : ¬ place < voiceParameterEnd)
    (voiced : decodeVoiceAddress place = some (voice, register)) (high low : BitVec 16)
    (apart : ¬ Touches offset other) :
    (s.modifyVoice core voice (Spu2.writeAddress high low register)).readOffset other = s.readOffset other := by
  obtain ⟨below, small, rfl⟩ := decodeCoreRegister_eq_some decoded
  obtain ⟨-, rfl⟩ := decodeVoiceAddress_eq_some voiced
  refine readOffset_modifyCore core fun read found raw => read_update (fun _ _ => ?_) fun seen same => ?_
  · exact readParameter_writeAddress ..
  · obtain ⟨-, -, rfl⟩ := decodeCoreRegister_eq_some found
    obtain ⟨-, rfl⟩ := decodeVoiceAddress_eq_some same
    unfold Touches InPairs at apart
    unfold primaryBase at below
    unfold primaryBase voiceParameterEnd coreStride voiceAddressBase voiceAddressStride at *
    exact readAddress_writeAddress high low (by omega)

theorem readOffset_writeOffset (value : BitVec 16) (control : ¬ IsControl offset) (apart : ¬ Touches offset other) :
    (s.writeOffset offset value).readOffset other = s.readOffset other := by
  have elsewhere : other / 2 ≠ offset / 2 := fun same => apart (.inl same)
  have kept : ({ s with registers := Function.update s.registers (offset / 2) value } : Spu2).readOffset other =
      s.readOffset other := readOffset_registers elsewhere
  refine Eq.trans ?_ kept
  unfold Spu2.writeOffset
  dsimp only
  split
  next info =>
    have unread : other ≠ irqInfoRegister := fun same => elsewhere (by rw [same, info])
    unfold Spu2.readOffset
    rw [if_neg unread, if_neg unread]
  next =>
    split
    next core place decoded =>
      obtain ⟨below, small, placed⟩ := decodeCoreRegister_eq_some decoded
      split
      next inside => exact readOffset_parameter decoded inside value apart
      next outside =>
        split
        next voiced => exact readOffset_address decoded outside voiced _ _ apart
        next =>
          unfold IsControl at control
          unfold Touches InPairs at apart
          refine readOffset_writeCoreRegister core place offset value (fun same => control ⟨below, ?_⟩)
            fun ends read found same => ?_
          · unfold coreStride at *
            omega
          · obtain ⟨-, -, seen⟩ := decodeCoreRegister_eq_some found
            unfold voiceParameterEnd coreStride at *
            omega
    next =>
      split
      next => exact readOffset_writePrimaryRegister ..
      next => rfl

end Write

end Upse.SoundRegisters
