import Upse.Hw.Ps1.Dma
import Upse.Lib.Rings

/-!
# The DMA port of the SPU

A word goes through the port as two halfwords at a transfer address that wraps around the sound RAM; each
of them is compared with the interrupt address.
-/

namespace Upse.Ps1

open RingWindows

def soundRamSize : ℕ := 512 * 1024

def controlIrqEnable : BitVec 16 := 1 <<< 6

def statusIrq : BitVec 16 := 1 <<< 6

/-- The fields of the SPU that its port uses. -/
structure SoundPort where
  ram : ℕ → BitVec 8
  transferAddress : ℕ
  control : BitVec 16
  irqAddress : BitVec 16
  status : BitVec 16
  irqRequest : Bool

namespace SoundPort

/-- `check_irq_address`. -/
def checkIrqAddress (spu : SoundPort) (address : ℕ) : SoundPort :=
  if spu.control &&& controlIrqEnable ≠ 0 ∧ address / 8 * 8 = spu.irqAddress.toNat * 8 % soundRamSize then
    { spu with status := spu.status ||| statusIrq, irqRequest := true }
  else spu

/-- `write_transfer_halfword`. -/
def writeTransferHalfword (spu : SoundPort) (value : BitVec 16) : SoundPort :=
  let address := spu.transferAddress % soundRamSize
  let spu := spu.checkIrqAddress address
  { spu with
    ram := Memory.replaceByte (Memory.replaceByte spu.ram address (value.setWidth 8)) ((address + 1) % soundRamSize)
      ((value >>> 8).setWidth 8)
    transferAddress := (address + 2) % soundRamSize }

/-- `read_transfer_halfword`. -/
def readTransferHalfword (spu : SoundPort) : BitVec 16 × SoundPort :=
  let address := spu.transferAddress % soundRamSize
  let spu := spu.checkIrqAddress address
  ((spu.ram address).setWidth 16 ||| ((spu.ram ((address + 1) % soundRamSize)).setWidth 16 <<< 8),
    { spu with transferAddress := (address + 2) % soundRamSize })

/-- `write_word`. -/
def writeWord (spu : SoundPort) (value : Word) : SoundPort :=
  (spu.writeTransferHalfword (value.setWidth 16)).writeTransferHalfword ((value >>> 16).setWidth 16)

/-- `read_word`. -/
def readWord (spu : SoundPort) : Word × SoundPort :=
  let (low, spu) := spu.readTransferHalfword
  let (high, spu) := spu.readTransferHalfword
  (low.setWidth 32 ||| (high.setWidth 32 <<< 16), spu)

/-- The SPU as the endpoint of sound DMA. -/
def endpoint : SoundDmaEndpoint SoundPort where
  writeWord value spu := (.ok (), spu.writeWord value)
  readWord spu := (.ok spu.readWord.1, spu.readWord.2)

/-! ### The interrupt -/

/-- The interrupt address is in the granule of one of the halfwords from the cursor on. -/
def Hits (cursor count : ℕ) (irqAddress : BitVec 16) : Prop :=
  ∃ k < count, (cursor + 2 * k) % soundRamSize / 8 = irqAddress.toNat

/-- Transfers of halfwords: the cursor goes on, and the interrupt is latched if and only if it is enabled
and one of the halfwords is in the granule of its address. -/
structure Moved (count : ℕ) (before after : SoundPort) : Prop where
  cursor : after.transferAddress % soundRamSize = (before.transferAddress + 2 * count) % soundRamSize
  control : after.control = before.control
  irqAddress : after.irqAddress = before.irqAddress
  latched : before.control &&& controlIrqEnable ≠ 0 ∧ Hits before.transferAddress count before.irqAddress →
    after.irqRequest = true ∧ after.status = before.status ||| statusIrq
  unlatched : ¬ (before.control &&& controlIrqEnable ≠ 0 ∧ Hits before.transferAddress count before.irqAddress) →
    after.irqRequest = before.irqRequest ∧ after.status = before.status

theorem Moved.refl (spu : SoundPort) : Moved 0 spu spu where
  cursor := rfl
  control := rfl
  irqAddress := rfl
  latched := by
    rintro ⟨-, k, bound, -⟩
    omega
  unlatched _ := ⟨rfl, rfl⟩

theorem hits_add {cursor cursor' m n : ℕ} {irqAddress : BitVec 16}
    (same : cursor' % soundRamSize = (cursor + 2 * m) % soundRamSize) :
    Hits cursor (m + n) irqAddress ↔ Hits cursor m irqAddress ∨ Hits cursor' n irqAddress := by
  have later (k : ℕ) : (cursor' + 2 * k) % soundRamSize = (cursor + 2 * (m + k)) % soundRamSize := by
    rw [← Nat.mod_add_mod, same, Nat.mod_add_mod, Nat.mul_add, Nat.add_assoc]
  constructor
  · rintro ⟨k, bound, here⟩
    by_cases first : k < m
    · exact .inl ⟨k, first, here⟩
    · refine .inr ⟨k - m, by omega, ?_⟩
      rw [later, show m + (k - m) = k by omega, here]
  · rintro (⟨k, bound, here⟩ | ⟨k, bound, here⟩)
    · exact ⟨k, by omega, here⟩
    · exact ⟨m + k, by omega, by rw [← later, here]⟩

theorem Moved.trans {m n : ℕ} {a b c : SoundPort} (first : Moved m a b) (second : Moved n b c) : Moved (m + n) a c where
  cursor := by
    rw [second.cursor, ← Nat.mod_add_mod, first.cursor, Nat.mod_add_mod, Nat.mul_add, Nat.add_assoc]
  control := second.control.trans first.control
  irqAddress := second.irqAddress.trans first.irqAddress
  latched := by
    rintro ⟨enabled, hits⟩
    have enabled' : b.control &&& controlIrqEnable ≠ 0 := by rwa [first.control]
    rw [hits_add first.cursor, ← first.irqAddress] at hits
    by_cases late : Hits b.transferAddress n b.irqAddress
    · obtain ⟨request, status⟩ := second.latched ⟨enabled', late⟩
      refine ⟨request, status.trans ?_⟩
      by_cases early : Hits a.transferAddress m a.irqAddress
      · rw [(first.latched ⟨enabled, early⟩).2, BitVec.or_assoc, BitVec.or_self]
      · rw [(first.unlatched fun h => early h.2).2]
    · have early := hits.resolve_right late
      rw [first.irqAddress] at early
      obtain ⟨request, status⟩ := second.unlatched fun h => late h.2
      obtain ⟨request', status'⟩ := first.latched ⟨enabled, early⟩
      exact ⟨request.trans request', status.trans status'⟩
  unlatched := by
    intro none
    rw [hits_add first.cursor] at none
    have early : ¬ (a.control &&& controlIrqEnable ≠ 0 ∧ Hits a.transferAddress m a.irqAddress) :=
      fun h => none ⟨h.1, .inl h.2⟩
    have late : ¬ (b.control &&& controlIrqEnable ≠ 0 ∧ Hits b.transferAddress n b.irqAddress) := by
      rw [first.control, first.irqAddress]
      exact fun h => none ⟨h.1, .inr h.2⟩
    obtain ⟨request, status⟩ := second.unlatched late
    obtain ⟨request', status'⟩ := first.unlatched early
    exact ⟨request.trans request', status.trans status'⟩

theorem moved_halfword (spu : SoundPort) (ram : ℕ → BitVec 8) :
    Moved 1 spu { spu.checkIrqAddress (spu.transferAddress % soundRamSize) with
      ram := ram, transferAddress := (spu.transferAddress % soundRamSize + 2) % soundRamSize } := by
  have granule : spu.transferAddress % soundRamSize / 8 * 8 = spu.irqAddress.toNat * 8 % soundRamSize ↔
      Hits spu.transferAddress 1 spu.irqAddress := by
    have small := spu.irqAddress.isLt
    have here : Hits spu.transferAddress 1 spu.irqAddress ↔
        spu.transferAddress % soundRamSize / 8 = spu.irqAddress.toNat := by
      constructor
      · rintro ⟨k, bound, here⟩
        obtain rfl : k = 0 := by omega
        exact here
      · exact fun here => ⟨0, Nat.one_pos, here⟩
    rw [here, soundRamSize]
    omega
  have step : (spu.transferAddress % soundRamSize + 2) % soundRamSize % soundRamSize =
      (spu.transferAddress + 2 * 1) % soundRamSize := by
    rw [Nat.mod_mod, Nat.mod_add_mod]
  unfold checkIrqAddress
  split
  next hit => exact ⟨step, rfl, rfl, fun _ => ⟨rfl, rfl⟩, fun none => absurd ⟨hit.1, granule.mp hit.2⟩ none⟩
  next miss => exact ⟨step, rfl, rfl, fun hit => absurd ⟨hit.1, granule.mpr hit.2⟩ miss, fun _ => ⟨rfl, rfl⟩⟩

theorem ram_checkIrqAddress (spu : SoundPort) (address : ℕ) : (spu.checkIrqAddress address).ram = spu.ram := by
  unfold checkIrqAddress
  split <;> rfl

theorem moved_writeWord (spu : SoundPort) (value : Word) : Moved 2 spu (spu.writeWord value) :=
  (moved_halfword spu _).trans (moved_halfword _ _)

theorem moved_readWord (spu : SoundPort) : Moved 2 spu spu.readWord.2 :=
  (moved_halfword spu _).trans (moved_halfword _ _)

/-! ### The sound RAM -/

theorem ram_writeTransferHalfword (spu : SoundPort) (value : BitVec 16) :
    (spu.writeTransferHalfword value).ram =
      put soundRamSize spu.ram spu.transferAddress [value.setWidth 8, (value >>> 8).setWidth 8] := by
  funext x
  unfold writeTransferHalfword put Memory.replaceByte
  dsimp only
  rw [ram_checkIrqAddress]
  have size : soundRamSize = 524288 := rfl
  have bound := Nat.mod_lt spu.transferAddress (by decide : 0 < soundRamSize)
  by_cases inside : x < soundRamSize
  · have distance := offset_cases spu.transferAddress inside
    have next := add_mod_cases spu.transferAddress (by decide : 1 ≤ soundRamSize) (by decide)
    rw [if_pos inside, Nat.mod_add_mod]
    have first : x = spu.transferAddress % soundRamSize ↔ offset soundRamSize spu.transferAddress x = 0 := by omega
    have second : x = (spu.transferAddress + 1) % soundRamSize ↔ offset soundRamSize spu.transferAddress x = 1 := by
      omega
    generalize offset soundRamSize spu.transferAddress x = k at first second
    match k with
    | 0 =>
      rw [if_neg fun h => absurd (second.mp h) (by decide), if_pos (first.mpr rfl)]
      rfl
    | 1 =>
      rw [if_pos (second.mpr rfl)]
      rfl
    | k + 2 =>
      have other : x ≠ (spu.transferAddress + 1) % soundRamSize := fun h => by
        have := second.mp h
        omega
      rw [if_neg other, if_neg fun h => Nat.succ_ne_zero _ (first.mp h)]
      rfl
  · have next := Nat.mod_lt (spu.transferAddress % soundRamSize + 1) (by decide : 0 < soundRamSize)
    have last : x ≠ (spu.transferAddress % soundRamSize + 1) % soundRamSize := by omega
    have first : x ≠ spu.transferAddress % soundRamSize := by omega
    rw [if_neg inside, if_neg last, if_neg first]

/-- The bytes of a word in the order of the port. -/
def wordBytes (value : Word) : List (BitVec 8) := Memory.littleEndian value 4

theorem setWidth_halfword (value : Word) {i j : ℕ} (high : j ≤ 8) :
    (((value >>> i).setWidth 16 : BitVec 16) >>> j).setWidth 8 = (value >>> (i + j)).setWidth 8 := by
  ext k bound
  simp only [BitVec.getElem_setWidth, BitVec.getLsbD_ushiftRight, BitVec.getLsbD_setWidth]
  rw [decide_eq_true (by omega), Bool.true_and, Nat.add_assoc]

theorem ram_writeWord (spu : SoundPort) (value : Word) :
    (spu.writeWord value).ram = put soundRamSize spu.ram spu.transferAddress (wordBytes value) := by
  have next : (spu.writeTransferHalfword (value.setWidth 16)).transferAddress =
      (spu.transferAddress + 2) % soundRamSize := Nat.mod_add_mod _ _ _
  have bytes : [(value.setWidth 16).setWidth 8, ((value.setWidth 16 : BitVec 16) >>> 8).setWidth 8] ++
      [((value >>> 16).setWidth 16).setWidth 8, (((value >>> 16).setWidth 16 : BitVec 16) >>> 8).setWidth 8] =
        wordBytes value := by
    have first := setWidth_halfword value (i := 0) (j := 0) (by decide)
    have second := setWidth_halfword value (i := 0) (j := 8) (by decide)
    have third := setWidth_halfword value (i := 16) (j := 0) (by decide)
    have fourth := setWidth_halfword value (i := 16) (j := 8) (by decide)
    simp only [BitVec.ushiftRight_zero] at first second third
    rw [first, second, third, fourth]
    rfl
  rw [writeWord, ram_writeTransferHalfword, ram_writeTransferHalfword, next, put_mod, ← bytes]
  exact put_append _ _ (by decide : 2 + 2 ≤ soundRamSize)

theorem word_wordBytes (value : Word) : Memory.word ((value >>> 0).setWidth 8) ((value >>> 8).setWidth 8)
    ((value >>> 16).setWidth 8) ((value >>> 24).setWidth 8) = value := by
  ext i bound
  simp only [Memory.word, BitVec.getElem_or, BitVec.getElem_shiftLeft, BitVec.getElem_setWidth,
    BitVec.getLsbD_setWidth, BitVec.getLsbD_ushiftRight]
  rw [← BitVec.getLsbD_eq_getElem bound]
  obtain h | h | h | h : i < 8 ∨ (8 ≤ i ∧ i < 16) ∨ (16 ≤ i ∧ i < 24) ∨ 24 ≤ i := by omega
  · simp [h, show i < 16 by omega, show i < 24 by omega]
  · rw [show 8 + (i - 8) = i by omega]
    simp [show ¬ i < 8 by omega, show i - 8 < 8 by omega, show i < 16 by omega, show i < 24 by omega]
  · rw [show 16 + (i - 16) = i by omega]
    simp [show ¬ i < 8 by omega, show ¬ i - 8 < 8 by omega, show ¬ i < 16 by omega, show i < 24 by omega,
      show i - 16 < 8 by omega]
  · rw [show 24 + (i - 24) = i by omega]
    simp [show ¬ i < 8 by omega, show ¬ i - 8 < 8 by omega, show ¬ i < 16 by omega, show ¬ i < 24 by omega,
      show ¬ i - 16 < 8 by omega, show i - 24 < 8 by omega]

theorem word_halfwords (b0 b1 b2 b3 : BitVec 8) :
    ((b0.setWidth 16 ||| (b1.setWidth 16 <<< 8)).setWidth 32 |||
      ((b2.setWidth 16 ||| (b3.setWidth 16 <<< 8)).setWidth 32 <<< 16) : Word) = Memory.word b0 b1 b2 b3 := by
  ext i bound
  simp only [Memory.word, BitVec.getElem_or, BitVec.getElem_shiftLeft, BitVec.getElem_setWidth,
    BitVec.getLsbD_setWidth, BitVec.getLsbD_or, BitVec.getLsbD_shiftLeft]
  grind

theorem ram_readWord (spu : SoundPort) : spu.readWord.2.ram = spu.ram :=
  (ram_checkIrqAddress _ _).trans (ram_checkIrqAddress spu _)

theorem readWord_eq {spu : SoundPort} {value : Word}
    (holds : get soundRamSize spu.ram spu.transferAddress 4 = wordBytes value) : spu.readWord.1 = value := by
  have second : (spu.transferAddress % soundRamSize + 2) % soundRamSize % soundRamSize =
      (spu.transferAddress + 1 + 1) % soundRamSize := by
    rw [Nat.mod_mod, Nat.mod_add_mod]
  have fourth : ((spu.transferAddress % soundRamSize + 2) % soundRamSize % soundRamSize + 1) % soundRamSize =
      (spu.transferAddress + 1 + 1 + 1) % soundRamSize := by
    rw [second, Nat.mod_add_mod]
  obtain ⟨b0, rest⟩ := List.cons.inj holds
  obtain ⟨b1, rest⟩ := List.cons.inj rest
  obtain ⟨b2, rest⟩ := List.cons.inj rest
  obtain ⟨b3, -⟩ := List.cons.inj rest
  unfold readWord readTransferHalfword
  dsimp only
  rw [ram_checkIrqAddress, ram_checkIrqAddress, word_halfwords, Nat.mod_add_mod, fourth, second, b0, b1, b2, b3]
  exact word_wordBytes value

end SoundPort

end Upse.Ps1
