import Upse.Hw.Shared.LoadDelay
import Mathlib.Tactic.IntervalCases

/-!
# Unaligned words

The left instruction of a pair moves the bytes of a word up to the end of an aligned one, the right
instruction those from its beginning.  Whatever the alignment the two cover the four bytes, each
with the value it has in the whole word, so they compose in either order.
-/

namespace Upse.R3000

open ErrorState

/-! ### Bytes of a word -/

/-- The byte of a word at a position, the lowest first. -/
def lane (value : Word) (index : ℕ) : BitVec 8 := value.extractLsb' (8 * index) 8

theorem eq_of_lanes {v w : Word} (same : ∀ index < 4, lane v index = lane w index) : v = w := by
  ext i hi
  have equal := congrArg (fun byte => byte.getLsbD (i % 8)) (same (i / 8) (by omega))
  simp only [lane, BitVec.getLsbD_extractLsb', Nat.mod_lt i (by decide : 8 > 0), decide_true,
    Bool.true_and, Nat.div_add_mod] at equal
  rwa [BitVec.getLsbD_eq_getElem hi, BitVec.getLsbD_eq_getElem hi] at equal

/-- What LWL makes of a register and of the word around the address. -/
def loadLeft (address base word : Word) : Word :=
  match (address &&& 3).toNat with
  | 0 => (base &&& (0x00ffffff : Word)) ||| (word <<< 24)
  | 1 => (base &&& (0x0000ffff : Word)) ||| (word <<< 16)
  | 2 => (base &&& (0x000000ff : Word)) ||| (word <<< 8)
  | _ => word

/-- What LWR makes of them. -/
def loadRight (address base word : Word) : Word :=
  match (address &&& 3).toNat with
  | 0 => word
  | 1 => (base &&& (0xff000000 : Word)) ||| (word >>> 8)
  | 2 => (base &&& (0xffff0000 : Word)) ||| (word >>> 16)
  | _ => (base &&& (0xffffff00 : Word)) ||| (word >>> 24)

/-- What SWL makes of the word around the address and of a register. -/
def storeLeft (address old right : Word) : Word :=
  match (address &&& 3).toNat with
  | 0 => (old &&& (0xffffff00 : Word)) ||| (right >>> 24)
  | 1 => (old &&& (0xffff0000 : Word)) ||| (right >>> 16)
  | 2 => (old &&& (0xff000000 : Word)) ||| (right >>> 8)
  | _ => right

/-- What SWR makes of them. -/
def storeRight (address old right : Word) : Word :=
  match (address &&& 3).toNat with
  | 0 => right
  | 1 => (old &&& (0x000000ff : Word)) ||| (right <<< 8)
  | 2 => (old &&& (0x0000ffff : Word)) ||| (right <<< 16)
  | _ => (old &&& (0x00ffffff : Word)) ||| (right <<< 24)

theorem offset_eq (address : Word) : (address &&& 3).toNat = address.toNat % 4 := by
  rw [BitVec.toNat_and]
  exact Nat.and_two_pow_sub_one_eq_mod address.toNat 2

theorem offset_lt (address : Word) : (address &&& 3).toNat < 4 := by
  rw [offset_eq]
  omega

section Lanes

variable (address : Word) {index : ℕ} (h : index < 4)

include h

theorem lane_loadLeft (base word : Word) :
    lane (loadLeft address base word) index =
      if 3 ≤ index + (address &&& 3).toNat then lane word (index + (address &&& 3).toNat - 3)
      else lane base index := by
  have offset := offset_lt address
  unfold loadLeft
  generalize (address &&& 3).toNat = k at offset ⊢
  unfold lane
  ext i hi
  interval_cases k <;> interval_cases index <;> interval_cases i <;> simp

theorem lane_loadRight (base word : Word) :
    lane (loadRight address base word) index =
      if index + (address &&& 3).toNat ≤ 3 then lane word (index + (address &&& 3).toNat)
      else lane base index := by
  have offset := offset_lt address
  unfold loadRight
  generalize (address &&& 3).toNat = k at offset ⊢
  unfold lane
  ext i hi
  interval_cases k <;> interval_cases index <;> interval_cases i <;> simp

theorem lane_storeLeft (old right : Word) :
    lane (storeLeft address old right) index =
      if index ≤ (address &&& 3).toNat then lane right (index + 3 - (address &&& 3).toNat)
      else lane old index := by
  have offset := offset_lt address
  unfold storeLeft
  generalize (address &&& 3).toNat = k at offset ⊢
  unfold lane
  ext i hi
  interval_cases k <;> interval_cases index <;> interval_cases i <;> simp

theorem lane_storeRight (old right : Word) :
    lane (storeRight address old right) index =
      if (address &&& 3).toNat ≤ index then lane right (index - (address &&& 3).toNat)
      else lane old index := by
  have offset := offset_lt address
  unfold storeRight
  generalize (address &&& 3).toNat = k at offset ⊢
  unfold lane
  ext i hi
  interval_cases k <;> interval_cases index <;> interval_cases i <;> simp

end Lanes

/-! ### A byte memory -/

/-- Memory of single bytes over the whole address space. -/
abbrev ByteMemory := Word → BitVec 8

/-- The little-endian word at an address. -/
def wordAt (memory : ByteMemory) (address : Word) : Word :=
  memory (address + 3) ++ memory (address + 2) ++ memory (address + 1) ++ memory address

/-- The memory with the four bytes of a word at an address. -/
def storeWord (memory : ByteMemory) (address value : Word) : ByteMemory := fun other =>
  if (other - address).toNat < 4 then lane value (other - address).toNat else memory other

/-- A bus of nothing but memory: it never fails and asks for no interrupt. -/
def byteMemory (F : Type) : Bus F ByteMemory where
  readU8 address := return (← get) address
  readU16 address := return (← get) (address + 1) ++ (← get) address
  readU32 address := return wordAt (← get) address
  writeU8 address value := modify fun memory => Function.update memory address value
  writeU16 address value := modify fun memory =>
    Function.update (Function.update memory address (value.setWidth 8)) (address + 1)
      ((value >>> 8).setWidth 8)
  writeU32 address value := modify fun memory => storeWord memory address value
  interruptPending _ := false

theorem lane_wordAt (memory : ByteMemory) (address : Word) {index : ℕ} (h : index < 4) :
    lane (wordAt memory address) index = memory (address + BitVec.ofNat 32 index) := by
  unfold lane wordAt
  ext i hi
  simp only [BitVec.getElem_extractLsb', BitVec.getLsbD_append]
  interval_cases index <;> simp [hi]
  all_goals grind

theorem aligned_add_offset (address : Word) :
    (address &&& ~~~(3 : Word)) + BitVec.ofNat 32 (address &&& 3).toNat = address := by
  rw [BitVec.ofNat_toNat, BitVec.setWidth_eq]
  have disjoint : (address &&& ~~~(3 : Word)) &&& (address &&& 3) = 0#32 := by
    ext i hi
    simp only [BitVec.getElem_and, BitVec.getElem_not, BitVec.getElem_zero]
    cases address[i] <;> cases (3 : Word)[i] <;> rfl
  rw [BitVec.add_eq_or_of_and_eq_zero _ _ disjoint]
  ext i hi
  simp only [BitVec.getElem_or, BitVec.getElem_and, BitVec.getElem_not]
  cases address[i] <;> cases (3 : Word)[i] <;> rfl

/-! ### What each instruction of a pair covers -/

/-- The bytes, of four from an address, that the left instruction moves. -/
abbrev CoveredLeft (address : Word) (index : ℕ) : Prop := 3 ≤ index + ((address + 3) &&& 3).toNat

/-- The bytes that the right instruction moves. -/
abbrev CoveredRight (address : Word) (index : ℕ) : Prop := index + (address &&& 3).toNat ≤ 3

theorem covered (address : Word) {index : ℕ} (h : index < 4) :
    CoveredLeft address index ∨ CoveredRight address index := by
  unfold CoveredLeft CoveredRight
  rw [offset_eq, offset_eq, BitVec.toNat_add, show (3 : Word).toNat = 3 from rfl]
  omega

section Covered

variable (memory : ByteMemory) (address : Word)

theorem lane_loadLeft_word (base : Word) {index : ℕ} (h : index < 4) :
    lane (loadLeft (address + 3) base (wordAt memory ((address + 3) &&& ~~~(3 : Word)))) index =
      if CoveredLeft address index then memory (address + BitVec.ofNat 32 index)
      else lane base index := by
  have whole := aligned_add_offset (address + 3)
  have offset := offset_lt (address + 3)
  rw [lane_loadLeft _ h]
  unfold CoveredLeft
  generalize ((address + 3) &&& 3).toNat = k at whole offset ⊢
  generalize (address + 3) &&& ~~~(3 : Word) = aligned at whole ⊢
  by_cases covers : 3 ≤ index + k
  · rw [if_pos covers, if_pos covers, lane_wordAt _ _ (by omega)]
    congr 1
    bv_omega
  · rw [if_neg covers, if_neg covers]

theorem lane_loadRight_word (base : Word) {index : ℕ} (h : index < 4) :
    lane (loadRight address base (wordAt memory (address &&& ~~~(3 : Word)))) index =
      if CoveredRight address index then memory (address + BitVec.ofNat 32 index)
      else lane base index := by
  have whole := aligned_add_offset address
  rw [lane_loadRight _ h]
  unfold CoveredRight
  generalize (address &&& 3).toNat = k at whole ⊢
  generalize address &&& ~~~(3 : Word) = aligned at whole ⊢
  by_cases covers : index + k ≤ 3
  · rw [if_pos covers, if_pos covers, lane_wordAt _ _ (by omega)]
    congr 1
    bv_omega
  · rw [if_neg covers, if_neg covers]

theorem storeLeft_word (value other : Word) :
    storeWord memory ((address + 3) &&& ~~~(3 : Word))
        (storeLeft (address + 3) (wordAt memory ((address + 3) &&& ~~~(3 : Word))) value) other =
      if (other - address).toNat < 4 ∧ CoveredLeft address (other - address).toNat then
        lane value (other - address).toNat
      else memory other := by
  have whole := aligned_add_offset (address + 3)
  have offset := offset_lt (address + 3)
  unfold storeWord CoveredLeft
  by_cases inside : (other - ((address + 3) &&& ~~~(3 : Word))).toNat < 4
  · rw [if_pos inside, lane_storeLeft _ inside]
    generalize ((address + 3) &&& 3).toNat = k at whole offset ⊢
    generalize (address + 3) &&& ~~~(3 : Word) = aligned at whole inside ⊢
    by_cases moved : (other - aligned).toNat ≤ k
    · rw [if_pos moved, if_pos (by bv_omega)]
      congr 1
      bv_omega
    · rw [if_neg moved, if_neg (by bv_omega), lane_wordAt _ _ inside]
      congr 1
      bv_omega
  · rw [if_neg inside, if_neg]
    generalize ((address + 3) &&& 3).toNat = k at whole offset ⊢
    generalize (address + 3) &&& ~~~(3 : Word) = aligned at whole inside
    bv_omega

theorem storeRight_word (value other : Word) :
    storeWord memory (address &&& ~~~(3 : Word))
        (storeRight address (wordAt memory (address &&& ~~~(3 : Word))) value) other =
      if (other - address).toNat < 4 ∧ CoveredRight address (other - address).toNat then
        lane value (other - address).toNat
      else memory other := by
  have whole := aligned_add_offset address
  have offset := offset_lt address
  unfold storeWord CoveredRight
  by_cases inside : (other - (address &&& ~~~(3 : Word))).toNat < 4
  · rw [if_pos inside, lane_storeRight _ inside]
    generalize (address &&& 3).toNat = k at whole offset ⊢
    generalize address &&& ~~~(3 : Word) = aligned at whole inside ⊢
    by_cases moved : k ≤ (other - aligned).toNat
    · rw [if_pos moved, if_pos (by bv_omega)]
      congr 1
      bv_omega
    · rw [if_neg moved, if_neg (by bv_omega), lane_wordAt _ _ inside]
      congr 1
      bv_omega
  · rw [if_neg inside, if_neg]
    generalize (address &&& 3).toNat = k at whole offset ⊢
    generalize address &&& ~~~(3 : Word) = aligned at whole inside
    bv_omega

end Covered

/-! ### The pairs -/

section Pairs

variable (memory : ByteMemory) (address : Word)

theorem loadRight_loadLeft (base : Word) :
    loadRight address (loadLeft (address + 3) base
        (wordAt memory ((address + 3) &&& ~~~(3 : Word))))
      (wordAt memory (address &&& ~~~(3 : Word))) = wordAt memory address := by
  apply eq_of_lanes
  intro index h
  rw [lane_loadRight_word _ _ _ h, lane_loadLeft_word _ _ _ h, lane_wordAt _ _ h]
  obtain left | right := covered address h
  · rw [if_pos left, ite_self]
  · rw [if_pos right]

theorem loadLeft_loadRight (base : Word) :
    loadLeft (address + 3) (loadRight address base (wordAt memory (address &&& ~~~(3 : Word))))
      (wordAt memory ((address + 3) &&& ~~~(3 : Word))) = wordAt memory address := by
  apply eq_of_lanes
  intro index h
  rw [lane_loadLeft_word _ _ _ h, lane_loadRight_word _ _ _ h, lane_wordAt _ _ h]
  obtain left | right := covered address h
  · rw [if_pos left]
  · rw [if_pos right, ite_self]

/-- The memory after an unaligned store of the left half. -/
def storedLeft (value : Word) : ByteMemory :=
  storeWord memory (address &&& ~~~(3 : Word))
    (storeLeft address (wordAt memory (address &&& ~~~(3 : Word))) value)

/-- The memory after an unaligned store of the right half. -/
def storedRight (value : Word) : ByteMemory :=
  storeWord memory (address &&& ~~~(3 : Word))
    (storeRight address (wordAt memory (address &&& ~~~(3 : Word))) value)

theorem storedRight_storedLeft (value : Word) :
    storedRight (storedLeft memory (address + 3) value) address value =
      storeWord memory address value := by
  funext other
  rw [storedRight, storeRight_word, storedLeft, storeLeft_word, storeWord]
  by_cases inside : (other - address).toNat < 4
  · rw [if_pos inside]
    by_cases right : CoveredRight address (other - address).toNat
    · rw [if_pos ⟨inside, right⟩]
    · rw [if_neg fun h => right h.2, if_pos ⟨inside, (covered address inside).resolve_right right⟩]
  · rw [if_neg inside, if_neg fun h => inside h.1, if_neg fun h => inside h.1]

theorem storedLeft_storedRight (value : Word) :
    storedLeft (storedRight memory address value) (address + 3) value =
      storeWord memory address value := by
  funext other
  rw [storedLeft, storeLeft_word, storedRight, storeRight_word, storeWord]
  by_cases inside : (other - address).toNat < 4
  · rw [if_pos inside]
    by_cases left : CoveredLeft address (other - address).toNat
    · rw [if_pos ⟨inside, left⟩]
    · rw [if_neg fun h => left h.2, if_pos ⟨inside, (covered address inside).resolve_left left⟩]
  · rw [if_neg inside, if_neg fun h => inside h.1, if_neg fun h => inside h.1]

end Pairs

/-! ### Steps that issue them -/

section Steps

variable {F : Type}

/-- The opcode of an instruction. -/
def opcode (instruction : Word) : ℕ := (instruction >>> 26).toNat

/-- The state after a step on the memory, which never fails. -/
def afterStep (F : Type) (sampleExternalInterrupt : Bool) (s : CpuBus ByteMemory) :
    CpuBus ByteMemory :=
  leaves ((stepInner (byteMemory F) sampleExternalInterrupt).run s)

/-- The next step executes an instruction. -/
def Performs (F : Type) (sampleExternalInterrupt : Bool) (s : CpuBus ByteMemory)
    (instruction : Word) : Prop :=
  ∃ outcome, (stepInner (byteMemory F) sampleExternalInterrupt).run s =
      .ok outcome (afterStep F sampleExternalInterrupt s) ∧
    outcome.instruction = some instruction ∧ outcome.event = .instruction

variable {sample : Bool} {s : CpuBus ByteMemory} {instruction : Word}

theorem sampled_devices : (sampled (byteMemory F) sample s).devices = s.devices := by
  cases sample <;> rfl

theorem sampled_settled : (sampled (byteMemory F) sample s).cpu.settled = s.cpu.settled := by
  cases sample <;> rfl

theorem step_fetched (fetches : fetched (byteMemory F) sample s = some instruction)
    {execution : Execution} {t : CpuBus ByteMemory} (normal : execution.exception = none)
    (executed : (execute (byteMemory F) (sampled (byteMemory F) sample s).cpu.pc instruction).run
      (sampled (byteMemory F) sample s) = .ok execution t) :
    Performs F sample s instruction ∧ ∃ delaySlot pc,
      afterStep F sample s = ⟨t.cpu.retire execution delaySlot pc, t.devices⟩ := by
  have run : (stepInner (byteMemory F) sample).run s =
      .ok ⟨(sampled (byteMemory F) sample s).cpu.pc, some instruction, execution.cycles,
          .instruction⟩
        ⟨t.cpu.retire execution (sampled (byteMemory F) sample s).cpu.delaySlot
          (sampled (byteMemory F) sample s).cpu.pc, t.devices⟩ := by
    unfold fetched at fetches
    dsimp only at fetches
    rw [run_stepInner]
    unfold stepSampled
    rw [run_get_bind]
    dsimp only
    split at fetches
    next => cases fetches
    next quiet =>
      rw [if_neg quiet]
      split at fetches
      next => cases fetches
      next aligned =>
        have fetch : (access (sampled (byteMemory F) sample s).cpu.pc
            (sampled (byteMemory F) sample s).cpu.pc .instruction
            ((byteMemory F).readU32 (sampled (byteMemory F) sample s).cpu.pc) :
              Exec F ByteMemory Word).run (sampled (byteMemory F) sample s) =
            .ok instruction (sampled (byteMemory F) sample s) := by
          have word : wordAt s.devices (sampled (byteMemory F) sample s).cpu.pc = instruction :=
            Option.some.inj fetches
          rw [← word, ← sampled_devices]
          rfl
        rw [if_neg aligned, run_bind_of_ok fetch, run_bind_of_ok executed, normal]
        rfl
  have after : afterStep F sample s =
      ⟨t.cpu.retire execution (sampled (byteMemory F) sample s).cpu.delaySlot
        (sampled (byteMemory F) sample s).cpu.pc, t.devices⟩ := by
    unfold afterStep
    rw [run]
    rfl
  exact ⟨⟨_, run.trans (by rw [after]), rfl, rfl⟩, _, _, after⟩

/-- Once the load in flight is applied, a step has changed the registers by the write and the load of
its instruction. -/
theorem Cpu.settled_retire (cpu : Cpu) (execution : Execution)
    (delaySlot : Option DelaySlotState) (pc : Word) :
    (cpu.retire execution delaySlot pc).settled =
      (written (written cpu.settled execution.registerWrite) execution.delayedWrite).set 0 0
        register_zero_lt := by
  unfold Cpu.retire
  simp only [Cpu.commitOldLoad_eq]
  cases cpu.loadDelayMode with
  | architectural => exact written_set_zero _ _
  | interlocked =>
    cases execution.delayedWrite with
    | none => rfl
    | some load =>
      simp only [Cpu.writeRegister_eq]
      rfl

/-- What a step that loads leaves in a register. -/
theorem settled_load (cpu : Cpu) (register : Fin 32) (value : Word)
    (delaySlot : Option DelaySlotState) (pc : Word) :
    getElem (cpu.retire (Execution.default.load register value) delaySlot pc).settled register
        register.isLt =
      if register = 0 then 0 else value := by
  rw [Cpu.settled_retire]
  show ((written cpu.settled (some (register, value))).set 0 0)[register] = _
  unfold written
  by_cases zero : register = 0
  · subst zero
    simp
  · have other : (0 : ℕ) ≠ register.val := fun same => zero (Fin.ext same.symm)
    simp only [if_neg zero, Fin.getElem_fin]
    rw [Vector.getElem_set_ne _ _ other, Vector.getElem_set_self]

section Executed

variable {pc address : Word} (accessed : s.cpu.effectiveAddress instruction = address)

include accessed

theorem execute_loadLeft (isLoad : opcode instruction = 0x22) :
    (execute (byteMemory F) pc instruction).run s = .ok
      (Execution.default.load (field instruction 16) (loadLeft address
        (s.cpu.mergeBase (field instruction 16))
        (wordAt s.devices (address &&& ~~~(3 : Word))))) s := by
  subst accessed
  unfold execute
  rw [run_get_bind]
  unfold opcode at isLoad
  dsimp only
  rw [isLoad]
  rfl

theorem execute_loadRight (isLoad : opcode instruction = 0x26) :
    (execute (byteMemory F) pc instruction).run s = .ok
      (Execution.default.load (field instruction 16) (loadRight address
        (s.cpu.mergeBase (field instruction 16))
        (wordAt s.devices (address &&& ~~~(3 : Word))))) s := by
  subst accessed
  unfold execute
  rw [run_get_bind]
  unfold opcode at isLoad
  dsimp only
  rw [isLoad]
  rfl

theorem execute_storeLeft (isStore : opcode instruction = 0x2a) :
    (execute (byteMemory F) pc instruction).run s = .ok (Execution.default.charge 2)
      { s with devices := storedLeft s.devices address (s.cpu.operand instruction) } := by
  subst accessed
  unfold execute
  rw [run_get_bind]
  unfold opcode at isStore
  dsimp only
  rw [isStore]
  rfl

theorem execute_storeRight (isStore : opcode instruction = 0x2e) :
    (execute (byteMemory F) pc instruction).run s = .ok (Execution.default.charge 2)
      { s with devices := storedRight s.devices address (s.cpu.operand instruction) } := by
  subst accessed
  unfold execute
  rw [run_get_bind]
  unfold opcode at isStore
  dsimp only
  rw [isStore]
  rfl

end Executed

/-- The next step executes an instruction of an opcode at an effective address. -/
structure Accesses (F : Type) (sampleExternalInterrupt : Bool) (s : CpuBus ByteMemory)
    (instruction : Word) (code : ℕ) (address : Word) : Prop where
  fetches : fetched (byteMemory F) sampleExternalInterrupt s = some instruction
  code : opcode instruction = code
  address : s.cpu.effectiveAddress instruction = address

section Halves

variable {address : Word} {register : Fin 32}

theorem sampled_effectiveAddress :
    (sampled (byteMemory F) sample s).cpu.effectiveAddress instruction =
      s.cpu.effectiveAddress instruction := by
  cases sample <;> rfl

theorem sampled_operand :
    (sampled (byteMemory F) sample s).cpu.operand instruction = s.cpu.operand instruction := by
  cases sample <;> rfl

theorem afterStep_load (merge : Word → Word)
    (fetches : fetched (byteMemory F) sample s = some instruction)
    (executed : (execute (byteMemory F) (sampled (byteMemory F) sample s).cpu.pc instruction).run
      (sampled (byteMemory F) sample s) = .ok (Execution.default.load register
        (merge ((sampled (byteMemory F) sample s).cpu.mergeBase register)))
          (sampled (byteMemory F) sample s)) :
    Performs F sample s instruction ∧ (afterStep F sample s).devices = s.devices ∧
      getElem (afterStep F sample s).cpu.settled register register.isLt =
        if register = 0 then 0 else merge (getElem s.cpu.settled register register.isLt) := by
  obtain ⟨performs, delaySlot, pc, after⟩ := step_fetched fetches rfl executed
  refine ⟨performs, ?_, ?_⟩
  · rw [after]
    exact sampled_devices
  · rw [after]
    show (Cpu.retire _ _ _ _).settled[register] = _
    rw [settled_load]
    by_cases zero : register = 0
    · rw [if_pos zero, if_pos zero]
    · rw [if_neg zero, if_neg zero, Cpu.mergeBase_eq zero, sampled_settled]

theorem afterStep_loadLeft (h : Accesses F sample s instruction 0x22 address)
    (into : field instruction 16 = register) :
    Performs F sample s instruction ∧ (afterStep F sample s).devices = s.devices ∧
      getElem (afterStep F sample s).cpu.settled register register.isLt =
        if register = 0 then 0
        else loadLeft address (getElem s.cpu.settled register register.isLt)
          (wordAt s.devices (address &&& ~~~(3 : Word))) := by
  subst into
  apply afterStep_load
    (fun base => loadLeft address base (wordAt s.devices (address &&& ~~~(3 : Word)))) h.fetches
  rw [execute_loadLeft (sampled_effectiveAddress.trans h.address) h.code, sampled_devices]

theorem afterStep_loadRight (h : Accesses F sample s instruction 0x26 address)
    (into : field instruction 16 = register) :
    Performs F sample s instruction ∧ (afterStep F sample s).devices = s.devices ∧
      getElem (afterStep F sample s).cpu.settled register register.isLt =
        if register = 0 then 0
        else loadRight address (getElem s.cpu.settled register register.isLt)
          (wordAt s.devices (address &&& ~~~(3 : Word))) := by
  subst into
  apply afterStep_load
    (fun base => loadRight address base (wordAt s.devices (address &&& ~~~(3 : Word)))) h.fetches
  rw [execute_loadRight (sampled_effectiveAddress.trans h.address) h.code, sampled_devices]

theorem afterStep_storeLeft (h : Accesses F sample s instruction 0x2a address) :
    Performs F sample s instruction ∧
      (afterStep F sample s).devices = storedLeft s.devices address (s.cpu.operand instruction) := by
  obtain ⟨performs, delaySlot, pc, after⟩ := step_fetched h.fetches rfl
    (execute_storeLeft (sampled_effectiveAddress.trans h.address) h.code)
  refine ⟨performs, ?_⟩
  rw [after, sampled_devices, sampled_operand]

theorem afterStep_storeRight (h : Accesses F sample s instruction 0x2e address) :
    Performs F sample s instruction ∧
      (afterStep F sample s).devices =
        storedRight s.devices address (s.cpu.operand instruction) := by
  obtain ⟨performs, delaySlot, pc, after⟩ := step_fetched h.fetches rfl
    (execute_storeRight (sampled_effectiveAddress.trans h.address) h.code)
  refine ⟨performs, ?_⟩
  rw [after, sampled_devices, sampled_operand]

end Halves

/-- Two steps in a row execute a pair of instructions, in either order: the left one at the last byte
of a word, the right one at its first. -/
def Pair (F : Type) (sampleExternalInterrupt : Bool) (s : CpuBus ByteMemory) (first second : Word)
    (left right : ℕ) (address : Word) : Prop :=
  (Accesses F sampleExternalInterrupt s first left (address + 3) ∧
      Accesses F sampleExternalInterrupt (afterStep F sampleExternalInterrupt s) second right address) ∨
    (Accesses F sampleExternalInterrupt s first right address ∧
      Accesses F sampleExternalInterrupt (afterStep F sampleExternalInterrupt s) second left
        (address + 3))

theorem load_pair {first second address : Word} {register : Fin 32}
    (pair : Pair F sample s first second 0x22 0x26 address)
    (into : field first 16 = register) (into' : field second 16 = register) :
    Performs F sample s first ∧ Performs F sample (afterStep F sample s) second ∧
      (afterStep F sample (afterStep F sample s)).devices = s.devices ∧
      getElem (afterStep F sample (afterStep F sample s)).cpu.settled register register.isLt =
        if register = 0 then 0 else wordAt s.devices address := by
  obtain ⟨left, right⟩ | ⟨right, left⟩ := pair
  · obtain ⟨performs, memory, value⟩ := afterStep_loadLeft left into
    obtain ⟨performs', memory', value'⟩ := afterStep_loadRight right into'
    refine ⟨performs, performs', memory'.trans memory, value'.trans ?_⟩
    by_cases zero : register = 0
    · rw [if_pos zero, if_pos zero]
    · rw [if_neg zero] at value
      rw [if_neg zero, if_neg zero, value, memory, loadRight_loadLeft]
  · obtain ⟨performs, memory, value⟩ := afterStep_loadRight right into
    obtain ⟨performs', memory', value'⟩ := afterStep_loadLeft left into'
    refine ⟨performs, performs', memory'.trans memory, value'.trans ?_⟩
    by_cases zero : register = 0
    · rw [if_pos zero, if_pos zero]
    · rw [if_neg zero] at value
      rw [if_neg zero, if_neg zero, value, memory, loadLeft_loadRight]

theorem store_pair {first second address value : Word}
    (pair : Pair F sample s first second 0x2a 0x2e address) (held : s.cpu.operand first = value)
    (held' : (afterStep F sample s).cpu.operand second = value) :
    Performs F sample s first ∧ Performs F sample (afterStep F sample s) second ∧
      (afterStep F sample (afterStep F sample s)).devices = storeWord s.devices address value := by
  obtain ⟨left, right⟩ | ⟨right, left⟩ := pair
  · obtain ⟨performs, memory⟩ := afterStep_storeLeft left
    obtain ⟨performs', memory'⟩ := afterStep_storeRight right
    refine ⟨performs, performs', ?_⟩
    rw [held] at memory
    rw [held', memory] at memory'
    rw [memory', storedRight_storedLeft]
  · obtain ⟨performs, memory⟩ := afterStep_storeRight right
    obtain ⟨performs', memory'⟩ := afterStep_storeLeft left
    refine ⟨performs, performs', ?_⟩
    rw [held] at memory
    rw [held', memory] at memory'
    rw [memory', storedLeft_storedRight]

/-- Unaligned pairs compose, in either order, in either load-delay mode and at any address: a pair of
stores changes the four bytes of the word and no other, a pair of loads leaves the word in its
register, but for register zero, which stays zero. -/
theorem unaligned_pairs_compose (F : Type) (sample : Bool) (s : CpuBus ByteMemory)
    (first second address : Word) :
    (∀ value, Pair F sample s first second 0x2a 0x2e address → s.cpu.operand first = value →
      (afterStep F sample s).cpu.operand second = value →
        Performs F sample s first ∧ Performs F sample (afterStep F sample s) second ∧
          (afterStep F sample (afterStep F sample s)).devices =
            storeWord s.devices address value) ∧
    (∀ register, Pair F sample s first second 0x22 0x26 address → field first 16 = register →
      field second 16 = register →
        Performs F sample s first ∧ Performs F sample (afterStep F sample s) second ∧
          (afterStep F sample (afterStep F sample s)).devices = s.devices ∧
          getElem (afterStep F sample (afterStep F sample s)).cpu.settled register register.isLt =
            if register = 0 then 0 else wordAt s.devices address) :=
  ⟨fun _ => store_pair, fun _ => load_pair⟩

/-- A processor about to run a program of two instructions at address zero. -/
def running (first second : Word) (memory : ByteMemory) : CpuBus ByteMemory :=
  ⟨Cpu.new ⟨0, 0, 0, 0, 0⟩, storeWord (storeWord memory 0 first) 4 second⟩

/-- `lwl $2, 12($1)` and `lwr $2, 9($1)` with the word at address nine. -/
def unalignedLoads : CpuBus ByteMemory :=
  running 0x8822000c 0x98220009 (storeWord (fun _ => 0) 9 0x11223344)

theorem unaligned_pairs_compose_at_nine :
    (afterStep Empty true (afterStep Empty true unalignedLoads)).cpu.settled[(2 : Fin 32)] =
      if (2 : Fin 32) = 0 then 0 else wordAt unalignedLoads.devices 9 :=
  ((unaligned_pairs_compose Empty true unalignedLoads 0x8822000c 0x98220009 9).2 2
    (.inl ⟨⟨by decide +kernel, by decide +kernel, by decide +kernel⟩,
      ⟨by decide +kernel, by decide +kernel, by decide +kernel⟩⟩)
    (by decide +kernel) (by decide +kernel)).2.2.2

/-- `lwl $0, 3($1)` and `lwr $0, 0($1)`, which load their own first instruction. -/
def loadsOfZero : CpuBus ByteMemory := running 0x88200003 0x98200000 fun _ => 0

/-- Register zero keeps its value whatever is loaded into it. -/
theorem zero_register_not_loaded :
    ¬ ∀ (s : CpuBus ByteMemory) (first second address : Word) (register : Fin 32),
      Pair Empty true s first second 0x22 0x26 address → field first 16 = register →
        field second 16 = register →
        getElem (afterStep Empty true (afterStep Empty true s)).cpu.settled register register.isLt =
          wordAt s.devices address := by
  intro loads
  have loaded := loads loadsOfZero 0x88200003 0x98200000 0 0
    (.inl ⟨⟨by decide +kernel, by decide +kernel, by decide +kernel⟩,
      ⟨by decide +kernel, by decide +kernel, by decide +kernel⟩⟩)
    (by decide +kernel) (by decide +kernel)
  revert loaded
  decide +kernel

end Steps

end Upse.R3000
