import Upse.Hw.Shared.R3000
import Upse.Lib.Simulation

/-!
# The two load-delay modes

The load-delay slot shows only where an instruction reads the register that the load before it is
about to change.  Where none does, a processor that delays its loads and one that interlocks on them
do the same, step by step: the second is always the first with the load in flight applied.
-/

namespace Upse.R3000

open ErrorState

/-! ### The operands of an instruction -/

/-- The registers a register-to-register instruction reads. -/
def specialSources (function : ℕ) (rs rt : Fin 32) : List (Fin 32) :=
  match function with
  | 0x00 | 0x02 | 0x03 => [rt]
  | 0x08 | 0x09 | 0x11 | 0x13 => [rs]
  | 0x04 | 0x06 | 0x07 | 0x18 | 0x19 | 0x1a | 0x1b => [rs, rt]
  | 0x20 | 0x21 | 0x22 | 0x23 | 0x24 | 0x25 | 0x26 | 0x27 | 0x2a | 0x2b => [rs, rt]
  | _ => []

/-- The registers a load or a store reads, but for the one an unaligned load merges into. -/
def memorySources (coprocessor2Mode : Coprocessor2Mode) (opcode : ℕ) (rs rt : Fin 32) :
    List (Fin 32) :=
  match opcode with
  | 0x20 | 0x21 | 0x22 | 0x23 | 0x24 | 0x25 | 0x26 => [rs]
  | 0x28 | 0x29 | 0x2a | 0x2b | 0x2e => [rs, rt]
  | 0x32 | 0x3a => if coprocessor2Mode = .stub then [rs] else []
  | _ => []

/-- The general registers an instruction reads as source operands. -/
def sources (coprocessor2Mode : Coprocessor2Mode) (instruction : Word) : List (Fin 32) :=
  let rs := field instruction 21
  let rt := field instruction 16
  match (instruction >>> 26).toNat with
  | 0x00 => specialSources (instruction &&& 63).toNat rs rt
  | 0x01 => if rt.val ∈ [0x00, 0x01, 0x10, 0x11] then [rs] else []
  | 0x02 | 0x03 | 0x0f | 0x11 | 0x13 => []
  | 0x04 | 0x05 => [rs, rt]
  | 0x06 | 0x07 | 0x08 | 0x09 | 0x0a | 0x0b | 0x0c | 0x0d | 0x0e => [rs]
  | 0x10 => if rs.val = 0x04 then [rt] else []
  | 0x12 => if coprocessor2Mode = .stub ∧ (rs = 0x04 ∨ rs = 0x06) then [rt] else []
  | opcode => memorySources coprocessor2Mode opcode rs rt

/-! ### The load in flight -/

namespace Cpu

/-- The registers once the load in flight is applied. -/
def settled (cpu : Cpu) : Vector Word 32 := written cpu.registers cpu.pendingLoad

/-- The register the load in flight is about to change. -/
def loading (cpu : Cpu) : Option (Fin 32) := (cpu.pendingLoad.map (·.1)).filter (· ≠ 0)

/-- The interlocked processor that has done the same. -/
def interlock (cpu : Cpu) : Cpu :=
  { cpu with registers := cpu.settled, pendingLoad := none, loadDelayMode := .interlocked }

theorem writeRegister_eq (cpu : Cpu) (register : Fin 32) (value : Word) :
    cpu.writeRegister register value =
      { cpu with registers := written cpu.registers (some (register, value)) } := by
  unfold writeRegister written
  by_cases zero : register = 0
  · simp only [if_pos zero]
  · simp only [if_neg zero]

theorem commitOldLoad_eq (cpu : Cpu) (write : Option (Fin 32 × Word)) :
    cpu.commitOldLoad write =
      { cpu with registers := written cpu.settled write, pendingLoad := none } := by
  obtain ⟨registers, hi, lo, pc, nextPc, delaySlot, pendingLoad⟩ := cpu
  unfold commitOldLoad
  cases pendingLoad <;> cases write <;> simp only [writeRegister_eq] <;> rfl

theorem settled_get {cpu : Cpu} {register : Fin 32} (free : cpu.loading ≠ some register) :
    getElem cpu.settled register register.isLt = getElem cpu.registers register register.isLt := by
  unfold settled
  unfold loading at free
  cases h : cpu.pendingLoad with
  | none => rfl
  | some load =>
    obtain ⟨target, value⟩ := load
    rw [h] at free
    unfold written
    by_cases zero : target = 0
    · simp only [if_pos zero]
    · have other : target ≠ register := by
        intro same
        subst same
        exact free (by simp [zero])
      simp only [if_neg zero, Fin.getElem_fin]
      exact Vector.getElem_set_ne _ _ fun same => other (Fin.ext same)

/-- An unaligned load merges into the value in flight, which is the settled one. -/
theorem mergeBase_eq {cpu : Cpu} {register : Fin 32} (nonzero : register ≠ 0) :
    cpu.mergeBase register = getElem cpu.settled register register.isLt := by
  unfold mergeBase settled
  cases cpu.pendingLoad with
  | none => rfl
  | some load =>
    obtain ⟨target, value⟩ := load
    unfold written
    by_cases same : target = register
    · subst same
      simp [nonzero]
    · by_cases zero : target = 0
      · simp only [if_neg same, if_pos zero]
      · simp only [if_neg same, if_neg zero, Fin.getElem_fin]
        exact (Vector.getElem_set_ne _ _ fun h => same (Fin.ext h)).symm

end Cpu

/-- What a step commits of an execution: a load into register zero is none. -/
def Execution.effects (execution : Execution) : Execution :=
  { execution with delayedWrite := execution.delayedWrite.filter (·.1 ≠ 0) }

theorem written_filter (registers : Vector Word 32) (write : Option (Fin 32 × Word)) :
    written registers (write.filter (·.1 ≠ 0)) = written registers write := by
  cases write with
  | none => rfl
  | some load =>
    by_cases zero : load.1 = 0
    · rw [Option.filter_some_neg (by simp [zero])]
      exact (if_pos zero).symm
    · rw [Option.filter_some_pos (by simp [zero])]

theorem written_set_zero (registers : Vector Word 32) (write : Option (Fin 32 × Word)) :
    written (registers.set 0 0 register_zero_lt) write =
      (written registers write).set 0 0 register_zero_lt := by
  cases write with
  | none => rfl
  | some load =>
    unfold written
    by_cases zero : load.1 = 0
    · simp [zero]
    · simp only [if_neg zero]
      exact Vector.set_comm _ _ fun same => zero (Fin.ext same.symm)

/-! ### Processors that have done the same -/

section Alike

variable {F β : Type} {bus : Bus F β} {s t : CpuBus β}

/-- The second processor interlocks, the first delays its loads, and they have done the same. -/
structure Alike (s t : CpuBus β) : Prop where
  mode : s.cpu.loadDelayMode = .architectural
  cpu : t.cpu = s.cpu.interlock
  devices : t.devices = s.devices

/-- Executions that a step commits alike. -/
def SameEffects (first second : Execution) : Prop := first.effects = second.effects

theorem SameEffects.eq {first second : Execution} (same : SameEffects first second) :
    second = { first with delayedWrite := second.delayedWrite } := by
  have equal : first.effects = second.effects := same
  simp only [Execution.effects, Execution.mk.injEq] at equal
  rw [Execution.mk.injEq]
  exact ⟨equal.1.symm, rfl, equal.2.2.1.symm, equal.2.2.2.1.symm, equal.2.2.2.2.1.symm,
    equal.2.2.2.2.2.1.symm, equal.2.2.2.2.2.2.symm⟩

theorem SameEffects.loads {first second : Execution} (same : SameEffects first second)
    (registers : Vector Word 32) :
    written registers second.delayedWrite = written registers first.delayedWrite := by
  have equal : first.effects = second.effects := same
  rw [← written_filter _ second.delayedWrite, ← written_filter _ first.delayedWrite]
  exact congrArg (fun execution => written registers execution.delayedWrite) equal.symm

variable {register : Fin 32} {rs rt rd : Fin 32}

theorem Alike.registers (h : Alike s t)
    (free : s.cpu.loading ≠ some register) :
    getElem t.cpu.registers register register.isLt = getElem s.cpu.registers register register.isLt := by
  rw [h.cpu]
  exact Cpu.settled_get free

theorem lockstep_modifyCpu {f : Cpu → Cpu} (h : Alike s t)
    (mode : (f s.cpu).loadDelayMode = s.cpu.loadDelayMode)
    (image : f s.cpu.interlock = (f s.cpu).interlock) :
    Lockstep Eq Alike s t (modifyCpu f : Exec F β Unit) (modifyCpu f) := by
  apply lockstep_modify
  refine ⟨mode.trans h.mode, ?_, h.devices⟩
  show f t.cpu = (f s.cpu).interlock
  rw [h.cpu, image]

theorem lockstep_access {α : Type} (h : Alike s t) (pc address : Word) (kind : AccessType)
    (transaction : EStateM F β α) :
    Lockstep Eq Alike s t (access pc address kind transaction) (access pc address kind transaction) :=
  lockstep_zoom transaction h.devices.symm fun _ => ⟨h.mode, h.cpu, rfl⟩

/-! ### Executing -/

theorem executeSpecial_congr {registers registers' : Vector Word 32} {pc instruction : Word}
    (same : ∀ register ∈ specialSources (instruction &&& 63).toNat rs rt,
      getElem registers' register register.isLt = getElem registers register register.isLt) :
    (executeSpecial pc instruction (getElem registers' rs rs.isLt) (getElem registers' rt rt.isLt) rd :
        Exec F β Execution) =
      executeSpecial pc instruction (getElem registers rs rs.isLt) (getElem registers rt rt.isLt) rd := by
  unfold executeSpecial
  generalize (instruction &&& 63).toNat = function at same ⊢
  simp only
  split
  all_goals
    simp only [specialSources, List.forall_mem_cons, List.not_mem_nil, false_imp_iff, implies_true,
      and_true] at same
  all_goals simp only [same]

theorem executeBranchSign_congr {pc left left' : Word} {rt : Fin 32} {immediate : BitVec 16}
    (same : rt.val ∈ [0x00, 0x01, 0x10, 0x11] → left' = left) :
    executeBranchSign pc left' rt immediate = executeBranchSign pc left rt immediate := by
  unfold executeBranchSign
  generalize rt.val = selector at same ⊢
  simp only
  split
  case h_5 => rfl
  all_goals rw [same (by decide)]

theorem lockstep_executeSpecial (h : Alike s t) (pc instruction left right : Word) (rd : Fin 32) :
    Lockstep SameEffects Alike s t (executeSpecial pc instruction left right rd : Exec F β Execution)
      (executeSpecial pc instruction left right rd) := by
  unfold executeSpecial
  simp only
  split
  case h_11 | h_13 =>
    apply lockstep_get_bind
    exact lockstep_pure (by rw [h.cpu]; rfl) h
  case h_12 | h_14 | h_15 | h_16 | h_17 =>
    exact (lockstep_modifyCpu h (by rfl) (by rfl)).returning fun _ => rfl
  case h_18 =>
    refine .either ((lockstep_modifyCpu h (by rfl) (by rfl)).returning fun _ => rfl) ?_
    exact (lockstep_modifyCpu h (by rfl) (by rfl)).returning fun _ => rfl
  case h_19 | h_21 =>
    exact .either (lockstep_pure rfl h) (lockstep_pure rfl h)
  all_goals exact lockstep_pure rfl h

theorem lockstep_executeCop0 (h : Alike s t) {function : Word}
    (same : rs.val = 0x04 →
      getElem t.cpu.registers rt rt.isLt = getElem s.cpu.registers rt rt.isLt) :
    Lockstep SameEffects Alike s t (executeCop0 rs rt rd function : Exec F β Execution)
      (executeCop0 rs rt rd function) := by
  have cop0 : t.cpu.cop0 = s.cpu.cop0 := by rw [h.cpu]; rfl
  unfold executeCop0
  apply lockstep_get_bind
  simp only [cop0]
  generalize rs.val = selector at same ⊢
  split
  · split
    all_goals exact lockstep_pure rfl h
  · rw [same rfl]
    generalize s.cpu.cop0.write rd s.cpu.registers[rt] = wrote
    cases wrote with
    | some cop0 => exact (lockstep_modifyCpu h (by rfl) (by rfl)).returning fun _ => rfl
    | none => exact lockstep_pure rfl h
  · refine .either ((lockstep_modifyCpu h (by rfl) (by rfl)).returning fun _ => rfl) ?_
    exact lockstep_pure rfl h
  · exact lockstep_pure rfl h

theorem lockstep_executeCop2 (h : Alike s t)
    (same : rs = 0x04 ∨ rs = 0x06 →
      getElem s.cpu.interlock.registers rt rt.isLt = getElem s.cpu.registers rt rt.isLt) :
    Lockstep SameEffects Alike s t (executeCop2 rs rt rd : Exec F β Execution) (executeCop2 rs rt rd) := by
  have data : t.cpu.cop2Data = s.cpu.cop2Data := by rw [h.cpu]; rfl
  have control : t.cpu.cop2Control = s.cpu.cop2Control := by rw [h.cpu]; rfl
  unfold executeCop2
  apply lockstep_get_bind
  simp only [data, control]
  refine .either (lockstep_pure rfl h) ?_
  refine .either (lockstep_pure rfl h) ?_
  apply Lockstep.ite
  · intro toData
    apply (lockstep_modifyCpu h ?_ ?_).returning
    · exact fun _ => rfl
    · rfl
    · simp only [same (.inl toData)]
      rfl
  · intro _
    apply Lockstep.ite
    · intro toControl
      apply (lockstep_modifyCpu h ?_ ?_).returning
      · exact fun _ => rfl
      · rfl
      · simp only [same (.inr toControl)]
        rfl
    · intro _
      exact .either (lockstep_pure rfl h) (lockstep_pure rfl h)

theorem sameEffects_load {result : Execution} {value value' : Word}
    (same : register ≠ 0 → value = value') :
    SameEffects (result.load register value) (result.load register value') := by
  by_cases zero : register = 0
  · subst zero
    rfl
  · rw [same zero]
    rfl

theorem Alike.mergeBase (h : Alike s t) (nonzero : register ≠ 0) :
    t.cpu.mergeBase register = s.cpu.mergeBase register := by
  rw [h.cpu]
  exact (Cpu.mergeBase_eq nonzero).symm

theorem lockstep_executeMemory (h : Alike s t) {opcode : ℕ} {pc offset : Word} {rs rt : Fin 32}
    (same : ∀ register ∈ memorySources s.cpu.coprocessor2Mode opcode rs rt,
      getElem t.cpu.registers register register.isLt = getElem s.cpu.registers register register.isLt) :
    Lockstep SameEffects Alike s t
      (executeMemory bus opcode pc (getElem s.cpu.registers rs rs.isLt + offset)
        (getElem s.cpu.registers rt rt.isLt) rt)
      (executeMemory bus opcode pc (getElem t.cpu.registers rs rs.isLt + offset)
        (getElem t.cpu.registers rt rt.isLt) rt) := by
  have mode : t.cpu.coprocessor2Mode = s.cpu.coprocessor2Mode := by rw [h.cpu]; rfl
  have misaligned (address : Word) : t.cpu.misaligned address = s.cpu.misaligned address := by
    rw [h.cpu]; rfl
  have data : t.cpu.cop2Data = s.cpu.cop2Data := by rw [h.cpu]; rfl
  unfold executeMemory
  apply lockstep_get_bind
  simp only [mode, misaligned, data]
  split
  all_goals
    simp only [memorySources, List.forall_mem_cons, List.not_mem_nil, false_imp_iff, implies_true,
      and_true] at same
  case h_1 | h_5 =>
    rw [same]
    exact (lockstep_access h _ _ _ _).returning fun _ => rfl
  case h_2 | h_6 =>
    rw [same]
    refine .either (lockstep_pure rfl h) ?_
    exact (lockstep_access h _ _ _ _).returning fun _ => rfl
  case h_3 | h_7 =>
    -- The bases agree, unless the value read is dropped with them.
    rw [same]
    apply (lockstep_access h _ _ _ _).returning
    intro word
    apply sameEffects_load
    intro nonzero
    rw [h.mergeBase nonzero]
  case h_4 =>
    rw [same]
    refine .either (lockstep_pure rfl h) ?_
    exact (lockstep_access h _ _ _ _).returning fun _ => rfl
  case h_8 =>
    rw [same.1, same.2]
    exact (lockstep_access h _ _ _ _).returning fun _ => rfl
  case h_9 | h_11 =>
    rw [same.1, same.2]
    refine .either (lockstep_pure rfl h) ?_
    exact (lockstep_access h _ _ _ _).returning fun _ => rfl
  case h_10 | h_12 =>
    rw [same.1, same.2]
    apply (lockstep_access h _ _ _ _).bind
    intro old old' u v _ value alike
    subst value
    exact (lockstep_access alike _ _ _ _).returning fun _ => rfl
  case h_13 =>
    apply Lockstep.ite
    · intro _
      exact lockstep_pure rfl h
    · intro stub
      rw [if_pos (Decidable.of_not_not stub)] at same
      rw [same rs (by simp)]
      refine .either (lockstep_pure rfl h) ?_
      apply (lockstep_access h _ _ _ _).bind
      intro value value' u v _ same alike
      subst same
      exact (lockstep_modifyCpu alike (by rfl) (by rfl)).returning fun _ => rfl
  case h_14 =>
    apply Lockstep.ite
    · intro _
      exact lockstep_pure rfl h
    · intro stub
      rw [if_pos (Decidable.of_not_not stub)] at same
      rw [same rs (by simp)]
      refine .either (lockstep_pure rfl h) ?_
      exact (lockstep_access h _ _ _ _).returning fun _ => rfl
  all_goals exact lockstep_pure rfl h

theorem lockstep_execute (h : Alike s t) {pc instruction : Word}
    (free : ∀ register ∈ sources s.cpu.coprocessor2Mode instruction,
      s.cpu.loading ≠ some register) :
    Lockstep SameEffects Alike s t (execute bus pc instruction) (execute bus pc instruction) := by
  have same : ∀ register ∈ sources s.cpu.coprocessor2Mode instruction,
      t.cpu.registers[register] = s.cpu.registers[register] :=
    fun register read => h.registers (free register read)
  have mode : t.cpu.coprocessor2Mode = s.cpu.coprocessor2Mode := by rw [h.cpu]; rfl
  unfold sources at same
  unfold execute
  apply lockstep_get_bind
  simp only [mode] at same ⊢
  generalize (instruction >>> 26).toNat = opcode at same ⊢
  split
  case h_1 =>
    rw [executeSpecial_congr same]
    exact lockstep_executeSpecial h _ _ _ _ _
  case h_2 =>
    rw [executeBranchSign_congr fun reads => same _ (by simp [reads])]
    exact lockstep_pure rfl h
  case h_3 | h_4 | h_16 | h_19 | h_20 => exact lockstep_pure rfl h
  case h_5 | h_6 =>
    simp only [List.forall_mem_cons, List.not_mem_nil, false_imp_iff, implies_true, and_true] at same
    rw [same.1, same.2]
    exact lockstep_pure rfl h
  case h_9 =>
    rw [same _ (List.mem_singleton_self _)]
    exact .either (lockstep_pure rfl h) (lockstep_pure rfl h)
  case h_17 => exact lockstep_executeCop0 h fun reads => same _ (by simp [reads])
  case h_18 =>
    apply Lockstep.ite
    · intro stub
      apply lockstep_executeCop2 h
      intro reads
      rw [← h.cpu]
      exact same _ (by simp [stub, reads])
    · intro _
      exact lockstep_pure rfl h
  case h_21 =>
    apply lockstep_executeMemory h
    intro register read
    apply same
    split <;> first | contradiction | exact read
  all_goals
    rw [same _ (List.mem_singleton_self _)]
    exact lockstep_pure rfl h

/-! ### A step -/

theorem lockstep_raise (h : Alike s t) (exception : Exception) (pc : Word)
    (delayBranchPc badVaddr instruction : Option Word) (cycles : ℕ) :
    Lockstep Eq Alike s t
      (raise exception pc delayBranchPc badVaddr instruction cycles : Exec F β StepOutcome)
      (raise exception pc delayBranchPc badVaddr instruction cycles) := by
  unfold raise
  apply (lockstep_modifyCpu h ?_ ?_).returning
  · exact fun _ => rfl
  · simp only [Cpu.commitOldLoad_eq]
    rfl
  · simp only [Cpu.commitOldLoad_eq]
    rfl

theorem Cpu.retire_mode (cpu : Cpu) (execution : Execution) (delaySlot : Option DelaySlotState)
    (pc : Word) : (cpu.retire execution delaySlot pc).loadDelayMode = cpu.loadDelayMode := by
  unfold Cpu.retire
  simp only [Cpu.commitOldLoad_eq]
  cases cpu.loadDelayMode with
  | architectural => rfl
  | interlocked => cases execution.delayedWrite <;> simp only [Cpu.writeRegister_eq]

/-- The load in flight, the write and the new load reach the registers in the same order. -/
theorem Cpu.retire_interlock {cpu : Cpu} (mode : cpu.loadDelayMode = .architectural)
    {execution execution' : Execution} (same : SameEffects execution execution')
    (delaySlot : Option DelaySlotState) (pc : Word) :
    cpu.interlock.retire execution' delaySlot pc = (cpu.retire execution delaySlot pc).interlock := by
  have write : execution'.registerWrite = execution.registerWrite := by rw [same.eq]
  have branch : execution'.isBranch = execution.isBranch := by rw [same.eq]
  have target : execution'.branchTarget = execution.branchTarget := by rw [same.eq]
  unfold Cpu.retire
  simp only [Cpu.commitOldLoad_eq, mode, write, branch, target]
  unfold Cpu.interlock Cpu.settled
  simp only [written_set_zero, ← same.loads]
  cases execution'.delayedWrite with
  | none => rfl
  | some load =>
    simp only [Cpu.writeRegister_eq]
    rfl

theorem lockstep_retire (h : Alike s t) {execution execution' : Execution}
    (same : SameEffects execution execution') (delaySlot : Option DelaySlotState) (pc : Word) :
    Lockstep Eq Alike s t (modifyCpu (·.retire execution delaySlot pc) : Exec F β Unit)
      (modifyCpu (·.retire execution' delaySlot pc)) := by
  apply lockstep_modify
  refine ⟨?_, ?_, h.devices⟩
  · exact (s.cpu.retire_mode _ _ _).trans h.mode
  · show t.cpu.retire execution' delaySlot pc = _
    rw [h.cpu]
    exact Cpu.retire_interlock h.mode same delaySlot pc

/-- The instruction a step fetches, unless an interrupt or its address keeps it from fetching. -/
def fetched (bus : Bus F β) (sampleExternalInterrupt : Bool) (s : CpuBus β) : Option Word :=
  let cpu := (sampled bus sampleExternalInterrupt s).cpu
  if sampleExternalInterrupt && cpu.interruptEnabled then none
  else if cpu.pc &&& 3 ≠ 0 then none
  else returned ((bus.readU32 cpu.pc).run s.devices)

/-- The instruction of a step does not read the register that the load before it changes. -/
def HazardFree (bus : Bus F β) (sampleExternalInterrupt : Bool) (s : CpuBus β) : Prop :=
  ∀ instruction ∈ fetched bus sampleExternalInterrupt s,
    ∀ register ∈ sources s.cpu.coprocessor2Mode instruction, s.cpu.loading ≠ some register

instance (sampleExternalInterrupt : Bool) (s : CpuBus β) :
    Decidable (HazardFree bus sampleExternalInterrupt s) :=
  -- Not all instructions are searched, only the one fetched.
  Option.decidableForallMem (fetched bus sampleExternalInterrupt s)

theorem HazardFree.reads {sampleExternalInterrupt : Bool}
    (free : HazardFree bus sampleExternalInterrupt s)
    (uninterrupted : ¬ (sampleExternalInterrupt &&
      (sampled bus sampleExternalInterrupt s).cpu.interruptEnabled) = true)
    (aligned : ¬ (sampled bus sampleExternalInterrupt s).cpu.pc &&& 3 ≠ 0) {instruction : Word} {d : β}
    (read : (bus.readU32 (sampled bus sampleExternalInterrupt s).cpu.pc).run
      (sampled bus sampleExternalInterrupt s).devices = .ok instruction d) :
    ∀ register ∈ sources (sampled bus sampleExternalInterrupt s).cpu.coprocessor2Mode instruction,
      (sampled bus sampleExternalInterrupt s).cpu.loading ≠ some register := by
  have devices : (sampled bus sampleExternalInterrupt s).devices = s.devices := by
    cases sampleExternalInterrupt <;> rfl
  have fetch : instruction ∈ fetched bus sampleExternalInterrupt s := by
    unfold fetched
    rw [if_neg uninterrupted, if_neg aligned, ← devices, read]
    rfl
  have free' := free instruction fetch
  cases sampleExternalInterrupt <;> exact free'

theorem Alike.sampled (h : Alike s t) (bus : Bus F β) (sampleExternalInterrupt : Bool) :
    Alike (sampled bus sampleExternalInterrupt s) (sampled bus sampleExternalInterrupt t) := by
  cases sampleExternalInterrupt with
  | false => exact h
  | true =>
    refine ⟨h.mode, ?_, h.devices⟩
    show t.cpu.updateInterruptLine _ = _
    rw [h.cpu, h.devices]
    rfl

/-- A step in one mode and one in the other do the same. -/
theorem lockstep_stepInner (h : Alike s t) {sampleExternalInterrupt : Bool}
    (free : HazardFree bus sampleExternalInterrupt s) :
    Lockstep Eq Alike s t (stepInner bus sampleExternalInterrupt)
      (stepInner bus sampleExternalInterrupt) := by
  unfold Lockstep
  rw [run_stepInner, run_stepInner]
  have alike := h.sampled bus sampleExternalInterrupt
  have reads := free.reads
  generalize sampled bus sampleExternalInterrupt s = u at alike reads ⊢
  generalize sampled bus sampleExternalInterrupt t = v at alike ⊢
  have interrupt : v.cpu.interruptEnabled = u.cpu.interruptEnabled := by rw [alike.cpu]; rfl
  have pc : v.cpu.pc = u.cpu.pc := by rw [alike.cpu]; rfl
  have slot : v.cpu.delaySlot = u.cpu.delaySlot := by rw [alike.cpu]; rfl
  unfold stepSampled
  apply lockstep_get_bind
  simp only [interrupt, pc, slot]
  apply Lockstep.ite
  · intro _
    exact lockstep_raise alike _ _ _ _ _ _
  · intro uninterrupted
    apply Lockstep.ite
    · intro _
      exact lockstep_raise alike _ _ _ _ _ _
    · intro aligned
      apply (lockstep_access alike _ _ _ _).bind
      intro instruction _ u' v' fetch value alike'
      subst value
      obtain ⟨d, read, rfl⟩ := run_zoom_ok.mp fetch
      apply (lockstep_execute alike' (reads uninterrupted aligned read)).bind
      intro execution execution' u'' v'' _ effects alike''
      have exception : execution'.exception = execution.exception := by rw [effects.eq]
      have badVaddr : execution'.badVaddr = execution.badVaddr := by rw [effects.eq]
      have cycles : execution'.cycles = execution.cycles := by rw [effects.eq]
      rw [exception, badVaddr, cycles]
      cases execution.exception with
      | some _ => exact lockstep_raise alike'' _ _ _ _ _ _
      | none => exact (lockstep_retire alike'' effects _ _).returning fun _ => rfl

end Alike

/-! ### A run -/

section Run

variable {F β : Type} (bus : Bus F β)

/-- What comes next: the devices change on their own, or the processor steps. -/
inductive Event (β : Type) where
  | devices (change : β → β)
  | step (sampleExternalInterrupt : Bool)

namespace Event

/-- The state after the event; a step whose bus fails leaves one too. -/
def next (s : CpuBus β) : Event β → CpuBus β
  | .devices change => { s with devices := change s.devices }
  | .step sampleExternalInterrupt => leaves ((stepInner bus sampleExternalInterrupt).run s)

/-- What a step reports. -/
def outcome (s : CpuBus β) : Event β → Option (Except (CpuError F) StepOutcome)
  | .devices _ => none
  | .step sampleExternalInterrupt =>
    match (stepInner bus sampleExternalInterrupt).run s with
    | .ok outcome _ => some (.ok outcome)
    | .error error _ => some (.error error)

/-- A step reads no register that the load before it changes. -/
def HazardFree (s : CpuBus β) : Event β → Prop
  | .devices _ => True
  | .step sampleExternalInterrupt => R3000.HazardFree bus sampleExternalInterrupt s

instance (s : CpuBus β) : (event : Event β) → Decidable (event.HazardFree bus s)
  | .devices _ => inferInstanceAs (Decidable True)
  | .step sampleExternalInterrupt =>
    inferInstanceAs (Decidable (R3000.HazardFree bus sampleExternalInterrupt s))

end Event

/-- No step of the run reads a register that the load before it changes. -/
def HazardFreeRun : CpuBus β → List (Event β) → Prop
  | _, [] => True
  | s, event :: events => event.HazardFree bus s ∧ HazardFreeRun (event.next bus s) events

instance decidableHazardFreeRun : (s : CpuBus β) → (events : List (Event β)) →
    Decidable (HazardFreeRun bus s events)
  | _, [] => inferInstanceAs (Decidable True)
  | s, event :: events =>
    have := decidableHazardFreeRun (event.next bus s) events
    inferInstanceAs (Decidable (event.HazardFree bus s ∧ HazardFreeRun bus (event.next bus s) events))

/-- What shows of an event: its outcome, and the state after it with the load in flight applied. -/
structure View (F β : Type) where
  outcome : Option (Except (CpuError F) StepOutcome)
  pc : Word
  nextPc : Word
  hi : Word
  lo : Word
  cop0 : Cop0
  registers : Vector Word 32
  devices : β

def view (outcome : Option (Except (CpuError F) StepOutcome)) (s : CpuBus β) : View F β where
  outcome := outcome
  pc := s.cpu.pc
  nextPc := s.cpu.nextPc
  hi := s.cpu.hi
  lo := s.cpu.lo
  cop0 := s.cpu.cop0
  registers := s.cpu.settled
  devices := s.devices

/-- What shows of a run, event by event. -/
def views : CpuBus β → List (Event β) → List (View F β)
  | _, [] => []
  | s, event :: events => view (event.outcome bus s) (event.next bus s) :: views (event.next bus s) events

variable {bus} {s t : CpuBus β}

theorem Alike.view (h : Alike s t) (outcome : Option (Except (CpuError F) StepOutcome)) :
    view outcome s = view outcome t := by
  unfold R3000.view
  rw [h.cpu, h.devices]
  rfl

theorem Alike.next (h : Alike s t) {event : Event β} (free : event.HazardFree bus s) :
    event.outcome bus s = event.outcome bus t ∧ Alike (event.next bus s) (event.next bus t) := by
  cases event with
  | devices change => exact ⟨rfl, h.mode, h.cpu, congrArg change h.devices⟩
  | step sampleExternalInterrupt =>
    have lockstep : Lockstep Eq Alike s t (stepInner bus sampleExternalInterrupt) _ :=
      lockstep_stepInner h free
    refine ⟨?_, lockstep.leaves⟩
    unfold Lockstep at lockstep
    unfold Event.outcome
    cases hs : (stepInner bus sampleExternalInterrupt).run s <;>
      cases ht : (stepInner bus sampleExternalInterrupt).run t <;> rw [hs, ht] at lockstep
    · simp only [hs, ht, lockstep.1]
    · exact lockstep.elim
    · exact lockstep.elim
    · simp only [hs, ht, lockstep.1]

theorem Alike.views (h : Alike s t) {events : List (Event β)} (free : HazardFreeRun bus s events) :
    views bus s events = views bus t events := by
  induction events generalizing s t with
  | nil => rfl
  | cons event events ih =>
    obtain ⟨outcome, alike⟩ := h.next free.1
    show R3000.view _ _ :: _ = R3000.view _ _ :: _
    rw [outcome, alike.view, ih alike free.2]

/-- From any state without a load in flight, and over any devices, a run without hazards shows the
same whether loads are delayed or interlocked. -/
theorem load_delay_modes_agree (bus : Bus F β) {cpu : Cpu} (noLoad : cpu.pendingLoad = none)
    (devices : β) {events : List (Event β)}
    (free : HazardFreeRun bus ⟨{ cpu with loadDelayMode := .architectural }, devices⟩ events) :
    views bus ⟨{ cpu with loadDelayMode := .architectural }, devices⟩ events =
      views bus ⟨{ cpu with loadDelayMode := .interlocked }, devices⟩ events := by
  apply Alike.views _ free
  refine ⟨rfl, ?_, rfl⟩
  unfold Cpu.interlock Cpu.settled
  rw [noLoad]
  rfl

end Run

/-- A read-only memory: an unaligned word in two loads, a branch with a load in its delay slot, and at
its target a write of the register loaded and one more load. -/
def mergingWord (address : Word) : Word :=
  match address.toNat with
  | 0x00 => 0x88020104 -- lwl r2, 0x104(r0)
  | 0x04 => 0x98020101 -- lwr r2, 0x101(r0)
  | 0x08 => 0x10000001 -- beq r0, r0, 0x10
  | 0x0c => 0x8c030100 -- lw r3, 0x100(r0)
  | 0x10 => 0x20430005 -- addi r3, r2, 5
  | 0x14 => 0x8c040100 -- lw r4, 0x100(r0)
  | _ => 0x11223344

/-- The memory, and an interrupt line that the devices are. -/
def mergingBus : Bus Unit Bool where
  readU8 _ := throw ()
  readU16 _ := throw ()
  readU32 address := pure (mergingWord address)
  writeU8 _ _ := throw ()
  writeU16 _ _ := throw ()
  writeU32 _ _ := throw ()
  interruptPending line := line

/-- A processor at address zero that takes external interrupts. -/
def mergingCpu : Cpu := Cpu.new ⟨0, 0x80, 0xbfc00180, 0x401, 2⟩

/-- Six instructions, and an interrupt with the last load in flight. -/
def mergingRun : List (Event Bool) :=
  List.replicate 6 (.step true) ++ [.devices fun _ => true, .step true]

theorem load_delay_modes_agree_sample :
    views mergingBus ⟨{ mergingCpu with loadDelayMode := .architectural }, false⟩ mergingRun =
      views mergingBus ⟨{ mergingCpu with loadDelayMode := .interlocked }, false⟩ mergingRun :=
  load_delay_modes_agree mergingBus (by decide) false (by decide +kernel)

end Upse.R3000
