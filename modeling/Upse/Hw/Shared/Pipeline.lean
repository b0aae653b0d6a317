import Upse.Hw.Shared.R3000

/-!
# Loops that do nothing

A branch to itself with an empty delay slot: executing it again and again only moves the processor
between the two instructions.
-/

namespace Upse.R3000

open ErrorState

section IdleLoop

variable {F β : Type} {bus : Bus F β} {cpu : Cpu} {d : β} {pc instruction : Word}

/-- The next instruction is not in the delay slot of a taken branch: none was taken before it, and
the one after it follows in sequence. -/
structure Cpu.Sequential (cpu : Cpu) : Prop where
  notTaken : cpu.delaySlot.any (·.branchTaken) = false
  follows : cpu.nextPc = cpu.pc + 4
  zero : getElem cpu.registers 0 register_zero_lt = 0

/-- The bus answers a fetch and stays as it is. -/
def Bus.Fetches (bus : Bus F β) (d : β) (address instruction : Word) : Prop :=
  (bus.readU32 address).run d = .ok instruction d

/-- The instruction at an address branches or jumps to itself, whatever the registers hold. -/
def BranchesToSelf (pc instruction : Word) : Prop :=
  instruction = 0x1000ffff ∨ (instruction >>> 26).toNat = 2 ∧ jumpTarget pc instruction = pc

theorem aligned_add_four {address : Word} (aligned : address &&& 3 = 0) : (address + 4) &&& 3 = 0 := by
  have low (x : Word) : (x &&& 3) = 0 ↔ x.toNat % 4 = 0 := by
    rw [← BitVec.toNat_inj, BitVec.toNat_and]
    show x.toNat &&& (2 ^ 2 - 1) = 0 ↔ _
    rw [Nat.and_two_pow_sub_one_eq_mod]
  rw [low] at aligned ⊢
  rw [BitVec.toNat_add]
  show (address.toNat + 4) % 2 ^ 32 % 4 = 0
  omega

theorem run_access {α : Type} (cpu : Cpu) (pc address : Word) (kind : AccessType)
    {transaction : EStateM F β α} {a : α} {d' : β} (h : transaction.run d = .ok a d') :
    (access pc address kind transaction).run ⟨cpu, d⟩ = .ok a ⟨cpu, d'⟩ :=
  run_zoom_ok.mpr ⟨d', h, rfl⟩

/-! ### The two instructions -/

theorem Execution.conditionalBranch_true (result : Execution) (pc : Word) (immediate : BitVec 16) :
    result.conditionalBranch true pc immediate =
      result.branch (pc + 4 + (immediate.signExtend 32 <<< 2)) := rfl

theorem run_execute_branch (branches : BranchesToSelf pc instruction) :
    (execute bus pc instruction).run ⟨cpu, d⟩ = .ok (Execution.default.branch pc) ⟨cpu, d⟩ := by
  unfold execute
  rcases branches with rfl | ⟨opcode, target⟩
  · have opcode : ((0x1000ffff : Word) >>> 26).toNat = 4 := by decide
    have rs : field 0x1000ffff 21 = 0 := by decide
    have rt : field 0x1000ffff 16 = 0 := by decide
    have offset : ((0x1000ffff : Word).setWidth 16).signExtend 32 <<< 2 = (-4 : Word) := by decide
    have target : pc + 4 + ((0x1000ffff : Word).setWidth 16).signExtend 32 <<< 2 = pc := by
      rw [offset]
      show pc + 4#32 + -4#32 = pc
      bv_omega
    simp only [run_bind, run_get, opcode, rs, rt, run_pure, beq_self_eq_true,
      Execution.conditionalBranch_true, target]
  · simp only [run_bind, run_get, opcode, target, run_pure]

theorem run_execute_nop : (execute bus pc 0).run ⟨cpu, d⟩ =
    .ok (Execution.default.write 0 (getElem cpu.registers 0 register_zero_lt)) ⟨cpu, d⟩ := by
  unfold execute
  have opcode : ((0 : Word) >>> 26).toNat = 0 := by decide
  have function : ((0 : Word) &&& 63).toNat = 0 := by decide
  have shift : (((0 : Word) >>> 6) &&& 31).toNat = 0 := by decide
  have rt : field 0 16 = 0 := by decide
  have rd : field 0 11 = 0 := by decide
  simp only [run_bind, run_get, opcode, rt, rd, executeSpecial, function, shift,
    run_pure, BitVec.shiftLeft_zero]
  rfl

theorem run_step {execution : Execution} (aligned : cpu.pc &&& 3 = 0)
    (fetches : bus.Fetches d cpu.pc instruction)
    (executes : (execute bus cpu.pc instruction).run ⟨cpu, d⟩ = .ok execution ⟨cpu, d⟩)
    (quiet : execution.exception = none) :
    (stepWithoutExternalInterrupts bus).run ⟨cpu, d⟩ =
      .ok ⟨cpu.pc, some instruction, execution.cycles, .instruction⟩
        ⟨cpu.retire execution cpu.delaySlot cpu.pc, d⟩ := by
  have fetched := run_access cpu cpu.pc cpu.pc .instruction fetches
  have inOrder : ¬cpu.pc &&& 3 ≠ 0 := fun h => h aligned
  simp only [stepWithoutExternalInterrupts, stepInner, Bool.false_eq_true, if_false,
    run_bind, run_get, Bool.false_and, inOrder, fetched, executes, quiet]
  rfl

theorem Cpu.commitOldLoad_idle (none : cpu.pendingLoad = none) : cpu.commitOldLoad .none = cpu := by
  simp [commitOldLoad, none]

theorem Cpu.commitOldLoad_zero (cpu : Cpu) (value : Word) :
    cpu.commitOldLoad (some (0, value)) = cpu.commitOldLoad none := by
  simp [commitOldLoad, writeRegister]

theorem Cpu.zero_writeRegister {index : Fin 32} {value : Word}
    (zero : getElem cpu.registers 0 register_zero_lt = 0) :
    getElem (cpu.writeRegister index value).registers 0 register_zero_lt = 0 := by
  unfold writeRegister
  split
  · exact zero
  · next other =>
    show (cpu.registers.set index value)[0] = 0
    exact (Vector.getElem_set_ne index.isLt (by decide) fun same => other (Fin.ext same)).trans zero

theorem Cpu.zero_commitOldLoad (zero : getElem cpu.registers 0 register_zero_lt = 0) :
    getElem (cpu.commitOldLoad none).registers 0 register_zero_lt = 0 := by
  unfold commitOldLoad
  simp only
  split
  · exact zero_writeRegister zero
  · exact zero

@[simp] theorem Cpu.pendingLoad_commitOldLoad (cpu : Cpu) :
    (cpu.commitOldLoad none).pendingLoad = none := by
  unfold commitOldLoad writeRegister
  cases h : cpu.pendingLoad <;> grind

/-- A processor that commits nothing but the load in flight, and where it goes on. -/
def Cpu.moved (cpu : Cpu) (pc nextPc : Word) (delaySlot : Option DelaySlotState) : Cpu :=
  { cpu.commitOldLoad none with pc := pc, nextPc := nextPc, delaySlot := delaySlot }

theorem Cpu.set_zero (zero : getElem cpu.registers 0 register_zero_lt = 0) :
    cpu.registers.set 0 0 register_zero_lt = cpu.registers := by
  rw [← zero]
  exact Vector.set_getElem_self _

@[simp] theorem Cpu.nextPc_commitOldLoad (cpu : Cpu) :
    (cpu.commitOldLoad none).nextPc = cpu.nextPc := by
  unfold commitOldLoad writeRegister
  cases h : cpu.pendingLoad <;> grind

@[simp] theorem Cpu.loadDelayMode_commitOldLoad (cpu : Cpu) :
    (cpu.commitOldLoad none).loadDelayMode = cpu.loadDelayMode := by
  unfold commitOldLoad writeRegister
  cases h : cpu.pendingLoad <;> grind

variable {delaySlot : Option DelaySlotState}

theorem Cpu.retire_of_writes_nothing {execution : Execution}
    (zero : getElem cpu.registers 0 register_zero_lt = 0)
    (writes : cpu.commitOldLoad execution.registerWrite = cpu.commitOldLoad none)
    (loads : execution.delayedWrite = none)
    (single : (execution.isBranch && delaySlot.any (·.branchTaken)) = false) (currentPc : Word) :
    cpu.retire execution delaySlot currentPc =
      cpu.moved cpu.nextPc (execution.branchTarget.getD (cpu.nextPc + 4))
        (if execution.isBranch then some ⟨currentPc, execution.branchTarget.isSome⟩ else none) := by
  have kept : (cpu.commitOldLoad none).registers.set 0 0 = (cpu.commitOldLoad none).registers :=
    set_zero (zero_commitOldLoad zero)
  unfold retire moved
  simp only [writes, loads, single, Bool.false_and, loadDelayMode_commitOldLoad]
  cases cpu.loadDelayMode <;> simp <;> exact kept

theorem Cpu.retire_branch (sequential : cpu.Sequential) (target : Word) :
    cpu.retire (Execution.default.branch target) cpu.delaySlot cpu.pc =
      cpu.moved (cpu.pc + 4) target (some ⟨cpu.pc, true⟩) := by
  rw [retire_of_writes_nothing sequential.zero rfl rfl (by simp [sequential.notTaken]),
    sequential.follows]
  rfl

theorem Cpu.retire_nop (zero : getElem cpu.registers 0 register_zero_lt = 0) (value : Word)
    (delaySlot : Option DelaySlotState) (currentPc : Word) :
    cpu.retire (Execution.default.write 0 value) delaySlot currentPc =
      cpu.moved cpu.nextPc (cpu.nextPc + 4) none :=
  retire_of_writes_nothing zero (cpu.commitOldLoad_zero value) rfl rfl currentPc

theorem Cpu.moved_moved (cpu : Cpu) (a b c d : Word) (first second : Option DelaySlotState) :
    (cpu.moved a b first).moved c d second = cpu.moved c d second := by
  have idle : (cpu.moved a b first).commitOldLoad none = cpu.moved a b first :=
    commitOldLoad_idle (pendingLoad_commitOldLoad cpu)
  unfold moved at *
  rw [idle]

theorem Cpu.zero_moved {pc nextPc : Word}
    (zero : getElem cpu.registers 0 register_zero_lt = 0) :
    getElem (cpu.moved pc nextPc delaySlot).registers 0 register_zero_lt = 0 :=
  zero_commitOldLoad zero

/-! ### The loop -/

/-- The processor after a number of instructions of an idle loop: a load in flight arrives with the
first, and then it is at the branch or in its delay slot. -/
def Cpu.idled (cpu : Cpu) (n : ℕ) : Cpu :=
  if n = 0 then cpu
  else if n % 2 = 1 then cpu.moved (cpu.pc + 4) cpu.pc (some ⟨cpu.pc, true⟩)
  else cpu.moved cpu.pc (cpu.pc + 4) none

theorem Cpu.idled_odd {n : ℕ} (odd : n % 2 = 1) :
    cpu.idled n = cpu.moved (cpu.pc + 4) cpu.pc (some ⟨cpu.pc, true⟩) := by
  unfold idled
  rw [if_neg (by omega), if_pos odd]

theorem Cpu.idled_even {n : ℕ} (sequential : cpu.Sequential) (even : n % 2 = 0) :
    (cpu.idled n).Sequential ∧ (cpu.idled n).pc = cpu.pc ∧
      ∀ pc nextPc delaySlot, (cpu.idled n).moved pc nextPc delaySlot =
        cpu.moved pc nextPc delaySlot := by
  unfold idled
  split
  · exact ⟨sequential, rfl, fun _ _ _ => rfl⟩
  · rw [if_neg (by omega)]
    exact ⟨⟨rfl, rfl, zero_moved sequential.zero⟩, rfl, fun _ _ _ => moved_moved _ _ _ _ _ _ _⟩

/-- Where two processors of the same idle loop may differ: at which of its two instructions they are,
and whether a load in flight has arrived. -/
structure Cpu.StaysInLoop (cpu after : Cpu) : Prop where
  pc : after.pc = cpu.pc ∨ after.pc = cpu.pc + 4
  registers : after.registers = cpu.registers ∧ after.pendingLoad = cpu.pendingLoad ∨
    after.registers = (cpu.commitOldLoad none).registers ∧ after.pendingLoad = none
  hi : after.hi = cpu.hi
  lo : after.lo = cpu.lo
  cop0 : after.cop0 = cpu.cop0
  cop2Data : after.cop2Data = cpu.cop2Data
  cop2Control : after.cop2Control = cpu.cop2Control

theorem Cpu.commitOldLoad_none (cpu : Cpu) :
    (cpu.commitOldLoad none).hi = cpu.hi ∧ (cpu.commitOldLoad none).lo = cpu.lo ∧
      (cpu.commitOldLoad none).cop0 = cpu.cop0 ∧
      (cpu.commitOldLoad none).cop2Data = cpu.cop2Data ∧
      (cpu.commitOldLoad none).cop2Control = cpu.cop2Control := by
  unfold commitOldLoad writeRegister
  cases h : cpu.pendingLoad <;> grind

theorem Cpu.staysInLoop_moved {nextPc : Word} {pc : Word}
    (h : pc = cpu.pc ∨ pc = cpu.pc + 4) : cpu.StaysInLoop (cpu.moved pc nextPc delaySlot) := by
  obtain ⟨hi, lo, cop0, cop2Data, cop2Control⟩ := cpu.commitOldLoad_none
  exact ⟨h, .inr ⟨rfl, cpu.pendingLoad_commitOldLoad⟩, hi, lo, cop0, cop2Data, cop2Control⟩

theorem Cpu.staysInLoop_idled (cpu : Cpu) (n : ℕ) : cpu.StaysInLoop (cpu.idled n) := by
  unfold idled
  split
  · exact ⟨.inl rfl, .inl ⟨rfl, rfl⟩, rfl, rfl, rfl, rfl, rfl⟩
  · split
    · exact staysInLoop_moved (.inr rfl)
    · exact staysInLoop_moved (.inl rfl)

/-- One instruction of an idle loop takes one cycle and moves on to the other. -/
theorem run_step_idled (sequential : cpu.Sequential) (aligned : cpu.pc &&& 3 = 0)
    (fetches : bus.Fetches d cpu.pc instruction) (branches : BranchesToSelf cpu.pc instruction)
    (empty : bus.Fetches d (cpu.pc + 4) 0) (n : ℕ) :
    ∃ outcome, (stepWithoutExternalInterrupts bus).run ⟨cpu.idled n, d⟩ =
      .ok outcome ⟨cpu.idled (n + 1), d⟩ ∧ outcome.cycles = 1 := by
  rcases Nat.mod_two_eq_zero_or_one n with even | odd
  · obtain ⟨sequential', pc, moves⟩ := cpu.idled_even sequential even
    rw [← pc] at aligned fetches branches
    have stepped := run_step aligned fetches (run_execute_branch branches) rfl
    rw [Cpu.retire_branch sequential', moves, pc] at stepped
    rw [Cpu.idled_odd (by omega : (n + 1) % 2 = 1)]
    exact ⟨_, stepped, rfl⟩
  · have next : cpu.idled (n + 1) = cpu.moved cpu.pc (cpu.pc + 4) none := by
      unfold Cpu.idled
      rw [if_neg (by omega), if_neg (by omega)]
    rw [next, Cpu.idled_odd odd]
    have zero : (cpu.moved (cpu.pc + 4) cpu.pc (some ⟨cpu.pc, true⟩)).registers[0] = 0 :=
      Cpu.zero_moved sequential.zero
    have inOrder : (cpu.moved (cpu.pc + 4) cpu.pc (some ⟨cpu.pc, true⟩)).pc &&& 3 = 0 :=
      aligned_add_four aligned
    have stepped := run_step inOrder empty run_execute_nop rfl
    rw [Cpu.retire_nop zero] at stepped
    exact ⟨_, stepped.trans (by rw [Cpu.moved_moved]; rfl), rfl⟩

/-! ### Probing for the loop -/

/-- What two words of the program say of an idle loop at `pc`: whether it is one, and the instruction
read to find out. -/
def probeLoop {ε : Type} (read : Word → Except ε Word) (pc : Word) :
    Except ε (Bool × Option Word) := do
  if pc &&& 3 ≠ 0 then return (false, none)
  else
    let instruction ← read pc
    let branchToSelf := instruction = 0x1000ffff
    let jumpToSelf := (instruction >>> 26).toNat = 2 ∧ jumpTarget pc instruction = pc
    if ¬ branchToSelf ∧ ¬ jumpToSelf then return (false, some instruction)
    else return ((← read (pc + 4)) = 0, some instruction)

/-- A probe whose reads are those of a memory. -/
theorem run_probeLoop_ok {ε δ σ : Type} {read : Word → EStateM ε σ Word} {memory : Word → Except δ Word}
    {s t : σ} {pc : Word} {result : Bool × Option Word}
    (reads : ∀ {address word : Word} {t : σ},
      (read address).run s = .ok word t ↔ memory address = .ok word ∧ s = t)
    (probed : (if pc &&& 3 ≠ 0 then return (false, none)
      else do
        let instruction ← read pc
        if ¬ instruction = 0x1000ffff ∧
            ¬ ((instruction >>> 26).toNat = 2 ∧ jumpTarget pc instruction = pc) then
          return (false, some instruction)
        else return ((← read (pc + 4)) = 0, some instruction) :
          EStateM ε σ (Bool × Option Word)).run s = .ok result t) :
    probeLoop memory pc = .ok result ∧ t = s := by
  unfold probeLoop
  split at probed
  next outOfOrder =>
    obtain ⟨rfl, rfl⟩ := run_pure_ok.mp probed
    rw [if_pos outOfOrder]
    exact ⟨rfl, rfl⟩
  next inOrder =>
    rw [if_neg inOrder]
    obtain ⟨instruction, _, first, probed⟩ := run_bind_ok.mp probed
    obtain ⟨answers, rfl⟩ := reads.mp first
    rw [answers]
    dsimp only [bind, Except.bind]
    split at probed
    next other =>
      obtain ⟨rfl, rfl⟩ := run_pure_ok.mp probed
      rw [if_pos other]
      exact ⟨rfl, rfl⟩
    next loops =>
      rw [if_neg loops]
      obtain ⟨delayed, _, second, probed⟩ := run_bind_ok.mp probed
      obtain ⟨answers', rfl⟩ := reads.mp second
      obtain ⟨rfl, rfl⟩ := run_pure_ok.mp probed
      rw [answers']
      exact ⟨rfl, rfl⟩

theorem probeLoop_true {ε : Type} {read : Word → Except ε Word} {word : Option Word}
    (probed : probeLoop read pc = .ok (true, word)) :
    pc &&& 3 = 0 ∧ ∃ instruction, read pc = .ok instruction ∧ BranchesToSelf pc instruction ∧
      read (pc + 4) = .ok 0 := by
  unfold probeLoop at probed
  split at probed
  · cases probed
  · next inOrder =>
    obtain ⟨instruction, first, rest⟩ := except_bind_ok.mp probed
    dsimp only at rest
    split at rest
    · cases rest
    · next branches =>
      obtain ⟨delayed, second, rest⟩ := except_bind_ok.mp rest
      have empty : delayed = 0 := of_decide_eq_true (congrArg Prod.fst (Except.ok.inj rest))
      refine ⟨Decidable.not_not.mp inOrder, instruction, first, ?_, empty ▸ second⟩
      unfold BranchesToSelf
      by_cases branch : instruction = 0x1000ffff
      · exact .inl branch
      · exact .inr (Decidable.not_not.mp fun jump => branches ⟨branch, jump⟩)

theorem probeLoop_some {ε : Type} {read : Word → Except ε Word} {idle : Bool} {instruction : Word}
    (probed : probeLoop read pc = .ok (idle, some instruction)) :
    pc &&& 3 = 0 ∧ read pc = .ok instruction := by
  unfold probeLoop at probed
  split at probed
  · cases probed
  · next inOrder =>
    refine ⟨Decidable.not_not.mp inOrder, ?_⟩
    obtain ⟨word, first, rest⟩ := except_bind_ok.mp probed
    dsimp only at rest
    split at rest
    · cases rest
      exact first
    · obtain ⟨_, _, rest⟩ := except_bind_ok.mp rest
      cases rest
      exact first

/-- An instruction that was fetched ahead executes as one fetched in place, where both fetches leave
the devices in the same state. -/
theorem run_step_fetched {d' e : β} (aligned : cpu.pc &&& 3 = 0)
    (ahead : (bus.readU32 cpu.pc).run d = .ok instruction e)
    (inPlace : (bus.readU32 cpu.pc).run d' = .ok instruction e) :
    (stepWithoutExternalInterrupts bus).run ⟨cpu, d⟩ =
      (stepWithoutExternalInterrupts bus).run ⟨cpu, d'⟩ := by
  have first := run_access cpu cpu.pc cpu.pc .instruction ahead
  have second := run_access cpu cpu.pc cpu.pc .instruction inPlace
  have inOrder : ¬cpu.pc &&& 3 ≠ 0 := fun h => h aligned
  simp only [stepWithoutExternalInterrupts, stepInner, Bool.false_eq_true, if_false,
    run_bind, run_get, Bool.false_and, inOrder, first, second]

end IdleLoop

/-!
## The pipeline of a processor

The fields of a processor are private: it comes to be by reset, by running instructions and through
the setters.  Whatever it has run, on whatever bus, register zero is zero, and the next instruction is
followed by the one after it unless it is in the delay slot of a taken branch.
-/

/-- A processor as some machine may have it. -/
inductive Cpu.Built : Cpu → Prop
  | reset (profile : ResetProfile) (loadDelayMode : LoadDelayMode) :
      Built (withLoadDelayMode profile loadDelayMode)
  | modes {cpu : Cpu} (wordAlignmentMode : WordAlignmentMode) (coprocessor2Mode : Coprocessor2Mode)
      (delaySlotBranchMode : DelaySlotBranchMode) : Built cpu →
      Built { cpu with
        wordAlignmentMode := wordAlignmentMode
        coprocessor2Mode := coprocessor2Mode
        delaySlotBranchMode := delaySlotBranchMode }
  | setRegister {cpu : Cpu} (index : ℕ) (value : Word) : Built cpu → Built (cpu.setRegister index value)
  | setPc {cpu : Cpu} (pc : Word) : Built cpu → Built (cpu.setPc pc)
  | setHiLo {cpu : Cpu} (hi lo : Word) : Built cpu → Built (cpu.setHiLo hi lo)
  | cop0 {cpu : Cpu} (cop0 : Cop0) : Built cpu → Built { cpu with cop0 := cop0 }
  | step {F β : Type} {cpu : Cpu} (bus : Bus F β) (d : β) (sampleExternalInterrupt : Bool) : Built cpu →
      Built (leaves ((stepInner bus sampleExternalInterrupt).run ⟨cpu, d⟩)).cpu

/-- Register zero is zero, and the instructions follow each other in sequence except into the target
of a branch. -/
structure Cpu.InSequence (cpu : Cpu) : Prop where
  zero : getElem cpu.registers 0 register_zero_lt = 0
  follows : cpu.delaySlot.any (·.branchTaken) = false → cpu.nextPc = cpu.pc + 4

theorem Cpu.InSequence.sequential {cpu : Cpu} (h : cpu.InSequence)
    (notTaken : cpu.delaySlot.any (·.branchTaken) = false) : cpu.Sequential :=
  ⟨notTaken, h.follows notTaken, h.zero⟩

/-- An execution that goes elsewhere is one of a branch. -/
def Execution.Branches (execution : Execution) : Prop :=
  execution.isBranch = false → execution.branchTarget = none

section Pipeline

variable {F β : Type} {bus : Bus F β} {s : CpuBus β}

/-- An instruction that executes leaves the pipeline and the registers for its retirement. -/
structure SamePipeline (s t : CpuBus β) : Prop where
  pc : t.cpu.pc = s.cpu.pc
  nextPc : t.cpu.nextPc = s.cpu.nextPc
  delaySlot : t.cpu.delaySlot = s.cpu.delaySlot
  registers : t.cpu.registers = s.cpu.registers

instance : Std.Refl (SamePipeline (β := β)) := ⟨fun _ => ⟨rfl, rfl, rfl, rfl⟩⟩

instance : IsTrans (CpuBus β) SamePipeline :=
  ⟨fun _ _ _ first second => ⟨second.pc.trans first.pc, second.nextPc.trans first.nextPc,
    second.delaySlot.trans first.delaySlot, second.registers.trans first.registers⟩⟩

theorem samePipeline_access {α : Type} (pc address : Word) (kind : AccessType)
    (transaction : EStateM F β α) :
    Leads SamePipeline s (access pc address kind transaction) := by
  unfold Leads
  cases ran : (access pc address kind transaction).run s with
  | ok a t =>
    obtain ⟨devices, -, rfl⟩ := run_zoom_ok.mp ran
    exact ⟨rfl, rfl, rfl, rfl⟩
  | error e t =>
    obtain ⟨_, devices, -, -, rfl⟩ := run_zoom_error ran
    exact ⟨rfl, rfl, rfl, rfl⟩

theorem samePipeline_modifyCpu {f : Cpu → Cpu} (pc : (f s.cpu).pc = s.cpu.pc)
    (nextPc : (f s.cpu).nextPc = s.cpu.nextPc) (delaySlot : (f s.cpu).delaySlot = s.cpu.delaySlot)
    (registers : (f s.cpu).registers = s.cpu.registers) :
    Leads SamePipeline s (modifyCpu f : Exec F β Unit) :=
  ⟨pc, nextPc, delaySlot, registers⟩

/-- What executing an instruction may do. -/
abbrev Executes (s : CpuBus β) (m : Exec F β Execution) : Prop :=
  Yields SamePipeline Execution.Branches s m

variable {execution : Execution}

theorem executes_pure (branches : execution.Branches) :
    Executes s (pure execution : Exec F β Execution) :=
  yields_pure branches

theorem executes_modifyCpu_pure {f : Cpu → Cpu} (pc : (f s.cpu).pc = s.cpu.pc)
    (nextPc : (f s.cpu).nextPc = s.cpu.nextPc) (delaySlot : (f s.cpu).delaySlot = s.cpu.delaySlot)
    (registers : (f s.cpu).registers = s.cpu.registers) (branches : execution.Branches) :
    Executes s (do modifyCpu f; return execution : Exec F β Execution) :=
  (samePipeline_modifyCpu pc nextPc delaySlot registers).yields fun _ _ _ => yields_pure branches

theorem executes_access {α : Type} {pc address : Word} {kind : AccessType}
    {transaction : EStateM F β α} {result : α → Execution} (branches : ∀ a, (result a).Branches) :
    Executes s (do return result (← access pc address kind transaction) : Exec F β Execution) :=
  (samePipeline_access pc address kind transaction).yields fun a _ _ => yields_pure (branches a)

theorem executes_store {pc address : Word} {kind : AccessType} {transaction : EStateM F β Unit}
    {result : Execution} (branches : result.Branches) :
    Executes s (do access pc address kind transaction; return result : Exec F β Execution) :=
  (samePipeline_access pc address kind transaction).yields fun _ _ _ => yields_pure branches

theorem executes_special (pc instruction left right : Word) (rd : Fin 32) :
    Executes s (executeSpecial pc instruction left right rd : Exec F β Execution) := by
  unfold executeSpecial
  simp only
  split
  case h_7 | h_8 => exact executes_pure nofun
  case h_12 | h_14 | h_15 | h_16 | h_17 =>
    exact executes_modifyCpu_pure rfl rfl rfl rfl fun _ => rfl
  case h_18 =>
    by_cases zero : right = 0
    · simp only [zero, if_true]
      exact executes_modifyCpu_pure rfl rfl rfl rfl fun _ => rfl
    · simp only [zero, if_false]
      exact executes_modifyCpu_pure rfl rfl rfl rfl fun _ => rfl
  case h_19 | h_21 =>
    exact .either (executes_pure fun _ => rfl) (executes_pure fun _ => rfl)
  case h_11 | h_13 => exact leads_get.yields fun _ _ _ => yields_pure fun _ => rfl
  all_goals exact executes_pure fun _ => rfl

theorem branches_executeBranchSign (pc left : Word) (rt : Fin 32) (immediate : BitVec 16) :
    (executeBranchSign pc left rt immediate).Branches := by
  unfold executeBranchSign
  simp only
  split
  case h_5 => exact fun _ => rfl
  all_goals exact nofun

theorem executes_cop0 (rs rt rd : Fin 32) (function : Word) :
    Executes s (executeCop0 rs rt rd function : Exec F β Execution) := by
  unfold executeCop0
  apply leads_get.yields
  intro _ t _
  dsimp only
  split
  · split <;> exact executes_pure fun _ => rfl
  · split
    · exact executes_modifyCpu_pure rfl rfl rfl rfl fun _ => rfl
    · exact executes_pure fun _ => rfl
  · exact .either (executes_modifyCpu_pure rfl rfl rfl rfl fun _ => rfl)
      (executes_pure fun _ => rfl)
  · exact executes_pure fun _ => rfl

theorem executes_cop2 (rs rt rd : Fin 32) :
    Executes s (executeCop2 rs rt rd : Exec F β Execution) := by
  unfold executeCop2
  apply leads_get.yields
  intro _ t _
  apply Yields.ite
  · exact fun _ => executes_pure fun _ => rfl
  · intro _
    apply Yields.ite
    · exact fun _ => executes_pure fun _ => rfl
    · intro _
      apply Yields.ite
      · exact fun _ => executes_modifyCpu_pure rfl rfl rfl rfl fun _ => rfl
      · intro _
        apply Yields.ite
        · exact fun _ => executes_modifyCpu_pure rfl rfl rfl rfl fun _ => rfl
        · exact fun _ => .either (executes_pure fun _ => rfl)
            (executes_pure fun _ => rfl)

theorem executes_memory (opcode : ℕ) (pc address right : Word) (rt : Fin 32) :
    Executes s (executeMemory bus opcode pc address right rt) := by
  unfold executeMemory
  apply leads_get.yields
  intro _ t _
  dsimp only
  split
  case h_1 | h_3 | h_5 | h_7 => exact executes_access fun _ _ => rfl
  case h_2 | h_4 | h_6 =>
    exact .either (executes_pure fun _ => rfl)
      (executes_access fun _ _ => rfl)
  case h_8 => exact executes_store fun _ => rfl
  case h_9 | h_11 =>
    exact .either (executes_pure fun _ => rfl) (executes_store fun _ => rfl)
  case h_10 | h_12 =>
    exact (samePipeline_access _ _ _ _).yields fun _ _ _ => executes_store fun _ => rfl
  case h_13 =>
    apply Yields.ite
    · exact fun _ => executes_pure fun _ => rfl
    · intro _
      apply Yields.ite
      · exact fun _ => executes_pure fun _ => rfl
      · intro _
        apply (samePipeline_access _ _ _ _).yields
        exact fun _ _ _ => executes_modifyCpu_pure rfl rfl rfl rfl fun _ => rfl
  case h_14 =>
    apply Yields.ite
    · exact fun _ => executes_pure fun _ => rfl
    · exact fun _ => .either (executes_pure fun _ => rfl)
        (executes_store fun _ => rfl)
  all_goals exact executes_pure fun _ => rfl

theorem executes (pc instruction : Word) : Executes s (execute bus pc instruction) := by
  unfold execute
  apply leads_get.yields
  intro _ t _
  dsimp only
  split
  case h_1 => exact executes_special _ _ _ _ _
  case h_2 => exact executes_pure (branches_executeBranchSign _ _ _ _)
  case h_3 | h_4 | h_5 | h_6 | h_7 | h_8 => exact executes_pure nofun
  case h_9 =>
    exact .either (executes_pure fun _ => rfl) (executes_pure fun _ => rfl)
  case h_17 => exact executes_cop0 _ _ _ _
  case h_18 =>
    exact .either (executes_cop2 _ _ _) (executes_pure fun _ => rfl)
  case h_21 => exact executes_memory _ _ _ _ _
  all_goals exact executes_pure fun _ => rfl

/-! ### One instruction -/

theorem SamePipeline.inSequence {t : CpuBus β} (h : SamePipeline s t) (before : s.cpu.InSequence) :
    t.cpu.InSequence := by
  refine ⟨?_, ?_⟩
  · rw [h.registers]
    exact before.zero
  · rw [h.delaySlot, h.nextPc, h.pc]
    exact before.follows

theorem inSequence_raise (exception : Exception) (pc : Word)
    (delayBranchPc badVaddr instruction : Option Word) (cycles : ℕ)
    (zero : getElem s.cpu.registers 0 register_zero_lt = 0) :
    Leads (Ends fun t => t.cpu.InSequence) s (raise exception pc delayBranchPc badVaddr instruction
      cycles : Exec F β StepOutcome) :=
  ⟨Cpu.zero_commitOldLoad zero, fun _ => rfl⟩

theorem getD_of_not_taken {isBranch suppressed : Bool} {target : Option Word} {currentPc next : Word}
    (branches : isBranch = false → target = none)
    (notTaken : (if isBranch && !suppressed then
      some (⟨currentPc, (if suppressed then none else target).isSome⟩ : DelaySlotState) else none).any
        (·.branchTaken) = false) :
    (if suppressed then none else target).getD next = next := by
  cases suppressed with
  | true => rfl
  | false =>
    cases isBranch with
    | false =>
      rw [branches rfl]
      rfl
    | true =>
      cases target with
      | none => rfl
      | some target => cases notTaken

theorem inSequence_retire {cpu : Cpu} (branches : execution.Branches)
    (delaySlot : Option DelaySlotState) (currentPc : Word) :
    (cpu.retire execution delaySlot currentPc).InSequence :=
  ⟨Vector.getElem_set_self (by decide), fun notTaken => getD_of_not_taken branches notTaken⟩

theorem inSequence_stepSampled (sampleExternalInterrupt : Bool) (before : s.cpu.InSequence) :
    Leads (Ends fun t => t.cpu.InSequence) s (stepSampled bus sampleExternalInterrupt) := by
  unfold stepSampled
  apply leads_get_bind
  refine .either (inSequence_raise _ _ _ _ _ _ before.zero) ?_
  refine .either (inSequence_raise _ _ _ _ _ _ before.zero) ?_
  have fetched := samePipeline_access (s := s) s.cpu.pc s.cpu.pc .instruction
    (bus.readU32 s.cpu.pc)
  have fetches : Leads (Ends fun v : CpuBus β => v.cpu.InSequence) s
      (access s.cpu.pc s.cpu.pc .instruction (bus.readU32 s.cpu.pc)) :=
    fetched.inSequence before
  apply fetches.bind
  intro instruction u run
  have executed : Executes u (execute bus s.cpu.pc instruction) := executes s.cpu.pc instruction
  have between : Leads (Ends fun v : CpuBus β => v.cpu.InSequence) u
      (execute bus s.cpu.pc instruction) := executed.1.inSequence (fetches.of_ok run)
  apply between.bind
  intro execution v ran
  split
  · exact inSequence_raise _ _ _ _ _ _ (between.of_ok ran).zero
  · exact inSequence_retire (executed.2 _ _ ran) _ _

theorem inSequence_stepInner (sampleExternalInterrupt : Bool) (before : s.cpu.InSequence) :
    (leaves ((stepInner bus sampleExternalInterrupt).run s)).cpu.InSequence := by
  have same : (sampled bus sampleExternalInterrupt s).cpu.InSequence := by
    cases sampleExternalInterrupt <;> exact ⟨before.zero, before.follows⟩
  rw [run_stepInner]
  exact inSequence_stepSampled sampleExternalInterrupt same

end Pipeline

theorem Cpu.inSequence_setRegister {cpu : Cpu} (h : cpu.InSequence) (index : ℕ) (value : Word) :
    (cpu.setRegister index value).InSequence := by
  unfold setRegister
  split
  · refine ⟨zero_writeRegister h.zero, ?_⟩
    unfold writeRegister
    split <;> exact h.follows
  · exact h

/-- However a processor came to be, its instructions are in sequence. -/
theorem Cpu.Built.inSequence {cpu : Cpu} (built : cpu.Built) : cpu.InSequence := by
  induction built with
  | reset profile loadDelayMode => exact ⟨by simp [withLoadDelayMode], fun _ => rfl⟩
  | modes _ _ _ _ ih => exact ⟨ih.zero, ih.follows⟩
  | setRegister index value _ ih => exact inSequence_setRegister ih index value
  | setPc pc _ ih => exact ⟨ih.zero, fun _ => rfl⟩
  | setHiLo hi lo _ ih => exact ⟨ih.zero, ih.follows⟩
  | cop0 _ _ ih => exact ⟨ih.zero, ih.follows⟩
  | step bus d sample _ ih => exact inSequence_stepInner sample ih

end Upse.R3000
