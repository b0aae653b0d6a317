import Upse.Hw.Shared.Pipeline
import Upse.Machine.Ps2.Bus

/-!
# The idle-loop fast path of the PS2 machine

One instruction on the IOP's devices, and what the probe for idle loops says of those to come.
-/

namespace Upse.Iop

open ErrorState R3000

/-- The processor, the devices on its bus and the time: what an instruction works on. -/
structure IopCore (E : Type) where
  cpu : Cpu
  devices : Devices E
  now : Deadline

variable {E : Type} {spu2 : Spu2MmioEndpoint E} {machine : IopCore E}

/-- Why an instruction or a probe of the program failed. -/
inductive MachineError where
  | memory (source : MemoryError)
  | cpu (source : CpuError BusFault)
  deriving DecidableEq, Repr

/-- Programs of the machine between two advances of its devices. -/
abbrev IopM (E : Type) := EStateM MachineError (IopCore E)

/-- Reads a word of memory. -/
def readMemoryU32 (address : Word) : IopM E Word := do
  ErrorState.ofExcept (((← get).devices.memory.readU32 address).mapError .memory)

/-- Whether the program counter is at a loop that does nothing, and the instruction read there. -/
def probeIdleLoop : IopM E (Bool × Option Word) := do
  let pc := (← get).cpu.pc
  if pc &&& 3 ≠ 0 then return (false, none)
  else
    let instruction ← readMemoryU32 pc
    let branchToSelf := instruction = 0x1000ffff
    let jumpToSelf := (instruction >>> 26).toNat = 2 ∧ jumpTarget pc instruction = pc
    if ¬ branchToSelf ∧ ¬ jumpToSelf then return (false, some instruction)
    else return ((← readMemoryU32 (pc + 4)) = 0, some instruction)

/-- One instruction at the time `now`. -/
def stepCpu (spu2 : Spu2MmioEndpoint E) (now : Deadline) (prefetched : Option Word) :
    IopM E StepOutcome :=
  zoom (fun machine => ⟨machine.cpu, ⟨machine.devices, prefetched.map fun instruction =>
      (machine.cpu.pc, instruction)⟩⟩)
    (fun s machine => { machine with cpu := s.cpu, devices := s.devices.devices }) MachineError.cpu
    (stepWithoutExternalInterrupts (machineBus spu2 now))

/-- One instruction on the devices as they are; whatever it accesses, it takes one cycle. -/
def executeInstruction (spu2 : Spu2MmioEndpoint E) (prefetched : Option Word) :
    IopM E StepOutcome := do
  let outcome ← stepCpu spu2 (← get).now prefetched
  return { outcome with cycles := 1 }

/-- A number of instructions on the devices as they are, and the cycles they take. -/
def executeInstructions (spu2 : Spu2MmioEndpoint E) : ℕ → IopM E ℕ
  | 0 => return 0
  | n + 1 => do
    let cycles ← executeInstructions spu2 n
    let outcome ← executeInstruction spu2 none
    return cycles + outcome.cycles

/-! ### What memory answers -/

variable {address word : Word} {t : IopCore E}

theorem run_readDevicesU32 {devices : Devices E}
    (answers : devices.memory.readU32 address = .ok word) :
    (readDevicesU32 spu2 address).run devices = .ok word devices := by
  obtain ⟨region, classified, backed⟩ := Memory.readU32_ok answers
  have read : (Devices.reading fun devices => (devices.memory.readU32 address).mapError .memory :
      BusM E Word).run devices = .ok word devices := by
    unfold Devices.reading
    simp only [run_bind, run_get, answers]
    rfl
  unfold readDevicesU32 classify
  rw [run_bind]
  simp only [classified, Except.mapError, run_ofExcept_ok]
  cases region with
  | mmio physical => exact absurd rfl (backed physical).1
  | spu2 physical => exact absurd rfl (backed physical).2
  | ram offset => exact read
  | scratchpad offset => exact read
  | hleRom physical => exact read
  | unmapped physical => exact read

theorem fetches_machineBus
    (answers : machine.devices.memory.readU32 address = .ok word) :
    (machineBus spu2 machine.now).Fetches ⟨machine.devices, none⟩ address word := by
  show (readU32 spu2 address).run _ = _
  unfold readU32
  rw [run_bind, run_get]
  exact run_zoom_ok.mpr ⟨machine.devices, run_readDevicesU32 answers, rfl⟩

theorem run_readMemoryU32_ok :
    (readMemoryU32 address).run machine = .ok word t ↔
      machine.devices.memory.readU32 address = .ok word ∧ machine = t := by
  unfold readMemoryU32
  simp only [run_bind_ok, run_get_ok, run_ofExcept_ok_iff]
  constructor
  · rintro ⟨_, _, ⟨rfl, rfl⟩, read, rfl⟩
    cases answer : machine.devices.memory.readU32 address with
    | error e => rw [answer] at read; cases read
    | ok value => rw [answer] at read; cases read; exact ⟨rfl, rfl⟩
  · rintro ⟨answers, rfl⟩
    exact ⟨_, _, ⟨rfl, rfl⟩, by rw [answers]; rfl, rfl⟩

theorem run_probeIdleLoop_ok {result : Bool × Option Word}
    (probed : probeIdleLoop.run machine = .ok result t) :
    probeLoop machine.devices.memory.readU32 machine.cpu.pc = .ok result ∧ t = machine :=
  run_probeLoop_ok run_readMemoryU32_ok probed

/-! ### Executing the loop -/

theorem run_executeInstruction (prefetched : Option Word) :
    (executeInstruction spu2 prefetched).run machine =
      match (stepCpu spu2 machine.now prefetched).run machine with
      | .ok outcome t => .ok { outcome with cycles := 1 } t
      | .error e t => .error e t := by
  unfold executeInstruction
  rw [run_bind, run_get]
  dsimp only
  rw [run_bind]
  cases (stepCpu spu2 machine.now prefetched).run machine <;> rfl

theorem run_executeInstructions {word : Option Word} (built : machine.cpu.Built)
    (notTaken : machine.cpu.delaySlot.any (·.branchTaken) = false)
    (probed : probeIdleLoop.run machine = .ok (true, word) t) (n : ℕ) :
    (executeInstructions spu2 n).run machine =
      .ok n { machine with cpu := machine.cpu.idled n } := by
  obtain ⟨found, -⟩ := run_probeIdleLoop_ok probed
  obtain ⟨aligned, instruction, fetched, branches, empty⟩ := probeLoop_true found
  have sequential := built.inSequence.sequential notTaken
  induction n with
  | zero => rfl
  | succ n ih =>
    obtain ⟨outcome, stepped, -⟩ := run_step_idled sequential aligned
      (show (machineBus spu2 machine.now).Fetches _ _ _ from fetches_machineBus fetched) branches
      (fetches_machineBus empty) n
    have executed : (executeInstruction spu2 none).run { machine with cpu := machine.cpu.idled n } =
        .ok { outcome with cycles := 1 } { machine with cpu := machine.cpu.idled (n + 1) } := by
      have ran : (stepCpu spu2 machine.now none).run { machine with cpu := machine.cpu.idled n } =
          .ok outcome { machine with cpu := machine.cpu.idled (n + 1) } :=
        run_zoom_ok.mpr ⟨_, stepped, rfl⟩
      rw [run_executeInstruction, ran]
    rw [executeInstructions, run_bind, ih]
    dsimp only
    rw [run_bind, executed]
    simp only [run_pure]

theorem run_executeInstruction_probed {idle : Bool} {word : Option Word}
    (probed : probeIdleLoop.run machine = .ok (idle, word) t) :
    (executeInstruction spu2 word).run machine = (executeInstruction spu2 none).run machine := by
  cases word with
  | none => rfl
  | some instruction =>
    obtain ⟨found, -⟩ := run_probeIdleLoop_ok probed
    obtain ⟨aligned, fetched⟩ := probeLoop_some found
    have ahead : ((machineBus spu2 machine.now).readU32 machine.cpu.pc).run
        ⟨machine.devices, some (machine.cpu.pc, instruction)⟩ =
          .ok instruction ⟨machine.devices, none⟩ := by
      show (readU32 spu2 machine.cpu.pc).run _ = _
      unfold readU32
      rw [run_bind, run_get]
      dsimp only
      rw [if_pos rfl]
      rfl
    have same := run_step_fetched aligned ahead (fetches_machineBus fetched)
    have ran : (stepCpu spu2 machine.now (some instruction)).run machine =
        (stepCpu spu2 machine.now none).run machine := run_zoom_congr same
    rw [run_executeInstruction, run_executeInstruction, ran]

end Upse.Iop
