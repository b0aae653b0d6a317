import Upse.Hw.Shared.Pipeline
import Upse.Machine.Ps1.Boundary

/-!
# The idle-loop fast path of the PS1 machine

A loop that the probe finds is executed without an effect, for as long as nothing interrupts it; and
the instruction the probe has read executes as the one a fetch would read.
-/

namespace Upse.Ps1

open ErrorState R3000 Upse.Ps1.Core

variable {C : Components} {core : Core C}
variable {address word : Word} {t : Core C}

theorem run_readDevicesU32 {devices : Devices C}
    (answers : devices.memory.readU32 address = .ok word) :
    (readDevicesU32 address : BusM C Word).run devices = .ok word devices := by
  obtain ⟨region, classified, decoded⟩ := except_bind_ok.mp answers
  have backed : ∀ physical, region ≠ .mmio physical ∧ region ≠ .hleRom physical := by
    intro physical
    obtain ⟨_, -, rest⟩ := except_bind_ok.mp decoded
    constructor <;> rintro rfl <;> cases rest
  have read : (Devices.reading fun devices =>
      (devices.memory.readDecodedU32 address region).mapError BusFault.memory : BusM C Word).run
        devices = .ok word devices := by
    unfold Devices.reading
    simp only [run_bind, run_get, decoded]
    rfl
  unfold readDevicesU32 classify
  rw [run_bind]
  simp only [classified, Except.mapError, run_ofExcept_ok]
  cases region with
  | mmio physical => exact absurd rfl (backed physical).1
  | hleRom physical => exact absurd rfl (backed physical).2
  | ram offset => exact read
  | scratchpad offset => exact read
  | unmapped physical => exact read

/-- The bus of the next step. -/
def stepBus (core : Core C) : Bus (BusFault C) (BusState C) :=
  machineBus C core.now (match core.refresh.standard with
    | .pal => 0x45
    | .ntsc => 0x41)

theorem fetches_stepBus
    (answers : core.devices.memory.readU32 address = .ok word) :
    (stepBus core).Fetches ⟨core.devices, none⟩ address word := by
  show (readU32 address).run _ = _
  unfold readU32
  rw [run_bind, run_get]
  exact run_zoom_ok.mpr ⟨core.devices, run_readDevicesU32 answers, rfl⟩

theorem run_executeInstruction (prefetched : Option Word) :
    (executeInstruction prefetched).run core =
      (zoom (fun core => ⟨core.cpu, ⟨core.devices, prefetched.map fun instruction =>
          (core.cpu.pc, instruction)⟩⟩)
        (fun s core => { core with cpu := s.cpu, devices := s.devices.devices }) MachineError.cpu
        (stepWithoutExternalInterrupts (stepBus core)) : CoreM C StepOutcome).run core := by
  unfold executeInstruction stepBus
  exact run_get_bind

theorem run_readMemoryU32_ok :
    (readMemoryU32 address).run core = .ok word t ↔
      core.devices.memory.readU32 address = .ok word ∧ core = t := by
  unfold readMemoryU32
  simp only [run_bind_ok, run_get_ok, run_ofExcept_ok_iff]
  constructor
  · rintro ⟨_, _, ⟨rfl, rfl⟩, read, rfl⟩
    cases answer : core.devices.memory.readU32 address with
    | error e => rw [answer] at read; cases read
    | ok value => rw [answer] at read; cases read; exact ⟨rfl, rfl⟩
  · rintro ⟨answers, rfl⟩
    exact ⟨_, _, ⟨rfl, rfl⟩, by rw [answers]; rfl, rfl⟩

theorem run_probeIdleLoop_ok {result : Bool × Option Word}
    (probed : probeIdleLoop.run core = .ok result t) :
    probeLoop core.devices.memory.readU32 core.cpu.pc = .ok result ∧ t = core :=
  run_probeLoop_ok run_readMemoryU32_ok probed

/-! ### Executing the loop -/

/-- A number of instructions on the devices as they are, and the cycles they take. -/
def executeInstructions : ℕ → CoreM C ℕ
  | 0 => return 0
  | n + 1 => do
    let cycles ← executeInstructions n
    let outcome ← executeInstruction none
    return cycles + outcome.cycles

theorem run_executeInstructions {word : Option Word} (built : core.cpu.Built)
    (notTaken : core.cpu.delaySlot.any (·.branchTaken) = false)
    (probed : probeIdleLoop.run core = .ok (true, word) t) (n : ℕ) :
    (executeInstructions n).run core = .ok n { core with cpu := core.cpu.idled n } := by
  obtain ⟨found, -⟩ := run_probeIdleLoop_ok probed
  obtain ⟨aligned, instruction, fetched, branches, empty⟩ := probeLoop_true found
  have sequential := built.inSequence.sequential notTaken
  induction n with
  | zero => rfl
  | succ n ih =>
    obtain ⟨outcome, stepped, cycles⟩ := run_step_idled sequential aligned
      (fetches_stepBus fetched) branches (fetches_stepBus empty) n
    have executed : (executeInstruction none).run { core with cpu := core.cpu.idled n } =
        .ok outcome { core with cpu := core.cpu.idled (n + 1) } := by
      rw [run_executeInstruction]
      exact run_zoom_ok.mpr ⟨_, stepped, rfl⟩
    rw [executeInstructions, run_bind, ih]
    dsimp only
    rw [run_bind, executed]
    simp only [run_pure, cycles]

theorem run_executeInstruction_probed {idle : Bool} {word : Option Word}
    (probed : probeIdleLoop.run core = .ok (idle, word) t) :
    (executeInstruction word).run core = (executeInstruction none).run core := by
  cases word with
  | none => rfl
  | some instruction =>
    obtain ⟨found, -⟩ := run_probeIdleLoop_ok probed
    obtain ⟨aligned, fetched⟩ := probeLoop_some found
    have ahead : ((stepBus core).readU32 core.cpu.pc).run
        ⟨core.devices, some (core.cpu.pc, instruction)⟩ = .ok instruction ⟨core.devices, none⟩ := by
      show (readU32 core.cpu.pc).run _ = _
      unfold readU32
      rw [run_bind, run_get]
      dsimp only
      rw [if_pos rfl]
      rfl
    have same := run_step_fetched aligned ahead (fetches_stepBus fetched)
    rw [run_executeInstruction, run_executeInstruction]
    exact run_zoom_congr same

end Upse.Ps1
