import Upse.Machine.Ps1.Calls
import Upse.Machine.Ps1.Idle
import Upse.Machine.Ps2.Idle

/-!
# The idle-loop fast path

Both machines probe for a loop that does nothing and skip it.  Executing the loop would have changed
nothing either, and where there is none the word the probe has read is as good as a fetch.
-/

namespace Upse

open ErrorState R3000

/-- What the probe of the PS1 machine says holds, however many instructions are executed. -/
theorem ps1_probe_sound {C : Ps1.Components} {core t : Ps1.Core C} {idle : Bool} {word : Option Word}
    (built : core.cpu.Built) (notTaken : core.cpu.delaySlot.any (·.branchTaken) = false)
    (probed : Ps1.probeIdleLoop.run core = .ok (idle, word) t) :
    t = core ∧
      (idle = true → ∀ n, ∃ cpu, core.cpu.StaysInLoop cpu ∧
        (Ps1.executeInstructions n).run core = .ok n { core with cpu := cpu }) ∧
      (Ps1.executeInstruction word).run core = (Ps1.executeInstruction none).run core := by
  refine ⟨(Ps1.run_probeIdleLoop_ok probed).2, ?_, Ps1.run_executeInstruction_probed probed⟩
  rintro rfl n
  exact ⟨_, core.cpu.staysInLoop_idled n, Ps1.run_executeInstructions built notTaken probed n⟩

theorem ps2_probe_sound {E : Type} (spu2 : Iop.Spu2MmioEndpoint E) {machine t : Iop.IopCore E}
    {idle : Bool} {word : Option Word} (built : machine.cpu.Built)
    (notTaken : machine.cpu.delaySlot.any (·.branchTaken) = false)
    (probed : Iop.probeIdleLoop.run machine = .ok (idle, word) t) :
    t = machine ∧
      (idle = true → ∀ n, ∃ cpu, machine.cpu.StaysInLoop cpu ∧
        (Iop.executeInstructions spu2 n).run machine = .ok n { machine with cpu := cpu }) ∧
      (Iop.executeInstruction spu2 word).run machine =
        (Iop.executeInstruction spu2 none).run machine := by
  refine ⟨(Iop.run_probeIdleLoop_ok probed).2, ?_, Iop.run_executeInstruction_probed probed⟩
  rintro rfl n
  exact ⟨_, machine.cpu.staysInLoop_idled n, Iop.run_executeInstructions built notTaken probed n⟩

/-- Both machines may skip what their probe calls an idle loop, and execute what it has read. -/
theorem idle_probe_sound :
    (∀ (C : Ps1.Components) (core t : Ps1.Core C) (idle : Bool) (word : Option Word),
      core.cpu.Built → core.cpu.delaySlot.any (·.branchTaken) = false →
      Ps1.probeIdleLoop.run core = .ok (idle, word) t →
      t = core ∧
        (idle = true → ∀ n, ∃ cpu, core.cpu.StaysInLoop cpu ∧
          (Ps1.executeInstructions n).run core = .ok n { core with cpu := cpu }) ∧
        (Ps1.executeInstruction word).run core = (Ps1.executeInstruction none).run core) ∧
    ∀ (E : Type) (spu2 : Iop.Spu2MmioEndpoint E) (machine t : Iop.IopCore E) (idle : Bool)
      (word : Option Word),
      machine.cpu.Built → machine.cpu.delaySlot.any (·.branchTaken) = false →
      Iop.probeIdleLoop.run machine = .ok (idle, word) t →
      t = machine ∧
        (idle = true → ∀ n, ∃ cpu, machine.cpu.StaysInLoop cpu ∧
          (Iop.executeInstructions spu2 n).run machine = .ok n { machine with cpu := cpu }) ∧
        (Iop.executeInstruction spu2 word).run machine =
          (Iop.executeInstruction spu2 none).run machine :=
  ⟨fun _ _ _ _ _ built notTaken probed => ps1_probe_sound built notTaken probed,
    fun _ spu2 _ _ _ _ built notTaken probed => ps2_probe_sound spu2 built notTaken probed⟩

/-- An IOP about to run a branch to itself. -/
def branchingIop : Iop.IopCore Unit where
  cpu := (Cpu.new ⟨0, 0, 0, 0, 0⟩).setPc 0
  devices :=
    { memory := { Iop.Memory.new .strict with
        ram := fun offset => if offset.val = 0 ∨ offset.val = 1 then 0xff
          else if offset.val = 3 then 0x10 else 0 }
      irq := .new
      timers := .new
      dma := .new
      ssbus := .new
      scheduler := .new
      sound := ()
      hardwareEvents := [] }
  now := 0

/-- The program that branches to itself, on both machines. -/
theorem idle_probe_sound_sample :
    (∃ core : Ps1.Core .bare, core.devices.memory.readU32 core.cpu.pc = .ok 0x1000ffff ∧
      ∀ n, ∃ cpu, core.cpu.StaysInLoop cpu ∧
        (Ps1.executeInstructions n).run core = .ok n { core with cpu := cpu }) ∧
    ∃ (spu2 : Iop.Spu2MmioEndpoint Unit) (machine : Iop.IopCore Unit),
      machine.devices.memory.readU32 machine.cpu.pc = .ok 0x1000ffff ∧
      ∀ n, ∃ cpu, machine.cpu.StaysInLoop cpu ∧
        (Iop.executeInstructions spu2 n).run machine = .ok n { machine with cpu := cpu } := by
  constructor
  · obtain ⟨m, assembled⟩ : ∃ m, Ps1.bareMachine [0x1000ffff] = .ok m := ⟨_, rfl⟩
    have start : m.core.cpu = Ps1.resetCpu 0x80010000 0x801ffff0 ∧
        m.core.devices.memory = .ofWords [0x1000ffff] := by
      cases assembled
      exact ⟨rfl, rfl⟩
    have built : m.core.cpu.Built := by
      rw [start.1]
      exact .setRegister _ _ (.modes _ _ _ (.reset _ _))
    have returns : ∀ m, Ps1.bareMachine [0x1000ffff] = .ok m →
        returned (Ps1.probeIdleLoop.run m.core) = some (true, some 0x1000ffff) := by
      intro m h
      cases h
      decide +kernel
    refine ⟨m.core, ?_, ?_⟩
    · rw [start.1, start.2]
      decide +kernel
    · refine (idle_probe_sound.1 _ _ _ _ _ built ?_ (eq_ok_of_returned (returns m assembled))).2.1 rfl
      rw [start.1]
      rfl
  · have built : branchingIop.cpu.Built := .setPc _ (.reset _ _)
    have probed : returned (Iop.probeIdleLoop.run branchingIop) = some (true, some 0x1000ffff) := by
      decide +kernel
    exact ⟨⟨fun _ => (.ok 0, ·), fun _ _ => (.ok (), ·)⟩, branchingIop, by decide +kernel,
      (idle_probe_sound.2 _ _ _ _ _ _ built rfl (eq_ok_of_returned probed)).2.1 rfl⟩

end Upse
