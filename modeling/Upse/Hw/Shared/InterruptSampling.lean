import Upse.Hw.Shared.R3000

/-!
# Steps that do not sample the external line

With the external line low, a step that samples it and one that does not see the same processor.  They
part where an interrupt is already pending in the cause register: only a sampling step looks there.
-/

namespace Upse.R3000

open ErrorState

variable {F β : Type} {bus : Bus F β} {s : CpuBus β}

/-- Sampling a low line changes nothing where the register has it low already. -/
theorem updateInterruptLine_low {cpu : Cpu} (low : cpu.cop0.cause &&& causeIp2 = 0) :
    cpu.updateInterruptLine false = cpu := by
  have bit (cause : Word) : cause &&& ~~~causeIp2 = cause ^^^ (cause &&& causeIp2) := by
    ext i
    simp only [BitVec.getElem_and, BitVec.getElem_not, BitVec.getElem_xor]
    cases cause[i] <;> cases causeIp2[i] <;> rfl
  have kept : cpu.cop0.cause &&& ~~~causeIp2 = cpu.cop0.cause := by
    rw [bit, low]
    exact BitVec.xor_zero
  show { cpu with cop0 := { cpu.cop0 with cause := cpu.cop0.cause &&& ~~~causeIp2 } } = cpu
  rw [kept]

theorem sampled_low (low : s.cpu.cop0.cause &&& causeIp2 = 0)
    (line : bus.interruptPending s.devices = false) : sampled bus true s = s := by
  show { s with cpu := s.cpu.updateInterruptLine (bus.interruptPending s.devices) } = s
  rw [line, updateInterruptLine_low low]

theorem stepSampled_quiet (quiet : s.cpu.interruptEnabled = false) :
    (stepSampled bus true).run s = (stepSampled bus false).run s := by
  simp only [stepSampled, run_bind, run_get, quiet, Bool.and_false,
    Bool.false_eq_true, if_false]

theorem stepSampled_pending (pending : s.cpu.interruptEnabled = true) :
    returned ((stepSampled bus true).run s) = some ⟨s.cpu.pc, none, 1, .exception .interrupt⟩ := by
  simp only [stepSampled, run_bind, run_get, pending, Bool.and_true, if_true]
  rfl

/-- No step that does not sample takes an interrupt: it has fetched an instruction, or refused a
misaligned address. -/
theorem returns_stepSampled_unsampled :
    Returns (fun outcome _ => outcome.instruction = none → outcome.event = .exception .addressLoad) s
      (stepSampled bus false) := by
  unfold stepSampled
  apply returns_get_bind
  apply Returns.ite
  · intro pending
    cases pending
  · intro _
    apply Returns.ite
    · intro _ outcome t run
      cases run
      exact fun _ => rfl
    · intro _
      have anything (α : Type) (u : CpuBus β) (m : Exec F β α) : Returns (fun _ _ => True) u m :=
        fun _ _ _ => trivial
      refine Returns.bind (anything _ _ _) fun instruction u _ => ?_
      refine Returns.bind (anything _ _ _) fun execution v _ => ?_
      split
      · intro outcome t run
        cases run
        exact fun none => nomatch none
      · intro outcome t run
        cases run
        exact fun none => nomatch none

/-- A memory of no-operations, and an interrupt line that is always low. -/
def quietBus : Bus Unit Unit where
  readU8 _ := throw ()
  readU16 _ := throw ()
  readU32 _ := pure 0
  writeU8 _ _ := throw ()
  writeU16 _ _ := throw ()
  writeU32 _ _ := throw ()
  interruptPending _ := false

/-- A processor with interrupts enabled, and its first software interrupt with them. -/
def softwareCpu (cause : Word) : Cpu :=
  let cpu := Cpu.new ⟨0x1000, 0x80, 0xbfc00180, 0x101, 2⟩
  { cpu with cop0.cause := cause }

/-- A software interrupt is taken by one step and passed over by the other. -/
theorem software_interrupt_missed : (softwareCpu 0x100).cop0.cause &&& causeIp2 = 0 ∧
    quietBus.interruptPending () = false ∧
    (softwareCpu 0x100).cop0.status &&& (softwareCpu 0x100).cop0.cause &&& 0x300 ≠ 0 ∧
    returned ((step quietBus).run ⟨softwareCpu 0x100, ()⟩) =
      some ⟨0x1000, none, 1, .exception .interrupt⟩ ∧
    returned ((stepWithoutExternalInterrupts quietBus).run ⟨softwareCpu 0x100, ()⟩) =
      some ⟨0x1000, some 0, 1, .instruction⟩ := by
  decide +kernel

/-- With the external line low, in the register and on the bus, the two steps return the same and
leave the same processor and devices exactly where no enabled interrupt is pending. -/
theorem steps_agree_iff (bus : Bus F β) (low : s.cpu.cop0.cause &&& causeIp2 = 0)
    (line : bus.interruptPending s.devices = false) :
    (step bus).run s = (stepWithoutExternalInterrupts bus).run s ↔ s.cpu.interruptEnabled = false := by
  have sampling : (step bus).run s = (stepSampled bus true).run s := by
    rw [step, run_stepInner, sampled_low low line]
  have other : (stepWithoutExternalInterrupts bus).run s = (stepSampled bus false).run s :=
    run_stepInner bus false s
  rw [sampling, other]
  constructor
  · intro same
    cases enabled : s.cpu.interruptEnabled with
    | false => rfl
    | true =>
      have taken : returned ((stepSampled bus true).run s) = _ := stepSampled_pending enabled
      rw [same] at taken
      have impossible := returns_stepSampled_unsampled _ _ (eq_ok_of_returned taken) rfl
      cases impossible
  · exact stepSampled_quiet

/-- A processor with nothing pending. -/
theorem steps_agree_iff_sample :
    (step quietBus).run ⟨softwareCpu 0, ()⟩ =
      (stepWithoutExternalInterrupts quietBus).run ⟨softwareCpu 0, ()⟩ :=
  (steps_agree_iff quietBus (by decide +kernel) rfl).mpr (by decide +kernel)

end Upse.R3000
