import Upse.Hw.Shared.R3000

/-!
# Steps that fail on the bus

Only a transaction fails, and an instruction changes the processor after its last transaction: what
a failed step leaves is the processor with its interrupt line sampled.
-/

namespace Upse.R3000

open ErrorState

variable {F β : Type} (bus : Bus F β) {s : CpuBus β} {cpu : Cpu}

/-- A transaction leaves the processor alone, whether it succeeds or fails. -/
theorem fails_access {α : Type} (h : s.cpu = cpu) (pc address : Word) (kind : AccessType)
    (transaction : EStateM F β α) :
    Fails (·.cpu = cpu) s (access pc address kind transaction) := by
  apply fails_zoom
  intro e devices _
  exact h

theorem returns_access {α : Type} (h : s.cpu = cpu) (pc address : Word) (kind : AccessType)
    (transaction : EStateM F β α) :
    Returns (fun _ t => t.cpu = cpu) s (access pc address kind transaction) := by
  intro value t run
  obtain ⟨devices, _, rfl⟩ := run_zoom_ok.mp run
  exact h

theorem fails_access_bind {α γ : Type} (h : s.cpu = cpu) {pc address : Word} {kind : AccessType}
    {transaction : EStateM F β α} {next : α → Exec F β γ}
    (rest : ∀ value t, t.cpu = cpu → Fails (·.cpu = cpu) t (next value)) :
    Fails (·.cpu = cpu) s (access pc address kind transaction >>= next) :=
  (fails_access h pc address kind transaction).bind fun value t run =>
    rest value t (returns_access h pc address kind transaction value t run)

theorem Fails.ite {P : CpuBus β → Prop} {α : Type} {c : Prop} [Decidable c] {m n : Exec F β α}
    (hm : c → Fails P s m) (hn : ¬ c → Fails P s n) : Fails P s (if c then m else n) := by
  split
  next h => exact hm h
  next h => exact hn h

/-! ### Instructions without a transaction -/

theorem fails_executeSpecial (P : CpuBus β → Prop) (pc instruction left right : Word) (rd : Fin 32) :
    Fails P s (executeSpecial pc instruction left right rd : Exec F β Execution) := by
  unfold executeSpecial
  simp only
  split
  case h_18 | h_19 | h_21 => split <;> exact fails_of_ok rfl
  all_goals exact fails_of_ok rfl

theorem fails_executeCop0 (P : CpuBus β → Prop) (rs rt rd : Fin 32) (function : Word) :
    Fails P s (executeCop0 rs rt rd function : Exec F β Execution) := by
  unfold executeCop0
  apply fails_get_bind
  dsimp only
  split
  case h_4 => exact fails_pure _
  all_goals split <;> exact fails_of_ok rfl

theorem fails_executeCop2 (P : CpuBus β → Prop) (rs rt rd : Fin 32) :
    Fails P s (executeCop2 rs rt rd : Exec F β Execution) := by
  unfold executeCop2
  apply fails_get_bind
  dsimp only
  split
  · exact fails_pure _
  · split
    · exact fails_pure _
    · split
      · exact fails_of_ok rfl
      · split
        · exact fails_of_ok rfl
        · split <;> exact fails_pure _

/-! ### Instructions with one -/

theorem fails_executeMemory (h : s.cpu = cpu) (opcode : ℕ) (pc address right : Word) (rt : Fin 32) :
    Fails (·.cpu = cpu) s (executeMemory bus opcode pc address right rt) := by
  unfold executeMemory
  apply fails_get_bind
  split
  case h_1 | h_3 | h_5 | h_7 | h_8 =>
    exact fails_access_bind h fun _ _ _ => fails_pure _
  case h_2 | h_4 | h_6 | h_9 | h_11 =>
    apply Fails.ite
    · exact fun _ => fails_pure _
    · exact fun _ => fails_access_bind h fun _ _ _ => fails_pure _
  case h_10 | h_12 =>
    -- The store of an unaligned store fails after its load.
    apply fails_access_bind h
    intro old t kept
    exact fails_access_bind kept fun _ _ _ => fails_pure _
  case h_13 =>
    -- The coprocessor register changes once the word is there.
    apply Fails.ite
    · exact fun _ => fails_pure _
    · intro _
      apply Fails.ite
      · exact fun _ => fails_pure _
      · intro _
        apply fails_access_bind h
        intro value t _
        exact fails_of_ok rfl
  case h_14 =>
    apply Fails.ite
    · exact fun _ => fails_pure _
    · intro _
      apply Fails.ite
      · exact fun _ => fails_pure _
      · exact fun _ => fails_access_bind h fun _ _ _ => fails_pure _
  all_goals exact fails_pure _

theorem fails_execute (h : s.cpu = cpu) (pc instruction : Word) :
    Fails (·.cpu = cpu) s (execute bus pc instruction) := by
  unfold execute
  apply fails_get_bind
  split
  case h_1 => exact fails_executeSpecial _ _ _ _ _ _
  case h_9 =>
    apply Fails.ite
    · exact fun _ => fails_pure _
    · exact fun _ => fails_pure _
  case h_17 => exact fails_executeCop0 _ _ _ _ _
  case h_18 =>
    apply Fails.ite
    · exact fun _ => fails_executeCop2 _ _ _ _
    · exact fun _ => fails_pure _
  case h_21 => exact fails_executeMemory bus h _ _ _ _ _
  all_goals exact fails_pure _

theorem fails_stepSampled (h : s.cpu = cpu) (sampleExternalInterrupt : Bool) :
    Fails (·.cpu = cpu) s (stepSampled bus sampleExternalInterrupt) := by
  unfold stepSampled
  apply fails_get_bind
  apply Fails.ite
  · exact fun _ => fails_of_ok rfl
  · intro _
    apply Fails.ite
    · exact fun _ => fails_of_ok rfl
    · intro _
      apply fails_access_bind h
      intro instruction t kept
      apply (fails_execute bus kept _ _).bind
      intro execution u _
      -- Nothing fails once the instruction is executed.
      cases execution.exception with
      | some exception => exact fails_of_ok rfl
      | none => exact fails_of_ok rfl

/-! ### Failed steps -/

/-- A processor up to the external-interrupt bit of its cause register. -/
def Cpu.withoutExternalInterrupt (cpu : Cpu) : Cpu :=
  { cpu with cop0.cause := cpu.cop0.cause &&& ~~~causeIp2 }

@[simp] theorem withoutExternalInterrupt_update (cpu : Cpu) (pending : Bool) :
    (cpu.updateInterruptLine pending).withoutExternalInterrupt = cpu.withoutExternalInterrupt := by
  have cleared : (cpu.updateInterruptLine pending).cop0.cause &&& ~~~causeIp2 =
      cpu.cop0.cause &&& ~~~causeIp2 := by
    unfold Cpu.updateInterruptLine
    ext i
    cases pending <;>
      simp only [Bool.false_eq_true, if_true, if_false, BitVec.getElem_and, BitVec.getElem_or,
        BitVec.getElem_not] <;>
      cases cpu.cop0.cause[i] <;> cases causeIp2[i] <;> rfl
  show { cpu with cop0 := { cpu.cop0 with cause := _ } } = _
  rw [cleared]
  rfl

/-- A step that the bus fails leaves the processor as it was, but for the external-interrupt bit when
it samples the line. -/
theorem failed_step_keeps_cpu (bus : Bus F β) (sampleExternalInterrupt : Bool) (s t : CpuBus β)
    (error : CpuError F) (failed : (stepInner bus sampleExternalInterrupt).run s = .error error t) :
    t.cpu.withoutExternalInterrupt = s.cpu.withoutExternalInterrupt ∧
      (sampleExternalInterrupt = false → t.cpu = s.cpu) := by
  rw [run_stepInner] at failed
  have kept : t.cpu = (sampled bus sampleExternalInterrupt s).cpu :=
    fails_stepSampled bus rfl sampleExternalInterrupt _ _ failed
  rw [kept]
  cases sampleExternalInterrupt with
  | true => exact ⟨withoutExternalInterrupt_update s.cpu _, nofun⟩
  | false => exact ⟨rfl, fun _ => rfl⟩

/-- A bus that answers every read with `sw $2, 0($1)`, refuses every store and asks for an
interrupt. -/
def refusingStores : Bus Unit Unit where
  readU8 _ := pure 0
  readU16 _ := pure 0
  readU32 _ := pure 0xac220000
  writeU8 _ _ := throw ()
  writeU16 _ _ := throw ()
  writeU32 _ _ := throw ()
  interruptPending _ := true

theorem failed_step_keeps_cpu_store :
    ∃ error t, (stepInner refusingStores true).run ⟨Cpu.new ⟨0, 0, 0, 0, 0⟩, ()⟩ = .error error t ∧
      t.cpu ≠ Cpu.new ⟨0, 0, 0, 0, 0⟩ ∧
      t.cpu.withoutExternalInterrupt = (Cpu.new ⟨0, 0, 0, 0, 0⟩).withoutExternalInterrupt :=
  ⟨⟨0, 0, .store, ()⟩, ⟨(Cpu.new ⟨0, 0, 0, 0, 0⟩).updateInterruptLine true, ()⟩, rfl, by decide,
    (failed_step_keeps_cpu refusingStores true ⟨Cpu.new ⟨0, 0, 0, 0, 0⟩, ()⟩
      ⟨(Cpu.new ⟨0, 0, 0, 0, 0⟩).updateInterruptLine true, ()⟩ ⟨0, 0, .store, ()⟩ rfl).1⟩

end Upse.R3000
