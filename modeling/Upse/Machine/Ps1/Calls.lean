import Upse.Machine.Audio
import Upse.Machine.Ps1.Time

/-!
# Runs of the PS1 machine

The calls a host makes, and the queued audio between them: no step looks at what is queued or still
to be discarded.
-/

namespace Upse.Ps1

open ErrorState Pulled

variable {C : Components}

/-- Fills an output of `length` samples with `frames` frames. -/
def render (fuel frames length : ℕ) : MachineM C (Option (List Sample)) :=
  renderOutput stepBatched .clockOverflow .outputSize fuel frames length

/-- Advances over `frames` frames without retaining output. -/
def advance (fuel frames : ℕ) : MachineM C Bool :=
  advanceFrames stepBatched .clockOverflow fuel frames

/-- A call of the host. -/
inductive Call where
  | step
  | render (frames length : ℕ)
  | advance (frames : ℕ)
  | reset
  | takeEventLog

/-- A call that returns, from one state to another; a reset restores the state `initial`. -/
inductive Call.Returns (initial : MachineState C) : MachineState C → Call → MachineState C → Prop
  | step {s t : MachineState C} {outcome : MachineStep} :
      Ps1.step.run s = .ok outcome t → Returns initial s .step t
  | render {s t : MachineState C} {fuel frames length : ℕ} {out : List Sample} :
      (Ps1.render fuel frames length).run s = .ok (some out) t →
      Returns initial s (.render frames length) t
  | advance {s t : MachineState C} {fuel frames : ℕ} :
      (Ps1.advance fuel frames).run s = .ok true t → Returns initial s (.advance frames) t
  | reset {s : MachineState C} : Returns initial s .reset initial
  | takeEventLog {s : MachineState C} :
      Returns initial s .takeEventLog { s with core := { s.core with eventLog := [] } }

/-- A call that fails. -/
inductive Call.Fails : MachineState C → Call → MachineState C → Prop
  | step {s t : MachineState C} {e : MachineError C} :
      Ps1.step.run s = .error e t → Fails s .step t
  | render {s t : MachineState C} {fuel frames length : ℕ} {e : MachineError C} :
      (Ps1.render fuel frames length).run s = .error e t → Fails s (.render frames length) t
  | advance {s t : MachineState C} {fuel frames : ℕ} {e : MachineError C} :
      (Ps1.advance fuel frames).run s = .error e t → Fails s (.advance frames) t

/-- A call that returns or fails. -/
def Call.Ends (initial s : MachineState C) (call : Call) (t : MachineState C) : Prop :=
  call.Returns initial s t ∨ call.Fails s t

/-! ### Turns -/

/-- What a run is made of, seen from inside the calls as well: whole calls, and the batched steps of
a render or an advance with its changes to the queued and owed audio between them. -/
inductive Turn where
  | call (call : Call)
  | batched
  | queue (pending : List Sample) (discard : ℕ)

/-- A turn whose call or step returns. -/
inductive Turn.Happens (initial : MachineState C) : MachineState C → Turn → MachineState C → Prop
  | call {s t : MachineState C} {call : Call} :
      call.Returns initial s t → Happens initial s (.call call) t
  | batched {s t : MachineState C} : stepBatched.run s = .ok () t → Happens initial s .batched t
  | queue {s : MachineState C} {pending : List Sample} {discard : ℕ} :
      Happens initial s (.queue pending discard) { s with pending := pending, discard := discard }

/-- What every step keeps holds in every run. -/
theorem Turn.Happens.keeps {I : Core C → Prop} {initial s t : MachineState C} {turn : Turn}
    (h : turn.Happens initial s t)
    (stepped : ∀ {a b : MachineState C} {synchronize : Bool} {outcome : MachineStep},
      (stepInner synchronize).run a = .ok outcome b → I a.core → I b.core)
    (cleared : ∀ core, I core → I { core with eventLog := [] }) (start : I initial.core)
    (before : I s.core) : I t.core := by
  have batched : ∀ a b : MachineState C, stepBatched.run a = .ok () b → I a.core → I b.core := by
    intro a b run kept
    unfold stepBatched at run
    rw [run_map] at run
    cases ran : (stepInner false).run a with
    | ok outcome c => rw [ran] at run; cases run; exact stepped ran kept
    | error e c => rw [ran] at run; cases run
  cases h with
  | call returns =>
    cases returns with
    | step run => exact stepped run before
    | render run => exact renderOutput_keeps batched run before
    | advance run => exact advanceFrames_keeps batched run before
    | reset => exact start
    | takeEventLog => exact cleared _ before
  | batched run => exact batched s t run before
  | queue => exact before

/-! ### The queue is not looked at -/

theorem oblivious_renderDueFrames (rounds frames : ℕ) :
    Oblivious (renderDueFrames rounds frames : MachineM C Unit) := by
  induction rounds generalizing frames with
  | zero => exact oblivious_pure ()
  | succ rounds ih =>
    unfold renderDueFrames
    split
    · exact oblivious_pure ()
    · apply (oblivious_onCore _).bind
      intro samples
      apply Oblivious.bind
      · exact oblivious_queue (by rw [Vector.length_toList]; omega) (min_le_left _ _)
      · intro _
        exact ih _

theorem oblivious_advanceDevices (cycles : ℕ) (synchronize : Bool) :
    Oblivious (advanceDevices cycles synchronize : MachineM C Unit) := by
  unfold advanceDevices
  apply (oblivious_onCore _).bind
  rintro (_ | ticks)
  · exact oblivious_pure ()
  · apply (oblivious_onCore _).bind
    rintro ⟨dueFrames, requests⟩
    apply (oblivious_renderDueFrames _ _).bind
    intro _
    apply (oblivious_onCore _).bind
    intro _
    exact oblivious_onCore _

theorem oblivious_stepInner (synchronize : Bool) :
    Oblivious (stepInner synchronize : MachineM C MachineStep) := by
  unfold stepInner
  apply (oblivious_onCore _).bind
  intro outcome
  apply (oblivious_advanceDevices _ _).bind
  intro _
  exact oblivious_pure _

theorem oblivious_stepBatched : Oblivious (stepBatched : MachineM C Unit) :=
  (oblivious_stepInner false).map _

/-- Whole frames are queued and none is owed between calls, also after calls that failed. -/
theorem Call.Ends.settled {initial s t : MachineState C} {call : Call}
    (h : call.Ends initial s t) (start : initial.Settled) (settled : s.Settled) : t.Settled := by
  rcases h with (h | h | h | _ | _) | (h | h | h)
  · have kept := (oblivious_stepInner true).settled settled
    rwa [show (stepInner true).run s = _ from h] at kept
  · exact settled_renderOutput oblivious_stepBatched settled h (by simp)
  · exact settled_advanceFrames oblivious_stepBatched settled h (by simp)
  · exact start
  · exact ⟨settled.whole, settled.nothing_owed⟩
  · have kept := (oblivious_stepInner true).settled settled
    rwa [show (stepInner true).run s = _ from h] at kept
  · exact settled_renderOutput oblivious_stepBatched settled h (by simp)
  · exact settled_advanceFrames oblivious_stepBatched settled h (by simp)

/-! ### A bare machine -/

/-- Devices that do nothing, a sound unit that counts its frames and a firmware that never
interrupts: enough for a program that stays on the CPU and the root counters. -/
def Components.bare : Components where
  Fault := Unit
  Cdrom := Unit
  cdromRead _ := pure 0
  cdromWrite _ _ := pure ()
  Gpu := Unit
  gpuRead _ _ := .ok 0
  gpuWrite _ _ := pure ()
  gpuSynchronize gpu := (0, gpu)
  Mdec := Unit
  mdecRead _ _ := .ok 0
  mdecWrite _ _ := pure ()
  Spu := ℕ
  spuRead _ _ := .ok 0
  spuWrite _ _ := pure ()
  spuRenderFrame := do
    modify (· + 1)
    return (0, 0)
  spuDrainIrq spu := (false, spu)
  Dma := Unit
  dmaRead _ _ := .ok 0
  dmaWrite _ _ _ _ := pure ()
  dmaServiceMdecIn _ _ := pure false
  dmaComplete _ _ := pure ()
  Bios := Unit
  Callback := Empty
  interruptsEnabled _ := false
  interruptHook _ := none
  callbackActive _ := false
  libcCallbackActive _ := false
  clearRootCounter _ _ := none
  takeCallback bios := (none, bios)
  signalEvent _ _ := pure 0
  enterCallback := fun callback => callback.elim
  returnFromCallback := throw ()
  dispatchSyscall _ := throw ()
  resumeLibcCallback := throw ()
  prepareInterruptHook := pure false
  dispatch _ := throw ()

/-- Memory that holds the given words from the address 0x80010000 on. -/
def Memory.ofWords (words : List Word) : Memory :=
  { Memory.new .strict with
    ram := fun offset => if 0x10000 ≤ offset then
        ((words.getD ((offset - 0x10000) / 4) 0) >>> (8 * (offset % 4))).setWidth 8
      else 0 }

/-- A bare machine about to run the given words. -/
def bareMachine (words : List Word) : Except ClockError (MachineState .bare) :=
  assemble 0x80010000 0x801ffff0 (.ofWords words) () () () () () (0 : ℕ) .ntsc false

end Upse.Ps1
