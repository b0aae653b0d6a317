import Upse.Machine.Audio
import Upse.Machine.Ps2.Step

/-!
# Runs of the PS2 machine

The calls a host makes, and the queued audio between them: as on the other machine, no step looks at
what is queued or still to be discarded.
-/

namespace Upse.Ps2

open ErrorState Pulled

variable {C : Components}

/-- Fills an output of `length` samples with `frames` frames. -/
def render (fuel frames length : ℕ) : MachineM C (Option (List Sample)) :=
  renderOutput stepUnit .clockOverflow .outputSize fuel frames length

/-- Advances over `frames` frames without retaining output. -/
def advance (fuel frames : ℕ) : MachineM C Bool :=
  advanceFrames stepUnit .clockOverflow fuel frames

/-- A call of the host. -/
inductive Call where
  | step
  | render (frames length : ℕ)
  | advance (frames : ℕ)
  | reset
  | takeTty

/-- A call that ends, returning or failing, from one state to another; a reset restores the state
`initial`. -/
inductive Call.Ends (initial s : MachineState C) : Call → MachineState C → Prop
  | step : Ends initial s .step (leaves (Ps2.step.run s))
  | render {fuel frames length : ℕ} :
      (∀ t, (Ps2.render fuel frames length).run s ≠ .ok none t) →
      Ends initial s (.render frames length) (leaves ((Ps2.render fuel frames length).run s))
  | advance {fuel frames : ℕ} : (∀ t, (Ps2.advance fuel frames).run s ≠ .ok false t) →
      Ends initial s (.advance frames) (leaves ((Ps2.advance fuel frames).run s))
  | reset : Ends initial s .reset initial
  | takeTty : Ends initial s .takeTty
      { s with core := { s.core with bios := (C.takeTty s.core.bios).2 } }

/-! ### The queue is not looked at -/

theorem oblivious_renderDueFrames (rounds frames : ℕ) :
    Oblivious (renderDueFrames rounds frames : MachineM C Unit) := by
  induction rounds generalizing frames with
  | zero => exact oblivious_pure ()
  | succ rounds ih =>
    unfold renderDueFrames
    split
    · exact oblivious_pure ()
    · apply (oblivious_onCore _).bind
      intro samples
      apply Oblivious.bind
      · exact oblivious_queue (by rw [Vector.length_toList]; omega) (min_le_left _ _)
      · intro _
        exact ih _

theorem oblivious_afterDeviceAdvance (cycles : ℕ) :
    Oblivious (afterDeviceAdvance cycles : MachineM C Unit) := by
  unfold afterDeviceAdvance
  apply (oblivious_onCore _).bind
  intro dueFrames
  apply (oblivious_renderDueFrames _ _).bind
  intro _
  exact oblivious_onCore _

theorem oblivious_advanceIdle (cycles : ℕ) : Oblivious (advanceIdle cycles : MachineM C Unit) := by
  unfold advanceIdle
  apply (oblivious_onCore _).bind
  intro _
  exact oblivious_afterDeviceAdvance _

theorem oblivious_executeGuest (prefetched : Option Word) :
    Oblivious (executeGuest prefetched : MachineM C MachineStep) := by
  unfold executeGuest
  apply (oblivious_onCore _).bind
  intro before
  apply (oblivious_onCore _).bind
  intro outcome
  apply (oblivious_afterDeviceAdvance _).bind
  intro _
  exact oblivious_onCore _

theorem oblivious_step : Oblivious (step : MachineM C MachineStep) := by
  unfold step
  apply (oblivious_onCore _).bind
  intro head
  cases head with
  | done outcome => exact oblivious_pure _
  | idle =>
    dsimp only
    generalize idleAdvanceCycles = cycles
    apply Oblivious.bind
    · exact oblivious_advanceIdle _
    · intro _
      exact oblivious_pure _
  | execute prefetched => exact oblivious_executeGuest _

theorem oblivious_stepUnit : Oblivious (stepUnit : MachineM C Unit) := oblivious_step.map _

/-- Whole frames are queued and none is owed between calls, also after calls that failed. -/
theorem Call.Ends.settled {initial s t : MachineState C} {call : Call}
    (h : call.Ends initial s t) (start : initial.Settled) (settled : s.Settled) : t.Settled := by
  cases h with
  | step => exact oblivious_step.settled settled
  | render ended => exact settled_renderOutput oblivious_stepUnit settled rfl ended
  | advance ended => exact settled_advanceFrames oblivious_stepUnit settled rfl ended
  | reset => exact start
  | takeTty => exact ⟨settled.whole, settled.nothing_owed⟩

end Upse.Ps2
