import Upse.Machine.Idle
import Upse.Machine.Ps2.Calls

/-!
# Audio is independent of how it is pulled

On both machines, from every state a host's calls lead to, advancing and rendering are interchangeable
and renders may be split anywhere; between the calls whole frames are queued and none is owed.
-/

namespace Upse

open ErrorState Pulled

namespace Ps1

variable {C : Components} {initial s : MachineState C}

/-- A machine assembled from some image. -/
def Assembled (initial : MachineState C) : Prop :=
  ∃ pc stack memory cdrom gpu mdec dma bios spu standard traceEvents,
    assemble pc stack memory cdrom gpu mdec dma bios spu standard traceEvents = .ok initial

theorem Assembled.settled (h : Assembled initial) : initial.Settled := by
  obtain ⟨pc, stack, memory, cdrom, gpu, mdec, dma, bios, spu, standard, traceEvents, built⟩ := h
  obtain ⟨hblankClock, -, built⟩ := except_bind_ok.mp built
  obtain ⟨sampleClock, -, built⟩ := except_bind_ok.mp built
  cases built
  exact ⟨⟨0, rfl⟩, rfl⟩

end Ps1

namespace Ps2

variable {C : Components} {initial s : MachineState C}

/-- A machine assembled around some IOP and firmware. -/
def Assembled (initial : MachineState C) : Prop :=
  ∃ iop refresh bios rootId loaderThread stack,
    assemble iop refresh bios rootId loaderThread stack = .ok initial

theorem Assembled.settled (h : Assembled initial) : initial.Settled := by
  obtain ⟨iop, refresh, bios, rootId, loaderThread, stack, built⟩ := h
  obtain ⟨sampleClock, -, built⟩ := except_bind_ok.mp built
  cases built
  exact ⟨⟨0, rfl⟩, rfl⟩

end Ps2

/-- Whatever calls a host has made of either machine, returning or failing, the audio to come does
not depend on how it is pulled. -/
theorem machines_pull_independent :
    (∀ {C : Ps1.Components} {initial s : Ps1.MachineState C} {calls : List Ps1.Call},
      Ps1.Assembled initial → Run (fun s call t => call.Ends initial s t) initial calls s →
      PullIndependent Ps1.stepBatched .clockOverflow .outputSize s) ∧
    (∀ {C : Ps2.Components} {initial s : Ps2.MachineState C} {calls : List Ps2.Call},
      Ps2.Assembled initial → Run (fun s call t => call.Ends initial s t) initial calls s →
      PullIndependent Ps2.stepUnit .clockOverflow .outputSize s) := by
  constructor
  · intro C initial s calls assembled run
    have settled : s.Settled :=
      run.invariant assembled.settled fun _ _ _ before ends => ends.settled assembled.settled before
    exact pullIndependent Ps1.oblivious_stepBatched settled
  · intro C initial s calls assembled run
    have settled : s.Settled :=
      run.invariant assembled.settled fun _ _ _ before ends => ends.settled assembled.settled before
    exact pullIndependent Ps2.oblivious_stepUnit settled

/-- Parts that do nothing and a firmware with one thread: enough for a program that stays on the
CPU. -/
def Ps2.Components.bare : Ps2.Components where
  Fault := Unit
  Sound := Unit
  spu2 := ⟨fun _ sound => (.ok 0, sound), fun _ _ sound => (.ok (), sound)⟩
  soundDma := ⟨fun _ _ sound => (.ok (), sound), fun _ sound => (.ok 0, sound)⟩
  render _ := pure ()
  drainIrq := id
  Refresh := Unit
  advanceRefresh _ := pure []
  Bios := Unit
  Import := Empty
  currentThread _ := some 1
  reschedule := pure (some 1)
  exitCurrent := throw ()
  exitDeleteCurrent := throw ()
  dispatchInterrupt _ _ := none
  dispatchVblank _ _ := none
  enterInterrupt := throw ()
  returnFromException _ := throw ()
  enterCallback _ := throw ()
  returnFromCallback := throw ()
  timerCallback _ bios := (none, bios)
  finishTimerCallback _ bios := bios
  takeTty bios := ([], bios)
  completeStart _ _ := throw ()
  completeModuleStart _ _ _ _ := throw ()
  freeMemory _ bios := bios
  notifyVblank _ := pure ()
  advanceTo _ := pure []
  containing _ _ := none
  resolve _ _ _ _ := .error ()
  dispatch := fun call => call.elim

/-- A branch to itself on either machine: after a step and an advance over a frame, and after a
step. -/
theorem machines_pull_independent_sample :
    (∃ initial s, Ps1.bareMachine [0x1000ffff] = .ok initial ∧
      Run (fun s call t => Ps1.Call.Ends initial s call t) initial [.step, .advance 1] s ∧
      PullIndependent Ps1.stepBatched .clockOverflow .outputSize s) ∧
    ∃ initial : Ps2.MachineState .bare, Ps2.assemble branchingIop () () 1 1 0x1000 = .ok initial ∧
      PullIndependent Ps2.stepUnit .clockOverflow .outputSize (leaves (Ps2.step.run initial)) := by
  constructor
  · obtain ⟨initial, assembled⟩ : ∃ m, Ps1.bareMachine [0x1000ffff] = .ok m := ⟨_, rfl⟩
    have returns : ∀ m, Ps1.bareMachine [0x1000ffff] = .ok m →
        succeeds (Ps1.step.run m) = true ∧
          returned ((Ps1.advance 4 1).run (leaves (Ps1.step.run m))) = some true := by
      intro m h
      cases h
      decide +kernel
    obtain ⟨stepped, advanced⟩ := returns initial assembled
    obtain ⟨outcome, s, ran⟩ := exists_ok_of_succeeds stepped
    rw [ran, leaves_ok] at advanced
    have run : Run (fun s call t => Ps1.Call.Ends initial s call t) initial [.step, .advance 1] _ :=
      (Run.single (Or.inl (.step ran))).snoc (Or.inl (.advance (eq_ok_of_returned advanced)))
    exact ⟨initial, _, assembled, run, machines_pull_independent.1
      ⟨_, _, _, _, _, _, _, _, _, _, _, assembled⟩ run⟩
  · obtain ⟨initial, assembled⟩ : ∃ initial : Ps2.MachineState .bare,
        Ps2.assemble branchingIop () () 1 1 0x1000 = .ok initial := ⟨_, rfl⟩
    exact ⟨initial, assembled, machines_pull_independent.2 ⟨_, _, _, _, _, _, assembled⟩
      (.single .step)⟩

end Upse
