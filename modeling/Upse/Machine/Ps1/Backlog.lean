import Upse.Machine.Ps1.Delivery

/-!
# The backlog of the PS1 machine

Where device time is batched, an instruction acts on devices that stand behind the CPU by the
backlog.  The backlog stays below the length of a batch, and a synchronised step leaves none.
-/

namespace Upse.Ps1

open ErrorState R3000 Upse.Ps1.Core

variable {C : Components}

/-! ### A synchronised boundary -/

/-- A program whose boundaries end the batch. -/
def Synchronizes (core : Core C) (m : CoreM C Boundary) : Prop :=
  ErrorState.Returns (fun boundary _ => boundary.synchronize = true) core m

theorem Synchronizes.after {α : Type} {core : Core C} {m : CoreM C α} {f : α → CoreM C Boundary}
    (h : ∀ a core', Synchronizes core' (f a)) : Synchronizes core (m >>= f) := by
  have anything : ErrorState.Returns (fun _ _ => True) core m := fun _ _ _ => trivial
  exact anything.bind fun a core' _ => h a core'

theorem synchronizes_pure {core : Core C} {boundary : Boundary} (h : boundary.synchronize = true) :
    Synchronizes core (pure boundary) := returns_pure h

theorem Synchronizes.ite {core : Core C} {c : Prop} [Decidable c] {m n : CoreM C Boundary}
    (pos : Synchronizes core m) (neg : Synchronizes core n) :
    Synchronizes core (if c then m else n) :=
  ErrorState.Returns.ite (fun _ => pos) (fun _ => neg)

variable (core : Core C)

theorem synchronizes_returnBoundary : Synchronizes core (returnBoundary true) := by
  unfold returnBoundary
  refine .after fun _ _ => .ite ?_ ?_
  all_goals exact .after fun _ _ => .after fun _ _ => .after fun _ _ => synchronizes_pure rfl

theorem synchronizes_stepBios (vector : BiosVector) : Synchronizes core (stepBios vector) := by
  unfold stepBios
  refine .after fun _ _ => .after fun _ _ => .after fun _ _ => ?_
  exact .after fun _ _ => .after fun _ _ => synchronizes_pure rfl

theorem synchronizes_stepSyscall (cpuCycles : ℕ) : Synchronizes core (stepSyscall cpuCycles) := by
  unfold stepSyscall
  refine .after fun _ _ => .after fun _ _ => .after fun _ _ => ?_
  exact .after fun _ _ => .after fun _ _ => synchronizes_pure rfl

theorem synchronizes_guestBoundary : Synchronizes core (guestBoundary true) := by
  unfold guestBoundary
  refine .after fun _ _ => .ite ?_ ?_
  · exact .after fun _ _ => synchronizes_pure rfl
  · refine .after fun core' _ => ?_
    cases biosVector core'.cpu.pc with
    | some vector => exact synchronizes_stepBios _ vector
    | none => exact .after fun _ _ => .ite (synchronizes_stepSyscall _ _) (synchronizes_pure rfl)

theorem synchronizes_boundary : Synchronizes core (boundary true) := by
  unfold boundary
  refine .after fun _ _ => .ite (synchronizes_pure rfl) ?_
  refine .ite (synchronizes_returnBoundary _) (.after ?_)
  rintro (_ | source) _
  · exact .after fun _ core' => synchronizes_guestBoundary core'
  · exact synchronizes_pure rfl

/-! ### The backlog -/

variable {core}

/-- A step that returns leaves no backlog, or one of its own cycles more and still below a batch. -/
theorem run_stepInner_deferred {s t : MachineState C} {synchronize : Bool} {outcome : MachineStep}
    (run : (stepInner synchronize).run s = .ok outcome t) :
    t.core.deferredDeviceTicks = 0 ∨
      synchronize = false ∧
        t.core.deferredDeviceTicks = s.core.deferredDeviceTicks + outcome.cycles ∧
        t.core.deferredDeviceTicks < deviceSyncCycles := by
  simp only [stepInner, advanceDevices, run_bind_ok, Pulled.onCore, run_zoom_ok, run_pure_ok] at run
  obtain ⟨boundary, _, ⟨core, reached, rfl⟩, _, t', ⟨due, _, ⟨core₁, charged, rfl⟩, rest⟩, rfl, rfl⟩ :=
    run
  have same : SameTime s.core core := (sameTime_boundary s.core _).of_ok reached
  have backlog : core.deferredDeviceTicks = s.core.deferredDeviceTicks :=
    congrArg Clocks.deferred same.clocks
  obtain ⟨time, -, -, kept⟩ := run_chargeCycles_ok charged
  cases due with
  | none =>
    cases rest
    have deferred : core₁.deferredDeviceTicks = core.deferredDeviceTicks + boundary.cycles :=
      congrArg Clocks.deferred time
    obtain ⟨batched, short⟩ := kept rfl
    right
    refine ⟨?_, ?_, ?_⟩
    · cases synchronize with
      | false => rfl
      | true =>
        have synchronized : boundary.synchronize = true := synchronizes_boundary s.core _ _ reached
        rw [batched] at synchronized
        cases synchronized
    · show core₁.deferredDeviceTicks = _
      rw [deferred, backlog]
    · show core₁.deferredDeviceTicks < _
      rw [deferred]
      exact short
  | some ticks =>
    left
    simp only [run_bind_ok, run_zoom_ok] at rest
    obtain ⟨⟨frames, requests⟩, _, ⟨core₂, delivered, rfl⟩, _, u, rendered, _, _,
      ⟨core₃, traced, rfl⟩, core₄, reported, rfl⟩ := rest
    obtain ⟨_, _, _, _, -, -, -, time₂, -⟩ := run_deliverTicks_ok delivered
    have time₃ := (run_renderDueFrames_ok (Nat.le_refl frames) rendered).1
    have time₄ : core₄.clocks = u.core.clocks :=
      ((sameTime_reportRequests core₃ _).of_ok reported).clocks.trans
        ((sameTime_traceFrames u.core _).of_ok traced).clocks
    show core₄.clocks.deferred = 0
    rw [time₄, time₃]
    show core₂.clocks.deferred = 0
    rw [time₂, time]
    rfl

/-- Two steps, and the register the second has loaded. -/
def loadAfterStep (synchronize : Bool) : MachineM C Word := do
  let _ ← stepInner synchronize
  let _ ← stepInner synchronize
  return (← get).core.cpu.registers.get 2

/-- The counter of timer zero, read by the second instruction: where device time is batched, it has
not seen the cycle of the first. -/
theorem batched_load_lags : ∃ initial : MachineState .bare,
    bareMachine [0x3c011f80, 0x8c221100] = .ok initial ∧
      returned ((loadAfterStep false).run initial) = some 0 ∧
      returned ((loadAfterStep true).run initial) = some 1 := by
  obtain ⟨initial, assembled⟩ : ∃ initial, bareMachine [0x3c011f80, 0x8c221100] = .ok initial :=
    ⟨_, rfl⟩
  have reads : ∀ m, bareMachine [0x3c011f80, 0x8c221100] = .ok m →
      returned ((loadAfterStep false).run m) = some 0 ∧
        returned ((loadAfterStep true).run m) = some 1 := by
    intro m h
    cases h
    decide +kernel
  exact ⟨initial, assembled, reads initial assembled⟩

section Runs

variable {pc stack : Word} {memory : Memory} {cdrom : C.Cdrom} {gpu : C.Gpu} {mdec : C.Mdec}
  {dma : C.Dma} {bios : C.Bios} {spu : C.Spu} {standard : VideoStandard} {traceEvents : Bool}
  {initial s : MachineState C} {turns : List Turn}
  (assembled :
    assemble pc stack memory cdrom gpu mdec dma bios spu standard traceEvents = .ok initial)
  (run : Run (Turn.Happens initial) initial turns s)

include assembled run

theorem deferred_run :
    s.core.deferredDeviceTicks < deviceSyncCycles := by
  have empty : initial.core.deferredDeviceTicks < deviceSyncCycles := by
    obtain ⟨hblankClock, -, built⟩ := except_bind_ok.mp assembled
    obtain ⟨sampleClock, -, built⟩ := except_bind_ok.mp built
    cases built
    show 0 < deviceSyncCycles
    decide
  refine run.invariant (I := fun s => s.core.deferredDeviceTicks < deviceSyncCycles) empty ?_
  intro a turn b before happens
  refine happens.keeps (I := fun core => core.deferredDeviceTicks < deviceSyncCycles) ?_
    (fun _ short => short) empty before
  intro a b synchronize outcome stepped _
  rcases run_stepInner_deferred stepped with none | ⟨-, -, short⟩
  · rw [none]
    decide
  · exact short

/-- In every run without errors, batched steps included, the devices stand where the CPU stood before
the backlog, which is shorter than a batch; whatever a boundary accesses, it finds them there; and
afterwards they have caught up, as they have after every synchronised step, or the boundary's cycles
join the backlog. -/
theorem accesses_lag_by_backlog :
    (s.core.devices.timers.now + s.core.deferredDeviceTicks = s.core.now ∧
      s.core.refresh.now + s.core.deferredDeviceTicks = s.core.now ∧
      s.core.deferredDeviceTicks < deviceSyncCycles) ∧
    ∀ synchronize,
      SameTime s.core (leaves ((boundary synchronize).run s.core)) ∧
      ∀ outcome t, (stepInner synchronize).run s = .ok outcome t →
        t.core.deferredDeviceTicks = 0 ∨
          synchronize = false ∧
            t.core.deferredDeviceTicks = s.core.deferredDeviceTicks + outcome.cycles := by
  obtain ⟨ticks, edges, frames, h, timers, -, -⟩ := inTime_run assembled run
  refine ⟨⟨by rw [timers, h.now], by rw [h.refresh, h.now], deferred_run assembled run⟩, ?_⟩
  intro synchronize
  refine ⟨sameTime_boundary s.core synchronize, ?_⟩
  intro outcome t stepped
  rcases run_stepInner_deferred stepped with none | ⟨batched, more, -⟩
  · exact .inl none
  · exact .inr ⟨batched, more⟩

end Runs

/-- The same program, after a step in a batch: the load is about to see the devices a tick behind. -/
theorem accesses_lag_by_backlog_sample : ∃ initial s : MachineState .bare,
    bareMachine [0x3c011f80, 0x8c221100] = .ok initial ∧
      Run (Turn.Happens initial) initial [.batched] s ∧
      s.core.deferredDeviceTicks = 1 ∧ s.core.devices.timers.now + 1 = s.core.now ∧
      SameTime s.core (leaves ((boundary false).run s.core)) := by
  obtain ⟨initial, assembled⟩ : ∃ initial, bareMachine [0x3c011f80, 0x8c221100] = .ok initial :=
    ⟨_, rfl⟩
  have returns : ∀ m, bareMachine [0x3c011f80, 0x8c221100] = .ok m →
      succeeds (stepBatched.run m) = true ∧
        (leaves (stepBatched.run m)).core.deferredDeviceTicks = 1 := by
    intro m h
    cases h
    decide +kernel
  obtain ⟨stepped, behind⟩ := returns initial assembled
  obtain ⟨_, s, ran⟩ := exists_ok_of_succeeds stepped
  rw [ran, leaves_ok] at behind
  have run : Run (Turn.Happens initial) initial [.batched] s := .single (.batched ran)
  obtain ⟨⟨timers, -, -⟩, later⟩ := accesses_lag_by_backlog assembled run
  rw [behind] at timers
  exact ⟨initial, s, assembled, run, behind, timers, (later false).1⟩

end Upse.Ps1
