import Upse.Machine.Ps1.Clocks

/-!
# Time of the PS1 machine is neither lost nor counted twice

A charge moves the CPU's clock and its backlog together; a delivery hands the backlog to every clock
of the devices at once.  Each converter keeps its division remainder, so what it has produced depends
only on what has been delivered to it.
-/

namespace Upse.Ps1

open ErrorState R3000 Upse.Ps1.Core Devices

variable {C : Components}

/-! ### A charge -/

variable {core core' : Core C} {requests requests' : List InterruptSource}

theorem run_chargeCycles_ok {cycles : ℕ} {synchronize : Bool}
    {due : Option Ticks} (run : (chargeCycles cycles synchronize).run core = .ok due core') :
    core'.clocks = { core.clocks with
        now := core.now + cycles
        deferred := if due.isSome then 0 else core.deferredDeviceTicks + cycles } ∧
      core'.devices = core.devices ∧
      (∀ ticks ∈ due, ticks = core.deferredDeviceTicks + cycles) ∧
      (due = none → synchronize = false ∧ core.deferredDeviceTicks + cycles < deviceSyncCycles) := by
  simp only [chargeCycles, run_bind_ok, run_get_ok, run_ofExcept_ok_iff, run_modify_ok,
    run_okOr_ok] at run
  obtain ⟨_, _, ⟨rfl, rfl⟩, now, _, ⟨advanced, rfl⟩, _, _, rfl, deferred, _, ⟨added, rfl⟩, _, _, rfl,
    rest⟩ := run
  have moved : now = core.now + cycles := by
    cases checked : core.now.checkedAdvance cycles with
    | error e => rw [checked] at advanced; cases advanced
    | ok result =>
      rw [checked] at advanced
      cases advanced
      exact (Deadline.checkedAdvance_eq_ok.mp checked).2
  obtain ⟨-, rfl⟩ := checkedAdd_eq_some.mp added
  subst moved
  split at rest
  next keep =>
    obtain ⟨rfl, rfl⟩ := run_pure_ok.mp rest
    refine ⟨rfl, rfl, by simp, fun _ => ⟨?_, keep.2.2⟩⟩
    simpa using keep.1
  next =>
    simp only [run_bind_ok, run_modify_ok, run_pure_ok] at rest
    obtain ⟨_, _, rfl, rfl, rfl⟩ := rest
    exact ⟨rfl, rfl, by simp, by simp⟩

/-! ### A delivery -/

theorem run_withSink_ok {τ ε α : Type} {component : Core C → τ} {replace : τ → Core C → Core C}
    {embed : ε → MachineError C}
    {m : EStateM ε (τ × EventSink) α} {a : α}
    (run : (withSink component replace embed requests m).run core = .ok (a, requests') core') :
    ∃ part sink, m.run (component core, ⟨core.devices.irq, core.traceEvents, core.eventLog,
        requests⟩) = .ok a (part, sink) ∧
      core' = { replace part core with
        devices := { (replace part core).devices with irq := sink.irq }, eventLog := sink.events } := by
  rw [EStateM.run, withSink] at run
  dsimp only at run
  cases ran : m.run (component core, ⟨core.devices.irq, core.traceEvents, core.eventLog,
      requests⟩) with
  | ok b s =>
    rw [ran] at run
    cases run
    exact ⟨s.1, s.2, rfl, rfl⟩
  | error e s => rw [ran] at run; cases run

variable {requests : List InterruptSource}

theorem leads_withSink {τ ε α : Type} {R : Core C → Core C → Prop} {core : Core C}
    {component : Core C → τ} {replace : τ → Core C → Core C} {embed : ε → MachineError C}
    {m : EStateM ε (τ × EventSink) α}
    (h : ∀ sink part sink', leaves (m.run (component core, sink)) = (part, sink') →
      R core { replace part core with
        devices := { (replace part core).devices with irq := sink'.irq }, eventLog := sink'.events }) :
    Leads R core (withSink component replace embed requests m) := by
  have left := h ⟨core.devices.irq, core.traceEvents, core.eventLog, requests⟩ _ _ rfl
  unfold Leads withSink
  simp only [EStateM.run] at left ⊢
  cases ran : m (component core, ⟨core.devices.irq, core.traceEvents, core.eventLog, requests⟩) with
  | ok a t =>
    rw [ran] at left
    exact left
  | error e t =>
    rw [ran] at left
    exact left

theorem run_advanceTimers_system {ticks : Ticks}
    (run : (advanceTimers .system ticks requests).run core = .ok ((), requests') core') :
    core'.clocks = core.clocks ∧ Served ticks 0 0 core.devices core'.devices := by
  obtain ⟨timers, sink, advanced, rfl⟩ := run_withSink_ok run
  refine ⟨rfl, ?_, .refl⟩
  have fed := RootCounters.Fed.refl.system advanced
  rwa [Nat.zero_add] at fed

theorem run_advanceTimers_hBlank {edges : ℕ}
    (run : (advanceTimers .hBlank edges requests).run core = .ok ((), requests') core') :
    core'.clocks = core.clocks ∧ Served 0 edges 0 core.devices core'.devices := by
  obtain ⟨timers, sink, advanced, rfl⟩ := run_withSink_ok run
  refine ⟨rfl, ?_, .refl⟩
  have fed := RootCounters.Fed.refl.hBlank advanced
  rwa [Nat.zero_add] at fed

theorem run_advanceRefresh_ok {ticks : Ticks} {events : ℕ}
    (run : (advanceRefresh ticks requests).run core = .ok (events, requests') core') :
    ∃ refresh, refresh.now = core.refresh.now + ticks ∧
      core'.clocks = { core.clocks with refresh := refresh } ∧
      Accessed core.devices core'.devices := by
  obtain ⟨refresh, sink, advanced, rfl⟩ := run_withSink_ok run
  exact ⟨refresh, (VBlankClock.now_advance advanced).1, rfl, .of_eq rfl rfl⟩

theorem run_advanceClocks_ok {ticks : Ticks}
    (run : (advanceClocks ticks).run core = .ok requests core') :
    ∃ refresh hblank edges, refresh.now = core.refresh.now + ticks ∧
      (RateConverter.advance ticks).run core.hblankClock = .ok edges hblank ∧
      core'.clocks = { core.clocks with refresh := refresh, hblank := hblank } ∧
      Served ticks edges 0 core.devices core'.devices := by
  simp only [advanceClocks, run_bind_ok, run_zoom_ok, run_pure_ok] at run
  obtain ⟨⟨_, requests₁⟩, core₁, system, edges, _, ⟨hblank, converted, rfl⟩, ⟨_, requests₂⟩, core₃,
    blanks, ⟨events, requests₃⟩, core₄, refreshed, -, rfl⟩ := run
  obtain ⟨systemTime, systemServed⟩ := run_advanceTimers_system system
  obtain ⟨blankTime, blankServed⟩ := run_advanceTimers_hBlank blanks
  obtain ⟨refresh, moved, refreshTime, accessed⟩ := run_advanceRefresh_ok refreshed
  refine ⟨refresh, hblank, edges, ?_, ?_, ?_, ?_⟩
  · rw [moved]
    exact congrArg (·.now + ticks)
      ((congrArg Clocks.refresh blankTime :).trans (congrArg Clocks.refresh systemTime :))
  · rwa [show core₁.hblankClock = core.hblankClock from congrArg Clocks.hblank systemTime]
      at converted
  · rw [refreshTime, blankTime]
    show ({ core₁.clocks with refresh := refresh, hblank := hblank } : Clocks) = _
    rw [systemTime]
  · have served := (systemServed.trans blankServed).trans accessed
    simpa only [Nat.zero_add, Nat.add_zero] using served

theorem sameTime_completeDma (core : Core C) (event : DueEvent) (requests : List InterruptSource) :
    Leads SameTime core (completeDma event requests) := by
  unfold completeDma
  apply Leads.bind
  · apply leads_modify
    split <;> exact .of_eq rfl rfl rfl
  · intro _ core' _
    apply Leads.bind
    · apply leads_withSink
      rintro sink ⟨dma, memory, spu⟩ sink' left
      rw [leaves_zoom] at left
      have played := Played.transfer (.refl : Played core'.devices.spu 0 _) EventSink.request event
        core'.devices.dma core'.devices.memory sink
      refine ⟨rfl, .refl, ?_⟩
      show Played core'.devices.spu 0 ((dma, memory, spu), sink').1.2.2
      rw [← left]
      exact played
    · rintro ⟨_, requests'⟩ core'' _
      apply leads_get_bind
      refine .either (sameTime_signalEvent core'' _ _).returning ?_
      exact leads_pure _

theorem sameTime_completeDue (core : Core C) (rounds : ℕ) (requests : List InterruptSource) :
    Leads SameTime core (completeDue rounds requests) := by
  induction rounds generalizing core requests with
  | zero => exact leads_pure _
  | succ rounds ih =>
    unfold completeDue
    apply leads_get_bind
    simp only
    apply Leads.bind
    · exact leads_set (.of_eq rfl rfl rfl)
    · intro _ core' _
      split
      · exact leads_pure _
      · exact (sameTime_completeDma core' _ _).bind fun requests' core'' _ => ih core'' requests'

theorem run_deliverTicks_ok {ticks dueFrames : ℕ}
    (run : (deliverTicks ticks).run core = .ok (dueFrames, requests) core') :
    ∃ refresh hblank sample edges, refresh.now = core.refresh.now + ticks ∧
      (RateConverter.advance ticks).run core.hblankClock = .ok edges hblank ∧
      (RateConverter.advance ticks).run core.sampleClock = .ok dueFrames sample ∧
      core'.clocks =
        { core.clocks with refresh := refresh, hblank := hblank, sample := sample } ∧
      Served ticks edges 0 core.devices core'.devices := by
  simp only [deliverTicks, run_bind_ok, run_get_ok, run_zoom_ok, run_pure_ok] at run
  obtain ⟨requests₁, core₁, clocked, _, _, ⟨rfl, rfl⟩, requests₂, core₂, completed, due, _,
    ⟨sample, converted, rfl⟩, ⟨rfl, rfl⟩, rfl⟩ := run
  obtain ⟨refresh, hblank, edges, moved, blanks, time, served⟩ := run_advanceClocks_ok clocked
  have same : SameTime core₁ core₂ := (sameTime_completeDue core₁ _ _).of_ok completed
  refine ⟨refresh, hblank, sample, edges, moved, blanks, ?_, ?_, served.trans same.devices⟩
  · have kept : core₂.sampleClock = core.sampleClock :=
      (congrArg Clocks.sample same.clocks :).trans (congrArg Clocks.sample time :)
    rwa [kept] at converted
  · show ({ core₂.clocks with sample := sample } : Clocks) = _
    rw [same.clocks, time]

/-! ### Audio -/

theorem run_renderFrames_ok {count frame : ℕ}
    (run : (renderFrames count frame).run core = .ok () core') :
    core'.clocks = core.clocks ∧ Served 0 0 count core.devices core'.devices := by
  induction count generalizing core frame with
  | zero =>
    cases run
    exact ⟨rfl, .refl, .refl⟩
  | succ count ih =>
    simp only [renderFrames, run_bind_ok, run_zoom_ok, run_modify_ok] at run
    obtain ⟨samples, _, ⟨spu, rendered, rfl⟩, _, _, rfl, rest⟩ := run
    obtain ⟨clocks, served⟩ := ih rest
    refine ⟨clocks, served.timers, ?_⟩
    rw [Nat.add_comm count]
    exact (Played.refl.frame rendered).trans served.spu

theorem run_renderDueFrames_ok {s t : MachineState C} {rounds frames : ℕ} (enough : frames ≤ rounds)
    (run : (renderDueFrames rounds frames).run s = .ok () t) :
    t.core.clocks = s.core.clocks ∧ Served 0 0 frames s.core.devices t.core.devices := by
  induction rounds generalizing s frames with
  | zero =>
    obtain rfl : frames = 0 := by omega
    cases run
    exact ⟨rfl, .refl, .refl⟩
  | succ rounds ih =>
    unfold renderDueFrames at run
    split at run
    next none =>
      subst none
      cases run
      exact ⟨rfl, .refl, .refl⟩
    next some =>
      simp only [run_bind_ok, Pulled.onCore, run_zoom_ok, queueChunk, renderChunk, run_modify_ok,
        run_get_ok, run_pure_ok] at run
      obtain ⟨samples, _, ⟨core, ⟨_, _, chunk, _, _, ⟨rfl, rfl⟩, -, rfl⟩, rfl⟩, _, _, rfl, rest⟩ := run
      have size : 0 < audioChunkFrames := by decide
      obtain ⟨clocks, served⟩ := run_renderFrames_ok chunk
      obtain ⟨clocks', served'⟩ := ih (by omega) rest
      refine ⟨clocks'.trans clocks, ?_⟩
      have both := served.trans served'
      rwa [show min frames audioChunkFrames + (frames - min frames audioChunkFrames) = frames by
        omega] at both

theorem sameTime_signalEvents (core : Core C) (events : List (Word × Word)) :
    Leads SameTime core (signalEvents events) := by
  induction events generalizing core with
  | nil => exact leads_pure _
  | cons entry events ih =>
    obtain ⟨event, spec⟩ := entry
    exact (sameTime_signalEvent core event spec).bind fun _ core' _ => ih core'

theorem sameTime_reportRequests (core : Core C) (requests : List InterruptSource) :
    Leads SameTime core (reportRequests requests) := by
  unfold reportRequests
  apply leads_get_bind
  simp only
  apply Leads.bind
  · exact leads_set ⟨rfl, .refl, Played.refl.drain⟩
  · intro _ core' _
    exact .either (sameTime_signalEvents core' _) (leads_pure _)

theorem sameTime_traceFrames (core : Core C) (frames : ℕ) :
    Leads SameTime core (traceFrames frames) := by
  apply leads_modify
  split <;> exact .of_eq rfl rfl rfl

/-! ### The invariant -/

/-- A converter of CPU ticks to the rate `hz` has produced exactly the floor of what elapsed. -/
structure Exact (c : RateConverter) (hz elapsed produced : ℕ) : Prop where
  sourceHz : c.sourceHz = cpuHz
  targetHz : c.targetHz = hz
  tracks : c.Tracks elapsed produced

theorem Exact.produced_eq {c : RateConverter} {hz elapsed produced : ℕ}
    (h : Exact c hz elapsed produced) : produced = elapsed * hz / cpuHz := by
  rw [← h.sourceHz, ← h.targetHz]
  exact h.tracks.produced_eq

theorem exact_new {hz : ℕ} {c : RateConverter} (h : RateConverter.new cpuHz hz = .ok c) :
    Exact c hz 0 0 := by
  refine ⟨?_, ?_, RateConverter.tracks_new h⟩
  all_goals
    unfold RateConverter.new at h
    split at h <;> cases h
    rfl

theorem Exact.advance {c c' : RateConverter} {hz elapsed produced ticks whole : ℕ}
    (h : Exact c hz elapsed produced) (run : (RateConverter.advance ticks).run c = .ok whole c') :
    Exact c' hz (elapsed + ticks) (produced + whole) where
  sourceHz := (RateConverter.advance_rates run).1.trans h.sourceHz
  targetHz := (RateConverter.advance_rates run).2.trans h.targetHz
  tracks := h.tracks.advance run

/-- No tick is lost or counted twice: the CPU is ahead of the devices by the backlog, and from the
devices `initial` the counters and the sound unit have been given what the ticks amount to. -/
structure InTime (hblankHz : ℕ) (initial : Devices C) (core : Core C) (ticks edges frames : ℕ) :
    Prop where
  now : core.now = ticks + core.deferredDeviceTicks
  refresh : core.refresh.now = ticks
  hblank : Exact core.hblankClock hblankHz ticks edges
  sample : Exact core.sampleClock sampleRate ticks frames
  served : Served ticks edges frames initial core.devices

theorem InTime.sameTime {hblankHz ticks edges frames : ℕ} {initial : Devices C}
    (h : InTime hblankHz initial core ticks edges frames) (same : SameTime core core') :
    InTime hblankHz initial core' ticks edges frames := by
  have clocks := same.clocks
  simp only [Core.clocks, Clocks.mk.injEq] at clocks
  obtain ⟨now, deferred, refresh, hblank, sample⟩ := clocks
  constructor
  · rw [now, deferred, h.now]
  · rw [refresh, h.refresh]
  · rw [hblank]
    exact h.hblank
  · rw [sample]
    exact h.sample
  · exact h.served.trans same.devices

theorem inTime_assemble {pc stack : Word} {memory : Memory} {cdrom : C.Cdrom} {gpu : C.Gpu}
    {mdec : C.Mdec} {dma : C.Dma} {bios : C.Bios} {spu : C.Spu} {standard : VideoStandard}
    {traceEvents : Bool} {initial : MachineState C}
    (h : assemble pc stack memory cdrom gpu mdec dma bios spu standard traceEvents = .ok initial) :
    InTime standard.hblankHz initial.core.devices initial.core 0 0 0 := by
  unfold assemble at h
  cases hblank : RateConverter.new cpuHz standard.hblankHz with
  | error e => rw [hblank] at h; cases h
  | ok hblankClock =>
    cases sample : RateConverter.new cpuHz sampleRate with
    | error e => rw [hblank, sample] at h; cases h
    | ok sampleClock =>
      rw [hblank, sample] at h
      cases h
      exact ⟨rfl, rfl, exact_new hblank, exact_new sample, .refl, .refl⟩

/-- A step that returns neither loses a tick nor counts one twice. -/
theorem inTime_stepInner {hblankHz ticks edges frames : ℕ} {initial : Devices C}
    {s t : MachineState C} {synchronize : Bool} {outcome : MachineStep}
    (run : (stepInner synchronize).run s = .ok outcome t)
    (h : InTime hblankHz initial s.core ticks edges frames) :
    ∃ ticks edges frames, InTime hblankHz initial t.core ticks edges frames := by
  simp only [stepInner, advanceDevices, run_bind_ok, Pulled.onCore, run_zoom_ok, run_pure_ok] at run
  obtain ⟨boundary, _, ⟨core, reached, rfl⟩, _, t', ⟨due, _, ⟨core₁, charged, rfl⟩, rest⟩, -, rfl⟩ :=
    run
  have before := h.sameTime ((sameTime_boundary s.core _).of_ok reached)
  obtain ⟨time, devices, dueTicks, -⟩ := run_chargeCycles_ok charged
  simp only [Core.clocks, Clocks.mk.injEq] at time
  obtain ⟨now, deferred, refresh, hblank, sample⟩ := time
  cases due with
  | none =>
    -- The charge is deferred.
    cases rest
    refine ⟨ticks, edges, frames, ?_, ?_, ?_, ?_, ?_⟩
    · show core₁.now = ticks + core₁.deferredDeviceTicks
      rw [now, deferred, before.now]
      exact Nat.add_assoc _ _ _
    · exact (congrArg VBlankClock.now refresh :).trans before.refresh
    · show Exact core₁.hblankClock _ _ _
      rw [hblank]
      exact before.hblank
    · show Exact core₁.sampleClock _ _ _
      rw [sample]
      exact before.sample
    · show Served _ _ _ initial core₁.devices
      rw [devices]
      exact before.served
  | some batch =>
    -- The whole backlog is delivered.
    simp only [run_bind_ok, run_zoom_ok] at rest
    obtain ⟨⟨dueFrames, requests⟩, _, ⟨core₂, delivered, rfl⟩, _, u, rendered, _, _,
      ⟨core₃, traced, rfl⟩, core₄, reported, rfl⟩ := rest
    obtain ⟨refresh₂, hblank₂, sample₂, dueEdges, moved, blanks, converted, time₂, served₂⟩ :=
      run_deliverTicks_ok delivered
    obtain ⟨time₃, served₃⟩ := run_renderDueFrames_ok (Nat.le_refl dueFrames) rendered
    have reached₄ : SameTime u.core core₄ :=
      IsTrans.trans _ _ _ ((sameTime_traceFrames u.core _).of_ok traced)
        ((sameTime_reportRequests core₃ _).of_ok reported)
    refine ⟨ticks + batch, edges + dueEdges, frames + dueFrames, InTime.sameTime ?_ reached₄⟩
    have time := time₃.trans time₂
    simp only [Core.clocks, Clocks.mk.injEq] at time
    obtain ⟨now₃, deferred₃, refresh₃, hblank₃, sample₃⟩ := time
    constructor
    · rw [now₃, deferred₃, now, deferred, before.now, dueTicks batch rfl]
      exact Nat.add_assoc _ _ _
    · rw [refresh₃, moved, refresh, before.refresh]
    · rw [hblank₃]
      exact before.hblank.advance (hblank ▸ blanks)
    · rw [sample₃]
      exact before.sample.advance (sample ▸ converted)
    · have served := (before.served.trans (devices ▸ served₂)).trans served₃
      simpa only [Nat.add_zero] using served

section Runs

variable {pc stack : Word} {memory : Memory} {cdrom : C.Cdrom} {gpu : C.Gpu} {mdec : C.Mdec}
  {dma : C.Dma} {bios : C.Bios} {spu : C.Spu} {standard : VideoStandard} {traceEvents : Bool}
  {initial s : MachineState C} {turns : List Turn}
  (assembled :
    assemble pc stack memory cdrom gpu mdec dma bios spu standard traceEvents = .ok initial)
  (run : Run (Turn.Happens initial) initial turns s)

include assembled run

theorem inTime_run :
    ∃ ticks edges frames,
      InTime standard.hblankHz initial.core.devices s.core ticks edges frames ∧
      s.core.devices.timers.now = ticks ∧ RootCounters.new.Fed ticks edges s.core.devices.timers ∧
      Played spu frames s.core.devices.spu := by
  have start := inTime_assemble assembled
  have kept := run.invariant (I := fun s => ∃ ticks edges frames,
    InTime standard.hblankHz initial.core.devices s.core ticks edges frames) ⟨0, 0, 0, start⟩ ?_
  · obtain ⟨ticks, edges, frames, h⟩ := kept
    obtain ⟨hblankClock, -, built⟩ := except_bind_ok.mp assembled
    obtain ⟨sampleClock, -, built⟩ := except_bind_ok.mp built
    cases built
    exact ⟨ticks, edges, frames, h, h.served.timers.now_eq.trans (Nat.zero_add _), h.served.timers,
      h.served.spu⟩
  intro a turn b before happens
  refine happens.keeps (I := fun core => ∃ ticks edges frames,
    InTime standard.hblankHz initial.core.devices core ticks edges frames) ?_ ?_ ⟨0, 0, 0, start⟩
    before
  · rintro a b synchronize outcome stepped ⟨ticks, edges, frames, h⟩
    exact inTime_stepInner stepped h
  · rintro core ⟨ticks, edges, frames, h⟩
    exact ⟨ticks, edges, frames, h.sameTime (.of_eq rfl rfl rfl)⟩

end Runs

/-- The frames the sound unit of a bare machine has rendered, which is all it holds. -/
def framesRendered (s : MachineState .bare) : ℕ := s.core.devices.spu

theorem played_bare {frames : ℕ} {t u : Components.bare.Spu} (h : Played (C := .bare) t frames u) :
    @Eq ℕ u (Nat.add t frames) := by
  induction h with
  | refl => rfl
  | write _ address value ih => exact ih
  | transfer _ request event dma memory sink ih => exact ih
  | drain _ ih => exact ih
  | frame _ run ih =>
    cases run
    exact congrArg Nat.succ ih

end Upse.Ps1
