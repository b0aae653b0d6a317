import Upse.Machine.Ps1.Boundary

/-!
# Device time of the PS1 machine

CPU cycles are charged at once and handed to the devices later, in batches: after a synchronising
boundary, when a scheduled event is due, or when enough have been deferred.  The sound unit's frames
are queued, or discarded while an advance owes some.
-/

namespace Upse.Ps1

open ErrorState R3000 Upse.Ps1.Core

variable {C : Components}

/-- Programs of the machine. -/
abbrev MachineM (C : Components) := EStateM (MachineError C) (MachineState C)

/-! ### Advancing the devices -/

/-- Charges cycles; the ticks to hand to the devices now, if the batch ends here. -/
def chargeCycles (cycles : ℕ) (synchronize : Bool) : CoreM C (Option Ticks) := do
  let core ← get
  let now ← ErrorState.ofExcept ((core.now.checkedAdvance cycles).mapError fun _ => .clockOverflow)
  modify fun core => { core with now := now }
  let deferred ← okOr (checkedAdd 64 core.deferredDeviceTicks cycles) .clockOverflow
  modify fun core => { core with deferredDeviceTicks := deferred }
  let schedulerDue := core.devices.scheduler.nextDeadline.any (· ≤ now)
  if !synchronize ∧ !schedulerDue ∧ deferred < deviceSyncCycles then return none
  else
    modify fun core => { core with deferredDeviceTicks := 0 }
    return some deferred

/-- Runs a device program that requests interrupts, collecting the requests. -/
def withSink {τ ε α : Type} (component : Core C → τ) (replace : τ → Core C → Core C)
    (embed : ε → MachineError C) (requests : List InterruptSource)
    (m : EStateM ε (τ × EventSink) α) : CoreM C (α × List InterruptSource) := fun core =>
  let restore := fun (part : τ) (sink : EventSink) =>
    let core := replace part core
    { core with devices := { core.devices with irq := sink.irq }, eventLog := sink.events }
  match m.run (component core, ⟨core.devices.irq, core.traceEvents, core.eventLog, requests⟩) with
  | .ok a (part, sink) => .ok (a, sink.requests) (restore part sink)
  | .error e (part, sink) => .error (embed e) (restore part sink)

/-- Advances the counters, and collects requests. -/
def advanceTimers (input : ClockInput) (ticks : Ticks) (requests : List InterruptSource) :
    CoreM C (Unit × List InterruptSource) :=
  withSink (fun core => core.devices.timers)
    (fun timers core => { core with devices := { core.devices with timers := timers } })
    .timer requests (RootCounters.advance EventSink.request input ticks)

/-- Advances the refresh clock. -/
def advanceRefresh (ticks : Ticks) (requests : List InterruptSource) :
    CoreM C (ℕ × List InterruptSource) :=
  withSink Core.refresh (fun refresh core => { core with refresh := refresh })
    .timer requests (VBlankClock.advance EventSink.request ticks)

/-- The system clock, the horizontal blanks and the refresh clock, in that order. -/
def advanceClocks (ticks : Ticks) : CoreM C (List InterruptSource) := do
  let (_, requests) ← advanceTimers .system ticks []
  let hblankEdges ← zoom Core.hblankClock (fun clock core => { core with hblankClock := clock })
    (fun _ => MachineError.clockOverflow) (RateConverter.advance ticks)
  let (_, requests) ← advanceTimers .hBlank hblankEdges requests
  let (_, requests) ← advanceRefresh ticks requests
  return requests

/-- Completes one due sound transfer. -/
def completeDma (event : DueEvent) (requests : List InterruptSource) :
    CoreM C (List InterruptSource) := do
  modify fun core =>
    if core.traceEvents then { core with eventLog := core.eventLog ++ [.dmaComplete] } else core
  let (_, requests) ← withSink (ε := C.Fault)
    (fun core => (core.devices.dma, core.devices.memory, core.devices.spu))
    (fun (dma, memory, spu) core =>
      { core with devices := { core.devices with dma := dma, memory := memory, spu := spu } })
    .dma requests
    (zoom (fun ((dma, memory, spu), sink) => (dma, memory, spu, sink))
      (fun (dma, memory, spu, sink) _ => ((dma, memory, spu), sink)) id
      (C.dmaComplete EventSink.request event))
  if (C.interruptHook (← get).bios).isNone then
    signalEvent eventClassSpu eventSpecCommandComplete
    return requests
  else return requests

/-- Completes every due transfer; no more rounds are needed than events are queued. -/
def completeDue : ℕ → List InterruptSource → CoreM C (List InterruptSource)
  | 0, requests => return requests
  | rounds + 1, requests => do
    let core ← get
    let (event, scheduler) := core.devices.scheduler.popDue core.now
    set { core with devices := { core.devices with scheduler := scheduler } }
    match event with
    | none => return requests
    | some event => completeDue rounds (← completeDma event requests)

/-- Renders frames into the front of the audio buffer. -/
def renderFrames : ℕ → ℕ → CoreM C Unit
  | 0, _ => return ()
  | count + 1, frame => do
    let (left, right) ← zoom (fun core => core.devices.spu)
      (fun spu core => { core with devices := { core.devices with spu := spu } })
      MachineError.spu C.spuRenderFrame
    modify fun core =>
      { core with audioBuffer :=
        (core.audioBuffer.setIfInBounds (2 * frame) left).setIfInBounds (2 * frame + 1) right }
    renderFrames count (frame + 1)

/-- One chunk of frames: the samples it leaves at the front of the audio buffer. -/
def renderChunk (chunk : ℕ) :
    CoreM C (Vector Sample (min (chunk * 2) (audioChunkFrames * 2))) := do
  renderFrames chunk 0
  return (← get).audioBuffer.take (chunk * 2)

/-- Queues the samples of a chunk after the frames an advance still owes. -/
def queueChunk (frames chunk : ℕ) (samples : List Sample) : MachineM C Unit :=
  modify fun s =>
    let discarded := min (min frames s.discard) chunk
    { s with
      discard := s.discard - discarded
      pending := s.pending ++ samples.drop (discarded * 2) }

/-- The due frames, chunk by chunk; no more rounds are needed than frames are due. -/
def renderDueFrames : ℕ → ℕ → MachineM C Unit
  | 0, _ => return ()
  | rounds + 1, frames => do
    if frames = 0 then return ()
    else
      let chunk := min frames audioChunkFrames
      let samples ← Pulled.onCore (renderChunk chunk)
      queueChunk frames chunk samples.toList
      renderDueFrames rounds (frames - chunk)

/-- The firmware events a device request stands for. -/
def biosInterruptEvents : InterruptSource → List (Word × Word)
  | .vBlank => [(0xf0000001, eventSpecInterrupt)]
  | .gpu => [(0xf0000002, eventSpecInterrupt)]
  | .cdRom => [(0xf0000003, eventSpecInterrupt)]
  | .dma => [(0xf0000004, eventSpecInterrupt)]
  | .timer0 => [(0xf0000005, eventSpecInterrupt)]
  | .timer1 | .timer2 => [(0xf0000006, eventSpecInterrupt)]
  | .controller => [(0xf0000008, eventSpecInterrupt)]
  | .sio => [(0xf000000b, eventSpecInterrupt)]
  | .spu => [(eventClassSpu, eventSpecInterrupt)]
  | .lightPen => [(0xf000000a, eventSpecInterrupt)]

/-- Delivers events in order. -/
def signalEvents : List (Word × Word) → CoreM C Unit
  | [] => return ()
  | (event, spec) :: rest => do
    signalEvent event spec
    signalEvents rest

/-- Takes the sound unit's request and reports all requests to a firmware without a hook. -/
def reportRequests (requests : List InterruptSource) : CoreM C Unit := do
  let core ← get
  let (raised, spu) := C.spuDrainIrq core.devices.spu
  let sink : EventSink := ⟨core.devices.irq, core.traceEvents, core.eventLog, requests⟩
  let sink := if raised then sink.request .spu else sink
  set { core with
    devices := { core.devices with spu := spu, irq := sink.irq }
    eventLog := sink.events }
  if (C.interruptHook core.bios).isNone then signalEvents (sink.requests.flatMap biosInterruptEvents)
  else return ()

/-- Everything between the end of a batch and its audio: the clocks, the due transfers, and the
frames the batch makes due. -/
def deliverTicks (ticks : Ticks) : CoreM C (ℕ × List InterruptSource) := do
  let requests ← advanceClocks ticks
  let requests ← completeDue (← get).devices.scheduler.queue.toList.length requests
  let dueFrames ← zoom Core.sampleClock (fun clock core => { core with sampleClock := clock })
    (fun _ => MachineError.clockOverflow) (RateConverter.advance ticks)
  return (dueFrames, requests)

/-- Records frames in the trace. -/
def traceFrames (frames : ℕ) : CoreM C Unit :=
  modify fun core =>
    if core.traceEvents ∧ frames ≠ 0 then
      { core with eventLog := core.eventLog ++ [.audioFrames frames] }
    else core

/-- Charges cycles and advances the devices when the batch ends. -/
def advanceDevices (cycles : ℕ) (synchronize : Bool) : MachineM C Unit := do
  match ← Pulled.onCore (chargeCycles cycles synchronize) with
  | none => return ()
  | some ticks =>
    let (dueFrames, requests) ← Pulled.onCore (deliverTicks ticks)
    renderDueFrames dueFrames dueFrames
    Pulled.onCore (traceFrames dueFrames)
    Pulled.onCore (reportRequests requests)

/-! ### Calls -/

/-- Executes one boundary and advances the devices. -/
def stepInner (synchronizeDevices : Bool) : MachineM C MachineStep := do
  let outcome ← Pulled.onCore (boundary synchronizeDevices)
  advanceDevices outcome.cycles outcome.synchronize
  return ⟨outcome.cycles, outcome.kind⟩

/-- A step whose devices are up to date afterwards. -/
def step : MachineM C MachineStep := stepInner true

/-- A step of a running machine, which batches device time. -/
def stepBatched : MachineM C Unit := (fun _ => ()) <$> stepInner false

/-- The reset CPU: interlocked loads, no branch in a taken branch's slot, a stub coprocessor two and
word accesses aligned down. -/
def resetCpu (pc stack : Word) : Cpu :=
  { Cpu.withLoadDelayMode ⟨pc, 0x80000080, 0xbfc00180, 0, 2⟩ .interlocked with
    delaySlotBranchMode := .suppressWhenOuterTaken
    coprocessor2Mode := .stub
    wordAlignmentMode := .alignDown }.setRegister 29 stack

/-- The machine assembled around an image's entry point, its memory, the reset devices and the
booted firmware. -/
def assemble (pc stack : Word) (memory : Memory) (cdrom : C.Cdrom) (gpu : C.Gpu) (mdec : C.Mdec)
    (dma : C.Dma) (bios : C.Bios) (spu : C.Spu) (standard : VideoStandard) (traceEvents : Bool) :
    Except ClockError (MachineState C) := do
  let hblankClock ← RateConverter.new cpuHz standard.hblankHz
  let sampleClock ← RateConverter.new cpuHz sampleRate
  return {
    core :=
      { cpu := resetCpu pc stack
        devices := ⟨memory, cdrom, gpu, mdec, .new, .new, dma, spu, .new⟩
        refresh := .new standard
        hblankClock := hblankClock
        bios := bios
        now := 0
        sampleClock := sampleClock
        deferredDeviceTicks := 0
        audioBuffer := .replicate _ 0
        callbackCpu := none
        libcCpu := none
        interruptCpu := none
        halted := false
        traceEvents := traceEvents
        eventLog := [] }
    pending := []
    discard := 0 }

end Upse.Ps1
