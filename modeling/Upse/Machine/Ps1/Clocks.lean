import Upse.Machine.Ps1.Calls

/-!
# The clocks of the PS1 machine

No boundary moves a clock: a guest access, a firmware call or an interrupt entry changes the devices
as they are.  Only the charge of a boundary and the delivery of a batch move time, and every clock
moves by exactly the ticks of the batch.
-/

namespace Upse.Ps1

open ErrorState R3000 Upse.Ps1.Core

variable {C : Components}

/-! ### What the devices are given -/

/-- The counters after `ticks` system ticks and `edges` horizontal blanks, with any accesses to their
registers in between. -/
inductive RootCounters.Fed (timers : RootCounters) : ℕ → ℕ → RootCounters → Prop
  | refl : Fed timers 0 0 timers
  | read {ticks edges : ℕ} {t : RootCounters} (h : Fed timers ticks edges t) (id : TimerId)
      (register : TimerRegister) : Fed timers ticks edges (t.readRegister id register).2
  | write {ticks edges : ℕ} {t : RootCounters} (h : Fed timers ticks edges t) (id : TimerId)
      (register : TimerRegister) (value : BitVec 16) :
      Fed timers ticks edges (t.writeRegister id register value)
  | system {ticks edges n : ℕ} {t u : RootCounters} {S : Type} {request : InterruptSource → S → S}
      {sink sink' : S} (h : Fed timers ticks edges t)
      (run : (RootCounters.advance request .system n).run (t, sink) = .ok () (u, sink')) :
      Fed timers (ticks + n) edges u
  | hBlank {ticks edges n : ℕ} {t u : RootCounters} {S : Type} {request : InterruptSource → S → S}
      {sink sink' : S} (h : Fed timers ticks edges t)
      (run : (RootCounters.advance request .hBlank n).run (t, sink) = .ok () (u, sink')) :
      Fed timers ticks (edges + n) u

theorem RootCounters.Fed.trans {t u v : RootCounters} {ticks edges ticks' edges' : ℕ}
    (h : t.Fed ticks edges u) (h' : u.Fed ticks' edges' v) :
    t.Fed (ticks + ticks') (edges + edges') v := by
  induction h' with
  | refl => exact h
  | read _ id register ih => exact ih.read id register
  | write _ id register value ih => exact ih.write id register value
  | system _ run ih =>
    rw [← Nat.add_assoc]
    exact ih.system run
  | hBlank _ run ih =>
    rw [← Nat.add_assoc]
    exact ih.hBlank run

theorem RootCounters.Fed.now_eq {t u : RootCounters} {ticks edges : ℕ} (h : t.Fed ticks edges u) :
    u.now = t.now + ticks := by
  induction h with
  | refl => rfl
  | read _ id register ih =>
    rw [← ih]
    cases register <;> rfl
  | write _ id register value ih => exact ih
  | system _ run ih => rw [now_advance_system run, ih, Nat.add_assoc]
  | hBlank _ run ih => rw [now_advance_hBlank run, ih]

/-- The sound unit after it has rendered `frames` frames, with any register writes, transfers and
withdrawn requests in between. -/
inductive Played (spu : C.Spu) : ℕ → C.Spu → Prop
  | refl : Played spu 0 spu
  | write {frames : ℕ} {u : C.Spu} (h : Played spu frames u) (address : ℕ) (value : BitVec 16) :
      Played spu frames (leaves ((C.spuWrite address value).run u))
  | transfer {frames : ℕ} {u : C.Spu} {S : Type} (h : Played spu frames u)
      (request : InterruptSource → S → S) (event : DueEvent) (dma : C.Dma) (memory : Memory) (sink : S) :
      Played spu frames (leaves ((C.dmaComplete request event).run (dma, memory, u, sink))).2.2.1
  | drain {frames : ℕ} {u : C.Spu} (h : Played spu frames u) : Played spu frames (C.spuDrainIrq u).2
  | frame {frames : ℕ} {u v : C.Spu} {samples : Sample × Sample} (h : Played spu frames u)
      (run : C.spuRenderFrame.run u = .ok samples v) : Played spu (frames + 1) v

theorem Played.trans {t u v : C.Spu} {frames frames' : ℕ} (h : Played t frames u)
    (h' : Played u frames' v) : Played t (frames + frames') v := by
  induction h' with
  | refl => exact h
  | write _ address value ih => exact ih.write address value
  | transfer _ request event dma memory sink ih => exact ih.transfer request event dma memory sink
  | drain _ ih => exact ih.drain
  | frame _ run ih => exact ih.frame run

namespace Devices

/-- The devices after so many system ticks, horizontal blanks and frames. -/
structure Served (ticks edges frames : ℕ) (d e : Devices C) : Prop where
  timers : d.timers.Fed ticks edges e.timers
  spu : Played d.spu frames e.spu

theorem Served.trans {d e f : Devices C} {ticks edges frames ticks' edges' frames' : ℕ}
    (h : Served ticks edges frames d e) (h' : Served ticks' edges' frames' e f) :
    Served (ticks + ticks') (edges + edges') (frames + frames') d f :=
  ⟨h.timers.trans h'.timers, h.spu.trans h'.spu⟩

/-- The devices have been accessed only. -/
def Accessed (d e : Devices C) : Prop := Served 0 0 0 d e

theorem Accessed.of_eq {d e : Devices C} (timers : e.timers = d.timers) (spu : e.spu = d.spu) :
    Accessed d e :=
  ⟨timers ▸ .refl, spu ▸ .refl⟩

instance : Std.Refl (Accessed (C := C)) := ⟨fun _ => .of_eq rfl rfl⟩

instance : IsTrans (Devices C) Accessed := ⟨fun _ _ _ first second => Served.trans first second⟩

end Devices

open Devices

/-! ### Guest accesses -/

section Accesses

variable (d : Devices C)

theorem accessed_reading {α : Type} (f : Devices C → Except (BusFault C) α) :
    Leads Accessed d (reading f) :=
  leads_get_bind (leads_ofExcept _)

theorem accessed_onMemory (f : Memory → Except MemoryError Memory) :
    Leads Accessed d (onMemory f) :=
  leads_get_bind (leads_ofExcept_bind fun _ _ => leads_set (.of_eq rfl rfl))

theorem accessed_onIrq (f : InterruptController → Except IrqError InterruptController) :
    Leads Accessed d (onIrq f) :=
  leads_get_bind (leads_ofExcept_bind fun _ _ => leads_set (.of_eq rfl rfl))

theorem accessed_readTimers (address : ℕ) :
    Leads Accessed d (onTimers (RootCounters.read address)) := by
  apply leads_zoom
  refine ⟨?_, .refl⟩
  show d.timers.Fed 0 0 (leaves ((RootCounters.read address).run d.timers))
  unfold RootCounters.read
  rw [run_bind]
  cases RootCounters.decodeRegister address with
  | error e => exact .refl
  | ok selected => exact RootCounters.Fed.refl.read selected.1 selected.2

theorem accessed_writeTimers (address : ℕ) (value : Word) :
    Leads Accessed d (onTimers (RootCounters.write address value)) := by
  apply leads_zoom
  refine ⟨?_, .refl⟩
  show d.timers.Fed 0 0 (leaves ((RootCounters.write address value).run d.timers))
  unfold RootCounters.write
  rw [run_bind]
  cases RootCounters.decodeRegister address with
  | error e => exact .refl
  | ok selected => exact RootCounters.Fed.refl.write selected.1 selected.2 _

theorem accessed_onCdrom {α : Type} (m : EStateM C.Fault C.Cdrom α) :
    Leads Accessed d (onCdrom m) := leads_zoom (.of_eq rfl rfl)

theorem accessed_onGpu {α : Type} (m : EStateM C.Fault C.Gpu α) : Leads Accessed d (onGpu m) :=
  leads_zoom (.of_eq rfl rfl)

theorem accessed_onMdec {α : Type} (m : EStateM C.Fault C.Mdec α) : Leads Accessed d (onMdec m) :=
  leads_zoom (.of_eq rfl rfl)

theorem accessed_writeSpu (address : ℕ) (value : BitVec 16) :
    Leads Accessed d (onSpu (C.spuWrite address value)) :=
  leads_zoom ⟨.refl, Played.refl.write address value⟩

theorem accessed_writeDma (now : Deadline) (address : ℕ) (value : Word) :
    Leads Accessed d (writeDma now address value) := by
  unfold writeDma
  apply Leads.bind
  · exact leads_zoom (.of_eq rfl rfl)
  · intro _ e _
    apply leads_get_bind
    exact (leads_zoom (.of_eq rfl rfl)).map _

theorem accessed_readMmioU16 (address : ℕ) : Leads Accessed d (readMmioU16 address) := by
  unfold readMmioU16
  refine .either ((accessed_reading d _).map _) ?_
  refine .either ((accessed_reading d _).map _) ?_
  refine .either ((accessed_readTimers d _).map _) ?_
  refine .either ((accessed_reading d _).map _) ?_
  exact .either (accessed_reading d _) (leads_throw _)

theorem accessed_writeMmioU16 (now : Deadline) (address : ℕ) (value : BitVec 16) :
    Leads Accessed d (writeMmioU16 now address value) := by
  unfold writeMmioU16
  refine .either ((accessed_reading d _).bind fun _ e _ => accessed_onMemory e _) ?_
  refine .either (accessed_onIrq d _) ?_
  refine .either (accessed_writeTimers d _ _) ?_
  refine .either ((accessed_reading d _).bind fun _ e _ => accessed_writeDma e _ _ _) ?_
  exact .either (accessed_writeSpu d _ _) (leads_throw _)

theorem accessed_classify (address : Word) : Leads Accessed d (classify address) := leads_ofExcept _

theorem accessed_readU8 (biosRegion : BitVec 8) (address : Word) :
    Leads Accessed d (readU8 biosRegion address) := by
  apply (accessed_classify d address).bind
  intro region e _
  split
  · refine .either (accessed_onCdrom e _) ?_
    exact (accessed_readMmioU16 e _).map _
  · exact .either (leads_pure _) (accessed_reading e _)
  · exact accessed_reading e _

theorem accessed_readU16 (address : Word) : Leads Accessed d (readU16 address) := by
  apply (accessed_classify d address).bind
  intro region e _
  split
  · exact accessed_readMmioU16 e _
  · exact accessed_reading e _

theorem accessed_readMmioU32 (address : ℕ) : Leads Accessed d (readMmioU32 address) := by
  unfold readMmioU32
  refine .either (accessed_reading d _) ?_
  refine .either (accessed_reading d _) ?_
  refine .either (accessed_readTimers d _) ?_
  refine .either (accessed_reading d _) ?_
  refine .either (accessed_reading d _) ?_
  refine .either (accessed_reading d _) ?_
  apply Leads.either
  · apply (accessed_reading d _).bind
    intro _ e _
    exact (accessed_reading e _).returning
  · exact leads_throw _

theorem accessed_readDevicesU32 (address : Word) : Leads Accessed d (readDevicesU32 address) := by
  apply (accessed_classify d address).bind
  intro region e _
  split
  · exact accessed_readMmioU32 e _
  · refine .either (leads_pure _) ?_
    refine .either (leads_pure _) ?_
    exact .either (leads_pure _) (accessed_reading e _)
  · exact accessed_reading e _

theorem accessed_writeU8 (now : Deadline) (address : Word) (value : BitVec 8) :
    Leads Accessed d (writeU8 now address value) := by
  apply (accessed_classify d address).bind
  intro region e _
  split
  · refine .either (accessed_onCdrom e _) ?_
    exact (accessed_readMmioU16 e _).bind fun _ f _ => accessed_writeMmioU16 f _ _ _
  · exact accessed_onMemory e _

theorem accessed_writeU16 (now : Deadline) (address : Word) (value : BitVec 16) :
    Leads Accessed d (writeU16 now address value) := by
  apply (accessed_classify d address).bind
  intro region e _
  split
  · exact accessed_writeMmioU16 e _ _ _
  · exact accessed_onMemory e _

theorem accessed_writeMmioU32 (now : Deadline) (address : ℕ) (value : Word) :
    Leads Accessed d (writeMmioU32 now address value) := by
  unfold writeMmioU32
  refine .either (accessed_onMemory d _) ?_
  refine .either (accessed_onIrq d _) ?_
  refine .either (accessed_writeTimers d _ _) ?_
  refine .either (accessed_writeDma d _ _ _) ?_
  refine .either (accessed_onGpu d _) ?_
  refine .either (accessed_onMdec d _) ?_
  refine .either ((accessed_writeSpu d _ _).bind fun _ e _ => accessed_writeSpu e _ _) ?_
  exact leads_throw _

theorem accessed_writeU32 (now : Deadline) (address value : Word) :
    Leads Accessed d (writeU32 now address value) := by
  apply (accessed_classify d address).bind
  intro region e _
  split
  · exact accessed_writeMmioU32 e _ _ _
  · exact accessed_onMemory e _

end Accesses

/-- The same of the devices as a step sees them. -/
def BusAccessed (s t : BusState C) : Prop := Accessed s.devices t.devices

instance : Std.Refl (BusAccessed (C := C)) := ⟨fun _ => .of_eq rfl rfl⟩

instance : IsTrans (BusState C) BusAccessed := ⟨fun _ _ _ first second => Served.trans first second⟩

theorem busAccessed_onDevices {α : Type} {m : BusM C α} {s : BusState C}
    (h : Leads Accessed s.devices m) : Leads BusAccessed s (onDevices m) :=
  leads_zoom h

theorem busAccessed_readU32 (address : Word) (s : BusState C) :
    Leads BusAccessed s (readU32 address) := by
  unfold readU32
  apply leads_get_bind
  split
  · refine .either (Std.Refl.refl (r := Accessed) s.devices) ?_
    exact busAccessed_onDevices (accessed_readDevicesU32 _ _)
  · exact busAccessed_onDevices (accessed_readDevicesU32 _ _)

/-- No bus transaction gives the devices time. -/
theorem machineBus_moves (now : Deadline) (biosRegion : BitVec 8) :
    (machineBus C now biosRegion).Moves BusAccessed where
  readU8 _ _ := busAccessed_onDevices (accessed_readU8 _ _ _)
  readU16 _ _ := busAccessed_onDevices (accessed_readU16 _ _)
  readU32 _ _ := busAccessed_readU32 _ _
  writeU8 _ _ _ := busAccessed_onDevices (accessed_writeU8 _ _ _ _)
  writeU16 _ _ _ := busAccessed_onDevices (accessed_writeU16 _ _ _ _)
  writeU32 _ _ _ := busAccessed_onDevices (accessed_writeU32 _ _ _ _)

/-! ### No boundary moves a clock -/

/-- The clocks of a machine: the CPU's with its backlog, and the machine's own for the devices. -/
structure Clocks where
  now : Deadline
  deferred : Ticks
  refresh : VBlankClock
  hblank : RateConverter
  sample : RateConverter

/-- The clocks of the machine. -/
def Core.clocks (core : Core C) : Clocks :=
  ⟨core.now, core.deferredDeviceTicks, core.refresh, core.hblankClock, core.sampleClock⟩

/-- No clock has moved, and the devices have been accessed only. -/
structure SameTime (core core' : Core C) : Prop where
  clocks : core'.clocks = core.clocks
  devices : Accessed core.devices core'.devices

theorem SameTime.of_eq {core core' : Core C} (clocks : core'.clocks = core.clocks)
    (timers : core'.devices.timers = core.devices.timers)
    (spu : core'.devices.spu = core.devices.spu) : SameTime core core' :=
  ⟨clocks, .of_eq timers spu⟩

instance : Std.Refl (SameTime (C := C)) := ⟨fun _ => .of_eq rfl rfl rfl⟩

instance : IsTrans (Core C) SameTime :=
  ⟨fun _ _ _ first second =>
    ⟨second.clocks.trans first.clocks, Served.trans first.devices second.devices⟩⟩

section Boundaries

-- The registers are never looked at here.
attribute [local irreducible] applyContext

variable (core : Core C)

theorem sameTime_callBios {α : Type} (context : CpuContext)
    (fail : C.Fault → CpuContext → MachineError C)
    (m : EStateM C.Fault (C.Bios × Memory × CpuContext) α) :
    Leads SameTime core (callBios context fail m) := by
  show SameTime core (leaves (callBios context fail m core))
  unfold callBios
  cases m.run (core.bios, core.devices.memory, context) <;> exact .of_eq rfl rfl rfl

theorem sameTime_signalEvent (event spec : Word) : Leads SameTime core (signalEvent event spec) :=
  Leads.map (leads_zoom (.of_eq rfl rfl rfl)) _

theorem sameTime_modifyCpu (f : Cpu → Cpu) : Leads SameTime core (modifyCpu f) :=
  leads_modify (.of_eq rfl rfl rfl)

theorem sameTime_readMemoryU32 (address : Word) : Leads SameTime core (readMemoryU32 address) :=
  leads_get_bind (leads_ofExcept _)

theorem sameTime_handleDefaultInterruptLoop (pending : BitVec 16)
    (order : List (InterruptSource × ℕ)) :
    Leads SameTime core (handleDefaultInterruptLoop pending order) := by
  induction order generalizing core with
  | nil => exact leads_pure _
  | cons entry order ih =>
    obtain ⟨source, counter⟩ := entry
    unfold handleDefaultInterruptLoop
    refine .either (ih core) ?_
    apply (sameTime_signalEvent core _ _).bind
    intro _ core' _
    apply leads_get_bind
    refine .either (leads_modify (.of_eq rfl rfl rfl)).returning ?_
    exact ih core'

theorem sameTime_enterInterruptHook : Leads SameTime core enterInterruptHook := by
  unfold enterInterruptHook
  apply leads_get_bind
  apply (sameTime_callBios core _ _ _).bind
  rintro ⟨prepared, context⟩ core' _
  exact .either (leads_modify (.of_eq rfl rfl rfl)) (leads_pure _)

theorem sameTime_deliverInterrupt : Leads SameTime core deliverInterrupt := by
  unfold deliverInterrupt
  apply leads_get_bind
  apply Leads.either
  · apply (sameTime_handleDefaultInterruptLoop core _ _).bind
    intro handled core' _
    split
    · exact leads_pure _
    · apply leads_get_bind
      refine .either (sameTime_enterInterruptHook core').returning ?_
      exact leads_pure _
  · exact leads_pure _

theorem sameTime_enterDeferredCallback : Leads SameTime core enterDeferredCallback := by
  unfold enterDeferredCallback
  apply leads_get_bind
  apply Leads.either
  · simp only
    apply Leads.bind
    · exact leads_set (.of_eq rfl rfl rfl)
    intro _ core' _
    split
    · exact leads_pure _
    · exact (sameTime_callBios core' _ _ _).bind fun _ _ _ => leads_modify (.of_eq rfl rfl rfl)
  · exact leads_pure _

theorem sameTime_returnBoundary (synchronize : Bool) :
    Leads SameTime core (returnBoundary synchronize) := by
  unfold returnBoundary
  apply leads_get_bind
  apply Leads.either
  · apply (sameTime_callBios core _ _ _).bind
    rintro ⟨outcome, context⟩ core' _
    apply leads_okOr_bind
    intro cpu _
    exact (leads_modify (.of_eq rfl rfl rfl)).returning
  · apply ((sameTime_callBios core _ _ _).map _).bind
    intro _ core' _
    apply leads_okOr_bind
    intro cpu _
    exact (leads_modify (.of_eq rfl rfl rfl)).returning

theorem sameTime_restoreExceptionStatus : Leads SameTime core restoreExceptionStatus := by
  unfold restoreExceptionStatus
  apply leads_get_bind
  exact (sameTime_modifyCpu core _).returning

theorem sameTime_applyRootCounterBiosCall (vector : BiosVector) (function : BitVec 8)
    (a0 a1 a2 : Word) (context : CpuContext) :
    Leads SameTime core (applyRootCounterBiosCall vector function a0 a1 a2 context) := by
  unfold applyRootCounterBiosCall
  refine .either (leads_pure _) ?_
  simp only
  split
  · refine (leads_modify ⟨rfl, ?_, .refl⟩).returning
    dsimp only
    exact (RootCounters.Fed.refl.write _ _ _).write _ _ _
  · apply leads_get_bind
    apply Leads.bind
    · exact leads_modify ⟨rfl, RootCounters.Fed.refl.read _ _, .refl⟩
    · exact fun _ _ _ => leads_pure _
  · exact (leads_modify (.of_eq rfl rfl rfl)).returning
  · exact (leads_modify (.of_eq rfl rfl rfl)).returning
  · refine (leads_modify ⟨rfl, ?_, .refl⟩).returning
    dsimp only
    exact RootCounters.Fed.refl.write _ _ _
  · exact leads_pure _

theorem sameTime_dispatchBios (vector : BiosVector) (function : BitVec 8) (context : CpuContext)
    (arguments : ℕ → Word) :
    Leads SameTime core (dispatchBios vector function context arguments) := by
  unfold dispatchBios
  apply Leads.either
  · apply leads_get_bind
    apply (leads_modify (.of_eq rfl rfl rfl)).bind
    intro _ core' _
    apply (leads_zoom (.of_eq rfl rfl rfl)).bind
    exact fun _ _ _ => leads_pure _
  · exact sameTime_callBios core _ _ _

theorem sameTime_finishBios (outcome : HleOutcome) (savedCpu : Cpu) (context : CpuContext) :
    Leads SameTime core (finishBios outcome savedCpu context) := by
  unfold finishBios
  split
  · exact leads_modify (.of_eq rfl rfl rfl)
  · exact leads_modify (.of_eq rfl rfl rfl)
  · apply leads_get_bind
    split
    · exact leads_modify (.of_eq rfl rfl rfl)
    · apply (sameTime_modifyCpu core _).bind
      intro _ core' _
      apply (sameTime_restoreExceptionStatus core').bind
      exact fun _ core'' _ => sameTime_modifyCpu core'' _
  · exact sameTime_modifyCpu core _
  · exact sameTime_modifyCpu core _

theorem sameTime_stepBios (vector : BiosVector) : Leads SameTime core (stepBios vector) := by
  unfold stepBios
  apply leads_get_bind
  apply (sameTime_dispatchBios core _ _ _ _).bind
  rintro ⟨outcome, context⟩ core' _
  apply (sameTime_applyRootCounterBiosCall core' _ _ _ _ _ _).bind
  intro context' core'' _
  apply leads_get_bind
  exact (sameTime_finishBios core'' _ _ _).returning

theorem sameTime_stepSyscall (cpuCycles : ℕ) : Leads SameTime core (stepSyscall cpuCycles) := by
  unfold stepSyscall
  apply leads_get_bind
  apply (sameTime_callBios core _ _ _).bind
  rintro ⟨outcome, context⟩ core' _
  apply (sameTime_modifyCpu core' _).bind
  intro _ core'' _
  apply ((sameTime_restoreExceptionStatus core'').map _).bind
  intro _ _ _
  exact (leads_okOr _ _).returning

theorem sameTime_isNullCall : Leads SameTime core isNullCall := by
  unfold isNullCall
  apply leads_get_bind
  refine .either (leads_pure _) ?_
  apply (sameTime_readMemoryU32 core _).bind
  intro first core' _
  refine .either (leads_pure _) ?_
  exact (sameTime_readMemoryU32 core' _).returning

theorem sameTime_probeIdleLoop : Leads SameTime core probeIdleLoop := by
  unfold probeIdleLoop
  apply leads_get_bind
  refine .either (leads_pure _) ?_
  apply (sameTime_readMemoryU32 core _).bind
  intro instruction core' _
  refine .either (leads_pure _) ?_
  exact (sameTime_readMemoryU32 core' _).returning

theorem sameTime_executeInstruction (prefetched : Option Word) :
    Leads SameTime core (executeInstruction prefetched) := by
  unfold executeInstruction
  apply leads_get_bind
  extract_lets biosRegion
  apply leads_zoom
  have moved := leads_stepInner (machineBus_moves core.now biosRegion) ⟨core.cpu, ⟨core.devices,
    prefetched.map fun instruction => (core.cpu.pc, instruction)⟩⟩ false
  exact ⟨rfl, moved⟩

theorem sameTime_cpuBoundary (synchronize : Bool) (prefetched : Option Word) :
    Leads SameTime core (cpuBoundary synchronize prefetched) := by
  unfold cpuBoundary
  apply (sameTime_executeInstruction core prefetched).bind
  intro outcome core' _
  exact .either (sameTime_stepSyscall core' _) (leads_pure _)

theorem sameTime_guestBoundary (synchronize : Bool) :
    Leads SameTime core (guestBoundary synchronize) := by
  unfold guestBoundary
  apply (sameTime_isNullCall core).bind
  intro null core' _
  refine .either (sameTime_modifyCpu core' _).returning ?_
  apply leads_get_bind
  split
  · exact sameTime_stepBios core' _
  · refine .either (sameTime_cpuBoundary core' _ _) ?_
    apply (sameTime_probeIdleLoop core').bind
    rintro ⟨idle, instruction⟩ core'' _
    exact .either (leads_pure _) (sameTime_cpuBoundary core'' _ _)

/-- Nothing a step does before the devices advance moves a clock. -/
theorem sameTime_boundary (synchronize : Bool) : Leads SameTime core (boundary synchronize) := by
  unfold boundary
  apply leads_get_bind
  refine .either (leads_pure _) ?_
  refine .either (sameTime_returnBoundary core _) ?_
  apply (sameTime_deliverInterrupt core).bind
  intro delivered core' _
  split
  · exact leads_pure _
  · apply (sameTime_enterDeferredCallback core').bind
    intro _ core'' _
    exact sameTime_guestBoundary core'' _

end Boundaries

end Upse.Ps1
