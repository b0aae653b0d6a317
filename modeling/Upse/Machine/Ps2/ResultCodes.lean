import Upse.Bios.Kernel.Refusals
import Upse.Machine.Ps2.KernelServices

/-!
# Errors of the kernel as result codes

A service whose operation blocks nobody answers an error of the kernel with its code, and leaves the
kernel as it was.  A service that may block its caller stops the machine instead, wherever its
operation fails: outside a thread, for an object that is not there, or for arguments the kernel
refuses.
-/

namespace Upse.Iop.Services

open ErrorState

variable {host host' : Host} {service : Service} {op : Op}

/-! ### What is behind a service -/

/-- The operation of the kernel behind a service; for the start of a thread, the first of two. -/
def operation (service : Service) (host : Host) : Option Op :=
  let id := (host.argument 0).toNat
  match service.family, service.ordinal with
  | .thread, 4 =>
    match readThreadSpec (host.argument 0) ((host.context.register gp).getD 0) host.memory with
    | .error _ => none
    | .ok spec =>
      match (SystemMemory.allocate .first spec.stackSize 0).run host.systemMemory with
      | .error _ _ => none
      | .ok allocation _ => some (.createThread { spec with stack := allocation.address } guestRange)
  | .thread, 5 => some (.deleteThread id)
  | .thread, 6 | .thread, 7 => some (.startThread id (host.argument 1))
  | .thread, 8 => some .exitCurrent
  | .thread, 9 => some .exitDeleteCurrent
  | .thread, 14 => some (.changePriority id (host.argument 1).toNat)
  | .thread, 16 => some (.reschedule .yield)
  | .thread, 18 | .thread, 19 => some (.releaseWait id)
  | .thread, 24 => some .sleepCurrent
  | .thread, 25 | .thread, 26 => some (.wakeupThread id)
  | .thread, 33 => some (.delayCurrent (id * 37))
  | .semaphore, 4 => (readSemaphoreSpec (host.argument 0) host.memory).toOption.map .createSemaphore
  | .semaphore, 5 => some (.deleteSemaphore id)
  | .semaphore, 6 | .semaphore, 7 => some (.signalSemaphore id)
  | .semaphore, 8 => some (.waitSemaphore id none)
  | .semaphore, 9 => some (.pollSemaphore id)
  | .eventFlag, 4 => (readEventFlagSpec (host.argument 0) host.memory).toOption.map .createEventFlag
  | .eventFlag, 5 => some (.deleteEventFlag id)
  | .eventFlag, 6 | .eventFlag, 7 => some (.setEventFlag id (host.argument 1))
  | .eventFlag, 8 | .eventFlag, 9 => some (.clearEventFlag id (host.argument 1))
  | .eventFlag, 10 => some (.waitEventFlag id (host.argument 1) (host.argument 2) none)
  | .eventFlag, 11 => some (.pollEventFlag id (host.argument 1) (host.argument 2))
  | .vblank, 4 | .vblank, 6 => some (.waitVblank 0)
  | .vblank, 5 => some (.waitVblank 1)
  | _, _ => none

/-- The error of the kernel that a run ended with. -/
def kernelError {α : Type} : EStateM.Result BiosError Kernel α → Option KernelError
  | .error (.kernel e) _ => some e
  | _ => none

/-- The error of a refused change of the handler tables. -/
def handlerError : Except KernelError VblankHandlers → Option KernelError
  | .ok _ => none
  | .error e => some e

/-- The error that the operation behind a service returns, of the kernel or of its handler tables. -/
def rejection (service : Service) (host : Host) : Option KernelError :=
  match service.family, service.ordinal with
  | .vblank, 8 => handlerError host.registerVblank
  | .vblank, 9 => handlerError host.releaseVblank
  | _, _ => (operation service host).bind fun op =>
      kernelError ((step op host.context).run host.kernel)

/-- A call does not stop the machine for an error of the kernel, and an error of the operation behind
the service comes back as its code in `v0`, with the kernel and the other registers as they were. -/
structure Reports (service : Service) (host : Host) : Prop where
  runs : ∀ e host', (call service).run host ≠ .error (.bios (.kernel e)) host'
  code : ∀ e, rejection service host = some e → ∃ host',
    (call service).run host = .ok .returnToCaller host' ∧ host'.kernel = host.kernel ∧
      host'.context = host.context.setRegister v0 (BitVec.ofInt 32 e.code)

/-- The service blocks nobody, or its caller may wait so. -/
def Service.Admitted (service : Service) (host : Host) : Prop :=
  ∀ op, operation service host = some op → op.blocking = true → host.kernel.Admits op

/-! ### Services one by one -/

/-- A program does not stop the machine for an error of the kernel. -/
def Quiet {α : Type} (m : ServiceM α) (host : Host) : Prop :=
  ∀ e host', m.run host ≠ .error (.bios (.kernel e)) host'

variable {α : Type}

theorem quiet_of_ok {m : ServiceM α} {a : α} (ran : m.run host = .ok a host') :
    Quiet m host := by
  intro e host'' failed
  rw [ran] at failed
  cases failed

theorem quiet_of_fault {m : ServiceM α} {fault : Fault}
    (ran : m.run host = .error fault host')
    (other : ∀ e, fault ≠ .bios (.kernel e)) : Quiet m host := by
  intro e host'' failed
  rw [ran] at failed
  cases failed
  exact other e rfl

theorem Quiet.bind {α β : Type} {m : ServiceM α} {f : α → ServiceM β} (quiet : Quiet m host)
    (after : ∀ a host', m.run host = .ok a host' → Quiet (f a) host') : Quiet (m >>= f) host := by
  intro e host'' failed
  rw [run_bind] at failed
  cases ran : m.run host with
  | ok a host' =>
    rw [ran] at failed
    exact after a host' ran e host'' failed
  | error fault host' =>
    rw [ran] at failed
    cases failed
    exact quiet _ _ ran

theorem quiet_pure (a : α) : Quiet (pure a) host := by
  intro e host' failed
  cases failed

theorem quiet_zoom_memory (m : EStateM MemoryError Memory α) : Quiet
    (zoom Host.memory (fun memory host => { host with memory := memory }) Fault.memory m) host := by
  intro e host' failed
  obtain ⟨source, memory, -, same, -⟩ := run_zoom_error failed
  cases same

theorem quiet_giveBits (address bits : Word) : Quiet (giveBits address bits) host := by
  unfold giveBits
  split
  · exact (quiet_zoom_memory _).bind fun _ _ _ => quiet_pure _
  · exact quiet_pure _

/-- A program answers an error with its code, and leaves the kernel and the registers as they were. -/
structure Answers (m : ServiceM BackendResponse) (rejected : Option KernelError) (host : Host) :
    Prop where
  quiet : Quiet m host
  code : ∀ e, rejected = some e → ∃ host', m.run host = .ok (.failing e) host' ∧
    host'.kernel = host.kernel ∧ host'.context = host.context

theorem call_run (service : Service) (host : Host) : (call service).run host =
    match (dispatch service).run host with
    | .ok response host' => .ok response.action
        { host' with context := finishBackend response host'.context }
    | .error fault host' => .error fault host' := by
  simp only [call, run_bind, run_modify, run_pure]
  cases (dispatch service).run host <;> rfl

theorem quiet_call_iff : Quiet (call service) host ↔ Quiet (dispatch service) host := by
  unfold Quiet
  refine forall_congr' fun e => forall_congr' fun host' => not_congr ?_
  rw [call_run]
  cases (dispatch service).run host with
  | ok response host'' => exact ⟨nofun, nofun⟩
  | error fault host'' =>
    exact ⟨fun same => by cases same; rfl, fun same => by cases same; rfl⟩

theorem reports_of_answers (answers : Answers (dispatch service) (rejection service host) host) :
    Reports service host where
  runs := quiet_call_iff.mpr answers.quiet
  code e rejected := by
    obtain ⟨host', ran, kernel, context⟩ := answers.code e rejected
    refine ⟨{ host' with context := finishBackend (.failing e) host'.context }, ?_, kernel, ?_⟩
    · rw [call_run, ran]
      rfl
    · rw [← context]
      rfl

theorem kernelError_map {α β : Type} (f : α → β) (m : KernelM α) (k : Kernel) :
    kernelError ((f <$> m).run k) = kernelError (m.run k) := by
  rw [run_map]
  cases m.run k with
  | ok a k' => rfl
  | error e k' => cases e <;> rfl

theorem kernelError_eq_some {r : EStateM.Result BiosError Kernel α} {e : KernelError} :
    kernelError r = some e ↔ ∃ k, r = .error (.kernel e) k := by
  unfold kernelError
  split
  next e' k =>
    constructor
    · intro same
      cases same
      exact ⟨k, rfl⟩
    · rintro ⟨k', same⟩
      cases same
      rfl
  next other =>
    constructor
    · exact nofun
    · rintro ⟨k', same⟩
      exact absurd same (other e k')

theorem accepts_iff_kernelError {m : KernelM α} {k : Kernel} :
    Accepts k m ↔ kernelError (m.run k) = none := by
  rw [Option.eq_none_iff_forall_ne_some]
  constructor
  · intro accepts e same
    obtain ⟨k', failed⟩ := kernelError_eq_some.mp same
    exact accepts e k' failed
  · intro none e t failed
    exact none e (kernelError_eq_some.mpr ⟨t, failed⟩)

theorem answers_answer {r : EStateM.Result BiosError Kernel ℕ}
    (refused : ∀ e k, r = .error e k → k = host.kernel) :
    Answers (answer r) (kernelError r) host where
  quiet := by
    unfold answer
    split
    · exact quiet_of_ok (by rfl)
    · exact quiet_of_ok (by rfl)
    next e kernel other =>
      intro e' t failed
      cases failed
      exact other e' rfl
  code e same := by
    obtain ⟨k, rfl⟩ := kernelError_eq_some.mp same
    have kept := refused _ k rfl
    exact ⟨Host.setKernel k host, rfl, kept, rfl⟩

theorem Answers.of_run {m m' : ServiceM BackendResponse} {rejected : Option KernelError}
    (answers : Answers m rejected host') (kernel : host'.kernel = host.kernel)
    (context : host'.context = host.context) (same : m'.run host = m.run host') :
    Answers m' rejected host where
  quiet e t := same ▸ answers.quiet e t
  code e rejects := by
    obtain ⟨t, ran, kernel', context'⟩ := answers.code e rejects
    exact ⟨t, same.trans ran, kernel'.trans kernel, context'.trans context⟩

theorem answers_of_quiet {m : ServiceM BackendResponse} (quiet : Quiet m host) : Answers m none host :=
  ⟨quiet, nofun⟩

theorem rejection_of_operation (behind : operation service host = some op) :
    rejection service host = kernelError ((step op host.context).run host.kernel) := by
  obtain ⟨family, ordinal⟩ := service
  unfold rejection
  split
  next family' ordinal' vblank eight =>
    cases vblank
    cases eight
    cases behind
  next family' ordinal' vblank nine =>
    cases vblank
    cases nine
    cases behind
  next => rw [behind, Option.bind_some]

theorem Op.not_blocking (immediate : op.immediate = true) : op.blocking = false := by
  cases op <;> first | rfl | cases immediate

theorem admitted_of_immediate (behind : operation service host = some op)
    (immediate : op.immediate = true) : service.Admitted host := by
  intro op' behind' blocks
  rw [behind] at behind'
  cases behind'
  rw [Op.not_blocking immediate] at blocks
  cases blocks

theorem admitted_of_none (behind : operation service host = none) : service.Admitted host := by
  intro op' behind' blocks
  rw [behind] at behind'
  cases behind'

section Kinds

variable (exact_ : host.kernel.ExactQueues) (spare : host.kernel.Spare)

include exact_ spare

theorem answers_operation {α : Type} {n : KernelM α} {f : α → Reply × CpuContext} (g : α → ℕ)
    {m : ServiceM BackendResponse} (immediate : op.immediate = true)
    (same : step op host.context = f <$> n) (kernel : host'.kernel = host.kernel)
    (context : host'.context = host.context)
    (served : m.run host = (answer ((g <$> n).run host.kernel)).run host') :
    Answers m (kernelError ((step op host.context).run host.kernel)) host := by
  rw [same, kernelError_map, ← kernelError_map g]
  refine (answers_answer fun e k failed => ?_).of_run kernel context served
  have refuses := step_refuses exact_ spare immediate host.context
  rw [same] at refuses
  rw [kernel]
  apply refuses e k
  rw [run_map] at failed ⊢
  cases ran : n.run host.kernel with
  | ok a t => rw [ran] at failed; cases failed
  | error e' t => rw [ran] at failed; cases failed; rfl

theorem reports_answering {α : Type} (host' : Host) {n : KernelM α} {f : α → Reply × CpuContext}
    (g : α → ℕ)
    (behind : operation service host = some op) (immediate : op.immediate = true)
    (same : step op host.context = f <$> n) (kernel : host'.kernel = host.kernel)
    (context : host'.context = host.context)
    (served : (dispatch service).run host = (answer ((g <$> n).run host.kernel)).run host') :
    Reports service host ↔ service.Admitted host := by
  refine iff_of_true (reports_of_answers ?_) (admitted_of_immediate behind immediate)
  rw [rejection_of_operation behind]
  exact answers_operation exact_ spare g immediate same kernel context served

end Kinds

theorem switching_run {α : Type} (host : Host) (m : CpuContext → KernelM (α × CpuContext)) :
    (switching m).run host = match (m host.context).run host.kernel with
      | .ok (a, context) kernel => .ok a { host with kernel := kernel, context := context }
      | .error e kernel => .error (.bios e) (host.setKernel kernel) := by
  simp only [switching, run_bind, run_get, run_zoom]
  cases (m host.context).run host.kernel <;> rfl

/-- A service that may block its caller stops the machine exactly where its operation does not accept. -/
theorem reports_blocking {α : Type} {m : CpuContext → KernelM (α × CpuContext)}
    {f : α → ServiceM BackendResponse} {g : α → Reply} (sound : host.kernel.RunningSound)
    (spare : host.kernel.Spare) (behind : operation service host = some op)
    (blocks : op.blocking = true)
    (same : step op host.context = (fun r => (g r.1, r.2)) <$> m host.context)
    (served : (dispatch service).run host = (switching m >>= f).run host)
    (quiet : ∀ a host', Quiet (f a) host') : Reports service host ↔ service.Admitted host := by
  have admitted : service.Admitted host ↔ host.kernel.Admits op := by
    constructor
    · exact fun admitted => admitted op behind blocks
    · intro admits op' behind' _
      rw [behind] at behind'
      cases behind'
      exact admits
  rw [admitted, ← step_accepts_iff sound spare blocks host.context, same, Accepts.map]
  constructor
  · intro reports e k failed
    have ran := switching_run host m
    rw [failed] at ran
    refine quiet_call_iff.mp reports.runs e (host.setKernel k) ?_
    rw [served, run_bind, ran]
  · intro accepts
    have accepted : kernelError ((step op host.context).run host.kernel) = none := by
      rw [same, kernelError_map]
      exact accepts_iff_kernelError.mp accepts
    refine reports_of_answers ?_
    rw [rejection_of_operation behind, accepted]
    refine answers_of_quiet fun e host' failed => ?_
    rw [served] at failed
    refine Quiet.bind (fun e' host'' stopped => ?_) (fun a host'' _ => quiet a host'') e host' failed
    rw [switching_run] at stopped
    cases ran : (m host.context).run host.kernel with
    | ok a k => rw [ran] at stopped; cases stopped
    | error e'' k =>
      rw [ran] at stopped
      cases stopped
      exact accepts e' k ran

theorem reports_of_quiet (behind : operation service host = none)
    (accepted : rejection service host = none)
    (quiet : Quiet (dispatch service) host) : Reports service host ↔ service.Admitted host := by
  refine iff_of_true (reports_of_answers ?_) (admitted_of_none behind)
  rw [accepted]
  exact answers_of_quiet quiet

/-- The ordinals of a family that have a service. -/
def ServiceFamily.ordinals : ServiceFamily → List ℕ
  | .thread => [4, 5, 6, 7, 8, 9, 14, 16, 18, 19, 20, 24, 25, 26, 33, 34]
  | .semaphore => [4, 5, 6, 7, 8, 9]
  | .eventFlag => [4, 5, 6, 7, 8, 9, 10, 11]
  | .vblank => [4, 5, 6, 8, 9]

theorem reports_of_unlisted {family : ServiceFamily} {ordinal : ℕ} (unlisted : ordinal ∉ family.ordinals) :
    Reports ⟨family, ordinal⟩ host ↔ Service.Admitted ⟨family, ordinal⟩ host := by
  simp only [ServiceFamily.ordinals] at unlisted
  obtain ⟨name, ran⟩ : ∃ name, (dispatch ⟨family, ordinal⟩).run host =
      .error (.unsupported name ordinal) host := by
    cases family <;>
      simp only [List.mem_cons, List.not_mem_nil, or_false, not_or] at unlisted <;>
      simp only [dispatch, dispatchThread, dispatchSemaphore, dispatchEvent, dispatchVblank] <;>
      rw [run_get_bind] <;> split <;> first | exact ⟨_, rfl⟩ | omega
  have behind : operation ⟨family, ordinal⟩ host = none := by
    unfold operation
    split <;> simp_all
  refine reports_of_quiet behind ?_ (quiet_of_fault ran fun _ => nofun)
  unfold rejection
  split <;> simp_all

theorem reading_run {α : Type} (read : Memory → Except MemoryError α) :
    (reading read).run host = match read host.memory with
      | .ok a => .ok a host
      | .error e => .error (.memory e) host := by
  simp only [reading, run_bind, run_get]
  cases read host.memory <;> rfl

/-! ### Threads -/

section Threads

variable (agrees : host.kernel.Agrees) (spare : host.kernel.Spare)

include agrees spare

theorem reports_createThread : Reports ⟨.thread, 4⟩ host ↔ Service.Admitted ⟨.thread, 4⟩ host := by
  cases laid : readThreadSpec (host.argument 0) ((host.context.register gp).getD 0) host.memory with
  | error e =>
    have behind : operation ⟨.thread, 4⟩ host = none := by simp only [operation, laid]
    have ran : (dispatch ⟨.thread, 4⟩).run host = .error (.memory e) host := by
      simp only [dispatch, dispatchThread, dispatchCreateThread, run_bind, run_get,
        reading_run, laid]
    refine reports_of_quiet behind ?_ (quiet_of_fault ran fun _ => nofun)
    simp only [rejection, behind, Option.bind_none]
  | ok spec =>
    cases allocated : (SystemMemory.allocate .first spec.stackSize 0).run host.systemMemory with
    | error e arena =>
      have behind : operation ⟨.thread, 4⟩ host = none := by simp only [operation, laid, allocated]
      have ran : (dispatch ⟨.thread, 4⟩).run host = .ok (.failing e) host := by
        simp only [dispatch, dispatchThread, dispatchCreateThread, run_bind, run_get,
          reading_run, laid, allocated, run_pure]
      refine reports_of_quiet behind ?_ (quiet_of_ok ran)
      simp only [rejection, behind, Option.bind_none]
    | ok allocation arena =>
      let op := Op.createThread { spec with stack := allocation.address } guestRange
      have behind : operation ⟨.thread, 4⟩ host = some op := by
        simp only [operation, laid, allocated, op]
      let created := (createThread { spec with stack := allocation.address } guestRange).run host.kernel
      let settled := Host.settleStack created allocation.address { host with systemMemory := arena }
      have ran : (dispatch ⟨.thread, 4⟩).run host = (answer created).run settled := by
        simp only [dispatch, dispatchThread, dispatchCreateThread, run_bind, run_get,
          reading_run, laid, allocated, run_modify, settled, created]
      have kernel : settled.kernel = host.kernel := by
        simp only [settled, Host.settleStack]
        cases created <;> rfl
      have context : settled.context = host.context := by
        simp only [settled, Host.settleStack]
        cases created <;> rfl
      have served : (dispatch ⟨.thread, 4⟩).run host = (answer ((id <$> createThread
          { spec with stack := allocation.address } guestRange).run host.kernel)).run settled := by
        rw [id_map]
        exact ran
      exact reports_answering agrees.queues spare settled id behind rfl rfl kernel context served

theorem reports_deleteThread : Reports ⟨.thread, 5⟩ host ↔ Service.Admitted ⟨.thread, 5⟩ host := by
  have behind : operation ⟨.thread, 5⟩ host = some (.deleteThread (host.argument 0).toNat) := rfl
  cases deleted : (deleteThread (host.argument 0).toNat).run host.kernel with
  | error e k =>
    refine reports_answering agrees.queues spare host (fun _ => 0) behind rfl rfl rfl rfl ?_
    simp only [dispatch, dispatchThread, dispatchDeleteThread, run_bind, run_get,
      deleted, run_map]
  | ok thread k =>
    have kept : (host.releaseStack (some (host.argument 0).toNat)).kernel = host.kernel := by
      unfold Host.releaseStack
      split <;> rfl
    have context : (host.releaseStack (some (host.argument 0).toNat)).context = host.context := by
      unfold Host.releaseStack
      split <;> rfl
    refine reports_answering agrees.queues spare _ (fun _ => 0) behind rfl rfl kept context ?_
    simp only [dispatch, dispatchThread, dispatchDeleteThread, run_bind, run_get,
      deleted, run_map, run_modify]

theorem reports_startThread (service : Service) (family : service.family = .thread)
    (ordinal : service.ordinal = 6 ∨ service.ordinal = 7) :
    Reports service host ↔ service.Admitted host := by
  obtain ⟨family', ordinal'⟩ := service
  cases family
  have behind : operation ⟨.thread, ordinal'⟩ host =
      some (.startThread (host.argument 0).toNat (host.argument 1)) := by
    rcases ordinal with rfl | rfl <;> rfl
  have served : dispatch ⟨.thread, ordinal'⟩ = dispatchThread ordinal' := rfl
  have started : (dispatchThread ordinal').run host = dispatchStartThread.run host := by
    rcases ordinal with rfl | rfl <;> rfl
  cases ran : (startThread (host.argument 0).toNat (host.argument 1)).run host.kernel with
  | error e k =>
    refine reports_answering agrees.queues spare host (fun _ => 0) behind rfl rfl rfl rfl ?_
    rw [served, started]
    simp only [dispatchStartThread, run_bind, run_get, ran, run_map]
  | ok u k =>
    refine iff_of_true (reports_of_answers ?_) (admitted_of_immediate behind rfl)
    have accepted : rejection ⟨.thread, ordinal'⟩ host = none := by
      rw [rejection_of_operation behind]
      simp only [step, kernelError_map, ran]
      rfl
    rw [accepted]
    refine answers_of_quiet ?_
    have sound : k.Sound := by
      have after := agrees.sound.step (.startThread (host.argument 0).toNat (host.argument 1))
        host.context
      rwa [step, leaves_map, ran, leaves_ok] at after
    have fit : k.nextReadyOrder + 1 < 2 ^ 64 := by
      rw [startThread_order spare ran]
      exact spare.fit₂
    have unfolded : (dispatch ⟨.thread, ordinal'⟩).run host =
        (if host.moduleEntryActive = true ∨ k.currentThread = none then return .returning 0
          else blocking fun context => reschedule context .hleReturn : ServiceM BackendResponse).run
          (host.setKernel k) := by
      rw [served, started]
      simp only [dispatchStartThread, run_bind, run_get, ran, run_modify]
    intro e t failed
    rw [unfolded] at failed
    split at failed
    · cases failed
    · obtain ⟨result, k', rescheduled⟩ := reschedule_ok sound.running fit host.context .hleReturn
      have switched := switching_run (host.setKernel k) fun context =>
        reschedule context .hleReturn
      simp only [Host.setKernel, rescheduled] at switched
      simp only [blocking, run_bind, Host.setKernel, switched] at failed
      cases failed

omit agrees in
theorem reports_of_blocking {m : CpuContext → KernelM (ScheduleAction × CpuContext)}
    (sound : host.kernel.RunningSound) (behind : operation service host = some op)
    (blocks : op.blocking = true)
    (same : step op host.context = (fun r => (Reply.action r.1, r.2)) <$> m host.context)
    (served : (dispatch service).run host = (blocking m).run host) :
    Reports service host ↔ service.Admitted host :=
  reports_blocking sound spare behind blocks same served fun _ _ =>
    quiet_of_ok rfl

theorem reports_thread_iff (ordinal : ℕ) :
    Reports ⟨.thread, ordinal⟩ host ↔ Service.Admitted ⟨.thread, ordinal⟩ host := by
  have sound := agrees.sound.running
  by_cases served : ordinal ∈ ServiceFamily.ordinals .thread
  · simp only [ServiceFamily.ordinals, List.mem_cons, List.not_mem_nil, or_false] at served
    rcases served with rfl | rfl | rfl | rfl | rfl | rfl | rfl | rfl | rfl | rfl | rfl | rfl | rfl |
      rfl | rfl | rfl
    · exact reports_createThread agrees spare
    · exact reports_deleteThread agrees spare
    · exact reports_startThread agrees spare _ rfl (.inl rfl)
    · exact reports_startThread agrees spare _ rfl (.inr rfl)
    · exact reports_of_blocking spare sound rfl rfl rfl rfl
    · refine reports_blocking (m := exitDeleteCurrent) sound spare rfl rfl rfl ?_ ?_
        (f := fun action => do
          let response := scheduleResponse (← get).context action.switched
          modify (Host.releaseStack host.kernel.currentThread)
          return response)
      · simp only [dispatch, dispatchThread, blocking, run_bind, run_get]
        cases (switching exitDeleteCurrent).run host <;> rfl
      · exact fun _ _ => quiet_of_ok rfl
    · refine reports_answering agrees.queues spare host id rfl rfl rfl rfl rfl ?_
      rw [id_map]
      rfl
    · exact reports_of_blocking spare sound rfl rfl rfl rfl
    · exact reports_answering agrees.queues spare host (fun _ => 0) rfl rfl rfl rfl rfl rfl
    · exact reports_answering agrees.queues spare host (fun _ => 0) rfl rfl rfl rfl rfl rfl
    · exact reports_of_quiet rfl rfl (quiet_of_ok rfl)
    · exact reports_of_blocking spare sound rfl rfl rfl rfl
    · exact reports_answering agrees.queues spare host (fun _ => 0) rfl rfl rfl rfl rfl rfl
    · exact reports_answering agrees.queues spare host (fun _ => 0) rfl rfl rfl rfl rfl rfl
    · exact reports_of_blocking spare sound rfl rfl rfl rfl
    · exact reports_of_quiet rfl rfl
        (Quiet.bind (quiet_of_ok rfl) fun _ _ _ => (quiet_zoom_memory _).bind fun _ _ _ => quiet_pure _)
  · exact reports_of_unlisted served

/-! ### Semaphores, event flags and vertical blanks -/

/-- A service that reads what it creates from the memory. -/
theorem reports_creating {Spec : Type} {read : Memory → Except MemoryError Spec}
    {create : Spec → KernelM ℕ} {op : Spec → Op}
    (behind : operation service host = (read host.memory).toOption.map op)
    (rejects : rejection service host = (operation service host).bind fun op =>
      kernelError ((step op host.context).run host.kernel))
    (immediate : ∀ spec, (op spec).immediate = true)
    (same : ∀ spec, step (op spec) host.context =
      (fun id => (.handle id, host.context)) <$> create spec)
    (served : (dispatch service).run host =
      (reading read >>= fun spec => answering (create spec)).run host) :
    Reports service host ↔ service.Admitted host := by
  rw [run_bind, reading_run] at served
  cases laid : read host.memory with
  | error e =>
    rw [laid] at behind served
    refine reports_of_quiet behind ?_ (quiet_of_fault served fun _ => nofun)
    rw [rejects, behind]
    rfl
  | ok spec =>
    rw [laid] at behind served
    refine reports_answering agrees.queues spare host id behind (immediate spec) (same spec) rfl rfl ?_
    rw [id_map]
    exact served

theorem reports_waitSemaphore :
    Reports ⟨.semaphore, 8⟩ host ↔ Service.Admitted ⟨.semaphore, 8⟩ host := by
  have same : step (.waitSemaphore (host.argument 0).toNat none) host.context =
      (fun r => (r.1.elim Reply.acquired Reply.action, r.2)) <$>
        waitSemaphore (host.argument 0).toNat none host.context := rfl
  have served : (dispatch ⟨.semaphore, 8⟩).run host =
      (switching (waitSemaphore (host.argument 0).toNat none) >>= fun action => do
        return scheduleResponse (← get).context (action.any (·.switched))).run host := by
    have dispatched : (dispatchSemaphore 8).run host = dispatchWaitSemaphore.run host := by
      unfold dispatchSemaphore
      rw [run_get_bind]
      rfl
    refine Eq.trans dispatched ?_
    unfold dispatchWaitSemaphore
    rw [run_get_bind]
  have behind : operation ⟨.semaphore, 8⟩ host =
    some (.waitSemaphore (host.argument 0).toNat none) := rfl
  have blocks : Op.blocking (.waitSemaphore (host.argument 0).toNat none) = true := rfl
  exact reports_blocking (g := fun r => r.elim Reply.acquired Reply.action) agrees.sound.running spare
    behind blocks same served fun _ _ => quiet_of_ok rfl

theorem reports_semaphore_iff (ordinal : ℕ) :
    Reports ⟨.semaphore, ordinal⟩ host ↔ Service.Admitted ⟨.semaphore, ordinal⟩ host := by
  have sound := agrees.sound.running
  by_cases served : ordinal ∈ ServiceFamily.ordinals .semaphore
  · simp only [ServiceFamily.ordinals, List.mem_cons, List.not_mem_nil, or_false] at served
    rcases served with rfl | rfl | rfl | rfl | rfl | rfl
    · exact reports_creating agrees spare rfl rfl (fun _ => rfl) (fun _ => rfl) rfl
    · exact reports_answering agrees.queues spare host (fun _ => 0) rfl rfl rfl rfl rfl rfl
    · exact reports_answering agrees.queues spare host (fun _ => 0) rfl rfl rfl rfl rfl rfl
    · exact reports_answering agrees.queues spare host (fun _ => 0) rfl rfl rfl rfl rfl rfl
    · exact reports_waitSemaphore agrees spare
    · exact reports_answering agrees.queues spare host (fun _ => 0) rfl rfl rfl rfl rfl rfl
  · exact reports_of_unlisted served

theorem reports_waitEventFlag :
    Reports ⟨.eventFlag, 10⟩ host ↔ Service.Admitted ⟨.eventFlag, 10⟩ host := by
  let waiting := Op.waitEventFlag (host.argument 0).toNat (host.argument 1) (host.argument 2) none
  have behind : operation ⟨.eventFlag, 10⟩ host = some waiting := rfl
  have blocks : waiting.blocking = true := rfl
  have same : step waiting host.context = (fun r => (Reply.ofWait .word r.1, r.2)) <$>
      waitEventFlag (host.argument 0).toNat (host.argument 1) (host.argument 2) none host.context :=
    rfl
  obtain ⟨f, served, quiet⟩ : ∃ f, (dispatch ⟨.eventFlag, 10⟩).run host =
      (switching (waitEventFlag (host.argument 0).toNat (host.argument 1) (host.argument 2) none) >>=
        f).run host ∧ ∀ result host', Quiet (f result) host' := by
    have dispatched : (dispatch ⟨.eventFlag, 10⟩).run host = (dispatchEvent 10).run host := rfl
    rw [dispatched]
    unfold dispatchEvent
    rw [run_get_bind]
    refine ⟨_, rfl, ?_⟩
    rintro (bits | schedule) host'
    · exact quiet_giveBits _ _
    · exact quiet_of_ok rfl
  exact reports_blocking agrees.sound.running spare behind blocks same served quiet

theorem reports_pollEventFlag :
    Reports ⟨.eventFlag, 11⟩ host ↔ Service.Admitted ⟨.eventFlag, 11⟩ host := by
  let polling := Op.pollEventFlag (host.argument 0).toNat (host.argument 1) (host.argument 2)
  have behind : operation ⟨.eventFlag, 11⟩ host = some polling := rfl
  have dispatched : (dispatch ⟨.eventFlag, 11⟩).run host = (dispatchEvent 11).run host := rfl
  cases polled : (pollEventFlag (host.argument 0).toNat (host.argument 1) (host.argument 2)).run
    host.kernel with
  | error e k =>
    have served : (dispatchEvent 11).run host = (answer (.error e k)).run host := by
      unfold dispatchEvent
      rw [run_get_bind]
      dsimp only
      rw [polled]
      rfl
    refine reports_answering agrees.queues spare host (fun _ => 0) behind rfl rfl rfl rfl ?_
    rw [dispatched, served, run_map, polled]
  | ok bits k =>
    have served : (dispatchEvent 11).run host =
        (modify (Host.setKernel k) >>= fun _ => giveBits (host.argument 3) bits).run host := by
      unfold dispatchEvent
      rw [run_get_bind]
      dsimp only
      rw [polled]
      rfl
    refine iff_of_true (reports_of_answers ?_) (admitted_of_immediate behind rfl)
    have accepted : rejection ⟨.eventFlag, 11⟩ host = none := by
      rw [rejection_of_operation behind]
      simp only [polling, step, kernelError_map, polled]
      rfl
    rw [accepted]
    refine answers_of_quiet fun e t failed => ?_
    rw [dispatched, served] at failed
    exact quiet_giveBits _ _ e t failed

theorem reports_event_iff (ordinal : ℕ) :
    Reports ⟨.eventFlag, ordinal⟩ host ↔ Service.Admitted ⟨.eventFlag, ordinal⟩ host := by
  by_cases served : ordinal ∈ ServiceFamily.ordinals .eventFlag
  · simp only [ServiceFamily.ordinals, List.mem_cons, List.not_mem_nil, or_false] at served
    rcases served with rfl | rfl | rfl | rfl | rfl | rfl | rfl | rfl
    · exact reports_creating agrees spare rfl rfl (fun _ => rfl) (fun _ => rfl) rfl
    · exact reports_answering agrees.queues spare host (fun _ => 0) rfl rfl rfl rfl rfl rfl
    · exact reports_answering agrees.queues spare host (fun _ => 0) rfl rfl rfl rfl rfl rfl
    · exact reports_answering agrees.queues spare host (fun _ => 0) rfl rfl rfl rfl rfl rfl
    · exact reports_answering agrees.queues spare host BitVec.toNat rfl rfl rfl rfl rfl rfl
    · exact reports_answering agrees.queues spare host BitVec.toNat rfl rfl rfl rfl rfl rfl
    · exact reports_waitEventFlag agrees spare
    · exact reports_pollEventFlag agrees spare
  · exact reports_of_unlisted served

omit agrees spare in
theorem answers_handlers (result : Except KernelError VblankHandlers) :
    Answers (answerHandlers result) (handlerError result) host := by
  cases result with
  | ok handlers => exact answers_of_quiet (quiet_of_ok rfl)
  | error e =>
    refine ⟨quiet_of_ok rfl, fun e' same => ?_⟩
    cases same
    exact ⟨host, rfl, rfl, rfl⟩

theorem reports_vblank_iff (ordinal : ℕ) :
    Reports ⟨.vblank, ordinal⟩ host ↔ Service.Admitted ⟨.vblank, ordinal⟩ host := by
  have sound := agrees.sound.running
  by_cases served : ordinal ∈ ServiceFamily.ordinals .vblank
  · simp only [ServiceFamily.ordinals, List.mem_cons, List.not_mem_nil, or_false] at served
    rcases served with rfl | rfl | rfl | rfl | rfl
    · exact reports_of_blocking spare sound rfl rfl rfl rfl
    · exact reports_of_blocking spare sound rfl rfl rfl rfl
    · exact reports_of_blocking spare sound rfl rfl rfl rfl
    · exact iff_of_true (reports_of_answers ((answers_handlers _).of_run rfl rfl rfl))
        (admitted_of_none rfl)
    · exact iff_of_true (reports_of_answers ((answers_handlers _).of_run rfl rfl rfl))
        (admitted_of_none rfl)
  · exact reports_of_unlisted served

theorem reports_iff (service : Service) : Reports service host ↔ service.Admitted host := by
  obtain ⟨family, ordinal⟩ := service
  cases family with
  | thread => exact reports_thread_iff agrees spare ordinal
  | semaphore => exact reports_semaphore_iff agrees spare ordinal
  | eventFlag => exact reports_event_iff agrees spare ordinal
  | vblank => exact reports_vblank_iff agrees spare ordinal

end Threads

end Upse.Iop.Services
