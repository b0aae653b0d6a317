import Upse.Machine.Ps2.ResultCodes

/-!
# Reported errors over whole runs

Between the steps of a run the machine does with memory and registers what it likes; the kernel only
changes by its operations, none of which waits with a timeout.  While the kernel's counters last, its
threads and queues agree in every state of a run, and there a service reports exactly where it is
admitted.
-/

namespace Upse.Iop.Services

open ErrorState

/-! ### What services do to the kernel -/

/-- An operation as the machine calls it: no wait has a timeout, and no call resets the kernel. -/
def Untimed (op : Op) : Prop := op.timeout = none ∧ op ≠ .reset

/-- Calls of the machine lead from one state of the kernel to another. -/
def Calls (k k' : Kernel) : Prop :=
  ∃ calls, Run Steps k calls k' ∧ ∀ call ∈ calls, Untimed call.op

/-- A step of the machine changes the kernel by calls only. -/
def Follows (host host' : Host) : Prop := Calls host.kernel host'.kernel

variable {host host' : Host}

theorem calls_refl (k : Kernel) : Calls k k :=
  ⟨[], .refl k, fun _ member => absurd member List.not_mem_nil⟩

theorem Calls.trans {k k' k'' : Kernel} (first : Calls k k') (second : Calls k' k'') : Calls k k'' := by
  obtain ⟨calls, run, untimed⟩ := first
  obtain ⟨calls', run', untimed'⟩ := second
  refine ⟨calls ++ calls', run.append run', fun call member => ?_⟩
  rcases List.mem_append.mp member with old | new
  · exact untimed call old
  · exact untimed' call new

theorem calls_step (k : Kernel) (op : Op) (untimed : Untimed op) (context : CpuContext) :
    Calls k (leaves ((step op context).run k)) := by
  refine ⟨[.of k op context], Run.single (steps_of k op context), fun call member => ?_⟩
  rw [List.mem_singleton.mp member]
  exact untimed

instance : Std.Refl Follows := ⟨fun host => calls_refl host.kernel⟩

instance : IsTrans Host Follows := ⟨fun _ _ _ first second => first.trans second⟩

theorem follows_of_kernel (same : host'.kernel = host.kernel) : Follows host host' := by
  unfold Follows
  rw [same]
  exact calls_refl _

theorem kernel_releaseStack (thread : Option ℕ) : (host.releaseStack thread).kernel = host.kernel := by
  unfold Host.releaseStack
  split <;> rfl

theorem kernel_settleStack (created : EStateM.Result BiosError Kernel ℕ) (stack : ℕ) :
    (host.settleStack created stack).kernel = host.kernel := by
  cases created <;> rfl

theorem leaves_map_eq {α β γ : Type} {f : α → β} {g : α → γ} {m : KernelM α} {k : Kernel} :
    leaves ((f <$> m).run k) = leaves ((g <$> m).run k) := by
  rw [leaves_map, leaves_map]

theorem follows_answer {r : EStateM.Result BiosError Kernel ℕ} (calls : Calls host.kernel (leaves r)) :
    Leads Follows host (answer r) := by
  unfold answer
  split <;> exact calls

theorem follows_answering {n : KernelM ℕ} (op : Op) (untimed : Untimed op)
    (same : leaves (n.run host.kernel) = leaves ((step op host.context).run host.kernel)) :
    Leads Follows host (answering n) := by
  unfold answering
  apply leads_get_bind
  apply follows_answer
  rw [same]
  exact calls_step host.kernel op untimed host.context

theorem follows_switching {α : Type} {m : CpuContext → KernelM (α × CpuContext)} (op : Op)
    (untimed : Untimed op) (same : leaves ((m host.context).run host.kernel) =
      leaves ((step op host.context).run host.kernel)) : Leads Follows host (switching m) := by
  have calls := calls_step host.kernel op untimed host.context
  rw [← same] at calls
  unfold Leads
  rw [switching_run]
  cases ran : (m host.context).run host.kernel <;> rw [ran] at calls <;> exact calls

theorem follows_blocking {m : CpuContext → KernelM (ScheduleAction × CpuContext)} (op : Op)
    (untimed : Untimed op) (same : leaves ((m host.context).run host.kernel) =
      leaves ((step op host.context).run host.kernel)) : Leads Follows host (blocking m) :=
  (follows_switching op untimed same).bind fun _ _ _ => leads_get_bind (leads_pure _)

theorem follows_writeGuest (address : Word) (bytes : Bytes) :
    Leads Follows host (writeGuest address bytes) :=
  leads_zoom (follows_of_kernel rfl)

theorem follows_giveBits (address bits : Word) : Leads Follows host (giveBits address bits) := by
  unfold giveBits
  split
  · exact (follows_writeGuest _ _).returning
  · exact leads_pure _

theorem follows_reading {α : Type} (read : Memory → Except MemoryError α) :
    Leads Follows host (reading read) := leads_get_bind (leads_ofExcept _)

theorem follows_createThread : Leads Follows host dispatchCreateThread := by
  apply leads_get_bind
  refine (follows_reading _).bind fun spec t ran => ?_
  rw [reading_run] at ran
  have same : t = host := by
    split at ran
    · cases ran; rfl
    · cases ran
  subst same
  split
  · exact leads_pure _
  next allocation arena _ =>
    apply leads_modify_bind (follows_of_kernel rfl)
    apply leads_modify_bind (follows_of_kernel (kernel_settleStack _ _))
    apply follows_answer
    rw [kernel_settleStack]
    have calls := calls_step t.kernel
      (.createThread { spec with stack := allocation.address } guestRange) ⟨rfl, by simp⟩ t.context
    rwa [step, leaves_map] at calls

theorem follows_deleteThread : Leads Follows host dispatchDeleteThread := by
  apply leads_get_bind
  have calls := calls_step host.kernel (.deleteThread (host.argument 0).toNat) ⟨rfl, by simp⟩
    host.context
  rw [step, leaves_map] at calls
  dsimp only
  split
  next deleted =>
    apply leads_modify_bind (follows_of_kernel (kernel_releaseStack _))
    apply follows_answer
    rw [kernel_releaseStack]
    rwa [deleted] at calls
  next refused =>
    apply follows_answer
    rwa [refused] at calls

theorem follows_startThread : Leads Follows host dispatchStartThread := by
  apply leads_get_bind
  have calls := calls_step host.kernel
    (.startThread (host.argument 0).toNat (host.argument 1)) ⟨rfl, by simp⟩ host.context
  rw [step, leaves_map] at calls
  split
  next refused =>
    apply follows_answer
    rwa [refused] at calls
  next started =>
    rw [started] at calls
    refine leads_modify_bind (show Follows host (Host.setKernel _ host) from calls) ?_
    refine .either (leads_pure _) ?_
    exact follows_blocking (.reschedule .hleReturn) ⟨rfl, by simp⟩ (leaves_map _ _ _).symm

theorem follows_dispatchThread (ordinal : ℕ) : Leads Follows host (dispatchThread ordinal) := by
  unfold dispatchThread
  apply leads_get_bind
  dsimp only
  split
  · exact follows_createThread
  · exact follows_deleteThread
  · exact follows_startThread
  · exact follows_startThread
  · exact follows_blocking .exitCurrent ⟨rfl, by simp⟩ (leaves_map _ _ _).symm
  · refine (follows_blocking .exitDeleteCurrent ⟨rfl, by simp⟩ (leaves_map _ _ _).symm).bind
      fun _ _ _ => ?_
    exact leads_modify_bind (follows_of_kernel (kernel_releaseStack _)) (leads_pure _)
  · exact follows_answering (.changePriority _ _) ⟨rfl, by simp⟩ (leaves_map _ _ _).symm
  · exact follows_blocking (.reschedule .yield) ⟨rfl, by simp⟩ (leaves_map _ _ _).symm
  · exact follows_answering (.releaseWait _) ⟨rfl, by simp⟩ leaves_map_eq
  · exact follows_answering (.releaseWait _) ⟨rfl, by simp⟩ leaves_map_eq
  · exact leads_pure _
  · exact follows_blocking .sleepCurrent ⟨rfl, by simp⟩ (leaves_map _ _ _).symm
  · exact follows_answering (.wakeupThread _) ⟨rfl, by simp⟩ leaves_map_eq
  · exact follows_answering (.wakeupThread _) ⟨rfl, by simp⟩ leaves_map_eq
  · exact follows_blocking (.delayCurrent _) ⟨rfl, by simp⟩ (leaves_map _ _ _).symm
  · exact (follows_writeGuest _ _).returning
  · exact leads_throw _

theorem follows_dispatchSemaphore (ordinal : ℕ) : Leads Follows host (dispatchSemaphore ordinal) := by
  unfold dispatchSemaphore
  apply leads_get_bind
  dsimp only
  split
  · refine (follows_reading _).bind fun spec t _ => ?_
    exact follows_answering (.createSemaphore spec) ⟨rfl, by simp⟩ (leaves_map _ _ _).symm
  · exact follows_answering (.deleteSemaphore _) ⟨rfl, by simp⟩ leaves_map_eq
  · exact follows_answering (.signalSemaphore _) ⟨rfl, by simp⟩ leaves_map_eq
  · exact follows_answering (.signalSemaphore _) ⟨rfl, by simp⟩ leaves_map_eq
  · apply leads_get_bind
    refine (follows_switching (.waitSemaphore _ none) ⟨rfl, by simp⟩
      (leaves_map _ _ _).symm).bind fun _ _ _ => ?_
    exact leads_get_bind (leads_pure _)
  · exact follows_answering (.pollSemaphore _) ⟨rfl, by simp⟩ leaves_map_eq
  · exact leads_throw _

theorem follows_dispatchEvent (ordinal : ℕ) : Leads Follows host (dispatchEvent ordinal) := by
  unfold dispatchEvent
  apply leads_get_bind
  dsimp only
  split
  · refine (follows_reading _).bind fun spec t _ => ?_
    exact follows_answering (.createEventFlag spec) ⟨rfl, by simp⟩ (leaves_map _ _ _).symm
  · exact follows_answering (.deleteEventFlag _) ⟨rfl, by simp⟩ leaves_map_eq
  · exact follows_answering (.setEventFlag _ _) ⟨rfl, by simp⟩ leaves_map_eq
  · exact follows_answering (.setEventFlag _ _) ⟨rfl, by simp⟩ leaves_map_eq
  · exact follows_answering (.clearEventFlag _ _) ⟨rfl, by simp⟩ leaves_map_eq
  · exact follows_answering (.clearEventFlag _ _) ⟨rfl, by simp⟩ leaves_map_eq
  · refine (follows_switching (.waitEventFlag _ _ _ none) ⟨rfl, by simp⟩
      (leaves_map _ _ _).symm).bind fun result _ _ => ?_
    cases result with
    | inl bits => exact follows_giveBits _ _
    | inr schedule => exact leads_get_bind (leads_pure _)
  · have calls := calls_step host.kernel (.pollEventFlag (host.argument 0).toNat
      (host.argument 1) (host.argument 2)) ⟨rfl, by simp⟩ host.context
    rw [step, leaves_map] at calls
    split
    next polled =>
      rw [polled] at calls
      exact leads_modify_bind (show Follows host _ from calls) (follows_giveBits _ _)
    next refused =>
      apply follows_answer
      rwa [refused] at calls
  · exact leads_throw _

theorem follows_answerHandlers (result : Except KernelError VblankHandlers) :
    Leads Follows host (answerHandlers result) := by
  cases result with
  | ok handlers => exact leads_modify_bind (follows_of_kernel rfl) (leads_pure _)
  | error e => exact leads_pure _

theorem follows_dispatchVblank (ordinal : ℕ) : Leads Follows host (dispatchVblank ordinal) := by
  unfold dispatchVblank
  apply leads_get_bind
  split
  · exact follows_blocking (.waitVblank 0) ⟨rfl, by simp⟩ (leaves_map _ _ _).symm
  · exact follows_blocking (.waitVblank 0) ⟨rfl, by simp⟩ (leaves_map _ _ _).symm
  · exact follows_blocking (.waitVblank 1) ⟨rfl, by simp⟩ (leaves_map _ _ _).symm
  · exact follows_answerHandlers _
  · exact follows_answerHandlers _
  · exact leads_throw _

theorem follows_call (service : Service) : Leads Follows host (call service) := by
  refine Leads.bind ?_ fun _ _ _ => leads_modify_bind (follows_of_kernel rfl) (leads_pure _)
  unfold dispatch
  split
  · exact follows_dispatchThread _
  · exact follows_dispatchSemaphore _
  · exact follows_dispatchEvent _
  · exact follows_dispatchVblank _

/-! ### Runs -/

/-- A step of the machine, as the kernel sees it. -/
inductive HostStep where
  | service (service : Service)
  | operation (op : Op) (context : CpuContext)
  | elsewhere

/-- The steps of the machine: a service the guest calls, another operation of the kernel, or whatever
leaves the kernel alone. -/
def Host.Next (host : Host) (taken : HostStep) (host' : Host) : Prop :=
  match taken with
  | .service service => host' = leaves ((call service).run host)
  | .operation op context => Untimed op ∧ host'.kernel = leaves ((step op context).run host.kernel)
  | .elsewhere => host'.kernel = host.kernel

theorem Host.Next.follows {taken : HostStep} (next : host.Next taken host') :
    Calls host.kernel host'.kernel := by
  cases taken with
  | service service =>
    rw [show host' = _ from next]
    exact follows_call service
  | operation op context =>
    obtain ⟨untimed, same⟩ := next
    rw [same]
    exact calls_step host.kernel op untimed context
  | elsewhere => exact follows_of_kernel next

theorem calls_of_run {start : Host} {steps : List HostStep} (run : Run Host.Next start steps host) :
    Calls start.kernel host.kernel :=
  run.invariant (I := fun a => Calls start.kernel a.kernel) (calls_refl _)
    fun _ _ _ calls next => Calls.trans calls next.follows

/-- While the counters last, threads and queues agree. -/
theorem Calls.agrees {k : Kernel} (calls : Calls Kernel.new k) (spare : k.Spare) : k.Agrees := by
  obtain ⟨calls, run, untimed⟩ := calls
  have counters : k.Sound ∧ ∀ call ∈ calls, call.after.nextReadyOrder ≤ k.nextReadyOrder ∧
      call.after.scheduler.nextSequence ≤ k.scheduler.nextSequence := by
    apply (run.restrict (P := fun call => Untimed call.op) untimed).history (H := fun calls a =>
      a.Sound ∧ ∀ call ∈ calls, call.after.nextReadyOrder ≤ a.nextReadyOrder ∧
        call.after.scheduler.nextSequence ≤ a.scheduler.nextSequence)
    · exact ⟨Kernel.sound_new, fun call member => absurd member List.not_mem_nil⟩
    · rintro calls a call b ⟨sound, before⟩ ⟨⟨eq, rfl⟩, -, lives⟩
      have counters := step_counters sound.running lives call.context
      have after : call.after = leaves ((step call.op call.context).run a) := by
        conv_lhs => rw [eq]
        rfl
      rw [← after] at counters
      refine ⟨after ▸ sound.step call.op call.context, fun call' member => ?_⟩
      rcases List.mem_append.mp member with old | new
      · have le := before call' old
        exact ⟨le.1.trans counters.1, le.2.trans counters.2⟩
      · rw [List.mem_singleton.mp new]
        exact ⟨le_rfl, le_rfl⟩
  refine (agrees_of_run run fun call member => ⟨?_, fun ticks timed => ?_⟩).1
  · have le := counters.2 call member
    have order := spare.fit
    have sequence := spare.2
    unfold Kernel.Exhausted Kernel.OrdersExhausted
    omega
  · rw [(untimed call member).1] at timed
    cases timed

/-- In a run whose counters last, a service reports the errors of the kernel exactly where it blocks
nobody or its caller may wait: where a thread is running, and the object it names is there and lets
another thread wait for what the arguments ask. -/
theorem services_report_iff {start : Host} {steps : List HostStep}
    (run : Run Host.Next start steps host) (fresh : start.kernel = Kernel.new)
    (spare : host.kernel.Spare) (service : Service) :
    Reports service host ↔ service.Admitted host := by
  have calls := calls_of_run run
  rw [fresh] at calls
  exact reports_iff (calls.agrees spare) spare service

/-- A machine whose only thread runs, with a number in its first argument register. -/
def numberedHost (number : Word) : Host where
  kernel := Kernel.new.after sampleContext
    [.createThread (sampleThread 10) sampleRange, .startThread 1 0, .reschedule .hleReturn]
  systemMemory := ⟨0x1000, 0x100000, .new⟩
  threadStacks := fun _ => none
  vblank := fun _ _ => none
  memory := .new .ones
  context := sampleContext.setRegister a0 number
  moduleEntryActive := false

theorem run_operations {ops : List Op} (untimed : ∀ op ∈ ops, Untimed op) (host : Host) :
    Run Host.Next host (ops.map (.operation · sampleContext))
      { host with kernel := host.kernel.after sampleContext ops } := by
  induction ops generalizing host with
  | nil => exact .refl _
  | cons op ops ih =>
    have first : Host.Next host (.operation op sampleContext)
        { host with kernel := leaves ((step op sampleContext).run host.kernel) } :=
      ⟨untimed op List.mem_cons_self, rfl⟩
    exact (Run.single first).append (ih (fun op' member => untimed op' (List.mem_cons_of_mem _ member)) _)

theorem run_numberedHost (number : Word) : ∃ start steps, Run Host.Next start steps
    (numberedHost number) ∧ start.kernel = Kernel.new := by
  have untimed : ∀ op ∈ [.createThread (sampleThread 10) sampleRange, .startThread 1 0,
      .reschedule .hleReturn], Untimed op := by
    intro op member
    simp only [List.mem_cons, List.not_mem_nil, or_false] at member
    rcases member with rfl | rfl | rfl <;> exact ⟨rfl, by simp⟩
  exact ⟨{ numberedHost number with kernel := Kernel.new }, _, run_operations untimed _, rfl⟩

theorem services_report_iff_poll : rejection ⟨.semaphore, 9⟩ (numberedHost 9) =
    some .unknownSemaphoreId ∧ Reports ⟨.semaphore, 9⟩ (numberedHost 9) := by
  obtain ⟨start, steps, run, fresh⟩ := run_numberedHost 9
  refine ⟨by decide +kernel,
    (services_report_iff run fresh (by decide +kernel) ⟨.semaphore, 9⟩).mpr ?_⟩
  have behind : operation ⟨.semaphore, 9⟩ (numberedHost 9) =
    some (.pollSemaphore ((numberedHost 9).argument 0).toNat) := rfl
  exact admitted_of_immediate behind rfl

/-- The running thread waits for a semaphore that is not there, and the machine stops. -/
theorem unknown_semaphore_stops : ∃ start steps, Run Host.Next start steps (numberedHost 9) ∧
    start.kernel = Kernel.new ∧ (numberedHost 9).kernel.currentThread = some 1 ∧
    rejection ⟨.semaphore, 8⟩ (numberedHost 9) = some .unknownSemaphoreId ∧
    ¬ Reports ⟨.semaphore, 8⟩ (numberedHost 9) := by
  obtain ⟨start, steps, run, fresh⟩ := run_numberedHost 9
  refine ⟨start, steps, run, fresh, by decide +kernel, by decide +kernel, fun reports => ?_⟩
  have calls := calls_of_run run
  rw [fresh] at calls
  have spare : (numberedHost 9).kernel.Spare := by decide +kernel
  obtain ⟨semaphore, found, -⟩ := (reports_iff (calls.agrees spare) spare _).mp reports
    (.waitSemaphore ((numberedHost 9).argument 0).toNat none) rfl rfl
  have missing : (numberedHost 9).kernel.semaphores.get ((numberedHost 9).argument 0).toNat = none := by
    decide +kernel
  rw [missing] at found
  cases found

/-! ### Threads of a guest -/

/-- Whatever services a guest calls, while the counters last its current thread is the one that runs, and
no thread waits for something that is already there. -/
theorem services_keep_order {start : Host} {steps : List HostStep} (run : Run Host.Next start steps host)
    (fresh : start.kernel = Kernel.new) (spare : host.kernel.Spare) :
    (∀ id, host.kernel.currentThread = some id ↔ host.kernel.Running id) ∧
    ∀ id reason, host.kernel.waitReasonOf id = some reason → ¬ host.kernel.Available reason := by
  have calls := calls_of_run run
  rw [fresh] at calls
  have agrees := calls.agrees spare
  obtain ⟨calls, run, -⟩ := calls
  refine ⟨fun id => ⟨fun current => ?_, fun running => ?_⟩, fun id reason waiting available => ?_⟩
  · exact Kernel.running_iff_view.mpr (agrees.sound.running id current)
  · obtain ⟨order, view⟩ := Kernel.running_iff_view.mp running
    exact agrees.unique id order view
  · cases object : reason.object with
    | none => cases reason <;> first | exact available | cases object
    | some o =>
      have queued := ((agrees.queues o).2 id).mpr (Kernel.waitsFor_eq_some.mpr ⟨reason, waiting, object⟩)
      exact (Reachable.calm ⟨calls, run⟩ o).unavailable object queued waiting available

/-- A second thread is made ready next to the running one, and a semaphore without a count. -/
def beforeWait : List Op :=
  [.createSemaphore ⟨0, 1, 0⟩, .createThread (sampleThread 20) sampleRange, .startThread 2 0]

/-- The running thread calls the service that waits for the semaphore. -/
def waitingHost : Host :=
  leaves ((call ⟨.semaphore, 8⟩).run
    { numberedHost 1 with kernel := (numberedHost 1).kernel.after sampleContext beforeWait })

theorem services_keep_order_sample : waitingHost.kernel.Running 2 ∧
    waitingHost.kernel.waitReasonOf 1 = some (.semaphore 1) ∧
    ¬ waitingHost.kernel.Available (.semaphore 1) := by
  obtain ⟨start, steps, run, fresh⟩ := run_numberedHost 1
  have untimed : ∀ op ∈ beforeWait, Untimed op := by
    intro op member
    simp only [beforeWait, List.mem_cons, List.not_mem_nil, or_false] at member
    rcases member with rfl | rfl | rfl <;> exact ⟨rfl, by simp⟩
  have waited : Host.Next _ (.service ⟨.semaphore, 8⟩) waitingHost := rfl
  obtain ⟨runs, calm⟩ := services_keep_order ((run.append (run_operations untimed _)).snoc waited) fresh
    (by decide +kernel)
  have waiting : waitingHost.kernel.waitReasonOf 1 = some (.semaphore 1) := by decide +kernel
  exact ⟨(runs 2).mp (by decide +kernel), waiting, calm 1 _ waiting⟩

end Upse.Iop.Services
