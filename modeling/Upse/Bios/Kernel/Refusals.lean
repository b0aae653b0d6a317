import Upse.Bios.Kernel.QueueRuns

/-!
# Refused calls leave no trace

While the queues are exact and ready orders are left for every thread of the table, an operation that
blocks nobody either does what it is for or fails in the state it started in.  An operation that may
block its caller fails for a kernel error exactly where the caller may not wait so.
-/

namespace Upse

open ErrorState Kernel WaitQueues

variable {k k' : Kernel} {op : Op} {context : CpuContext}

/-- Whether an operation blocks nobody and switches to nobody. -/
def Op.immediate : Op → Bool
  | .createThread _ _ | .startThread _ _ | .deleteThread _ | .changePriority _ _ | .wakeupThread _
  | .releaseWait _ | .createSemaphore _ | .deleteSemaphore _ | .pollSemaphore _ | .signalSemaphore _
  | .createEventFlag _ | .deleteEventFlag _ | .pollEventFlag _ _ _ | .setEventFlag _ _
  | .clearEventFlag _ _ => true
  | _ => false

/-- Ready orders are left for every thread of the table, and a sequence number for a timeout. -/
def Kernel.Spare (k : Kernel) : Prop :=
  k.nextReadyOrder + threadCapacity < 2 ^ 64 ∧ k.scheduler.nextSequence + 1 < 2 ^ 64

instance (k : Kernel) : Decidable k.Spare :=
  inferInstanceAs (Decidable (k.nextReadyOrder + threadCapacity < 2 ^ 64 ∧
    k.scheduler.nextSequence + 1 < 2 ^ 64))

theorem Kernel.Spare.fit (spare : k.Spare) : k.nextReadyOrder + 1 < 2 ^ 64 := by
  have positive : 1 ≤ threadCapacity := by decide
  unfold Spare at spare
  omega

theorem Kernel.Spare.fit₂ (spare : k.Spare) : k.nextReadyOrder + 1 + 1 < 2 ^ 64 := by
  have positive : 2 ≤ threadCapacity := by decide
  unfold Spare at spare
  omega

theorem Kernel.ExactQueues.length_le (exact_ : k.ExactQueues) (o : Obj) :
    (k.queue o).length ≤ threadCapacity := by
  obtain ⟨nodup, members⟩ := exact_ o
  have within : k.queue o ⊆ List.range' 1 threadCapacity := by
    intro id queued
    obtain ⟨reason, waiting, -⟩ := waitsFor_eq_some.mp ((members id).mp queued)
    obtain ⟨thread, found, -⟩ := waitReasonOf_eq_some.mp waiting
    have range := FixedTable.range_of_get found
    rw [List.mem_range'_1]
    omega
  have le := (nodup.subperm within).length_le
  rwa [List.length_range'] at le

theorem Kernel.nextReadyOrder_wake (id : ℕ) (result : ℤ) (value : Option Word) :
    (k.wake id result value).nextReadyOrder = k.nextReadyOrder + 1 := rfl

/-! ### Releasing a whole queue -/

theorem releaseDeletedWaiters_ok (waiters : List ℕ)
    (fit : k.nextReadyOrder + waiters.length < 2 ^ 64) :
    ∃ k', (releaseDeletedWaiters waiters).run k = .ok () k' := by
  induction waiters generalizing k with
  | nil => exact ⟨k, rfl⟩
  | cons id waiters ih =>
    rw [List.length_cons] at fit
    by_cases waits : k.isWaiting id = true
    · obtain ⟨reason, waiting⟩ := isWaiting_iff.mp waits
      have woken : (completeWait id KernelError.waitDeleted.code none).run k =
          .ok () (k.wake id KernelError.waitDeleted.code none) :=
        completeWait_of_waiting waiting (by omega)
      obtain ⟨k', rest⟩ := ih (k := k.wake id KernelError.waitDeleted.code none)
        (by rw [nextReadyOrder_wake]; omega)
      refine ⟨k', ?_⟩
      simp only [releaseDeletedWaiters, run_bind, run_get, waits, if_true, woken, rest]
    · obtain ⟨k', rest⟩ := ih (k := k) (by omega)
      refine ⟨k', ?_⟩
      rw [Bool.not_eq_true] at waits
      simp only [releaseDeletedWaiters, run_bind, run_get, waits, Bool.false_eq_true,
        if_false, rest]

/-- A loop that serves a queue ends while there is an order for each of its threads. -/
theorem Kernel.Serves.finishes {W : Type} {o : Obj} {wants : Kernel → ℕ → Option W}
    {give : Kernel → W → Option (Word × Kernel)} {serve : W → KernelM (Option Word)}
    (serving : Serving o wants give serve) {queued : List ℕ} {result : Option (List ℕ × List ℕ)}
    (rounds : k.Serves wants give queued result k')
    (fit : k.nextReadyOrder + queued.length < 2 ^ 64) : result ≠ none := by
  have given {k given : Kernel} {wanted : W} {value : Word}
      (gave : give k wanted = some (value, given)) : given.nextReadyOrder = k.nextReadyOrder := by
    cases (serving.touches k wanted value given gave).1 with
    | touch core _ _ => exact (congrArg Kernel.nextReadyOrder core :)
  induction rounds with
  | done => exact nofun
  | skip _ _ ih =>
    rw [List.length_cons] at fit
    exact ih (by omega)
  | keep _ _ _ ih =>
    rw [List.length_cons] at fit
    simpa using ih (by omega)
  | serve _ gave _ _ ih =>
    rw [List.length_cons] at fit
    have same := given gave
    simpa using ih (by rw [nextReadyOrder_wake]; omega)
  | full _ gave full =>
    rw [List.length_cons] at fit
    have same := given gave
    unfold OrdersExhausted at full
    omega

/-! ### The operations -/

/-- A failed run that leaves the state it started in. -/
def Refuses {α : Type} (k : Kernel) (m : KernelM α) : Prop := Fails (· = k) k m

theorem refuses_orFail {α β : Type} {o : Option α} {e : KernelError} {f : α → KernelM β}
    (h : ∀ a, o = some a → Refuses k (f a)) : Refuses k (orFail o e >>= f) := by
  cases o with
  | none => exact fails_throw _ rfl
  | some a => exact h a rfl

theorem refuses_failIf {c : Prop} [Decidable c] {e : KernelError} {β : Type} {f : Unit → KernelM β}
    (h : ¬ c → Refuses k (f ())) : Refuses k (failIf c e >>= f) := by
  unfold failIf
  by_cases holds : c
  · rw [if_pos holds]
    exact fails_throw _ rfl
  · rw [if_neg holds]
    exact h holds

theorem refuses_check {α β : Type} {r : Except KernelError α} {f : α → KernelM β}
    (h : ∀ a, r = .ok a → Refuses k (f a)) : Refuses k (check r >>= f) := by
  cases r with
  | error e => exact fails_throw _ rfl
  | ok a => exact h a rfl

theorem refuses_createThread (spec : ThreadSpec) (guestRange : GuestRange) :
    Refuses k (createThread spec guestRange) := by
  unfold createThread
  refine refuses_check fun _ _ => refuses_check fun _ _ => refuses_failIf fun _ => ?_
  refine refuses_check fun _ _ => refuses_check fun _ _ => refuses_orFail fun top _ => ?_
  refine fails_get_bind (refuses_check fun (id, threads) _ => ?_)
  exact fails_of_ok rfl

theorem refuses_startThread (id : ℕ) (argument : Word) : Refuses k (startThread id argument) := by
  unfold startThread startThreadWithContext
  refine fails_get_bind (refuses_orFail fun thread _ => refuses_failIf fun _ => ?_)
  by_cases fit : k.nextReadyOrder + 1 < 2 ^ 64
  · refine Fails.bind (fails_of_ok (takeReadyOrder_of_fit fit)) fun order t _ => ?_
    exact fails_modify _
  · intro e t run
    rw [run_bind, takeReadyOrder_of_full (not_lt.mp fit)] at run
    cases run
    rfl

theorem startThread_order (spare : k.Spare) {id : ℕ} {argument : Word} {u : Unit}
    (ran : (startThread id argument).run k = .ok u k') : k'.nextReadyOrder = k.nextReadyOrder + 1 := by
  unfold startThread startThreadWithContext at ran
  rw [run_get_bind] at ran
  cases found : k.threads.get id with
  | none => simp [found, orFail] at ran
  | some thread =>
    by_cases dormant : thread.state = .dormant
    · simp only [run_bind, found, orFail, run_okOr_some, failIf, dormant, ne_eq,
        not_true_eq_false, if_false, run_pure, takeReadyOrder_of_fit spare.fit,
        run_modify] at ran
      cases ran
      rfl
    · simp [found, orFail, failIf, dormant, run_bind] at ran

theorem refuses_deleteThread (id : ℕ) : Refuses k (deleteThread id) := by
  unfold deleteThread
  refine fails_get_bind (refuses_orFail fun thread found => refuses_failIf fun _ => ?_)
  refine fails_of_ok (a := thread) (t := { k with threads := (k.threads.remove id).2 }) ?_
  simp [run_bind, FixedTable.remove_fst, found, orFail]

theorem refuses_changePriority (id priority : ℕ) : Refuses k (changePriority id priority) := by
  unfold changePriority
  refine fails_get_bind (refuses_orFail fun thread _ => ?_)
  split
  · exact refuses_check fun _ _ => fails_of_ok rfl
  · exact fails_pure _

theorem refuses_wakeupThread (spare : k.Spare) (id : ℕ) : Refuses k (wakeupThread id) := by
  unfold wakeupThread
  refine fails_get_bind (refuses_orFail fun thread found => ?_)
  split
  next sleeping =>
    have waiting : k.waitReasonOf id = some .sleep :=
      waitReasonOf_eq_some.mpr ⟨thread, found, sleeping⟩
    refine fails_of_ok (a := true) (t := k.wake id 0 none) ?_
    simp only [run_bind, completeWait_of_waiting waiting spare.fit, run_pure]
  next => exact refuses_orFail fun count _ => fails_of_ok rfl

theorem refuses_releaseWait (spare : k.Spare) (id : ℕ) : Refuses k (releaseWait id) := by
  unfold releaseWait
  refine fails_get_bind (refuses_orFail fun thread found => refuses_orFail fun reason waits => ?_)
  have core : (k.removeWaiter id reason).core = k.core := by cases reason <;> rfl
  have waiting : (k.removeWaiter id reason).waitReasonOf id = some reason := by
    have kept : (k.removeWaiter id reason).waitReasonOf id = k.waitReasonOf id :=
      (congrArg (·.waitReasonOf id) core :)
    rw [kept, Kernel.waitReasonOf, found]
    exact waits
  have fit : (k.removeWaiter id reason).nextReadyOrder + 1 < 2 ^ 64 := by
    have kept : (k.removeWaiter id reason).nextReadyOrder = k.nextReadyOrder :=
      (congrArg Kernel.nextReadyOrder core :)
    rw [kept]
    exact spare.fit
  exact fails_of_ok (completeWait_of_waiting waiting fit)

theorem refuses_signalSemaphore (exact_ : k.ExactQueues) (spare : k.Spare) (id : ℕ) :
    Refuses k (signalSemaphore id) := by
  cases found : k.semaphores.get id with
  | none =>
    intro e t run
    simp only [signalSemaphore, run_bind, run_get, found, orFail, run_okOr_none] at run
    cases run
    rfl
  | some value =>
    have queue : k.queue (.semaphore id) = value.waiters :=
      queue_of_record (r := .semaphore value) (by simp [record?, found])
    have determined (other : WaitReason) (object : other.object = some (.semaphore id)) :
        other = .semaphore id := by
      cases other <;> simp_all [WaitReason.object]
    have run := signalSemaphore_run found
    rw [stillWaiting_of_exact exact_ determined queue] at run
    cases waiters : value.waiters with
    | nil =>
      -- an empty queue was not changed in front of the count's check
      have same : k.queueSemaphore id [] = k := by
        rw [← waiters]
        simp only [queueSemaphore, modifySemaphore, FixedTable.modify_of_get found]
      rw [waiters] at run
      intro e t failed
      rw [run] at failed
      dsimp only at failed
      split at failed
      · cases failed
        exact same
      · cases failed
    | cons thread rest =>
      rw [waiters] at run
      refine fails_of_ok (a := some thread) (t := (k.queueSemaphore id rest).wake thread 0 none) ?_
      rw [run]
      exact if_pos spare.fit

theorem refuses_setEventFlag (exact_ : k.ExactQueues) (spare : k.Spare) (id : ℕ) (bits : Word) :
    Refuses k (setEventFlag id bits) := by
  cases found : k.eventFlags.get id with
  | none =>
    intro e t run
    simp only [setEventFlag, run_bind, run_get, found, orFail, run_okOr_none] at run
    cases run
    rfl
  | some event =>
    obtain ⟨result, k', rounds, run⟩ := setEventFlag_run bits found
    have queue : k.queue (.eventFlag id) = event.waiters :=
      queue_of_record (r := .eventFlag event) (by simp [record?, found])
    have length := exact_.length_le (.eventFlag id)
    have fit : (k.setBits id bits).nextReadyOrder + event.waiters.length < 2 ^ 64 := by
      rw [← queue]
      unfold Spare at spare
      show k.nextReadyOrder + _ < _
      omega
    obtain ⟨r, returned⟩ :=
      Option.ne_none_iff_exists'.mp (rounds.finishes (serving_eventFlag id) fit)
    rw [returned] at run
    exact fails_of_ok run

theorem refuses_clearEventFlag (id : ℕ) (mask : Word) : Refuses k (clearEventFlag id mask) := by
  unfold clearEventFlag
  exact fails_get_bind (refuses_orFail fun event _ => fails_of_ok rfl)

/-- An immediate operation that fails leaves the state it started in. -/
theorem step_refuses (exact_ : k.ExactQueues) (spare : k.Spare) (immediate : op.immediate = true)
    (context : CpuContext) : Refuses k (step op context) := by
  by_cases creates : op.creates = true
  · rcases step_creates (k := k) creates context with ⟨e, failed⟩ | ⟨id, o, r, k', ran, -, -⟩
    · intro e' t run
      rw [failed] at run
      cases run
      rfl
    · exact fails_of_ok ran
  have deletes {o : Obj} (deletes : op.deletes = some o) : Refuses k (step op context) := by
    rcases step_deletes (k := k) deletes context with ⟨e, failed⟩ | ⟨r, found, ran⟩
    · intro e' t run
      rw [failed] at run
      cases run
      rfl
    · have length := exact_.length_le o
      rw [queue_of_record found] at length
      have order : (k.without o).nextReadyOrder = k.nextReadyOrder := by cases o <;> rfl
      obtain ⟨k', released⟩ := releaseDeletedWaiters_ok (k := k.without o) r.waiters (by
        unfold Spare at spare
        omega)
      exact fails_of_ok (by rw [ran, run_map, released])
  have takes (takes : op.takes = true) (never : ¬ k.MustWait op) : Refuses k (step op context) := by
    obtain ⟨_, -, waits⟩ | ⟨e, failed⟩ | ⟨reply, k', ran, -⟩ := step_takes (k := k) takes context
    · exact absurd waits never
    · intro e' t run
      rw [failed] at run
      cases run
      rfl
    · exact fails_of_ok ran
  cases op with
  | createThread spec range => exact (refuses_createThread spec range).map _
  | startThread id argument => exact (refuses_startThread id argument).map _
  | deleteThread id => exact (refuses_deleteThread id).map _
  | changePriority id priority => exact (refuses_changePriority id priority).map _
  | wakeupThread id => exact (refuses_wakeupThread spare id).map _
  | releaseWait id => exact (refuses_releaseWait spare id).map _
  | signalSemaphore id => exact (refuses_signalSemaphore exact_ spare id).map _
  | setEventFlag id bits => exact (refuses_setEventFlag exact_ spare id bits).map _
  | clearEventFlag id mask => exact (refuses_clearEventFlag id mask).map _
  | deleteSemaphore id => exact deletes rfl
  | deleteEventFlag id => exact deletes rfl
  | pollSemaphore id => exact takes rfl False.elim
  | pollEventFlag id pattern mode => exact takes rfl False.elim
  | createSemaphore | createEventFlag => exact absurd rfl creates
  | _ => cases immediate

/-! ### Blocking operations -/

/-- Whether an operation may take the CPU from its caller. -/
def Op.blocking : Op → Bool
  | .exitCurrent | .exitDeleteCurrent | .reschedule _ | .sleepCurrent | .delayCurrent _ => true
  | .waitVblank phase => decide (phase < 2)
  | .waitSemaphore _ timeout | .waitEventFlag _ _ _ timeout => timeout.isNone
  | _ => false

/-- The caller runs in a thread where it may block, and names an object that lets it wait. -/
def Kernel.Admits (k : Kernel) : Op → Prop
  | .exitCurrent | .exitDeleteCurrent | .sleepCurrent | .waitVblank _ => k.currentThread ≠ none
  | .delayCurrent ticks => ticks = 0 ∨ 2 ^ 64 ≤ k.now + ticks ∨ k.currentThread ≠ none
  | .waitSemaphore id _ => ∃ semaphore, k.semaphores.get id = some semaphore ∧
      (semaphore.count ≠ 0 ∨ k.currentThread ≠ none)
  | .waitEventFlag id pattern mode _ => validateEventWait pattern mode = .ok () ∧
      k.currentThread ≠ none ∧ ∃ event, k.eventFlags.get id = some event ∧
        (satisfied event.bits pattern mode = true ∨ event.attributes &&& 2 ≠ 0 ∨ event.waiters = [])
  | _ => True

/-- A run returns, or fails with an error that is not the kernel's. -/
def Accepts {α : Type} (k : Kernel) (m : KernelM α) : Prop :=
  ∀ e t, m.run k ≠ .error (.kernel e) t

theorem accepts_of_ok {α : Type} {m : KernelM α} {a : α} (ran : m.run k = .ok a k') :
    Accepts k m := by
  intro e t failed
  rw [ran] at failed
  cases failed

theorem not_accepts {α : Type} {m : KernelM α} (e : KernelError) (t : Kernel)
    (failed : m.run k = .error (.kernel e) t) : ¬ Accepts k m :=
  fun accepts => accepts e t failed

theorem Accepts.map {α β : Type} {m : KernelM α} (f : α → β) :
    Accepts k (f <$> m) ↔ Accepts k m := by
  unfold Accepts
  refine forall_congr' fun e => forall_congr' fun t => not_congr ?_
  rw [run_map]
  cases m.run k with
  | ok a u => exact ⟨nofun, nofun⟩
  | error e' u => exact ⟨fun same => by cases same; rfl, fun same => by cases same; rfl⟩

section Rules

variable {α β : Type}
variable {f : α → KernelM β}

theorem accepts_check_bind {r : Except KernelError α} :
    Accepts k (check r >>= f) ↔ ∃ a, r = .ok a ∧ Accepts k (f a) := by
  cases r with
  | error e => exact iff_of_false (not_accepts e k rfl) fun ⟨_, failed, _⟩ => by cases failed
  | ok a => exact ⟨fun h => ⟨a, rfl, h⟩, fun ⟨_, same, h⟩ => by cases same; exact h⟩

theorem accepts_failIf_bind {c : Prop} [Decidable c] {e : KernelError} {f : Unit → KernelM β} :
    Accepts k (failIf c e >>= f) ↔ ¬ c ∧ Accepts k (f ()) := by
  unfold failIf
  split
  next hc => exact iff_of_false (not_accepts e k rfl) fun h => h.1 hc
  next hc => exact ⟨fun h => ⟨hc, h⟩, And.right⟩

theorem accepts_orFail_bind {o : Option α} {e : KernelError} :
    Accepts k (orFail o e >>= f) ↔ ∃ a, o = some a ∧ Accepts k (f a) := by
  cases o with
  | none => exact iff_of_false (not_accepts e k rfl) fun ⟨_, failed, _⟩ => by cases failed
  | some a => exact ⟨fun h => ⟨a, rfl, h⟩, fun ⟨_, same, h⟩ => by cases same; exact h⟩

theorem accepts_bind_of_ok {m : KernelM α} {a : α} (ran : m.run k = .ok a k') :
    Accepts k (m >>= f) ↔ Accepts k' (f a) := by
  unfold Accepts
  rw [run_bind_of_ok ran]

end Rules

variable {id : ℕ}

theorem blockCurrent_ok (sound : k.RunningSound) (running : k.currentThread = some id)
    (context : CpuContext) (reason : WaitReason) :
    ∃ result k', (blockCurrent context reason none).run k = .ok result k' := by
  obtain ⟨thread, found, -⟩ := sound.found running
  have armed : k.arm id none = .ok k.scheduler := rfl
  exact ⟨_, _, blockCurrent_of_armed running found armed context reason⟩

theorem select_ok (sound : k.RunningSound) (fit : k.nextReadyOrder + 1 < 2 ^ 64) (context : CpuContext)
    (previous : Option ℕ) (force : Bool) :
    ∃ result k', (select context previous force).run k = .ok result k' := by
  cases running : k.currentThread with
  | none => exact ⟨_, _, select_of_none running context previous force⟩
  | some id =>
    obtain ⟨thread, found, state⟩ := sound.found running
    by_cases stays : ∀ other thread', k.bestReady = some other →
        k.threads.get other = some thread' → force = false ∧ thread.currentPriority ≤ thread'.currentPriority
    · exact ⟨_, _, select_of_stays running found stays context previous⟩
    · simp only [not_forall] at stays
      obtain ⟨other, thread', best, found', switches⟩ := stays
      have ne : other ≠ id := by
        rintro rfl
        obtain ⟨record, found'', ready, -⟩ := bestReady_eq_some best
        rw [found] at found''
        cases found''
        exact absurd (state.symm.trans ready) (by decide)
      have switches : force = true ∨ thread'.currentPriority < thread.currentPriority := by
        by_cases forced : force = true
        · exact .inl forced
        · rw [Bool.not_eq_true] at forced
          exact .inr (not_le.mp fun le => switches ⟨forced, le⟩)
      have ran := select_of_switches running found best found' ne switches context previous
      rw [if_pos fit] at ran
      exact ⟨_, _, ran⟩

theorem reschedule_ok (sound : k.RunningSound) (fit : k.nextReadyOrder + 1 < 2 ^ 64)
    (context : CpuContext) (reason : RescheduleReason) :
    ∃ result k', (reschedule context reason).run k = .ok result k' := by
  unfold reschedule
  cases running : k.currentThread with
  | none =>
    obtain ⟨result, k', ran⟩ := select_ok sound fit context none (reason = .yield)
    refine ⟨result, k', ?_⟩
    simp only [run_bind, run_get, running, saveCurrent, run_pure, ran]
  | some id =>
    obtain ⟨thread, found, state⟩ := sound.found running
    let saved := k.modifyThread id fun thread => { thread with context := context }
    have saves : k.Does .save saved := .save running
    have savedSound : saved.RunningSound := saves.runningSound sound
    obtain ⟨result, k', ran⟩ := select_ok (k := saved) savedSound fit context (some id)
      (reason = .yield)
    refine ⟨result, k', ?_⟩
    have save : (saveCurrent context).run k = .ok () saved := by
      simp [saveCurrent, run_bind, running, found, orFail, failIf, state, saved]
    simp only [run_bind, run_get, running, save, ran]

theorem exitCurrent_ok (sound : k.RunningSound) (running : k.currentThread = some id)
    (context : CpuContext) : ∃ result k', (exitCurrent context).run k = .ok result k' := by
  obtain ⟨thread, found, -⟩ := sound.found running
  have ran : (exitCurrent context).run k =
      (select context (some id) true).run (k.retire id context) := by
    simp only [exitCurrent, run_bind, run_get, running, orFail, run_okOr_some,
      run_modify, found]
    rfl
  exact ⟨_, _, ran.trans (select_of_none rfl context (some id) true)⟩

theorem exitDeleteCurrent_ok (sound : k.RunningSound) (running : k.currentThread = some id)
    (context : CpuContext) : ∃ result k', (exitDeleteCurrent context).run k = .ok result k' := by
  obtain ⟨thread, found, -⟩ := sound.found running
  have ran : (exitDeleteCurrent context).run k =
      (select context (some id) true).run (k.expunge id) := by
    simp only [exitDeleteCurrent, run_bind, run_get, running, orFail, run_okOr_some,
      run_modify, FixedTable.remove_fst, found]
    rfl
  exact ⟨_, _, ran.trans (select_of_none rfl context (some id) true)⟩

theorem sleepCurrent_ok (sound : k.RunningSound) (running : k.currentThread = some id)
    (context : CpuContext) : ∃ result k', (sleepCurrent context).run k = .ok result k' := by
  obtain ⟨thread, found, -⟩ := sound.found running
  by_cases retained : thread.wakeupCount ≠ 0
  · refine ⟨(⟨some id, some id, false⟩, context), k.modifyThread id fun thread =>
      { thread with wakeupCount := thread.wakeupCount - 1 }, ?_⟩
    simp only [sleepCurrent, run_bind, run_get, running, orFail, run_okOr_some, found,
      if_pos retained, run_modify, run_pure]
  · obtain ⟨result, k', blocked⟩ := blockCurrent_ok sound running context .sleep
    refine ⟨result, k', ?_⟩
    simp only [sleepCurrent, run_bind, run_get, running, orFail, run_okOr_some, found,
      if_neg retained, blocked]

theorem mustWait_ok (sound : k.RunningSound) (running : k.currentThread = some id)
    (waits : k.MustWait op) (untimed : op.timeout = none) (context : CpuContext) :
    ∃ reply k', (step op context).run k = .ok reply k' := by
  obtain ⟨enqueue, reason, o, -, -, enqueues, ran⟩ := step_of_mustWait running waits context
  have arms (ticks : Ticks) (timed : op.timeout = some ticks) : ¬ k.CannotArm ticks := by
    rw [untimed] at timed
    cases timed
  obtain ⟨context', scheduler, returned⟩ :=
    enqueueAndBlock_ok enqueues.1 sound running arms context reason
  exact ⟨_, _, by rw [ran, run_map, returned]⟩

theorem delayCurrent_accepts_iff (sound : k.RunningSound) (spare : k.Spare) (ticks : Ticks)
    (context : CpuContext) :
    Accepts k (delayCurrent ticks context) ↔ k.Admits (.delayCurrent ticks) := by
  by_cases zero : ticks = 0
  · obtain ⟨result, k', ran⟩ := reschedule_ok sound spare.fit context .yield
    have yields : (delayCurrent ticks context).run k = .ok result k' := by
      simp only [delayCurrent, if_pos zero, ran]
    exact iff_of_true (accepts_of_ok yields) (.inl zero)
  by_cases overflow : 2 ^ 64 ≤ k.now + ticks
  · refine iff_of_true (fun e t failed => ?_) (.inr (.inl overflow))
    simp only [delayCurrent, if_neg zero, run_bind, waitDeadline_of_le overflow] at failed
    cases failed
  have unfolded : (delayCurrent ticks context).run k =
      (blockCurrent context .delay (some (k.now + ticks))).run k := by
    simp only [delayCurrent, if_neg zero, run_bind, waitDeadline_of_lt (not_le.mp overflow)]
  have admits : k.Admits (.delayCurrent ticks) ↔ k.currentThread ≠ none := by
    simp only [Admits, zero, overflow, false_or]
  rw [admits]
  cases running : k.currentThread with
  | none =>
    refine iff_of_false (not_accepts .cannotWait k ?_) fun held => held rfl
    rw [unfolded, blockCurrent_of_none running]
  | some id =>
    obtain ⟨thread, found, -⟩ := sound.found running
    obtain ⟨scheduler, armed⟩ := arm_of_fits k id (k.now + ticks) spare.2
    have ran := blockCurrent_of_armed running found armed context .delay
    exact iff_of_true (accepts_of_ok (unfolded.trans ran)) (Option.some_ne_none id)

/-- A blocking operation fails for a kernel error exactly where it is not admitted. -/
theorem step_accepts_iff (sound : k.RunningSound) (spare : k.Spare) (blocking : op.blocking = true)
    (context : CpuContext) : Accepts k (step op context) ↔ k.Admits op := by
  have caller {m : KernelM (ScheduleAction × CpuContext)} (e : KernelError)
      (idle : k.currentThread = none → m.run k = .error (.kernel e) k)
      (runs : ∀ id, k.currentThread = some id → ∃ result k', m.run k = .ok result k') :
      Accepts k m ↔ k.currentThread ≠ none := by
    cases running : k.currentThread with
    | none => exact iff_of_false (not_accepts _ _ (idle running)) fun h => h rfl
    | some id =>
      obtain ⟨result, k', ran⟩ := runs id running
      exact iff_of_true (accepts_of_ok ran) (Option.some_ne_none id)
  cases op with
  | exitCurrent =>
    refine (Accepts.map _).trans (caller .illegalContext (fun idle => ?_) fun id running =>
      exitCurrent_ok sound running context)
    simp only [exitCurrent, run_bind, run_get, idle, orFail, run_okOr_none]
  | exitDeleteCurrent =>
    refine (Accepts.map _).trans (caller .illegalContext (fun idle => ?_) fun id running =>
      exitDeleteCurrent_ok sound running context)
    simp only [exitDeleteCurrent, run_bind, run_get, idle, orFail, run_okOr_none]
  | sleepCurrent =>
    refine (Accepts.map _).trans (caller .illegalContext (fun idle => ?_) fun id running =>
      sleepCurrent_ok sound running context)
    simp only [sleepCurrent, run_bind, run_get, idle, orFail, run_okOr_none]
  | waitVblank phase =>
    have valid : phase < 2 := of_decide_eq_true blocking
    obtain ⟨reason, named⟩ : ∃ reason, vblankReason phase = .ok reason := by
      obtain rfl | rfl : phase = 0 ∨ phase = 1 := by omega
      · exact ⟨_, rfl⟩
      · exact ⟨_, rfl⟩
    have unfolded : (waitVblank phase context).run k = (blockCurrent context reason none).run k := by
      simp only [waitVblank, run_bind, check, named, run_pure]
    refine (Accepts.map _).trans (caller .cannotWait (fun idle => ?_) fun id running => ?_)
    · rw [unfolded, blockCurrent_of_none idle]
    · rw [unfolded]
      exact blockCurrent_ok sound running context reason
  | reschedule reason =>
    obtain ⟨result, k', ran⟩ := reschedule_ok sound spare.fit context reason
    exact (Accepts.map _).trans (iff_of_true (accepts_of_ok ran) trivial)
  | delayCurrent ticks =>
    exact (Accepts.map _).trans (delayCurrent_accepts_iff sound spare ticks context)
  | waitSemaphore id timeout =>
    obtain rfl : timeout = none := Option.isNone_iff_eq_none.mp blocking
    constructor
    · intro accepts
      obtain ⟨semaphore, found, rest⟩ := accepts_orFail_bind.mp ((Accepts.map _).mp accepts)
      refine ⟨semaphore, found, ?_⟩
      by_cases taken : semaphore.count ≠ 0
      · exact .inl taken
      · rw [if_neg taken] at rest
        obtain ⟨caller, running, -⟩ := accepts_orFail_bind.mp rest
        exact .inr (running ▸ Option.some_ne_none caller)
    · rintro ⟨semaphore, found, admitted⟩
      by_cases taken : semaphore.count ≠ 0
      · refine (Accepts.map _).mpr (accepts_orFail_bind.mpr ⟨semaphore, found, ?_⟩)
        rw [if_pos taken]
        exact accepts_of_ok rfl
      · obtain ⟨caller, running⟩ := Option.ne_none_iff_exists'.mp (admitted.resolve_left taken)
        have waits : k.MustWait (.waitSemaphore id none) := ⟨semaphore, found, not_not.mp taken⟩
        obtain ⟨reply, k', ran⟩ := mustWait_ok sound running waits rfl context
        exact accepts_of_ok ran
  | waitEventFlag id pattern mode timeout =>
    obtain rfl : timeout = none := Option.isNone_iff_eq_none.mp blocking
    constructor
    · intro accepts
      obtain ⟨_, valid, rest⟩ := accepts_check_bind.mp ((Accepts.map _).mp accepts)
      obtain ⟨caller, running, rest⟩ := accepts_orFail_bind.mp rest
      obtain ⟨event, found, rest⟩ := accepts_orFail_bind.mp rest
      refine ⟨valid, running ▸ Option.some_ne_none caller, event, found, ?_⟩
      cases holds : satisfied event.bits pattern mode with
      | true => exact .inl rfl
      | false =>
        rw [accepts_bind_of_ok (consumeEventBits_of_unsatisfied holds)] at rest
        have shared := (accepts_failIf_bind.mp rest).1
        rw [not_and_or, not_not] at shared
        exact .inr shared
    · rintro ⟨valid, held, event, found, admitted⟩
      obtain ⟨caller, running⟩ := Option.ne_none_iff_exists'.mp held
      cases holds : satisfied event.bits pattern mode with
      | true =>
        refine (Accepts.map _).mpr (accepts_check_bind.mpr ⟨(), valid, ?_⟩)
        refine accepts_orFail_bind.mpr ⟨caller, running, accepts_orFail_bind.mpr ⟨event, found, ?_⟩⟩
        rw [accepts_bind_of_ok (consumeEventBits_of_satisfied holds)]
        exact accepts_of_ok rfl
      | false =>
        have shared := admitted.resolve_left (holds ▸ Bool.false_ne_true)
        rw [← not_not (a := event.waiters = []), ← not_and_or] at shared
        have waits : k.MustWait (.waitEventFlag id pattern mode none) :=
          ⟨valid, event, found, holds, shared⟩
        obtain ⟨reply, k', ran⟩ := mustWait_ok sound running waits rfl context
        exact accepts_of_ok ran
  | _ => cases blocking

end Upse
