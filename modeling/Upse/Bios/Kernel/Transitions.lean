import Upse.Bios.Kernel.Threads

/-!
# What the scheduling functions do

One transition of the kernel for each thing a scheduling function can do, and one equation for each
way it can run.
-/

namespace Upse

open ErrorState

namespace Kernel

/-! ### Reading threads -/

variable {id : ℕ} {k : Kernel}

theorem waitReasonOf_eq_some {reason : WaitReason} :
    k.waitReasonOf id = some reason ↔
      ∃ thread, k.threads.get id = some thread ∧ thread.state = .waiting reason := by
  unfold waitReasonOf
  rw [Option.bind_eq_some_iff]
  constructor
  · rintro ⟨thread, found, h⟩
    refine ⟨thread, found, ?_⟩
    cases hs : thread.state <;> rw [hs] at h <;> cases h
    rfl
  · rintro ⟨thread, found, h⟩
    exact ⟨thread, found, by rw [h]; rfl⟩

theorem waitMatches_iff {expected : WaitReason} :
    k.waitMatches id expected = true ↔ k.waitReasonOf id = some expected := by
  rw [waitReasonOf_eq_some, waitMatches, Option.any_eq_true]
  simp

theorem isWaiting_iff :
    k.isWaiting id = true ↔ ∃ reason, k.waitReasonOf id = some reason := by
  rw [isWaiting, Option.isSome_iff_exists]

theorem bestReady_eq_some (h : k.bestReady = some id) :
    ∃ thread, k.threads.get id = some thread ∧ thread.state = .ready ∧
      ∀ other thread', k.threads.get other = some thread' → thread'.state = .ready →
        thread.currentPriority < thread'.currentPriority ∨
        thread.currentPriority = thread'.currentPriority ∧
          thread.readyOrder ≤ thread'.readyOrder := by
  unfold bestReady at h
  obtain ⟨⟨_, thread⟩, hmin, rfl⟩ := Option.map_eq_some_iff.mp h
  have fits : 1 + threadCapacity ≤ 2 ^ 32 := by decide
  obtain ⟨hmem, hready⟩ := List.mem_filter.mp (List.argmin_mem hmin)
  refine ⟨thread, (FixedTable.mem_iter fits).mp hmem, by simpa using hready, ?_⟩
  intro other thread' found ready
  have candidate : (other, thread') ∈ k.threads.iter.filter fun entry => entry.2.state = .ready :=
    List.mem_filter.mpr ⟨(FixedTable.mem_iter fits).mpr found, by simpa using ready⟩
  exact Prod.Lex.toLex_le_toLex.mp (List.le_of_mem_argmin candidate hmin)

theorem bestReady_eq_none (h : k.bestReady = none) {thread : Thread}
    (found : k.threads.get id = some thread) : thread.state ≠ .ready := by
  unfold bestReady at h
  rw [Option.map_eq_none_iff, List.argmin_eq_none, List.filter_eq_nil_iff] at h
  have fits : 1 + threadCapacity ≤ 2 ^ 32 := by decide
  simpa using h (id, thread) ((FixedTable.mem_iter fits).mpr found)

/-! ### The transitions -/

/-- Cancels the timeout of a thread. -/
def disarm (k : Kernel) (id : ℕ) : Kernel :=
  { k with scheduler := (k.scheduler.cancel (waitEvent id)).2 }

/-- Ends the wait of a thread and makes it ready. -/
def wake (k : Kernel) (id : ℕ) (result : ℤ) (value : Option Word) : Kernel :=
  { (k.disarm id).modifyThread id fun thread => thread.resume result value k.nextReadyOrder with
    nextReadyOrder := k.nextReadyOrder + 1 }

/-- Starts a dormant thread. -/
def start (k : Kernel) (id : ℕ) (arguments : Word × Word × Word × Word) (returnAddress : Word) :
    Kernel :=
  { k.modifyThread id fun thread => thread.start arguments returnAddress k.nextReadyOrder with
    nextReadyOrder := k.nextReadyOrder + 1 }

/-- Makes the running thread wait, with the scheduler that holds its timeout. -/
def block (k : Kernel) (id : ℕ) (context : CpuContext) (reason : WaitReason)
    (scheduler : Scheduler) : Kernel :=
  { k.modifyThread id fun thread => { thread with context := context, state := .waiting reason } with
    currentThread := none
    scheduler := scheduler }

/-- Puts the running thread back among the ready ones. -/
def preempt (k : Kernel) (id : ℕ) (context : CpuContext) : Kernel :=
  { k.modifyThread id fun thread =>
      { thread with context := context, readyOrder := k.nextReadyOrder, state := .ready } with
    currentThread := none
    nextReadyOrder := k.nextReadyOrder + 1 }

/-- Makes the running thread dormant. -/
def retire (k : Kernel) (id : ℕ) (context : CpuContext) : Kernel :=
  { (k.modifyThread id fun thread =>
      { thread with context := context, state := .dormant, wakeupCount := 0 }).disarm id with
    currentThread := none }

/-- Removes the running thread. -/
def expunge (k : Kernel) (id : ℕ) : Kernel :=
  { k.disarm id with threads := (k.threads.remove id).2, currentThread := none }

/-- Installs a ready thread as the running one. -/
def dispatch (k : Kernel) (id : ℕ) : Kernel :=
  { k.modifyThread id fun thread => { thread with state := .running } with
    currentThread := some id }

/-- Installs the best ready thread, if there is one. -/
def dispatchBest (k : Kernel) : Kernel :=
  match k.bestReady with
  | none => k
  | some id => k.dispatch id

/-- The scheduler with the timeout of a thread armed. -/
def arm (k : Kernel) (id : ℕ) : Option Deadline → Except SchedulerError Scheduler
  | none => .ok k.scheduler
  | some deadline => k.scheduler.schedule (waitEvent id) deadline

/-! ### The threads after a transition -/

/-- The state and the ready order of a thread. -/
def view (k : Kernel) (id : ℕ) : Option (ThreadState × ℕ) :=
  (k.threads.get id).map fun thread => (thread.state, thread.readyOrder)

theorem view_eq_some {id order : ℕ} {state : ThreadState} :
    k.view id = some (state, order) ↔
      ∃ thread, k.threads.get id = some thread ∧ thread.state = state ∧
        thread.readyOrder = order := by
  simp [view, Option.map_eq_some_iff]

theorem get_modifyThread (k : Kernel) (id : ℕ) (f : Thread → Thread) (other : ℕ) :
    (k.modifyThread id f).threads.get other =
      if other = id then (k.threads.get id).map f else k.threads.get other :=
  FixedTable.get_modify k.threads id f other

theorem view_of_modify {k k' : Kernel} {thread : Thread} {f : Thread → Thread}
    (found : k.threads.get id = some thread) (threads : k'.threads = (k.modifyThread id f).threads) :
    k'.view = Function.update k.view id (some ((f thread).state, (f thread).readyOrder)) := by
  funext other
  rw [Function.update_apply]
  unfold view
  rw [threads, get_modifyThread]
  split
  next => rw [found]; rfl
  next => rfl

theorem view_modifyThread {f : Thread → Thread}
    (keeps : ∀ thread, (f thread).state = thread.state ∧ (f thread).readyOrder = thread.readyOrder) :
    (k.modifyThread id f).view = k.view := by
  funext other
  simp only [view, get_modifyThread]
  split
  next same =>
    rw [same]
    cases k.threads.get id with
    | none => rfl
    | some thread => simp [keeps thread]
  next => rfl

@[simp] theorem view_new (id : ℕ) : Kernel.new.view id = none := by simp [view, Kernel.new]

theorem view_block {thread : Thread} (found : k.threads.get id = some thread)
    (context : CpuContext) (reason : WaitReason) (scheduler : Scheduler) :
    (k.block id context reason scheduler).view =
      Function.update k.view id (some (.waiting reason, thread.readyOrder)) :=
  view_of_modify found rfl

theorem view_expunge (k : Kernel) (id : ℕ) :
    (k.expunge id).view = Function.update k.view id none := by
  funext other
  rw [Function.update_apply]
  simp only [view, expunge, FixedTable.get_remove]
  split <;> rfl

theorem waitReasonOf_eq_view (k : Kernel) (id : ℕ) :
    k.waitReasonOf id = (k.view id).bind fun v => v.1.waitReason := by
  simp only [waitReasonOf, view]
  cases k.threads.get id <;> rfl

theorem waitReasonOf_iff_view {reason : WaitReason} :
    k.waitReasonOf id = some reason ↔ ∃ order, k.view id = some (.waiting reason, order) := by
  rw [waitReasonOf_eq_some]
  simp [view_eq_some]

theorem waitReasonOf_wake (k : Kernel) (id : ℕ) (result : ℤ) (value : Option Word) (other : ℕ) :
    (k.wake id result value).waitReasonOf other =
      if other = id then none else k.waitReasonOf other := by
  have get : (k.wake id result value).threads.get other = _ := get_modifyThread (k.disarm id) _ _ _
  unfold waitReasonOf
  rw [get]
  split
  · cases (k.disarm id).threads.get id <;> rfl
  · rfl

end Kernel

open Kernel

/-! ### Running the scheduling functions -/

section Runs

variable {k : Kernel}

theorem takeReadyOrder_of_fit (fit : k.nextReadyOrder + 1 < 2 ^ 64) :
    takeReadyOrder.run k =
      .ok k.nextReadyOrder { k with nextReadyOrder := k.nextReadyOrder + 1 } := by
  have h := checkedAdd_eq_some.mpr ⟨fit, rfl⟩
  simp only [takeReadyOrder, run_bind, run_get, h]
  rfl

theorem takeReadyOrder_of_full (full : 2 ^ 64 ≤ k.nextReadyOrder + 1) :
    takeReadyOrder.run k = .error (.kernel .noMemory) k := by
  have h := checkedAdd_eq_none.mpr full
  simp only [takeReadyOrder, run_bind, run_get, h]
  rfl

variable {id : ℕ} {thread : Thread}

theorem completeWait_of_waiting {reason : WaitReason} {result : ℤ} {value : Option Word}
    (waiting : k.waitReasonOf id = some reason) (fit : k.nextReadyOrder + 1 < 2 ^ 64) :
    (completeWait id result value).run k = .ok () (k.wake id result value) := by
  obtain ⟨thread, found, state⟩ := waitReasonOf_eq_some.mp waiting
  have take : takeReadyOrder.run (k.disarm id) = .ok k.nextReadyOrder
      { k.disarm id with nextReadyOrder := k.nextReadyOrder + 1 } :=
    takeReadyOrder_of_fit (k := k.disarm id) fit
  have present : ({ k.disarm id with nextReadyOrder := k.nextReadyOrder + 1 } :
      Kernel).threads.get id = some thread := found
  have reason : thread.state.waitReason.isNone = false := by rw [state]; rfl
  simp only [completeWait, run_bind, run_modify]
  rw [show { k with scheduler := (k.scheduler.cancel (waitEvent id)).2 } = k.disarm id from rfl,
    take]
  simp only [run_get, present, orFail, run_okOr_some, reason, failIf]
  rfl

theorem completeWait_of_full {result : ℤ} {value : Option Word}
    (full : 2 ^ 64 ≤ k.nextReadyOrder + 1) :
    (completeWait id result value).run k = .error (.kernel .noMemory) (k.disarm id) := by
  have take : takeReadyOrder.run (k.disarm id) = .error (.kernel .noMemory) (k.disarm id) :=
    takeReadyOrder_of_full (k := k.disarm id) full
  simp only [completeWait, run_bind, run_modify]
  rw [show { k with scheduler := (k.scheduler.cancel (waitEvent id)).2 } = k.disarm id from rfl,
    take]

theorem completeWait_run {reason : WaitReason} (waiting : k.waitReasonOf id = some reason)
    (result : ℤ) (value : Option Word) : (completeWait id result value).run k =
      if k.nextReadyOrder + 1 < 2 ^ 64 then .ok () (k.wake id result value)
      else .error (.kernel .noMemory) (k.disarm id) := by
  split
  next fit => exact completeWait_of_waiting waiting fit
  next full => exact completeWait_of_full (not_lt.mp full)

/-- The decision of a selection that starts without a running thread. -/
def freshAction (k : Kernel) (previous : Option ℕ) : ScheduleAction :=
  match k.bestReady with
  | none => ⟨previous, none, false⟩
  | some id => ⟨previous, some id, previous ≠ some id⟩

/-- The registers a selection that starts without a running thread installs. -/
def freshContext (k : Kernel) (context : CpuContext) : CpuContext :=
  match k.bestReady.bind k.threads.get with
  | some thread => thread.context
  | none => context

theorem select_of_none (idle : k.currentThread = none) (context : CpuContext)
    (previous : Option ℕ) (force : Bool) : (select context previous force).run k =
      .ok (freshAction k previous, freshContext k context) k.dispatchBest := by
  cases hbest : k.bestReady with
  | none =>
    simp [select, shouldSwitch, run_bind, idle, hbest, dispatchBest, freshAction,
      freshContext]
  | some id =>
    obtain ⟨thread, found, -⟩ := bestReady_eq_some hbest
    simp [select, shouldSwitch, preemptCurrent, run_bind, idle, hbest, dispatchBest,
      freshAction, freshContext, orFail, found, dispatch]

theorem preemptCurrent_of_fit (running : k.currentThread = some id)
    (found : k.threads.get id = some thread) (fit : k.nextReadyOrder + 1 < 2 ^ 64)
    (context : CpuContext) : (preemptCurrent context).run k = .ok () (k.preempt id context) := by
  have take : takeReadyOrder.run { k with currentThread := none } = .ok k.nextReadyOrder
      { k with currentThread := none, nextReadyOrder := k.nextReadyOrder + 1 } :=
    takeReadyOrder_of_fit (k := { k with currentThread := none }) fit
  simp only [preemptCurrent, run_bind, run_get, running, run_modify, take,
    found, orFail, run_okOr_some]
  rfl

theorem preemptCurrent_of_full (running : k.currentThread = some id)
    (full : 2 ^ 64 ≤ k.nextReadyOrder + 1) (context : CpuContext) :
    (preemptCurrent context).run k =
      .error (.kernel .noMemory) { k with currentThread := none } := by
  have take : takeReadyOrder.run { k with currentThread := none } =
      .error (.kernel .noMemory) { k with currentThread := none } :=
    takeReadyOrder_of_full (k := { k with currentThread := none }) full
  simp only [preemptCurrent, run_bind, run_get, running, run_modify, take]

theorem select_of_stays (running : k.currentThread = some id)
    (found : k.threads.get id = some thread) {force : Bool}
    (stays : ∀ other thread', k.bestReady = some other → k.threads.get other = some thread' →
      force = false ∧ thread.currentPriority ≤ thread'.currentPriority)
    (context : CpuContext) (previous : Option ℕ) :
    (select context previous force).run k = .ok (⟨previous, some id, false⟩, context) k := by
  cases best : k.bestReady with
  | none => simp [select, shouldSwitch, run_bind, running, best]
  | some other =>
    obtain ⟨thread', found', -⟩ := bestReady_eq_some best
    obtain ⟨rfl, le⟩ := stays other thread' best found'
    simp [select, shouldSwitch, run_bind, running, best, orFail, found, found',
      Nat.not_lt.mpr le]

theorem select_of_switches {id other : ℕ} {thread thread' : Thread}
    (running : k.currentThread = some id) (found : k.threads.get id = some thread)
    (best : k.bestReady = some other) (found' : k.threads.get other = some thread')
    (ne : other ≠ id) {force : Bool}
    (switches : force = true ∨ thread'.currentPriority < thread.currentPriority)
    (context : CpuContext) (previous : Option ℕ) :
    (select context previous force).run k =
      if k.nextReadyOrder + 1 < 2 ^ 64 then
        .ok (⟨previous, some other, previous ≠ some other⟩, thread'.context)
          ((k.preempt id context).dispatch other)
      else .error (.kernel .noMemory) { k with currentThread := none } := by
  have decided : (shouldSwitch (some other) force).run k = .ok true k := by
    simpa [shouldSwitch, run_bind, running, orFail, found, found'] using switches
  split
  next fit =>
    have kept : (k.preempt id context).threads.get other = some thread' := by
      simp [Kernel.preempt, modifyThread, FixedTable.get_modify, ne, found']
    simp [select, run_bind, best, decided, preemptCurrent_of_fit running found fit, orFail,
      kept, dispatch]
  next full =>
    simp [select, run_bind, best, decided, preemptCurrent_of_full running (not_lt.mp full)]

theorem blockCurrent_of_armed (running : k.currentThread = some id)
    (found : k.threads.get id = some thread) {deadline : Option Deadline} {scheduler : Scheduler}
    (armed : k.arm id deadline = .ok scheduler) (context : CpuContext) (reason : WaitReason) :
    (blockCurrent context reason deadline).run k =
      .ok (freshAction (k.block id context reason scheduler) (some id),
          freshContext (k.block id context reason scheduler) context)
        (k.block id context reason scheduler).dispatchBest := by
  rw [← select_of_none (k := k.block id context reason scheduler) rfl context (some id) true]
  cases deadline with
  | none =>
    cases armed
    simp only [blockCurrent, armTimeout, run_bind, run_get, running, orFail,
      run_okOr_some, run_modify, found, run_pure]
    rfl
  | some deadline =>
    have armed : k.scheduler.schedule (waitEvent id) deadline = .ok scheduler := armed
    simp only [blockCurrent, armTimeout, run_bind, run_get, running, orFail,
      run_okOr_some, run_modify, found, modifyThread, armed]
    rfl

theorem blockCurrent_of_unarmed (running : k.currentThread = some id)
    (found : k.threads.get id = some thread) {deadline : Option Deadline} {e : SchedulerError}
    (unarmed : k.arm id deadline = .error e) (context : CpuContext) (reason : WaitReason) :
    (blockCurrent context reason deadline).run k =
      .error (.kernel .noMemory) (k.block id context reason k.scheduler) := by
  cases deadline with
  | none => cases unarmed
  | some deadline =>
    have unarmed : k.scheduler.schedule (waitEvent id) deadline = .error e := unarmed
    simp only [blockCurrent, armTimeout, run_bind, run_get, running, orFail,
      run_okOr_some, run_modify, found, modifyThread, unarmed, run_throw]
    rfl

theorem blockCurrent_of_none (idle : k.currentThread = none) (context : CpuContext)
    (reason : WaitReason) (deadline : Option Deadline) :
    (blockCurrent context reason deadline).run k = .error (.kernel .cannotWait) k := by
  simp only [blockCurrent, run_bind, run_get, idle, orFail, run_okOr_none]

end Runs

end Upse
