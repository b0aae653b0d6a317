import Upse.Bios.Kernel.Priorities

/-!
# Yielding

A yield installs the best ready thread whatever its priority, so it respects priority exactly when no
thread is ready or some ready thread's priority number is not larger than the yielding thread's.
-/

namespace Upse

open ErrorState Kernel

namespace Kernel

variable {k : Kernel} {id : ℕ} {thread : Thread}

/-- Some ready thread's priority number is at most `priority`. -/
def ReadyWithin (k : Kernel) (priority : ℕ) : Prop :=
  ∃ other thread', k.threads.get other = some thread' ∧ thread'.state = .ready ∧
    thread'.currentPriority ≤ priority

/-- No thread is ready. -/
def NoneReady (k : Kernel) : Prop :=
  ∀ other thread', k.threads.get other = some thread' → thread'.state ≠ .ready

/-- The thread that runs after a yield of the thread `id` is `id`, or was ready with a priority number
no larger; and where every ready thread's number is larger, it is `id`. -/
def YieldRespects (k k' : Kernel) (id priority : ℕ) : Prop :=
  (∀ other, k'.currentThread = some other → other = id ∨ ∃ thread',
    k.threads.get other = some thread' ∧ thread'.state = .ready ∧
      thread'.currentPriority ≤ priority) ∧
  ((∀ other thread', k.threads.get other = some thread' → thread'.state = .ready →
    priority < thread'.currentPriority) → k'.currentThread = some id)

theorem run_reschedule_yield (running : k.currentThread = some id)
    (found : k.threads.get id = some thread) (state : thread.state = .running) (context : CpuContext) :
    (reschedule context .yield).run k = (select context (some id) true).run
      (k.modifyThread id fun thread => { thread with context := context }) := by
  have saved : (saveCurrent context).run k =
      .ok () (k.modifyThread id fun thread => { thread with context := context }) := by
    simp [saveCurrent, run_bind, running, found, orFail, failIf, state]
  unfold reschedule
  rw [run_get_bind, running, run_bind_of_ok saved]
  rfl

theorem ready_of_saved (found : k.threads.get id = some thread) (state : thread.state = .running)
    (context : CpuContext) (other : ℕ) {thread' : Thread} (ready : thread'.state = .ready) :
    (k.modifyThread id fun thread => { thread with context := context }).threads.get other =
      some thread' ↔ k.threads.get other = some thread' := by
  by_cases same : other = id
  · subst same
    simp only [modifyThread, FixedTable.get_modify, if_true, found, Option.map_some, Option.some.injEq]
    constructor
    · rintro rfl
      exact absurd (state.symm.trans ready) (by decide)
    · rintro rfl
      exact absurd (state.symm.trans ready) (by decide)
  · simp only [modifyThread, FixedTable.get_modify, if_neg same]

theorem yieldRespects_iff (running : k.currentThread = some id)
    (found : k.threads.get id = some thread) (state : thread.state = .running) (context : CpuContext) :
    k.YieldRespects (leaves ((reschedule context .yield).run k)) id thread.currentPriority ↔
      k.NoneReady ∨ k.ReadyWithin thread.currentPriority := by
  rw [run_reschedule_yield running found state]
  have same {other : ℕ} {thread' : Thread} (ready : thread'.state = .ready) :=
    ready_of_saved found state context other ready
  have found' : (k.modifyThread id fun thread => { thread with context := context }).threads.get id =
      some { thread with context := context } := by
    simp [modifyThread, FixedTable.get_modify, found]
  have running' : (k.modifyThread id fun thread => { thread with context := context }).currentThread =
      some id := running
  cases best : (k.modifyThread id fun thread => { thread with context := context }).bestReady with
  | none =>
    have none : k.NoneReady := fun other thread' other_found ready =>
      bestReady_eq_none best ((same ready).mpr other_found) ready
    rw [select_of_stays running' found' (fun other thread' eq => by rw [best] at eq; cases eq)]
    refine iff_of_true ⟨fun other runs => .inl ?_, fun _ => running⟩ (.inl none)
    exact Option.some.inj (runs.symm.trans running)
  | some other =>
    obtain ⟨thread', other_found, ready, least⟩ := bestReady_eq_some best
    have ne : other ≠ id := by
      rintro rfl
      rw [found'] at other_found
      cases other_found
      exact absurd (state.symm.trans ready) (by decide)
    have before := (same ready).mp other_found
    have after : (leaves ((select context (some id) true).run
        (k.modifyThread id fun thread => { thread with context := context }))).currentThread = some other ∨
        (leaves ((select context (some id) true).run
          (k.modifyThread id fun thread => { thread with context := context }))).currentThread = none := by
      rw [select_of_switches running' found' best other_found ne (.inl rfl)]
      split
      · exact .inl rfl
      · exact .inr rfl
    by_cases within : thread'.currentPriority ≤ thread.currentPriority
    · refine iff_of_true ⟨fun next runs => ?_, fun larger => ?_⟩ (.inr ⟨other, thread', before, ready, within⟩)
      · rcases after with switched | lost
        · obtain rfl := Option.some.inj (switched.symm.trans runs)
          exact .inr ⟨thread', before, ready, within⟩
        · rw [lost] at runs
          cases runs
      · exact absurd (larger other thread' before ready) (not_lt.mpr within)
    · have larger {next : ℕ} {thread'' : Thread} (next_found : k.threads.get next = some thread'')
          (next_ready : thread''.state = .ready) : thread.currentPriority < thread''.currentPriority := by
        rcases least next thread'' ((same next_ready).mpr next_found) next_ready with lt | ⟨eq, -⟩
        · omega
        · omega
      refine iff_of_false ?_ ?_
      · rintro ⟨-, keeps⟩
        have kept := keeps fun next thread'' next_found next_ready => larger next_found next_ready
        rcases after with switched | lost
        · exact ne (Option.some.inj (switched.symm.trans kept))
        · rw [lost] at kept
          cases kept
      · rintro (none | ⟨next, thread'', next_found, next_ready, le⟩)
        · exact none other thread' before ready
        · exact absurd (larger next_found next_ready) (not_lt.mpr le)

end Kernel

/-- The calls that yield: an explicit rotation, and a delay of no ticks. -/
def Op.Yields (op : Op) : Prop := op = .reschedule .yield ∨ op = .delayCurrent 0

/-- In every state reached with a running thread, a yield hands the CPU only to a ready thread of no
larger priority number, and keeps its thread where all numbers are larger, exactly when no thread is
ready or some ready thread's number is no larger. -/
theorem yield_respects_priority_iff {calls : List Call} {k : Kernel}
    (run : Run Steps Kernel.new calls k) {id : ℕ} {thread : Thread} (running : k.currentThread = some id)
    (found : k.threads.get id = some thread) {op : Op} (yields : op.Yields) (context : CpuContext) :
    k.YieldRespects (leaves ((step op context).run k)) id thread.currentPriority ↔
      k.NoneReady ∨ k.ReadyWithin thread.currentPriority := by
  obtain ⟨sound, -⟩ := ready_orders_follow run
  obtain ⟨_, view⟩ := sound.running id running
  obtain ⟨thread', found', state, -⟩ := view_eq_some.mp view
  obtain rfl := Option.some.inj (found.symm.trans found')
  rw [← yieldRespects_iff running found state context]
  rcases yields with rfl | rfl
  · show k.YieldRespects (leaves (((fun r : ScheduleAction × CpuContext => (Reply.action r.1, r.2)) <$>
      reschedule context .yield).run k)) id thread.currentPriority ↔ _
    rw [leaves_map]
  · show k.YieldRespects (leaves (((fun r : ScheduleAction × CpuContext => (Reply.action r.1, r.2)) <$>
      delayCurrent 0 context).run k)) id thread.currentPriority ↔ _
    rw [leaves_map]
    rfl

/-- A running thread of priority 10 beside a ready thread of this priority. -/
def besideReady (priority : ℕ) : List Op :=
  [.createThread (sampleThread 10) sampleRange, .createThread (sampleThread priority) sampleRange,
    .startThread 1 0, .reschedule .hleReturn, .startThread 2 0]

/-- The priority of a thread in a state. -/
def readyPriority (k : Kernel) (id : ℕ) (state : ThreadState) : Option ℕ :=
  (k.threads.get id).bind fun thread => if thread.state = state then some thread.currentPriority else none

theorem exists_of_readyPriority {k : Kernel} {id priority : ℕ} {state : ThreadState}
    (h : readyPriority k id state = some priority) : ∃ thread, k.threads.get id = some thread ∧
      thread.state = state ∧ thread.currentPriority = priority := by
  obtain ⟨thread, found, rest⟩ := Option.bind_eq_some_iff.mp h
  split at rest
  next same => exact ⟨thread, found, same, Option.some.inj rest⟩
  next => cases rest

theorem yield_respects_priority_iff_sample : ∃ thread,
    ((Kernel.new.after sampleContext (besideReady 10)).threads.get 1 = some thread) ∧
    (Kernel.new.after sampleContext (besideReady 10)).YieldRespects
      (leaves ((step (.reschedule .yield) sampleContext).run
        (Kernel.new.after sampleContext (besideReady 10)))) 1 thread.currentPriority := by
  have running : (Kernel.new.after sampleContext (besideReady 10)).currentThread = some 1 := by
    decide +kernel
  obtain ⟨thread, found, -, priority⟩ := exists_of_readyPriority
    (show readyPriority (Kernel.new.after sampleContext (besideReady 10)) 1 .running = some 10 by
      decide +kernel)
  obtain ⟨other, found', ready, priority'⟩ := exists_of_readyPriority
    (show readyPriority (Kernel.new.after sampleContext (besideReady 10)) 2 .ready = some 10 by
      decide +kernel)
  exact ⟨thread, found, (yield_respects_priority_iff
    (run_history Kernel.new sampleContext (besideReady 10)) running found (.inl rfl) sampleContext).mpr
      (.inr ⟨2, other, found', ready, by omega⟩)⟩

/-- A thread of priority 10 that yields beside a ready thread of priority 20 loses the CPU to it. -/
theorem yield_to_lower_priority : ∃ thread,
    ((Kernel.new.after sampleContext (besideReady 20)).threads.get 1 = some thread) ∧
    thread.currentPriority = 10 ∧
    (Kernel.new.after sampleContext (besideReady 20)).currentThread = some 1 ∧
    readyPriority (Kernel.new.after sampleContext (besideReady 20)) 2 .ready = some 20 ∧
    (leaves ((step (.reschedule .yield) sampleContext).run
      (Kernel.new.after sampleContext (besideReady 20)))).currentThread = some 2 ∧
    ¬ (Kernel.new.after sampleContext (besideReady 20)).YieldRespects
      (leaves ((step (.reschedule .yield) sampleContext).run
        (Kernel.new.after sampleContext (besideReady 20)))) 1 thread.currentPriority := by
  obtain ⟨thread, found, -, priority⟩ := exists_of_readyPriority
    (show readyPriority (Kernel.new.after sampleContext (besideReady 20)) 1 .running = some 10 by
      decide +kernel)
  have ready : readyPriority (Kernel.new.after sampleContext (besideReady 20)) 2 .ready = some 20 := by
    decide +kernel
  have switched : (leaves ((step (.reschedule .yield) sampleContext).run
      (Kernel.new.after sampleContext (besideReady 20)))).currentThread = some 2 := by
    decide +kernel
  refine ⟨thread, found, priority, by decide +kernel, ready, switched, ?_⟩
  rintro ⟨hands, -⟩
  rcases hands 2 switched with same | ⟨other, found', -, le⟩
  · cases same
  · obtain ⟨other', found'', -, priority'⟩ := exists_of_readyPriority ready
    obtain rfl := Option.some.inj (found'.symm.trans found'')
    omega

end Upse
