import Upse.Bios.Kernel.Waits

/-!
# Waits that fail

A wait computes its deadline after it queued the caller, so a timeout that cannot be armed leaves a
trace; every other failure of a wait leaves the kernel as it was.
-/

namespace Upse

open ErrorState Kernel

variable {k : Kernel}

/-- A failed wait on an object leaves the kernel as it was, unless the caller had to be queued and
its timeout could not be armed. -/
theorem wait_error_unchanged_iff (h : Reachable k) {op : Op} (object : op.waitsOnObject = true)
    (context : CpuContext) :
    (∀ e k', (step op context).run k = .error e k' → k' = k) ↔
      ¬ (k.currentThread ≠ none ∧ k.MustWait op ∧
        ∃ ticks, op.timeout = some ticks ∧ k.CannotArm ticks) := by
  have sound := h.runningSound
  constructor
  · rintro unchanged ⟨current, waits, ticks, timeout, cannot⟩
    obtain ⟨id, running⟩ := Option.ne_none_iff_exists'.mp current
    obtain ⟨enqueue, reason, o, -, -, enqueues, run⟩ := step_of_mustWait running waits context
    obtain ⟨e, k', failed, records⟩ :=
      enqueueAndBlock_error enqueues.1 sound running cannot context reason
    rw [timeout, run_map, failed] at run
    have same := unchanged e k' run
    exact enqueues.record_ne (by rw [← records o, same])
  · intro arms e k' run
    obtain ⟨id, running, waits⟩ | ⟨e', failed⟩ | ⟨reply, k'', returned, -⟩ :=
      step_takes (Op.takes_of_waitsOnObject object) context
    · obtain ⟨enqueue, reason, o, -, -, enqueues, run'⟩ := step_of_mustWait running waits context
      obtain ⟨context', scheduler, returned⟩ := enqueueAndBlock_ok enqueues.1 sound running
        (fun ticks timeout cannot => arms ⟨by simp [running], waits, ticks, timeout, cannot⟩) context reason
      rw [run', run_map, returned] at run
      cases run
    · rw [failed] at run
      cases run
      rfl
    · rw [returned] at run
      cases run

/-- A running thread, an empty semaphore, and five elapsed ticks. -/
def beforeOverflow : Kernel :=
  Kernel.new.after sampleContext [.createThread (sampleThread 10) sampleRange, .startThread 1 0,
    .createSemaphore ⟨0, 1, 0⟩, .reschedule .hleReturn, .advanceTo 5]

/-- A wait on a semaphore there is not, even with a timeout that does not fit, fails without a trace. -/
theorem wait_error_unchanged_sample : Reachable beforeOverflow ∧
    (step (.waitSemaphore 2 (some u64Max)) sampleContext).run beforeOverflow =
      .error (.kernel .unknownSemaphoreId) beforeOverflow := by
  refine ⟨reachable_new.after _ _, ?_⟩
  have unknown : (beforeOverflow.semaphores.get 2).isNone = true := by decide +kernel
  have present : ¬ beforeOverflow.MustWait (.waitSemaphore 2 (some u64Max)) := by
    rintro ⟨semaphore, found, -⟩
    rw [found] at unknown
    cases unknown
  have unchanged := (wait_error_unchanged_iff (reachable_new.after _ _) rfl sampleContext).mpr
    fun waits => present waits.2.1
  have failed : outcome ((step (.waitSemaphore 2 (some u64Max)) sampleContext).run beforeOverflow) =
      .error (.kernel .unknownSemaphoreId) := by decide +kernel
  cases run : (step (.waitSemaphore 2 (some u64Max)) sampleContext).run beforeOverflow with
  | ok reply k' =>
    rw [run] at failed
    cases failed
  | error e k' =>
    rw [run] at failed
    cases failed
    exact congrArg _ (unchanged _ k' run)

/-- A wait whose deadline overflows fails and leaves its caller, still running, in the queue. -/
theorem wait_overflow_leaves_waiter : Reachable beforeOverflow ∧
    ∃ k', (step (.waitSemaphore 1 (some u64Max)) sampleContext).run beforeOverflow =
        .error (.clock .overflow) k' ∧ k' ≠ beforeOverflow ∧ k'.currentThread = some 1 ∧
      beforeOverflow.queue? (.semaphore 1) = some [] ∧ k'.queue? (.semaphore 1) = some [1] := by
  refine ⟨reachable_new.after _ _, leaves ((step (.waitSemaphore 1 (some u64Max))
    sampleContext).run beforeOverflow), ?_, ?_, ?_, ?_, ?_⟩
  · have failed : outcome ((step (.waitSemaphore 1 (some u64Max)) sampleContext).run
        beforeOverflow) = .error (.clock .overflow) := by decide +kernel
    revert failed
    cases (step (.waitSemaphore 1 (some u64Max)) sampleContext).run beforeOverflow with
    | ok => intro failed; cases failed
    | error e k' => intro failed; cases failed; rfl
  · intro same
    have queue := congrArg (Kernel.queue? · (.semaphore 1)) same
    revert queue
    decide +kernel
  all_goals decide +kernel

end Upse