import Upse.Bios.Kernel.Decomposition.Calls

/-!
# Saved registers

A call that does not schedule leaves the saved registers of every thread alone, except that ending a
wait writes the result registers.  A call that schedules saves the registers of the thread it takes
the processor from, and installs the registers another thread was saved with.
-/

namespace Upse

open ErrorState Relation Kernel

/-- The registers of a thread whose wait ended: the result in `v0` and, if any, a value in `v1`. -/
def CpuContext.answered (context : CpuContext) (result : ℤ) (value : Option Word) : CpuContext :=
  match value with
  | some value => (context.setRegister v0 (BitVec.ofInt 32 result)).setRegister v1 value
  | none => context.setRegister v0 (BitVec.ofInt 32 result)

theorem Thread.context_resume (thread : Thread) (result : ℤ) (value : Option Word) (order : ℕ) :
    (thread.resume result value order).context = thread.context.answered result value := by
  cases value <;> rfl

/-! ### Calls that do not schedule -/

/-- The acts of a call that does not schedule. -/
def Act.Passive : Act → Prop
  | .exit _ | .erase _ | .block _ _ | .preempt | .lose | .dispatch | .save => False
  | _ => True

namespace Kernel

variable {k k' : Kernel} {act : Act}

/-- What a change that does not schedule does to a thread that is not dormant: nothing to its state
and its saved registers, or it ends the wait of the thread. -/
def Holds (k k' : Kernel) (t : ℕ) (W : WaitReason → ℤ → Option Word → Prop) : Prop :=
  k'.currentThread = k.currentThread ∧
  ∀ thread, k.threads.get t = some thread → thread.state ≠ .dormant →
    ∃ thread', k'.threads.get t = some thread' ∧
      (thread'.context = thread.context ∧ thread'.state = thread.state ∨
        ∃ reason result value, thread.state = .waiting reason ∧ W reason result value ∧
          thread'.state = .ready ∧ thread'.context = thread.context.answered result value)

theorem Does.holds (h : Does k act k') (passive : act.Passive) (t : ℕ) :
    k.Holds k' t fun reason result value => act = .wake t reason result value := by
  have same (current : k'.currentThread = k.currentThread) (threads : k'.threads.get t = k.threads.get t) :
      k.Holds k' t fun reason result value => act = .wake t reason result value :=
    ⟨current, fun thread found _ => ⟨thread, threads.trans found, .inl ⟨rfl, rfl⟩⟩⟩
  cases h with
  | @spawn id thread threads inserted dormant =>
    obtain ⟨-, free, -, -, get⟩ := FixedTable.insert_eq_ok inserted
    refine ⟨rfl, fun thread found _ => ⟨thread, ?_, .inl ⟨rfl, rfl⟩⟩⟩
    rw [get, if_neg, found]
    rintro rfl
    rw [free] at found
    cases found
  | @reap id thread found dormant =>
    refine ⟨rfl, fun thread' found' alive => ⟨thread', ?_, .inl ⟨rfl, rfl⟩⟩⟩
    rw [FixedTable.get_remove, if_neg, found']
    rintro rfl
    rw [found] at found'
    cases found'
    exact alive dormant
  | @start id thread _ _ found dormant _ =>
    refine ⟨rfl, fun thread' found' alive => ⟨thread', ?_, .inl ⟨rfl, rfl⟩⟩⟩
    refine (get_modifyThread k id _ t).trans ?_
    rw [if_neg, found']
    rintro rfl
    rw [found] at found'
    cases found'
    exact alive dormant
  | @wake id reason result value waiting _ =>
    refine ⟨rfl, fun thread found _ => ?_⟩
    have get : (k.wake id result value).threads.get t = _ := get_modifyThread (k.disarm id) id _ t
    by_cases eq : t = id
    · subst eq
      obtain ⟨thread', found', waits⟩ := waitReasonOf_eq_some.mp waiting
      have found'' : (k.disarm t).threads.get t = some thread := found
      rw [found] at found'
      cases found'
      rw [if_pos rfl, found''] at get
      exact ⟨_, get, .inr ⟨reason, result, value, waits, rfl, rfl, Thread.context_resume _ _ _ _⟩⟩
    · rw [if_neg eq] at get
      exact ⟨thread, get.trans found, .inl ⟨rfl, rfl⟩⟩
  | @adjust id f keeps =>
    refine ⟨rfl, fun thread found _ => ?_⟩
    have get := get_modifyThread k id f t
    by_cases eq : t = id
    · subst eq
      rw [if_pos rfl, found] at get
      exact ⟨_, get, .inl ⟨(keeps thread).2.2, (keeps thread).1⟩⟩
    · rw [if_neg eq] at get
      exact ⟨thread, get.trans found, .inl ⟨rfl, rfl⟩⟩
  | create core _ _ =>
    exact same (congrArg Kernel.currentThread core :) (congrArg (·.threads.get t) core :)
  | touch core _ _ =>
    exact same (congrArg Kernel.currentThread core :) (congrArg (·.threads.get t) core :)
  | unqueue _ =>
    exact same (congrArg Kernel.currentThread (core_removeWaiter k _ _) :)
      (congrArg (·.threads.get t) (core_removeWaiter k _ _) :)
  | exit _ => exact passive.elim
  | erase _ => exact passive.elim
  | block _ _ => exact passive.elim
  | stall _ _ => exact passive.elim
  | preempt _ _ => exact passive.elim
  | lose _ => exact passive.elim
  | dispatch _ _ => exact passive.elim
  | save _ => exact passive.elim
  | _ => exact same rfl rfl

theorem Acts.holds {L : Act → Prop} (h : Acts L k k') (passive : ∀ act, L act → act.Passive) (t : ℕ) :
    k.Holds k' t fun reason result value => L (.wake t reason result value) := by
  refine h.preserves (I := fun a => k.Holds a t fun reason result value =>
    L (.wake t reason result value)) ⟨rfl, fun thread found _ => ⟨thread, found, .inl ⟨rfl, rfl⟩⟩⟩ ?_
  intro a b act allowed does before
  have next := does.holds (passive act allowed) t
  refine ⟨next.1.trans before.1, fun thread found alive => ?_⟩
  obtain ⟨middle, found', kept | ⟨reason, result, value, waits, wakes, ready, answered⟩⟩ :=
    before.2 thread found alive
  · -- the thread was as before, so this change decides
    obtain ⟨last, found'', kept' | ⟨reason, result, value, waits, wakes, ready, answered⟩⟩ :=
      next.2 middle found' (kept.2 ▸ alive)
    · exact ⟨last, found'', .inl ⟨kept'.1.trans kept.1, kept'.2.trans kept.2⟩⟩
    · refine ⟨last, found'', .inr ⟨reason, result, value, kept.2.symm.trans waits, ?_, ready, ?_⟩⟩
      · show L (.wake t reason result value)
        exact wakes ▸ allowed
      · rw [answered, kept.1]
  · -- a ready thread is woken by no further change
    obtain ⟨last, found'', kept' | ⟨reason', -, -, waits', -⟩⟩ :=
      next.2 middle found' (by rw [ready]; exact ThreadState.noConfusion)
    · exact ⟨last, found'', .inr ⟨reason, result, value, waits, wakes, kept'.2.trans ready,
        kept'.1.trans answered⟩⟩
    · rw [ready] at waits'
      cases waits'

end Kernel

variable {k k' : Kernel} {op : Op} {context : CpuContext}

theorem Op.Performs.passive (unscheduled : op.schedules = false) {act : Act}
    (performs : op.Performs k act) : act.Passive := by
  cases act with
  | exit id => exact absurd performs.2 (by simp [unscheduled])
  | erase id => exact absurd performs.2 (by simp [unscheduled])
  | block id reason => exact absurd performs.2 (by simp [unscheduled])
  | preempt => exact absurd performs (by simp [Op.Performs, unscheduled])
  | lose => exact absurd performs (by simp [Op.Performs, unscheduled])
  | dispatch => exact absurd performs (by simp [Op.Performs, unscheduled])
  | save => exact absurd performs (by simp [Op.Performs, unscheduled])
  | _ => trivial

/-- A call that does not schedule keeps the running thread and the saved registers of every thread,
but for the waits it ends. -/
theorem step_holds (sound : k.RunningSound) (lives : op ≠ .reset) (unscheduled : op.schedules = false)
    (context : CpuContext) (t : ℕ) :
    k.Holds (leaves ((step op context).run k)) t fun reason result value =>
      op.Answers k t reason result value := by
  have acts := (step_performs sound lives context).holds
    (fun _ performs => performs.passive unscheduled) t
  refine ⟨acts.1, fun thread found alive => ?_⟩
  obtain ⟨thread', found', kept | ⟨reason, result, value, waits, performs, woken⟩⟩ :=
    acts.2 thread found alive
  · exact ⟨thread', found', .inl kept⟩
  · exact ⟨thread', found', .inr ⟨reason, result, value, waits, performs.2, woken⟩⟩

end Upse

/-!
## Context switches

A call that schedules leaves the processor to the running thread with its registers, or saves them in
its record and installs the registers a ready thread was saved with.  Between the call that takes the
processor from a thread and the call that gives it back, only the end of its wait changes its saved
registers.
-/

namespace Upse

open ErrorState Kernel

variable {k k' : Kernel} {context : CpuContext} {α β : Type}

/-! ### Handing over the processor -/

/-- The thread has the same saved registers in `k'`, and the same state if it is not running there. -/
def Kernel.SavedIn (k' : Kernel) (t : ℕ) (thread : Thread) : Prop :=
  ∃ thread', k'.threads.get t = some thread' ∧ thread'.context = thread.context ∧
    (k'.currentThread ≠ some t → thread'.state = thread.state)

theorem Kernel.SavedIn.of_get {t : ℕ} {thread : Thread} (found : k.threads.get t = some thread) :
    k.SavedIn t thread :=
  ⟨thread, found, rfl, fun _ => rfl⟩

theorem Kernel.SavedIn.dispatch {t : ℕ} {thread : Thread} (found : k.threads.get t = some thread)
    (other : ℕ) : (k.dispatch other).SavedIn t thread := by
  have get : (k.dispatch other).threads.get t = _ := get_modifyThread k other _ t
  by_cases same : t = other
  · subst same
    rw [if_pos rfl, found] at get
    exact ⟨_, get, rfl, fun off => absurd rfl off⟩
  · rw [if_neg same] at get
    exact .of_get (get.trans found)

theorem Kernel.SavedIn.dispatchBest {t : ℕ} {thread : Thread}
    (found : k.threads.get t = some thread) : k.dispatchBest.SavedIn t thread := by
  unfold Kernel.dispatchBest
  split
  · exact .of_get found
  next other _ => exact .dispatch found other

/-- The outcome of a call that schedules in the CPU context `context`. -/
structure HandsOver (context : CpuContext) (k : Kernel)
    (r : EStateM.Result BiosError Kernel (α × CpuContext)) : Prop where
  bystander : ∀ t thread, k.currentThread ≠ some t → k.threads.get t = some thread →
    (leaves r).SavedIn t thread
  stays : ∀ t a context' k', r = .ok (a, context') k' → k.currentThread = some t →
    k'.currentThread = some t → context' = context
  parked : ∀ t thread, k.currentThread = some t → (leaves r).currentThread ≠ some t →
    (leaves r).threads.get t = some thread → thread.context = context
  installed : ∀ t a context' k', r = .ok (a, context') k' → k.currentThread ≠ some t →
    k'.currentThread = some t →
    ∃ thread, k.threads.get t = some thread ∧ thread.state = .ready ∧ thread.context = context'

namespace HandsOver

theorem of_same {r : EStateM.Result BiosError Kernel (α × CpuContext)}
    (threads : ∀ t, k.currentThread ≠ some t → (leaves r).threads.get t = k.threads.get t)
    (current : (leaves r).currentThread = k.currentThread)
    (installs : ∀ a context' k', r = .ok (a, context') k' → context' = context) :
    HandsOver context k r where
  bystander t thread other found := .of_get ((threads t other).trans found)
  stays t a context' k' ok _ _ := installs a context' k' ok
  parked t thread on off _ := absurd (current.trans on) off
  installed t a context' k' ok off on := by
    rw [ok] at current
    exact absurd (current.symm.trans on) off

theorem failed (e : BiosError) :
    HandsOver context k (.error e k : EStateM.Result BiosError Kernel (α × CpuContext)) :=
  of_same (fun _ _ => rfl) rfl fun _ _ _ ok => by cases ok

theorem returned (a : α) :
    HandsOver context k (.ok (a, context) k : EStateM.Result BiosError Kernel (α × CpuContext)) :=
  of_same (fun _ _ => rfl) rfl fun _ _ _ ok => by cases ok; rfl

theorem of_start {r : EStateM.Result BiosError Kernel (α × CpuContext)}
    (threads : k'.threads = k.threads) (current : k'.currentThread = k.currentThread)
    (h : HandsOver context k' r) : HandsOver context k r := by
  constructor
  · exact threads ▸ current ▸ h.bystander
  · exact current ▸ h.stays
  · exact current ▸ h.parked
  · exact threads ▸ current ▸ h.installed

theorem map {m : KernelM (α × CpuContext)} (h : HandsOver context k (m.run k)) (g : α → β) :
    HandsOver context k (((fun x => (g x.1, x.2)) <$> m).run k) := by
  rw [run_map]
  cases ran : m.run k with
  | error e k' =>
    rw [ran] at h
    constructor
    · exact h.bystander
    · intro t a context' k'' ok
      cases ok
    · exact h.parked
    · intro t a context' k'' ok
      cases ok
  | ok x k' =>
    rw [ran] at h
    refine ⟨h.bystander, ?_, h.parked, ?_⟩
    · intro t a context' k'' ok on on'
      cases ok
      exact h.stays t x.1 x.2 k' rfl on on'
    · intro t a context' k'' ok off on
      cases ok
      exact h.installed t x.1 x.2 k' rfl off on

theorem bind_pure {m : KernelM (α × CpuContext)} (h : HandsOver context k (m.run k)) (g : α → β) :
    HandsOver context k ((m >>= fun x => pure (g x.1, x.2)).run k) := by
  rw [bind_pure_comp]
  exact h.map g

/-! ### Rules for the checks of the kernel -/

theorem orFail_bind {o : Option β} {e : KernelError} {f : β → KernelM (α × CpuContext)}
    (h : ∀ b, o = some b → HandsOver context k ((f b).run k)) :
    HandsOver context k ((orFail o e >>= f).run k) := by
  cases o with
  | none => exact failed _
  | some b => exact h b rfl

theorem failIf_bind {c : Prop} [Decidable c] {e : KernelError} {f : PUnit → KernelM (α × CpuContext)}
    (h : HandsOver context k ((f ⟨⟩).run k)) : HandsOver context k ((failIf c e >>= f).run k) := by
  unfold failIf
  split
  · exact failed _
  · exact h

theorem check_bind {r : Except KernelError β} {f : β → KernelM (α × CpuContext)}
    (h : ∀ b, HandsOver context k ((f b).run k)) :
    HandsOver context k ((check r >>= f).run k) := by
  cases r with
  | error e => exact failed _
  | ok b => exact h b

theorem modify_bind {g : Kernel → Kernel} {f : PUnit → KernelM (α × CpuContext)}
    (threads : (g k).threads = k.threads) (current : (g k).currentThread = k.currentThread)
    (h : HandsOver context (g k) ((f ⟨⟩).run (g k))) :
    HandsOver context k ((modify g >>= f).run k) :=
  of_start threads current h

theorem waitDeadline_bind {timeout : Option Ticks} {f : Option Deadline → KernelM (α × CpuContext)}
    (h : ∀ deadline, HandsOver context k ((f deadline).run k)) :
    HandsOver context k ((waitDeadline timeout >>= f).run k) := by
  obtain ⟨deadline, computed⟩ | ⟨e, overflow⟩ := waitDeadline_run timeout k
  · rw [run_bind_of_ok computed]
    exact h deadline
  · rw [run_bind_of_error overflow]
    exact failed e

end HandsOver

/-! ### The scheduling functions -/

variable {t : ℕ} {op : Op}

theorem Kernel.dispatchBest_current (idle : k.currentThread = none)
    (on : k.dispatchBest.currentThread = some t) :
    k.dispatchBest = k.dispatch t ∧ ∃ thread, k.threads.get t = some thread ∧
      thread.state = .ready ∧ ∀ context, freshContext k context = thread.context := by
  unfold dispatchBest at *
  cases best : k.bestReady with
  | none =>
    rw [best] at on
    exact absurd (idle.symm.trans on) (by simp)
  | some id =>
    rw [best] at on
    cases on
    obtain ⟨thread, found, ready, -⟩ := bestReady_eq_some best
    exact ⟨rfl, thread, found, ready, fun _ => by simp [freshContext, best, found]⟩

theorem Kernel.get_dispatchBest (off : k.dispatchBest.currentThread ≠ some t) :
    k.dispatchBest.threads.get t = k.threads.get t := by
  unfold dispatchBest at *
  cases best : k.bestReady with
  | none => rfl
  | some id =>
    rw [best] at off
    exact (get_modifyThread k id _ t).trans (if_neg fun same => off (congrArg some same.symm))

theorem HandsOver.of_fresh {id : ℕ} {k₁ : Kernel} {a : α} (running : k.currentThread = some id)
    (idle : k₁.currentThread = none) (others : ∀ t, t ≠ id → k₁.threads.get t = k.threads.get t)
    (left : ∀ thread, k₁.threads.get id = some thread → thread.state ≠ .ready ∧ thread.context = context) :
    HandsOver context k (.ok (a, freshContext k₁ context) k₁.dispatchBest) where
  bystander t thread other found :=
    .dispatchBest ((others t fun same => other (by rw [running, same])).trans found)
  stays t a' context' k' ok on on' := by
    cases ok
    obtain ⟨-, thread, found, ready, -⟩ := dispatchBest_current idle on'
    cases running.symm.trans on
    exact absurd ready (left thread found).1
  parked t thread on off found := by
    cases running.symm.trans on
    rw [leaves_ok, get_dispatchBest off] at found
    exact (left thread found).2
  installed t a' context' k' ok off on := by
    cases ok
    obtain ⟨-, thread, found, ready, saved⟩ := dispatchBest_current idle on
    refine ⟨thread, ?_, ready, (saved context).symm⟩
    rw [← others t fun same => off (by rw [running, same]), found]

theorem HandsOver.of_left {id : ℕ} {k₁ : Kernel} {e : BiosError} (running : k.currentThread = some id)
    (others : ∀ t, t ≠ id → k₁.threads.get t = k.threads.get t)
    (left : ∀ thread, k₁.threads.get id = some thread → thread.context = context) :
    HandsOver context k (.error e k₁ : EStateM.Result BiosError Kernel (α × CpuContext)) where
  bystander t thread other found :=
    .of_get ((others t fun same => other (by rw [running, same])).trans found)
  stays t a context' k' ok := by cases ok
  parked t thread on _ found := by
    cases running.symm.trans on
    exact left thread found
  installed t a context' k' ok := by cases ok

theorem handsOver_blockCurrent (sound : k.RunningSound) (context : CpuContext) (reason : WaitReason)
    (deadline : Option Deadline) :
    HandsOver context k ((blockCurrent context reason deadline).run k) := by
  cases running : k.currentThread with
  | none =>
    rw [blockCurrent_of_none running]
    exact .failed _
  | some id =>
    obtain ⟨thread, found, -⟩ := sound.found running
    have blocked (scheduler : Scheduler) (t : ℕ) :
        (k.block id context reason scheduler).threads.get t = _ := get_modifyThread k id _ t
    have others (scheduler : Scheduler) (t : ℕ) (ne : t ≠ id) :
        (k.block id context reason scheduler).threads.get t = k.threads.get t :=
      (blocked scheduler t).trans (if_neg ne)
    have left (scheduler : Scheduler) (thread' : Thread)
        (found' : (k.block id context reason scheduler).threads.get id = some thread') :
        thread'.state ≠ .ready ∧ thread'.context = context := by
      rw [blocked, if_pos rfl, found] at found'
      cases found'
      exact ⟨ThreadState.noConfusion, rfl⟩
    cases armed : k.arm id deadline with
    | ok scheduler =>
      rw [blockCurrent_of_armed running found armed]
      exact .of_fresh running rfl (others _) (left _)
    | error e =>
      rw [blockCurrent_of_unarmed running found armed]
      exact .of_left running (others _) fun thread' found' => (left _ thread' found').2

theorem handsOver_exitCurrent (sound : k.RunningSound) (context : CpuContext) :
    HandsOver context k ((exitCurrent context).run k) := by
  cases running : k.currentThread with
  | none =>
    simp only [exitCurrent, run_bind, run_get, running, orFail, run_okOr_none]
    exact .failed _
  | some id =>
    obtain ⟨thread, found, -⟩ := sound.found running
    have run := select_of_none (k := k.retire id context) rfl context (some id) true
    have retired (t : ℕ) : (k.retire id context).threads.get t = _ := get_modifyThread k id _ t
    simp only [exitCurrent, run_bind, run_get, running, orFail, run_okOr_some,
      run_modify, found]
    refine run ▸ HandsOver.of_fresh running rfl (fun t ne => (retired t).trans (if_neg ne)) ?_
    intro thread' found'
    rw [retired, if_pos rfl, found] at found'
    cases found'
    exact ⟨ThreadState.noConfusion, rfl⟩

theorem handsOver_exitDeleteCurrent (sound : k.RunningSound) (context : CpuContext) :
    HandsOver context k ((exitDeleteCurrent context).run k) := by
  cases running : k.currentThread with
  | none =>
    simp only [exitDeleteCurrent, run_bind, run_get, running, orFail, run_okOr_none]
    exact .failed _
  | some id =>
    obtain ⟨thread, found, -⟩ := sound.found running
    have run := select_of_none (k := k.expunge id) rfl context (some id) true
    have expunged (t : ℕ) : (k.expunge id).threads.get t = _ := FixedTable.get_remove k.threads id t
    simp only [exitDeleteCurrent, run_bind, run_get, running, orFail, run_okOr_some,
      run_modify, FixedTable.remove_fst, found]
    refine run ▸ HandsOver.of_fresh running rfl (fun t ne => (expunged t).trans (if_neg ne)) ?_
    intro thread' found'
    rw [expunged, if_pos rfl] at found'
    cases found'

theorem handsOver_select {id : ℕ} {thread : Thread} (previous : Option ℕ) (force : Bool)
    (running : k.currentThread = some id) (found : k.threads.get id = some thread)
    (state : thread.state = .running) (saved : thread.context = context) :
    HandsOver context k ((select context previous force).run k) := by
  by_cases stays : ∀ other thread', k.bestReady = some other → k.threads.get other = some thread' →
      force = false ∧ thread.currentPriority ≤ thread'.currentPriority
  · rw [select_of_stays running found stays]
    exact .returned _
  · obtain ⟨other, thread', best, found', ready, ne, allowed⟩ := exists_switch found state stays
    rw [select_of_switches running found best found' ne allowed]
    have preempted (t : ℕ) : (k.preempt id context).threads.get t = _ := get_modifyThread k id _ t
    have dispatched (t : ℕ) (off : other ≠ t) :
        ((k.preempt id context).dispatch other).threads.get t = (k.preempt id context).threads.get t :=
      (get_modifyThread (k.preempt id context) other _ t).trans (if_neg off.symm)
    split
    · constructor
      · intro t thread₁ off found₁
        refine .dispatch ?_ other
        rw [preempted, if_neg, found₁]
        rintro rfl
        exact off running
      · intro t a context' k' ok on on'
        cases ok
        cases running.symm.trans on
        exact absurd (Option.some.inj on') ne
      · intro t thread₁ on off found₁
        cases running.symm.trans on
        rw [leaves_ok, dispatched id ne, preempted, if_pos rfl, found] at found₁
        cases found₁
        rfl
      · intro t a context' k' ok off on
        cases ok
        cases on
        exact ⟨thread', found', ready, rfl⟩
    · refine .of_left running (fun _ _ => rfl) fun thread₁ found₁ => ?_
      cases found.symm.trans found₁
      exact saved

theorem handsOver_reschedule (sound : k.RunningSound) (context : CpuContext)
    (reason : RescheduleReason) : HandsOver context k ((reschedule context reason).run k) := by
  unfold reschedule
  show HandsOver context k ((saveCurrent context >>= fun _ =>
    select context k.currentThread (decide (reason = .yield))).run k)
  cases running : k.currentThread with
  | none =>
    have idle : (saveCurrent context).run k = .ok ⟨⟩ k := by
      simp [saveCurrent, run_bind, running]
    rw [run_bind, idle]
    show HandsOver context k ((select context none (decide (reason = .yield))).run k)
    rw [select_of_none running]
    constructor
    · exact fun t thread _ found => .dispatchBest found
    · exact fun t _ _ _ _ on => absurd (running.symm.trans on) (by simp)
    · exact fun t _ on => absurd (running.symm.trans on) (by simp)
    · intro t a context' k' ok _ on
      cases ok
      obtain ⟨-, thread, found, ready, saved⟩ := dispatchBest_current running on
      exact ⟨thread, found, ready, (saved context).symm⟩
  | some id =>
    obtain ⟨thread, found, state⟩ := sound.found running
    have save : (saveCurrent context).run k =
        .ok ⟨⟩ (k.modifyThread id fun thread => { thread with context := context }) := by
      simp [saveCurrent, run_bind, running, found, orFail, failIf, state]
    have modified (t : ℕ) := get_modifyThread k id (fun thread => { thread with context := context }) t
    have found' := modified id
    rw [if_pos rfl, found] at found'
    have selected := handsOver_select (some id) (decide (reason = .yield))
      (k := k.modifyThread id fun thread => { thread with context := context }) running found' state rfl
    rw [run_bind, save]
    -- only the record of the running thread was rewritten
    constructor
    · intro t thread' off found₁
      refine selected.bystander t thread' off ((modified t).trans ?_)
      rw [if_neg, found₁]
      rintro rfl
      exact off running
    · exact selected.stays
    · exact selected.parked
    · intro t a context' k' ok off on
      obtain ⟨thread', found₁, rest⟩ := selected.installed t a context' k' ok off on
      rw [modified, if_neg fun same => off (by rw [running, same])] at found₁
      exact ⟨thread', found₁, rest⟩

theorem handsOver_sleepCurrent (sound : k.RunningSound) (context : CpuContext) :
    HandsOver context k ((sleepCurrent context).run k) := by
  unfold sleepCurrent
  refine HandsOver.orFail_bind fun id running => ?_
  refine HandsOver.orFail_bind fun thread found => ?_
  split
  · refine .of_same (fun t off => ?_) rfl fun a context' k' ok => by cases ok; rfl
    exact (get_modifyThread k id _ t).trans (if_neg fun same => off (by rw [running, same]))
  · exact handsOver_blockCurrent sound context .sleep none

theorem handsOver_delayCurrent (sound : k.RunningSound) (ticks : Ticks) (context : CpuContext) :
    HandsOver context k ((delayCurrent ticks context).run k) := by
  unfold delayCurrent
  split
  · exact handsOver_reschedule sound context .yield
  · exact .waitDeadline_bind fun deadline => handsOver_blockCurrent sound context .delay deadline

theorem handsOver_enqueue {enqueue : Kernel → Kernel} {timeout : Option Ticks} {reason : WaitReason}
    (core : (enqueue k).core = k.core) (sound : k.RunningSound) (g : ScheduleAction → α) :
    HandsOver context k ((do
      modify enqueue
      let deadline ← waitDeadline timeout
      let (action, context) ← blockCurrent context reason deadline
      return (g action, context) : KernelM (α × CpuContext)).run k) := by
  have threads : (enqueue k).threads = k.threads := (congrArg Kernel.threads core :)
  have current : (enqueue k).currentThread = k.currentThread := (congrArg Kernel.currentThread core :)
  refine .modify_bind threads current (.waitDeadline_bind fun deadline => ?_)
  refine HandsOver.bind_pure (handsOver_blockCurrent ?_ context reason deadline) g
  intro id running
  exact (congrArg (fun a : Kernel => ∃ order, a.view id = some (.running, order)) core :).mpr
    (sound id (current ▸ running))

/-! ### Every call that schedules -/

theorem handsOver_waitSemaphore (sound : k.RunningSound) (id : ℕ) (timeout : Option Ticks)
    (context : CpuContext) : HandsOver context k ((waitSemaphore id timeout context).run k) := by
  unfold waitSemaphore
  refine HandsOver.orFail_bind fun semaphore _ => ?_
  dsimp only
  split
  · exact .of_same (fun _ _ => rfl) rfl fun a context' k' ok => by cases ok; rfl
  · exact .orFail_bind fun thread _ => handsOver_enqueue rfl sound some

theorem handsOver_waitEventFlag (sound : k.RunningSound) (id : ℕ) (pattern mode : Word)
    (timeout : Option Ticks) (context : CpuContext) :
    HandsOver context k ((waitEventFlag id pattern mode timeout context).run k) := by
  unfold waitEventFlag
  refine HandsOver.check_bind fun _ => HandsOver.orFail_bind fun thread _ => ?_
  refine HandsOver.orFail_bind fun event _ => ?_
  cases holds : satisfied event.bits pattern mode with
  | true =>
    rw [run_bind, consumeEventBits_of_satisfied holds]
    exact .of_same (fun _ _ => rfl) rfl fun a context' k' ok => by cases ok; rfl
  | false =>
    rw [run_bind, consumeEventBits_of_unsatisfied holds]
    exact .failIf_bind (handsOver_enqueue rfl sound Sum.inr)

theorem handsOver_receiveMessage (sound : k.RunningSound) (id : ℕ) (timeout : Option Ticks)
    (context : CpuContext) : HandsOver context k ((receiveMessage id timeout context).run k) := by
  unfold receiveMessage
  refine HandsOver.orFail_bind fun thread _ => HandsOver.orFail_bind fun messageBox _ => ?_
  split
  · exact .of_same (fun _ _ => rfl) rfl fun a context' k' ok => by cases ok; rfl
  · exact handsOver_enqueue rfl sound Sum.inr

theorem handsOver_allocateFixed (sound : k.RunningSound) (id : ℕ) (timeout : Option Ticks)
    (context : CpuContext) : HandsOver context k ((allocateFixed id timeout context).run k) := by
  unfold allocateFixed
  refine HandsOver.orFail_bind fun thread _ => HandsOver.orFail_bind fun pool _ => ?_
  split
  · exact .of_same (fun _ _ => rfl) rfl fun a context' k' ok => by cases ok; rfl
  · exact handsOver_enqueue rfl sound Sum.inr

theorem handsOver_allocateVariable (sound : k.RunningSound) (id size : ℕ) (timeout : Option Ticks)
    (context : CpuContext) :
    HandsOver context k ((allocateVariable id size timeout context).run k) := by
  unfold allocateVariable
  refine HandsOver.check_bind fun aligned => HandsOver.orFail_bind fun thread _ => ?_
  refine HandsOver.orFail_bind fun pool _ => ?_
  split
  · exact .of_same (fun _ _ => rfl) rfl fun a context' k' ok => by cases ok; rfl
  · exact handsOver_enqueue rfl sound Sum.inr

theorem step_handsOver (sound : k.RunningSound) (schedules : op.schedules = true)
    (context : CpuContext) : HandsOver context k ((step op context).run k) := by
  cases op with
  | waitModuleStart child =>
    refine HandsOver.map ?_ _
    exact HandsOver.failIf_bind (handsOver_blockCurrent sound context (.moduleStart child) none)
  | exitCurrent => exact (handsOver_exitCurrent sound context).map _
  | exitDeleteCurrent => exact (handsOver_exitDeleteCurrent sound context).map _
  | reschedule reason => exact (handsOver_reschedule sound context reason).map _
  | sleepCurrent => exact (handsOver_sleepCurrent sound context).map _
  | delayCurrent ticks => exact (handsOver_delayCurrent sound ticks context).map _
  | waitVblank phase =>
    refine HandsOver.map ?_ _
    exact .check_bind fun reason => handsOver_blockCurrent sound context reason none
  | waitSemaphore id timeout =>
    exact (handsOver_waitSemaphore sound id timeout context).map fun r : Option ScheduleAction =>
      r.elim Reply.acquired Reply.action
  | waitEventFlag id pattern mode timeout =>
    exact (handsOver_waitEventFlag sound id pattern mode timeout context).map _
  | receiveMessage id timeout => exact (handsOver_receiveMessage sound id timeout context).map _
  | allocateFixed id timeout => exact (handsOver_allocateFixed sound id timeout context).map _
  | allocateVariable id size timeout =>
    exact (handsOver_allocateVariable sound id size timeout context).map _
  | _ => cases schedules

/-! ### Between losing and regaining the processor -/

/-- The call ends the wait of a thread for `reason`, with the answer of its operation. -/
def Call.Wakes (call : Call) (t : ℕ) (reason : WaitReason) (result : ℤ) (value : Option Word) :
    Prop :=
  call.before.waitReasonOf t = some reason ∧ call.after.waitReasonOf t = none ∧
    call.op.Answers call.before t reason result value

theorem step_saved (sound : k.RunningSound) (lives : op ≠ .reset) (context : CpuContext)
    {thread : Thread} (off : k.currentThread ≠ some t) (found : k.threads.get t = some thread)
    (alive : thread.state ≠ .dormant) :
    (Call.of k op context).after.SavedIn t thread ∨
      ∃ thread' reason result value, (Call.of k op context).after.threads.get t = some thread' ∧
        thread.state = .waiting reason ∧ (Call.of k op context).Wakes t reason result value ∧
        thread'.state = .ready ∧ thread'.context = thread.context.answered result value := by
  cases schedules : op.schedules with
  | true =>
    exact .inl ((step_handsOver sound schedules context).bystander t thread off found)
  | false =>
    obtain ⟨-, holds⟩ := step_holds sound lives schedules context t
    obtain ⟨thread', found', kept | ⟨reason, result, value, waits, answers, ready, answered⟩⟩ :=
      holds thread found alive
    · exact .inl ⟨thread', found', kept.1, fun _ => kept.2⟩
    · refine .inr ⟨thread', reason, result, value, found', waits, ⟨?_, ?_, answers⟩, ready, answered⟩
      · exact waitReasonOf_eq_some.mpr ⟨thread, found, waits⟩
      · show (leaves ((step op context).run k)).waitReasonOf t = none
        simp [waitReasonOf, found', ready, ThreadState.waitReason]

/-- What is left of a thread that lost the processor with the registers `context` in the state
`parked`: it is as it was, or one call of the history ended its wait. -/
def Parked (t : ℕ) (context : CpuContext) (parked : ThreadState) (calls : List Call) (k : Kernel) :
    Prop :=
  ∃ thread, k.threads.get t = some thread ∧
    (thread.context = context ∧ thread.state = parked ∨
      ∃ reason result value, parked = .waiting reason ∧
        (∃ call ∈ calls, call.Wakes t reason result value) ∧ thread.state = .ready ∧
        thread.context = context.answered result value)

theorem Parked.step {parked : ThreadState} {calls : List Call} {context₁ : CpuContext}
    (h : Parked t context parked calls k) (sound : k.RunningSound) (lives : op ≠ .reset)
    (alive : parked ≠ .dormant) (off : k.currentThread ≠ some t)
    (off' : (Call.of k op context₁).after.currentThread ≠ some t) :
    Parked t context parked (calls ++ [Call.of k op context₁]) (Call.of k op context₁).after := by
  obtain ⟨thread, found, ⟨saved, state⟩ | ⟨reason, result, value, waits, ⟨call, member, wakes⟩, ready, answered⟩⟩ := h
  · rcases step_saved sound lives context₁ off found (by rw [state]; exact alive) with
      ⟨thread', found', same, kept⟩ | ⟨thread', reason, result, value, found', waits, wakes, ready, answered⟩
    · exact ⟨thread', found', .inl ⟨same.trans saved, (kept off').trans state⟩⟩
    · refine ⟨thread', found', .inr ⟨reason, result, value, state ▸ waits, ⟨_, ?_, wakes⟩, ready, ?_⟩⟩
      · exact List.mem_append_right _ (List.mem_singleton_self _)
      · rw [answered, saved]
  · rcases step_saved sound lives context₁ off found (by rw [ready]; exact ThreadState.noConfusion) with
      ⟨thread', found', same, kept⟩ | ⟨_, _, _, _, _, waits', _⟩
    · refine ⟨thread', found', .inr ⟨reason, result, value, waits, ⟨call, ?_, wakes⟩, ?_, ?_⟩⟩
      · exact List.mem_append_left _ member
      · exact (kept off').trans ready
      · exact same.trans answered
    · rw [ready] at waits'
      cases waits'

theorem parked_history (h : Reachable k) {parked : ThreadState}
    (alive : parked ≠ .dormant) (start : Parked t context parked [] k)
    (off : k.currentThread ≠ some t) {calls : List Call} (run : Run Steps k calls k')
    (away : ∀ call ∈ calls, call.op ≠ .reset ∧ call.after.currentThread ≠ some t) :
    Reachable k' ∧ k'.currentThread ≠ some t ∧ Parked t context parked calls k' := by
  refine (run.restrict away).history
    (H := fun calls a => Reachable a ∧ a.currentThread ≠ some t ∧ Parked t context parked calls a)
    ⟨h, off, start⟩ ?_
  rintro calls a call b ⟨reachable, off, before⟩ ⟨⟨eq, rfl⟩, lives, off'⟩
  rw [eq] at off' ⊢
  exact ⟨reachable.step call.op call.context, off',
    before.step reachable.runningSound lives alive off off'⟩

/-- A call that makes another thread the running one installs its saved registers. -/
theorem step_installs (h : Reachable k) {context context' : CpuContext} {reply : Reply}
    (off : k.currentThread ≠ some t)
    (run : (step op context).run k = .ok (reply, context') k') (on : k'.currentThread = some t) :
    ∃ thread, k.threads.get t = some thread ∧ thread.state = .ready ∧ thread.context = context' := by
  have after : leaves ((step op context).run k) = k' := by rw [run, leaves_ok]
  cases schedules : op.schedules with
  | true => exact (step_handsOver h.runningSound schedules context).installed t _ _ _ run off on
  | false =>
    exfalso
    by_cases reset : op = .reset
    · rw [reset, reset_run] at after
      rw [← after] at on
      cases on
    · have current := (step_holds h.runningSound reset schedules context t).1
      rw [after] at current
      exact off (current.symm.trans on)

/-- A call that takes the processor from a thread that stays ready or waiting saves its registers. -/
theorem step_parks (h : Reachable k) {context : CpuContext} {thread : Thread}
    (on : k.currentThread = some t) (off : (Call.of k op context).after.currentThread ≠ some t)
    (found : (Call.of k op context).after.threads.get t = some thread) : thread.context = context := by
  cases schedules : op.schedules with
  | true => exact (step_handsOver h.runningSound schedules context).parked t thread on off found
  | false =>
    exfalso
    by_cases reset : op = .reset
    · rw [reset] at found
      simp [Call.of, reset_run, Kernel.new] at found
    · exact off ((step_holds h.runningSound reset schedules context t).1.trans on)

/-- The registers a thread loses the processor with are the ones installed when it regains it, except
for the result and the value of the call that ended its wait in between; and a call changes the saved
registers of a thread that is not running only by ending its wait. -/
theorem registers_survive_switches (h : Reachable k) :
    (∀ op context t thread calls k' op' context' reply installed k'',
      k.currentThread = some t → (Call.of k op context).after.currentThread ≠ some t →
      (Call.of k op context).after.threads.get t = some thread → thread.state ≠ .dormant →
      Run Steps (Call.of k op context).after calls k' →
      (∀ call ∈ calls, call.op ≠ .reset ∧ call.after.currentThread ≠ some t) →
      (step op' context').run k' = .ok (reply, installed) k'' → k''.currentThread = some t →
      (thread.state = .ready ∧ installed = context) ∨
        ∃ reason result value, thread.state = .waiting reason ∧
          (∃ call ∈ calls, call.Wakes t reason result value) ∧
          installed = context.answered result value) ∧
    ∀ op context t thread, op ≠ .reset → k.currentThread ≠ some t →
      k.threads.get t = some thread → thread.state ≠ .dormant →
      ∃ thread', (Call.of k op context).after.threads.get t = some thread' ∧
        (thread'.context = thread.context ∨
          ∃ reason result value, thread.state = .waiting reason ∧
            (Call.of k op context).Wakes t reason result value ∧
            thread'.context = thread.context.answered result value) := by
  constructor
  · intro op context t thread calls k' op' context' reply installed k'' on off found alive run away
      resumed on'
    have saved := step_parks h on off found
    obtain ⟨reachable, off', thread', found', parked⟩ := parked_history (h.step op context) alive
      ⟨thread, found, .inl ⟨saved, rfl⟩⟩ off run away
    obtain ⟨thread'', found'', ready, installs⟩ := step_installs reachable off' resumed on'
    cases found'.symm.trans found''
    rcases parked with ⟨same, state⟩ | ⟨reason, result, value, waits, wakes, -, answered⟩
    · exact .inl ⟨state.symm.trans ready, installs.symm.trans same⟩
    · exact .inr ⟨reason, result, value, waits, wakes, installs.symm.trans answered⟩
  · intro op context t thread lives off found alive
    rcases step_saved h.runningSound lives context off found alive with
      ⟨thread', found', same, -⟩ | ⟨thread', reason, result, value, found', waits, wakes, -, answered⟩
    · exact ⟨thread', found', .inl same⟩
    · exact ⟨thread', found', .inr ⟨reason, result, value, waits, wakes, answered⟩⟩

/-- A running thread of priority 10, a ready one of priority 20, and an empty semaphore. -/
def beforeSwitch : Kernel :=
  Kernel.new.after sampleContext [.createThread (sampleThread 10) sampleRange, .startThread 1 0,
    .createThread (sampleThread 20) sampleRange, .startThread 2 0, .createSemaphore ⟨0, 1, 0⟩,
    .reschedule .hleReturn]

/-- A wait loses the processor with 7 in a register, and a signal and a reschedule give it back. -/
theorem registers_survive_switches_sample :
    let context := sampleContext.setRegister 16 7
    let blocked := (Call.of beforeSwitch (.waitSemaphore 1 none) context).after
    let signalled := blocked.after sampleContext [.signalSemaphore 1]
    ∃ reply k'', (step (.reschedule .hleReturn) sampleContext).run signalled =
      .ok (reply, context.answered 0 none) k'' ∧ k''.currentThread = some 1 := by
  intro context blocked signalled
  have reachable : Reachable beforeSwitch := reachable_new.after _ _
  have waiting : blocked.waitReasonOf 1 = some (.semaphore 1) := by decide +kernel
  obtain ⟨thread, found, waits⟩ := waitReasonOf_eq_some.mp waiting
  have away : ∀ call ∈ blocked.history sampleContext [.signalSemaphore 1],
      call.op ≠ .reset ∧ call.after.currentThread ≠ some 1 := by
    intro call member
    rw [Kernel.history, Kernel.history, List.mem_singleton] at member
    subst member
    exact ⟨Op.noConfusion, by decide +kernel⟩
  have returns : (outcome ((step (.reschedule .hleReturn) sampleContext).run signalled)).toOption.any
      (fun _ => true) = true := by decide +kernel
  obtain ⟨⟨reply, installed⟩, ok, -⟩ := exists_run_ok returns
  have on : (leaves ((step (.reschedule .hleReturn) sampleContext).run signalled)).currentThread =
      some 1 := by decide +kernel
  have restored := (registers_survive_switches reachable).1 (.waitSemaphore 1 none) context 1 thread
    _ _ (.reschedule .hleReturn) sampleContext reply installed _ (by decide +kernel)
    (by decide +kernel) found (by rw [waits]; exact ThreadState.noConfusion)
    (run_history blocked sampleContext [.signalSemaphore 1]) away ok on
  rcases restored with ⟨ready, -⟩ | ⟨reason, result, value, -, ⟨call, member, wakes⟩, answered⟩
  · rw [waits] at ready
    cases ready
  · rw [Kernel.history, Kernel.history, List.mem_singleton] at member
    subst member
    obtain ⟨-, rfl, rfl⟩ := wakes.2.2
    exact ⟨reply, _, answered ▸ ok, on⟩

end Upse
