import Upse.Bios.Kernel.Waits

/-!
# Priority scheduling

One selection function decides which thread runs.  After it, no ready thread has a higher priority
than the running one, and the thread it installs is, among the ready threads of its priority, the
one that became ready first.
-/

namespace Upse

open ErrorState

namespace Kernel

/-- Some thread runs whenever a thread is ready, and no ready thread has a smaller priority
number. -/
def HighestRuns (k : Kernel) : Prop :=
  ∀ id thread, k.threads.get id = some thread → thread.state = .ready →
    ∃ current running, k.currentThread = some current ∧ k.threads.get current = some running ∧
      running.currentPriority ≤ thread.currentPriority

/-- The ready order of a thread precedes those of the ready threads of its priority. -/
def Foremost (k : Kernel) (id : ℕ) : Prop :=
  ∀ thread, k.threads.get id = some thread → ∀ other thread', k.threads.get other = some thread' →
    thread'.state = .ready → thread'.currentPriority = thread.currentPriority →
      thread.readyOrder < thread'.readyOrder

/-! ### What a selection settles -/

theorem get_dispatch (k : Kernel) (id other : ℕ) : (k.dispatch id).threads.get other =
    if other = id then (k.threads.get id).map fun thread => { thread with state := .running }
    else k.threads.get other :=
  get_modifyThread k id _ other

theorem dispatchBest_highestRuns (k : Kernel) : k.dispatchBest.HighestRuns := by
  intro other thread' found' ready'
  unfold dispatchBest at *
  cases best : k.bestReady with
  | none =>
    rw [best] at found'
    exact absurd ready' (bestReady_eq_none best found')
  | some id =>
    rw [best] at found'
    obtain ⟨thread, found, -, least⟩ := bestReady_eq_some best
    refine ⟨id, { thread with state := .running }, rfl, by simp [get_dispatch, found], ?_⟩
    dsimp only at found'
    rw [get_dispatch] at found'
    split at found'
    · rw [found] at found'
      cases found'
      cases ready'
    · rcases least other thread' found' ready' with lt | ⟨eq, -⟩
      · exact lt.le
      · exact eq.le

theorem dispatchBest_foremost {k : Kernel} (sound : k.Sound) (idle : k.currentThread = none) {id : ℕ}
    (installed : k.dispatchBest.currentThread = some id) :
    k.dispatchBest.Foremost id ∧ ∃ order, k.view id = some (.ready, order) ∧
      k.dispatchBest.view id = some (.running, order) := by
  unfold dispatchBest at *
  cases best : k.bestReady with
  | none =>
    rw [best] at installed
    rw [show k.currentThread = some id from installed] at idle
    cases idle
  | some id' =>
    rw [best] at installed
    cases installed
    obtain ⟨thread, found, ready, least⟩ := bestReady_eq_some best
    refine ⟨?_, thread.readyOrder, by simp [view, found, ready], by simp [view, get_dispatch, found]⟩
    intro running foundRunning other thread' found' ready' same
    dsimp only at foundRunning found'
    rw [get_dispatch, if_pos rfl, found] at foundRunning
    cases foundRunning
    rw [get_dispatch] at found'
    split at found'
    · rw [found] at found'
      cases found'
      cases ready'
    next ne =>
      rcases least other thread' found' ready' with lt | ⟨-, le⟩
      · exact absurd lt (by simpa using same.le)
      · refine lt_of_le_of_ne le fun eq => ne ?_
        exact sound.distinct other id thread.readyOrder
          (.inl (view_eq_some.mpr ⟨thread', found', ready', eq.symm⟩))
          (.inl (view_eq_some.mpr ⟨thread, found, ready, rfl⟩))

theorem highestRuns_of_stays {k : Kernel} {id : ℕ} {thread : Thread}
    (running : k.currentThread = some id) (found : k.threads.get id = some thread)
    (stays : ∀ other thread', k.bestReady = some other → k.threads.get other = some thread' →
      thread.currentPriority ≤ thread'.currentPriority) : k.HighestRuns := by
  intro other thread' found' ready'
  cases best : k.bestReady with
  | none => exact absurd ready' (bestReady_eq_none best found')
  | some candidate =>
    obtain ⟨best', foundBest, -, least⟩ := bestReady_eq_some best
    refine ⟨id, thread, running, found, (stays candidate best' best foundBest).trans ?_⟩
    rcases least other thread' found' ready' with lt | ⟨eq, -⟩
    · exact lt.le
    · exact eq.le

section Switch

variable {k : Kernel} {id other : ℕ} {thread thread' : Thread} {context : CpuContext}

theorem get_switched (found : k.threads.get id = some thread)
    (found' : k.threads.get other = some thread') (ne : other ≠ id) (u : ℕ) :
    ((k.preempt id context).dispatch other).threads.get u =
      if u = other then some { thread' with state := .running }
      else if u = id then
        some { thread with context := context, readyOrder := k.nextReadyOrder, state := .ready }
      else k.threads.get u := by
  have preempted (v : ℕ) : (k.preempt id context).threads.get v = _ := get_modifyThread k id _ v
  rw [get_dispatch, preempted, preempted, if_neg ne, found, found']
  rfl

theorem highestRuns_of_switch (found : k.threads.get id = some thread)
    (found' : k.threads.get other = some thread') (ne : other ≠ id)
    (least : ∀ u v, k.threads.get u = some v → v.state = .ready →
      thread'.currentPriority ≤ v.currentPriority)
    (higher : thread'.currentPriority < thread.currentPriority) :
    ((k.preempt id context).dispatch other).HighestRuns := by
  intro u v foundU ready
  refine ⟨other, { thread' with state := .running }, rfl, by simp [get_switched found found' ne], ?_⟩
  rw [get_switched found found' ne] at foundU
  split at foundU
  · cases foundU
    cases ready
  · split at foundU
    · cases foundU
      exact higher.le
    · exact least u v foundU ready

theorem foremost_of_switch (sound : k.Sound) (found : k.threads.get id = some thread)
    (found' : k.threads.get other = some thread') (ne : other ≠ id)
    (ready' : thread'.state = .ready)
    (least : ∀ u v, k.threads.get u = some v → v.state = .ready →
      thread'.currentPriority < v.currentPriority ∨
        thread'.currentPriority = v.currentPriority ∧ thread'.readyOrder ≤ v.readyOrder) :
    ((k.preempt id context).dispatch other).Foremost other := by
  have live : k.Live other thread'.readyOrder := .inl (view_eq_some.mpr ⟨thread', found', ready', rfl⟩)
  intro running foundRunning u v foundU ready same
  rw [get_switched found found' ne, if_pos rfl] at foundRunning
  cases foundRunning
  rw [get_switched found found' ne] at foundU
  split at foundU
  · cases foundU
    cases ready
  next notCandidate =>
    split at foundU
    · cases foundU
      exact sound.bounded other _ live
    · rcases least u v foundU ready with lt | ⟨-, le⟩
      · exact absurd lt (by simpa using same.le)
      · refine lt_of_le_of_ne le fun eq => notCandidate ?_
        exact sound.distinct u other thread'.readyOrder
          (.inl (view_eq_some.mpr ⟨v, foundU, ready, eq.symm⟩)) live

end Switch

/-- A thread that runs in `k'` and did not run in `k` was ready in `k`, and comes before the ready
threads of its priority. -/
def InstallsFirst (k k' : Kernel) : Prop :=
  ∀ id, k'.currentThread = some id → k.currentThread ≠ some id →
    k'.Foremost id ∧ ∃ order, k.view id = some (.ready, order) ∧
      k'.view id = some (.running, order)

theorem select_settles {k k' : Kernel} (sound : k.Sound) {context context' : CpuContext}
    {previous : Option ℕ} {force : Bool} {action : ScheduleAction}
    (run : (select context previous force).run k = .ok (action, context') k') :
    (force = false ∨ k.currentThread = none → k'.HighestRuns) ∧ InstallsFirst k k' ∧
      action.current = k'.currentThread := by
  cases running : k.currentThread with
  | none =>
    have run' := select_of_none running context previous force
    rw [run] at run'
    cases run'
    refine ⟨fun _ => dispatchBest_highestRuns k, fun id installed _ => ?_, ?_⟩
    · exact dispatchBest_foremost sound running installed
    · unfold freshAction dispatchBest
      cases k.bestReady with
      | none => exact running.symm
      | some => rfl
  | some id =>
    obtain ⟨thread, found, state⟩ := sound.running.found running
    by_cases stays : ∀ other thread', k.bestReady = some other →
        k.threads.get other = some thread' →
        force = false ∧ thread.currentPriority ≤ thread'.currentPriority
    · rw [select_of_stays running found stays context previous] at run
      cases run
      refine ⟨fun _ => ?_, fun id' installed new => absurd installed new, running.symm⟩
      exact highestRuns_of_stays running found fun other thread' best found' =>
        (stays other thread' best found').2
    · obtain ⟨other, thread', best, found', ready, ne, allowed⟩ := exists_switch found state stays
      obtain ⟨_, found'', -, least⟩ := bestReady_eq_some best
      cases found'.symm.trans found''
      rw [select_of_switches running found best found' ne allowed context previous] at run
      split at run
      · cases run
        refine ⟨fun unforced => ?_, fun id' installed _ => ?_, rfl⟩
        · have unforced : force = false := unforced.resolve_right (by simp)
          have switches := allowed.resolve_left (by simp [unforced])
          refine highestRuns_of_switch found found' ne (fun u v foundU readyU => ?_) switches
          rcases least u v foundU readyU with lt | ⟨eq, -⟩
          · exact lt.le
          · exact eq.le
        · cases installed
          exact ⟨foremost_of_switch sound found found' ne ready least,
            thread'.readyOrder, view_eq_some.mpr ⟨thread', found', ready, rfl⟩,
            by simp [view, get_switched found found' ne]⟩
      · cases run

/-- A decision that leaves the highest priority running and installs the thread that became ready
first. -/
def Settles (k k' : Kernel) (action : ScheduleAction) : Prop :=
  k'.HighestRuns ∧ InstallsFirst k k' ∧ action.current = k'.currentThread

theorem dispatchBest_settles {k k' : Kernel} (sound : k'.Sound) (idle : k'.currentThread = none)
    (ready : ∀ id order, k'.view id = some (.ready, order) → k.view id = some (.ready, order))
    (previous : Option ℕ) : k.Settles k'.dispatchBest (freshAction k' previous) := by
  refine ⟨dispatchBest_highestRuns k', fun id installed _ => ?_, ?_⟩
  · obtain ⟨first, order, before, after⟩ := dispatchBest_foremost sound idle installed
    exact ⟨first, order, ready id order before, after⟩
  · unfold freshAction dispatchBest
    cases k'.bestReady with
    | none => exact idle.symm
    | some => rfl

theorem ready_of_update {k k' : Kernel} {left : ℕ} {next : Option (ThreadState × ℕ)}
    (view : k'.view = Function.update k.view left next) (away : ∀ order, next ≠ some (.ready, order))
    (id order : ℕ) (ready : k'.view id = some (.ready, order)) :
    k.view id = some (.ready, order) := by
  rw [view, Function.update_apply] at ready
  split at ready
  · exact absurd ready (away order)
  · exact ready

end Kernel

open Kernel

variable {action : ScheduleAction} {context context' : CpuContext} {k k' : Kernel}

theorem blockCurrent_settles (sound : k.Sound)
    {reason : WaitReason} {deadline : Option Deadline}
    (run : (blockCurrent context reason deadline).run k = .ok (action, context') k') :
    k.Settles k' action := by
  cases running : k.currentThread with
  | none =>
    rw [blockCurrent_of_none running] at run
    cases run
  | some id =>
    obtain ⟨thread, found, -⟩ := sound.running.found running
    cases armed : k.arm id deadline with
    | error e =>
      rw [blockCurrent_of_unarmed running found armed] at run
      cases run
    | ok scheduler =>
      have run' := blockCurrent_of_armed running found armed context reason
      rw [run] at run'
      cases run'
      have block : k.Does (.block id reason) (k.block id context reason scheduler) :=
        .block running armed
      exact dispatchBest_settles (block.sound sound) rfl
        (ready_of_update (view_block found context reason scheduler) (by simp)) _

theorem exitCurrent_settles (sound : k.Sound)
    (run : (exitCurrent context).run k = .ok (action, context') k') :
    k.Settles k' action := by
  cases running : k.currentThread with
  | none => simp [exitCurrent, run_bind, running, orFail] at run
  | some id =>
    obtain ⟨thread, found, -⟩ := sound.running.found running
    have exit : k.Does (.exit id) (k.retire id context) := .exit running
    have run' := select_of_none (k := k.retire id context) rfl context (some id) true
    simp only [exitCurrent, run_bind, run_get, running, orFail, run_okOr_some,
      run_modify, found] at run
    cases run'.symm.trans run
    exact dispatchBest_settles (exit.sound sound) rfl
      (ready_of_update (view_of_modify found rfl) (by simp)) _

theorem exitDeleteCurrent_settles (sound : k.Sound)
    (run : (exitDeleteCurrent context).run k = .ok (action, context') k') :
    k.Settles k' action := by
  cases running : k.currentThread with
  | none => simp [exitDeleteCurrent, run_bind, running, orFail] at run
  | some id =>
    obtain ⟨thread, found, -⟩ := sound.running.found running
    have erase : k.Does (.erase id) (k.expunge id) := .erase running
    have run' := select_of_none (k := k.expunge id) rfl context (some id) true
    simp only [exitDeleteCurrent, run_bind, run_get, running, orFail, run_okOr_some,
      run_modify, FixedTable.remove_fst, found] at run
    cases run'.symm.trans run
    exact dispatchBest_settles (erase.sound sound) rfl
      (ready_of_update (view_expunge k id) (by simp)) _

theorem saveCurrent_ok {context : CpuContext}
    (run : (saveCurrent context).run k = .ok () k') :
    k' = k ∨ ∃ id, k.currentThread = some id ∧
      k' = k.modifyThread id fun thread => { thread with context := context } := by
  cases running : k.currentThread with
  | none =>
    simp [saveCurrent, run_bind, running] at run
    exact .inl run.symm
  | some id =>
    simp only [saveCurrent, run_bind, run_get, running] at run
    cases found : k.threads.get id with
    | none => simp [found, orFail] at run
    | some thread =>
      by_cases state : thread.state = .running
      · simp only [found, orFail, run_okOr_some, failIf, state, ne_eq, not_true_eq_false, if_false,
          run_pure, run_modify] at run
        cases run
        exact .inr ⟨id, rfl, rfl⟩
      · simp [found, orFail, failIf, state] at run

theorem reschedule_settles (sound : k.Sound)
    {reason : RescheduleReason}
    (run : (reschedule context reason).run k = .ok (action, context') k') :
    (reason ≠ .yield → k'.HighestRuns) ∧ InstallsFirst k k' ∧
      action.current = k'.currentThread := by
  unfold reschedule at run
  obtain ⟨_, _, got, run⟩ := run_bind_ok.mp run
  cases got
  obtain ⟨_, saved, save, run⟩ := run_bind_ok.mp run
  have same : saved.Sound ∧ saved.view = k.view ∧ saved.currentThread = k.currentThread := by
    rcases saveCurrent_ok save with rfl | ⟨id, running, rfl⟩
    · exact ⟨sound, rfl, rfl⟩
    · exact ⟨(Does.save running).sound sound, view_modifyThread fun _ => ⟨rfl, rfl⟩, rfl⟩
  obtain ⟨highest, first, current⟩ := select_settles same.1 run
  refine ⟨fun reasoned => highest (.inl (by simpa using reasoned)), fun id installed new => ?_, current⟩
  have installs := first id installed (by rw [same.2.2]; exact new)
  rw [same.2.1] at installs
  exact installs

theorem sleepCurrent_settles (sound : k.Sound)
    (tired : ∀ id thread, k.currentThread = some id →
      k.threads.get id = some thread → thread.wakeupCount = 0)
    (run : (sleepCurrent context).run k = .ok (action, context') k') : k.Settles k' action := by
  cases running : k.currentThread with
  | none => simp [sleepCurrent, run_bind, running, orFail] at run
  | some id =>
    obtain ⟨thread, found, -⟩ := sound.running.found running
    simp only [sleepCurrent, run_bind, run_get, running, orFail, run_okOr_some, found,
      tired id thread running found, ne_eq, not_true_eq_false, if_false] at run
    exact blockCurrent_settles sound run

theorem delayCurrent_settles (sound : k.Sound) {ticks : Ticks}
    (positive : ticks ≠ 0)
    (run : (delayCurrent ticks context).run k = .ok (action, context') k') : k.Settles k' action := by
  unfold delayCurrent at run
  rw [if_neg positive] at run
  obtain ⟨deadline, k'', computed, blocked⟩ := run_bind_ok.mp run
  have same : k'' = k := by
    by_cases fits : k.now + ticks < 2 ^ 64
    · rw [waitDeadline_of_lt fits] at computed
      cases computed
      rfl
    · rw [waitDeadline_of_le (not_lt.mp fits)] at computed
      cases computed
  subst same
  exact blockCurrent_settles sound blocked

theorem waitVblank_settles (sound : k.Sound) {phase : ℕ}
    (run : (waitVblank phase context).run k = .ok (action, context') k') : k.Settles k' action := by
  unfold waitVblank at run
  cases reason : vblankReason phase with
  | error e => simp [run_bind, check, reason] at run
  | ok reason =>
    rw [reason] at run
    exact blockCurrent_settles sound run

theorem waitModuleStart_settles (sound : k.Sound) {child : ℕ}
    (run : (waitModuleStart child context).run k = .ok (action, context') k') :
    k.Settles k' action := by
  unfold waitModuleStart at run
  obtain ⟨_, _, got, run⟩ := run_bind_ok.mp run
  cases got
  obtain ⟨_, k'', checked, run⟩ := run_bind_ok.mp run
  unfold failIf at checked
  split at checked
  · cases checked
  · cases checked
    exact blockCurrent_settles sound run

theorem objectWait_settles (sound : k.Sound) {op : Op}
    (object : op.waitsOnObject = true)
    (run : (step op context).run k = .ok (.action action, context') k') : k.Settles k' action := by
  obtain ⟨id, running, waits⟩ | ⟨e, failed⟩ | ⟨reply, k'', returned, taken⟩ :=
    step_takes (Op.takes_of_waitsOnObject object) context
  · obtain ⟨enqueue, reason, o, target, -, enqueues, common⟩ := step_of_mustWait running waits context
    have touch : k.Does (.touch o) (enqueue k) := enqueues.touch
    have view : (enqueue k).core.view = k.core.view := congrArg Kernel.view enqueues.1
    rw [common, run_map] at run
    cases waited : (enqueueAndBlock enqueue op.timeout context reason).run k with
    | error e k'' =>
      rw [waited] at run
      cases run
    | ok result k'' =>
      rw [waited] at run
      cases run
      obtain ⟨_, _, modified, waited⟩ := run_bind_ok.mp waited
      cases modified
      obtain ⟨deadline, k'', computed, waited⟩ := run_bind_ok.mp waited
      have same : k'' = enqueue k := by
        have unchanged : Leads Eq (enqueue k) (waitDeadline op.timeout) := by
          rw [← bind_pure (waitDeadline op.timeout)]
          exact leads_waitDeadline_bind fun _ => leads_pure _
        unfold Leads at unchanged
        rw [computed] at unchanged
        exact unchanged.symm
      subst same
      obtain ⟨highest, first, current⟩ := blockCurrent_settles (touch.sound sound) waited
      refine ⟨highest, fun id' installed new => ?_, current⟩
      have installs := first id' installed fun same => new
        ((congrArg Kernel.currentThread enqueues.1 :).symm.trans same)
      rw [show (enqueue k).view = k.view from view] at installs
      exact installs
  · rw [failed] at run
    cases run
  · rw [returned] at run
    cases run
    exact absurd rfl (taken.reply_ne action)

/-! ### When a thread became ready -/

/-- The call made the thread ready: it is ready after the call, and before it either was not ready or
has run since. -/
def Call.readies (call : Call) (id : ℕ) : Bool :=
  match call.after.view id with
  | some (.ready, order) => decide (call.before.view id ≠ some (.ready, order))
  | _ => false

theorem Call.readies_of_ready {call : Call} {id order : ℕ}
    (ready : call.after.view id = some (.ready, order)) :
    call.readies id = decide (call.before.view id ≠ some (.ready, order)) := by
  simp only [Call.readies, ready]

/-- The number of the last call of a history that made the thread ready. -/
def readySince (calls : List Call) (id : ℕ) : ℕ :=
  calls.length - calls.reverse.findIdx (·.readies id)

theorem readySince_snoc (calls : List Call) (call : Call) (id : ℕ) :
    readySince (calls ++ [call]) id =
      if call.readies id then calls.length + 1 else readySince calls id := by
  unfold readySince
  rw [List.reverse_append, List.reverse_singleton, List.singleton_append, List.findIdx_cons,
    List.length_append, List.length_singleton]
  cases call.readies id <;> simp

theorem readySince_le (calls : List Call) (id : ℕ) : readySince calls id ≤ calls.length :=
  Nat.sub_le _ _

theorem step_ready_origin {k : Kernel} (sound : k.Sound) (op : Op) (context : CpuContext)
    {id order : ℕ} (ready : (leaves ((step op context).run k)).view id = some (.ready, order)) :
    k.view id = some (.ready, order) ∨ k.nextReadyOrder ≤ order := by
  by_cases reset : op = .reset
  · rw [reset, reset_run] at ready
    simp at ready
  · have kept := (step_acts sound.running reset context).preserves
      (I := fun a => a.RunningSound ∧ k.nextReadyOrder ≤ a.nextReadyOrder ∧
        ∀ id order, a.view id = some (.ready, order) →
          k.view id = some (.ready, order) ∨ k.nextReadyOrder ≤ order)
      ⟨sound.running, le_rfl, fun _ _ h => .inl h⟩ ?_
    · exact kept.2.2 id order ready
    · rintro a b act - does ⟨running, le, origin⟩
      have moves := does.moves running
      refine ⟨does.runningSound running, le.trans moves.order_le, fun id order ready => ?_⟩
      rcases moves.ready_origin ready with old | rfl
      · exact origin id order old
      · exact .inr le

theorem ready_orders_follow {calls : List Call} {k : Kernel} (run : Run Steps Kernel.new calls k) :
    k.Sound ∧ ∀ id other order order', k.view id = some (.ready, order) →
      k.view other = some (.ready, order') → readySince calls id < readySince calls other →
      order < order' := by
  refine run.history (H := fun calls k => k.Sound ∧ ∀ id other order order',
    k.view id = some (.ready, order) → k.view other = some (.ready, order') →
    readySince calls id < readySince calls other → order < order') ⟨sound_new, by simp⟩ ?_
  rintro calls a call b ⟨sound, follow⟩ ⟨called, rfl⟩
  have after : call.after = leaves ((step call.op call.context).run a) := congrArg Call.after called
  have before : call.before = a := congrArg Call.before called
  refine ⟨after ▸ sound.step _ _, fun id other order order' ready ready' earlier => ?_⟩
  have origin := step_ready_origin sound call.op call.context (after ▸ ready)
  have origin' := step_ready_origin sound call.op call.context (after ▸ ready')
  rw [readySince_snoc, readySince_snoc] at earlier
  have le := readySince_le calls other
  have le' := readySince_le calls id
  rw [Call.readies_of_ready ready, Call.readies_of_ready ready', before] at earlier
  by_cases kept : a.view id = some (.ready, order)
  · by_cases kept' : a.view other = some (.ready, order')
    · exact follow id other order order' kept kept' (by simpa [kept, kept'] using earlier)
    · exact (sound.bounded id order (.inl kept)).trans_le (origin'.resolve_left kept')
  · simp only [kept, ne_eq, not_false_eq_true, decide_true, if_true] at earlier
    split at earlier <;> omega

/-! ### Priority scheduling -/

/-- The calls the kernel promises a scheduling decision for: a reschedule other than a yield, and a
call that deschedules its caller. -/
def Kernel.Deschedules (k : Kernel) : Op → Prop
  | .reschedule reason => reason ≠ .yield
  | .sleepCurrent => ∀ id thread, k.currentThread = some id → k.threads.get id = some thread →
      thread.wakeupCount = 0
  | .delayCurrent ticks => ticks ≠ 0
  | .waitVblank _ | .waitModuleStart _ | .exitCurrent | .exitDeleteCurrent => True
  | op => op.waitsOnObject = true

theorem step_settles (sound : k.Sound) {op : Op} (deschedules : k.Deschedules op)
    (run : (step op context).run k = .ok (.action action, context') k') : k.Settles k' action := by
  have unmapped {m : KernelM (ScheduleAction × CpuContext)}
      (run : ((fun r : ScheduleAction × CpuContext => (Reply.action r.1, r.2)) <$> m).run k =
        .ok (.action action, context') k') : m.run k = .ok (action, context') k' := by
    rw [run_map] at run
    cases ran : m.run k with
    | error e => rw [ran] at run; cases run
    | ok r => rw [ran] at run; cases run; rfl
  cases op with
  | reschedule reason =>
    obtain ⟨highest, first, current⟩ := reschedule_settles sound (unmapped run)
    exact ⟨highest deschedules, first, current⟩
  | sleepCurrent => exact sleepCurrent_settles sound deschedules (unmapped run)
  | delayCurrent => exact delayCurrent_settles sound deschedules (unmapped run)
  | waitVblank => exact waitVblank_settles sound (unmapped run)
  | waitModuleStart => exact waitModuleStart_settles sound (unmapped run)
  | exitCurrent => exact exitCurrent_settles sound (unmapped run)
  | exitDeleteCurrent => exact exitDeleteCurrent_settles sound (unmapped run)
  | waitSemaphore | waitEventFlag | receiveMessage | allocateFixed | allocateVariable =>
    exact objectWait_settles sound deschedules run
  | _ => cases deschedules

/-- After every scheduling decision no ready thread has a smaller priority number than the running
one, some thread runs if any is ready, and a thread that was switched in became ready before the
other ready threads of its priority: in an earlier call or, within one call, with an earlier ready
order. -/
theorem priority_scheduling {calls : List Call} {k k' : Kernel} (run : Run Steps Kernel.new calls k)
    {op : Op} (deschedules : k.Deschedules op) {context context' : CpuContext}
    {action : ScheduleAction} (ran : (step op context).run k = .ok (.action action, context') k') :
    action.current = k'.currentThread ∧
    (∀ id thread, k'.threads.get id = some thread → thread.state = .ready →
      ∃ current running, k'.currentThread = some current ∧
        k'.threads.get current = some running ∧
        running.currentPriority ≤ thread.currentPriority) ∧
    ∀ id thread, k'.currentThread = some id → k.currentThread ≠ some id →
      k'.threads.get id = some thread → ∀ other thread', k'.threads.get other = some thread' →
      thread'.state = .ready → thread'.currentPriority = thread.currentPriority →
      let history := calls ++ [Call.of k op context]
      readySince history id < readySince history other ∨
        readySince history id = readySince history other ∧ thread.readyOrder < thread'.readyOrder := by
  obtain ⟨sound, follow⟩ := ready_orders_follow run
  obtain ⟨highest, first, current⟩ := step_settles sound deschedules ran
  refine ⟨current, highest, fun id thread installed new found other thread' found' ready same => ?_⟩
  obtain ⟨foremost, order, before, running⟩ := first id installed new
  have earlier := foremost thread found other thread' found' ready same
  have after : (Call.of k op context).after = k' := by simp [Call.of, ran]
  have stays : (Call.of k op context).readies id = false := by
    simp [Call.readies, after, running]
  have ready' : k'.view other = some (.ready, thread'.readyOrder) :=
    view_eq_some.mpr ⟨thread', found', ready, rfl⟩
  have orders : order = thread.readyOrder := by
    simp [view, found] at running
    exact running.2.symm
  have le := readySince_le calls id
  simp only [readySince_snoc, stays, Bool.false_eq_true, if_false]
  by_cases kept : k.view other = some (.ready, thread'.readyOrder)
  · have still : (Call.of k op context).readies other = false := by
      rw [Call.readies_of_ready (after ▸ ready')]
      exact decide_eq_false (not_not.mpr kept)
    simp only [still, Bool.false_eq_true, if_false]
    have notLater : ¬ readySince calls other < readySince calls id := fun later => by
      have := follow other id _ _ kept before later
      omega
    omega
  · have made : (Call.of k op context).readies other = true := by
      rw [Call.readies_of_ready (after ▸ ready')]
      exact decide_eq_true kept
    simp only [made, if_true]
    omega

/-- Two threads of one priority, of which the second became ready first. -/
def twoReady : List Op :=
  [.createThread (sampleThread 10) sampleRange, .createThread (sampleThread 10) sampleRange,
    .startThread 2 0, .startThread 1 0]

theorem priority_scheduling_sample : ∃ action context' k',
    (step (.reschedule .hleReturn) sampleContext).run (Kernel.new.after sampleContext twoReady) =
      .ok (.action action, context') k' ∧ action.current = some 2 ∧
        action.current = k'.currentThread := by
  have tested : (outcome ((step (.reschedule .hleReturn) sampleContext).run
      (Kernel.new.after sampleContext twoReady))).toOption.any
        (fun r => r.1 = .action ⟨none, some 2, true⟩) = true := by decide +kernel
  obtain ⟨⟨reply, context'⟩, ran, same⟩ := exists_run_ok tested
  obtain rfl : reply = .action ⟨none, some 2, true⟩ := by simpa using same
  exact ⟨_, context', _, ran, rfl,
    (priority_scheduling (run_history Kernel.new sampleContext twoReady)
      (by change RescheduleReason.hleReturn ≠ .yield; decide) ran).1⟩

end Upse
