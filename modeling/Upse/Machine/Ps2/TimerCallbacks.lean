import Upse.Machine.Ps2.HardTimers
import Upse.Machine.Ps2.Starvation

/-!
# When the handlers of hard timers run

A counter reports its target whether or not the timer was started, and stopping or freeing a timer
leaves the callback it has queued.  In a run in which neither happens a handler runs only while its
timer is started, and a timer has one callback at a time.
-/

namespace Upse.Iop

open ErrorState R3000

/-- The timer whose callback is running. -/
def CallbackMachine.runningTimer (m : CallbackMachine) : Option TimerId :=
  match m.callbackActive with
  | some ⟨.timer timer, _⟩ => some timer
  | _ => none

/-- The callbacks a timer has queued. -/
def CallbackMachine.queuedFor (m : CallbackMachine) (timer : TimerId) : List (TimerId × CallbackRequest) :=
  m.timerCallbacks.filter fun entry => entry.1 = timer

/-- The callbacks of a timer that are queued or running. -/
def CallbackMachine.inFlight (m : CallbackMachine) (timer : TimerId) : ℕ :=
  (m.queuedFor timer).length + if m.runningTimer = some timer then 1 else 0

/-- The machine with a record of the timers that were started and not stopped or freed since. -/
structure TimerRun where
  host : TimerHost
  started : TimerId → Bool

/-- A successful call on a timer marks it as started or not. -/
def markTimer (handle code : Word) (value : Bool) (started : TimerId → Bool) : TimerId → Bool :=
  match handleTimer handle with
  | some timer => if code = 0 then Function.update started timer value else started
  | none => started

/-- How a call changes which timers are started: where it succeeded, as its name says. -/
def TimerCall.marks (call : TimerCall) (code : Word) (started : TimerId → Bool) : TimerId → Bool :=
  match call with
  | .start handle => markTimer handle code true started
  | .stop handle => markTimer handle code false started
  | .free handle => markTimer handle code false started
  | _ => started

/-- Another part of the machine moved: the callbacks of timers are left alone. -/
structure LeavesTimers (m m' : CallbackMachine) : Prop where
  queue : m'.timerCallbacks = m.timerCallbacks
  running : m'.runningTimer = m.runningTimer

namespace TimerRun

/-- One step of a run. -/
inductive Next : TimerRun → TimerStep → TimerRun → Prop
  | call {r : TimerRun} {call : TimerCall} {code : Word} {host : TimerHost}
      (ran : call.perform.run r.host = .ok code host) :
      Next r (.call call code) ⟨host, call.marks code r.started⟩
  | access {r : TimerRun} {op : TimerOp} {host : TimerHost}
      (ran : (TimerHost.onTimers op.perform).run r.host = .ok () host) :
      Next r (.access op) ⟨host, r.started⟩
  | elapse {r : TimerRun} {ops : List TimerOp} {host : TimerHost}
      (ran : (TimerHost.elapse ops).run r.host = .ok () host) :
      Next r (.elapse ops) ⟨host, r.started⟩
  | enter {r : TimerRun} {host : TimerHost}
      (ran : (TimerHost.onMachine CallbackMachine.enterPendingCallback).run r.host = .ok () host) :
      Next r .enter ⟨host, r.started⟩
  | finish {r : TimerRun} {host : TimerHost} (ran : TimerHost.returnFromTimer.run r.host = .ok () host) :
      Next r .finish ⟨host, r.started⟩
  | elsewhere {r : TimerRun} {machine : CallbackMachine} (same : LeavesTimers r.host.machine machine) :
      Next r (.elsewhere machine) ⟨{ r.host with machine := machine }, r.started⟩

/-- Before anything was allocated. -/
structure Fresh (r : TimerRun) : Prop where
  slots : r.host.slots = fun _ => .default
  queue : r.host.machine.timerCallbacks = []
  running : r.host.machine.runningTimer = none
  started : r.started = fun _ => false

/-- A handler is entered only while its timer is started, no callback waits for a timer that is not
allocated, and a timer has at most one callback queued or running. -/
structure Disciplined (r : TimerRun) : Prop where
  entered : ∀ r' timer, Next r .enter r' → r.host.machine.runningTimer = none →
    r'.host.machine.runningTimer = some timer → r.started timer = true
  owned : ∀ entry ∈ r.host.machine.timerCallbacks,
    r.started entry.1 = true ∧ (r.host.slots entry.1).allocated = true
  single : ∀ timer, r.host.machine.inFlight timer ≤ 1

/-- A step that does not cut off a callback, nor lets a timer that is not started reach its target
with a handler. -/
def Careful (r : TimerRun) : TimerStep → Prop
  | .call (.free handle) _ => ∀ timer, r.host.index handle = some timer →
      r.host.machine.inFlight timer = 0
  | .call (.stop handle) _ => ∀ timer, r.host.index handle = some timer →
      r.host.machine.queuedFor timer = []
  | .elapse ops => ∀ timers, (ops.forM TimerOp.perform).run r.host.timers = .ok () timers →
      ∀ timer, .counter timer .target ∈ timers.events → (r.host.slots timer).handler ≠ none →
        r.started timer = true
  | _ => True

/-- A careful step of a run. -/
def CarefulNext (r : TimerRun) (step : TimerStep) (r' : TimerRun) : Prop :=
  Careful r step ∧ Next r step r'

/-- What keeps the callbacks in order. -/
structure Orderly (r : TimerRun) : Prop where
  owned : ∀ entry ∈ r.host.machine.timerCallbacks, r.started entry.1 = true
  single : ∀ timer, r.host.machine.inFlight timer ≤ 1
  pending : ∀ timer, r.host.machine.inFlight timer ≠ 0 → (r.host.slots timer).callbackPending = true
  allocated : ∀ timer, (r.host.slots timer).callbackPending = true →
    (r.host.slots timer).allocated = true
  handled : ∀ timer, (r.host.slots timer).handler ≠ none → (r.host.slots timer).allocated = true

end TimerRun

namespace CallbackMachine

variable {m m' : CallbackMachine}

theorem inFlight_congr (same : LeavesTimers m m') (timer : TimerId) : m'.inFlight timer = m.inFlight timer := by
  unfold inFlight queuedFor
  rw [same.queue, same.running]

theorem inFlight_ne_zero_of_mem {entry : TimerId × CallbackRequest} (member : entry ∈ m.timerCallbacks) :
    m.inFlight entry.1 ≠ 0 := by
  have queued : entry ∈ m.queuedFor entry.1 := List.mem_filter.mpr ⟨member, decide_eq_true rfl⟩
  have positive := List.length_pos_of_mem queued
  unfold inFlight
  omega

theorem inFlight_append {timer : TimerId} {callback : CallbackRequest}
    (queue : m'.timerCallbacks = m.timerCallbacks ++ [(timer, callback)])
    (running : m'.runningTimer = m.runningTimer) (other : TimerId) :
    m'.inFlight other = m.inFlight other + if other = timer then 1 else 0 := by
  unfold inFlight queuedFor
  rw [queue, running, List.filter_append, List.length_append]
  rcases eq_or_ne other timer with rfl | apart
  · rw [List.filter_cons, if_pos (decide_eq_true rfl), if_pos rfl]
    simp only [List.filter_nil, List.length_singleton]
    omega
  · rw [List.filter_cons_of_neg (by simpa using apart.symm), if_neg apart]
    rfl

theorem inFlight_enter {timer : TimerId} {callback : CallbackRequest}
    (queue : m.timerCallbacks = (timer, callback) :: m'.timerCallbacks) (idle : m.runningTimer = none)
    (running : m'.runningTimer = some timer) (other : TimerId) : m'.inFlight other = m.inFlight other := by
  unfold inFlight queuedFor
  rw [queue, idle, running]
  rcases eq_or_ne other timer with rfl | apart
  · rw [List.filter_cons, if_pos (decide_eq_true rfl), if_pos rfl, if_neg (by simp), List.length_cons]
  · rw [List.filter_cons_of_neg (by simpa using apart.symm), if_neg (by simpa using apart.symm),
      if_neg (by simp)]

theorem inFlight_return {timer : TimerId} (queue : m'.timerCallbacks = m.timerCallbacks)
    (running : m.runningTimer = some timer) (idle : m'.runningTimer = none) (other : TimerId) :
    m.inFlight other = m'.inFlight other + if other = timer then 1 else 0 := by
  unfold inFlight queuedFor
  rw [queue, idle, running]
  rcases eq_or_ne other timer with rfl | apart
  · rw [if_pos rfl, if_pos rfl, if_neg (by simp)]
  · rw [if_neg (by simpa using apart.symm), if_neg apart, if_neg (by simp)]

theorem inHandler_leaves (idle : m.runningTimer = none) (callback : CallbackRequest) :
    LeavesTimers m (m.inHandler callback) where
  queue := by simp only [inHandler]
  running := by
    rw [idle]
    unfold runningTimer
    rw [inHandler_callbackActive]

theorem run_enterPendingCallback_timers (ran : enterPendingCallback.run m = .ok () m') :
    LeavesTimers m m' ∨ ∃ timer callback rest, m.timerCallbacks = (timer, callback) :: rest ∧
      m.runningTimer = none ∧ m'.timerCallbacks = rest ∧ m'.runningTimer = some timer := by
  have idle_of (h : ¬ (m.callbackActive.isSome = true ∨ (!m.interruptsEnabled) = true)) :
      m.runningTimer = none := by
    unfold runningTimer
    rw [Option.not_isSome_iff_eq_none.mp (not_or.mp h).1]
  unfold enterPendingCallback at ran
  rw [run_get_bind] at ran
  split at ran
  next =>
    obtain ⟨-, rfl⟩ := run_pure_ok.mp ran
    exact .inl ⟨rfl, rfl⟩
  next open_ =>
    have idle := idle_of open_
    split at ran
    next callback handled =>
      obtain ⟨-, rfl⟩ := run_enterHandler_ok.mp ran
      exact .inl (inHandler_leaves idle callback)
    next =>
      split at ran
      next callback rest queued =>
        rw [run_modify_bind] at ran
        obtain ⟨-, rfl⟩ := run_enterHandler_ok.mp ran
        obtain ⟨queue, running⟩ := inHandler_leaves (m := { m with interruptCallbacks := rest }) idle
          callback
        exact .inl ⟨queue, running⟩
      next =>
        split at ran
        next timer callback rest queued =>
          rw [run_modify_bind] at ran
          obtain ⟨context, u, entered, ran⟩ := run_bind_ok.mp ran
          obtain ⟨kernel, -, rfl⟩ := run_zoom_ok.mp entered
          obtain rfl := run_modify_ok.mp ran
          exact .inr ⟨timer, callback, rest, queued, idle, rfl, rfl⟩
        next =>
          split at ran
          next callback rest queued =>
            rw [run_modify_bind] at ran
            obtain ⟨context, u, entered, ran⟩ := run_bind_ok.mp ran
            obtain ⟨kernel, -, rfl⟩ := run_zoom_ok.mp entered
            obtain rfl := run_modify_ok.mp ran
            exact .inl ⟨rfl, idle.symm⟩
          next =>
            obtain ⟨-, rfl⟩ := run_pure_ok.mp ran
            exact .inl ⟨rfl, rfl⟩

end CallbackMachine

/-! ### What the services change -/

/-- A slot that still is its owner's, with the callback it waits for. -/
structure TimerSlot.Kept (slot slot' : TimerSlot) : Prop where
  allocated : slot'.allocated = slot.allocated
  pending : slot'.callbackPending = slot.callbackPending
  handler : slot'.handler ≠ none → slot.handler ≠ none ∨ slot.allocated = true

theorem TimerSlot.Kept.refl (slot : TimerSlot) : slot.Kept slot := ⟨rfl, rfl, .inl⟩

namespace TimerHost

variable {host host' : TimerHost} {code : Word}

/-- The services leave the callbacks alone, and the slots to their owners. -/
structure Kept (host host' : TimerHost) : Prop where
  machine : LeavesTimers host.machine host'.machine
  slots : ∀ timer, (host.slots timer).Kept (host'.slots timer)

theorem Kept.refl (host : TimerHost) : host.Kept host := ⟨⟨rfl, rfl⟩, fun _ => .refl _⟩

theorem Kept.of_slots (machine : LeavesTimers host.machine host'.machine)
    (slots : host'.slots = host.slots) : host.Kept host' :=
  ⟨machine, fun _ => slots ▸ .refl _⟩

theorem Kept.trans {host'' : TimerHost} (h : host.Kept host') (h' : host'.Kept host'') :
    host.Kept host'' where
  machine := ⟨h'.machine.queue.trans h.machine.queue, h'.machine.running.trans h.machine.running⟩
  slots timer :=
    { allocated := (h'.slots timer).allocated.trans (h.slots timer).allocated
      pending := (h'.slots timer).pending.trans (h.slots timer).pending
      handler := fun given => ((h'.slots timer).handler given).elim (h.slots timer).handler
        fun allocated => .inr ((h.slots timer).allocated ▸ allocated) }

theorem kept_modifySlot (timer : TimerId) {f : TimerSlot → TimerSlot}
    (kept : (host.slots timer).Kept (f (host.slots timer))) :
    host.Kept (host.modifySlot timer f) := by
  refine ⟨⟨rfl, rfl⟩, fun other => ?_⟩
  show (host.slots other).Kept (Function.update host.slots timer (f (host.slots timer)) other)
  rcases eq_or_ne other timer with rfl | apart
  · rw [Function.update_self]
    exact kept
  · rw [Function.update_of_ne apart]
    exact .refl _

theorem kept_onTimers {α : Type} {m : EStateM TimerError IopTimers α} {a : α}
    (ran : (onTimers m).run host = .ok a host') :
    host'.machine = host.machine ∧ host'.slots = host.slots := by
  obtain ⟨timers, -, rfl⟩ := run_zoom_ok.mp ran
  exact ⟨rfl, rfl⟩

theorem kept_of_timers {α : Type} {m : EStateM TimerError IopTimers α} {a : α}
    (ran : (onTimers m).run host = .ok a host') : host.Kept host' := by
  obtain ⟨machine, slots⟩ := kept_onTimers ran
  exact .of_slots ⟨by rw [machine], by rw [machine]⟩ slots

variable {handle : Word}

theorem index_eq_some {timer : TimerId} (found : host.index handle = some timer) :
    handleTimer handle = some timer ∧ (host.slots timer).allocated = true := by
  obtain ⟨named, valid⟩ := Option.filter_eq_some_iff.mp found
  exact ⟨named, ((Bool.and_eq_true _ _).mp valid).1⟩

theorem run_withTimer_ok {service : TimerId → TimerM Word}
    (ran : (withTimer handle service).run host = .ok code host') :
    code ≠ 0 ∧ host' = host ∨
      ∃ timer, host.index handle = some timer ∧ (service timer).run host = .ok code host' := by
  unfold withTimer at ran
  rw [run_get_bind] at ran
  cases found : host.index handle with
  | none =>
    rw [found] at ran
    obtain ⟨rfl, rfl⟩ := run_pure_ok.mp ran
    exact .inl ⟨by decide, rfl⟩
  | some timer =>
    rw [found] at ran
    exact .inr ⟨timer, rfl, ran⟩

theorem allocHardTimer_ok {source size prescale : Word}
    (ran : (allocHardTimer source size prescale).run host = .ok code host') :
    host' = host ∨ ∃ timer, (host.slots timer).allocated = false ∧
      host' = host.modifySlot timer fun _ => { TimerSlot.default with allocated := true } := by
  unfold allocHardTimer at ran
  rw [run_get_bind] at ran
  split at ran
  next =>
    obtain ⟨-, rfl⟩ := run_pure_ok.mp ran
    exact .inl rfl
  next timer found =>
    rw [run_modify_bind] at ran
    obtain ⟨-, rfl⟩ := run_pure_ok.mp ran
    have free := List.find?_some found
    exact .inr ⟨timer, by simpa using ((Bool.and_eq_true _ _).mp free).2, rfl⟩

theorem freeHardTimer_ok (ran : (freeHardTimer handle).run host = .ok code host') :
    code ≠ 0 ∧ host' = host ∨ ∃ timer, host.index handle = some timer ∧ code = 0 ∧
      host'.machine = host.machine ∧ host'.slots = Function.update host.slots timer .default := by
  rcases run_withTimer_ok ran with refused | ⟨timer, found, ran⟩
  · exact .inl refused
  · obtain ⟨_, u, wrote, ran⟩ := run_bind_ok.mp ran
    obtain ⟨machine, slots⟩ := kept_onTimers wrote
    rw [run_modify_bind] at ran
    obtain ⟨rfl, rfl⟩ := run_pure_ok.mp ran
    refine .inr ⟨timer, found, rfl, machine, ?_⟩
    show Function.update u.slots timer .default = _
    rw [slots]

theorem getTimerCounter_kept
    (ran : (getTimerCounter handle).run host = .ok code host') : host.Kept host' := by
  rcases run_withTimer_ok ran with ⟨-, rfl⟩ | ⟨timer, found, ran⟩
  · exact .refl _
  · obtain ⟨count, u, read, ran⟩ := run_bind_ok.mp ran
    obtain ⟨-, rfl⟩ := run_pure_ok.mp ran
    exact kept_of_timers read

theorem setTimerHandler_kept {handle compare entry argument : Word}
    (ran : (setTimerHandler handle compare entry argument).run host = .ok code host') :
    host.Kept host' := by
  rcases run_withTimer_ok ran with ⟨-, rfl⟩ | ⟨timer, found, ran⟩
  · exact .refl _
  · rw [run_get_bind] at ran
    split at ran
    next =>
      obtain ⟨-, rfl⟩ := run_pure_ok.mp ran
      exact .refl _
    next =>
      split at ran
      next =>
        obtain ⟨-, rfl⟩ := run_pure_ok.mp ran
        exact .refl _
      next =>
        rw [run_modify_bind] at ran
        obtain ⟨-, rfl⟩ := run_pure_ok.mp ran
        exact kept_modifySlot timer ⟨rfl, rfl, fun _ => .inr (index_eq_some found).2⟩

theorem setupHardTimer_kept {handle source mode prescale : Word}
    (ran : (setupHardTimer handle source mode prescale).run host = .ok code host') :
    host.Kept host' := by
  rcases run_withTimer_ok ran with ⟨-, rfl⟩ | ⟨timer, found, ran⟩
  · exact .refl _
  · split at ran
    next =>
      obtain ⟨-, rfl⟩ := run_pure_ok.mp ran
      exact .refl _
    next control _ =>
      rw [run_get_bind] at ran
      split at ran
      next =>
        obtain ⟨-, rfl⟩ := run_pure_ok.mp ran
        exact .refl _
      next =>
        rw [run_modify_bind] at ran
        obtain ⟨-, rfl⟩ := run_pure_ok.mp ran
        exact kept_modifySlot timer ⟨rfl, rfl, .inl⟩

theorem kept_modifyMask {f : Word → Word} (ran : (modifyMask f).run host = .ok () host') :
    host.Kept host' := by
  obtain rfl := run_modify_ok.mp ran
  exact .of_slots ⟨rfl, rfl⟩ rfl

theorem armTarget_kept {timer : TimerId} {slot : TimerSlot}
    (ran : (armTarget timer slot).run host = .ok () host') : host.Kept host' := by
  unfold armTarget at ran
  split at ran
  next =>
    obtain ⟨_, x, compared, masked⟩ := run_bind_ok.mp ran
    exact (kept_of_timers compared).trans (kept_modifyMask masked)
  next =>
    obtain ⟨-, rfl⟩ := run_pure_ok.mp ran
    exact .refl _

theorem startHardTimer_kept
    (ran : (startHardTimer handle).run host = .ok code host') : host.Kept host' := by
  rcases run_withTimer_ok ran with ⟨-, rfl⟩ | ⟨timer, found, ran⟩
  · exact .refl _
  · rw [run_get_bind] at ran
    obtain ⟨_, u, armed, ran⟩ := run_bind_ok.mp ran
    obtain ⟨_, v, counted, ran⟩ := run_bind_ok.mp ran
    obtain ⟨_, w, moded, ran⟩ := run_bind_ok.mp ran
    rw [run_modify_bind] at ran
    obtain ⟨-, rfl⟩ := run_pure_ok.mp ran
    exact (((armTarget_kept armed).trans (kept_of_timers counted)).trans
      (kept_of_timers moded)).trans (kept_modifySlot timer ⟨rfl, rfl, .inl⟩)

theorem stopHardTimer_kept
    (ran : (stopHardTimer handle).run host = .ok code host') :
    host.Kept host' ∧ (code ≠ 0 ∨ ∃ timer, host.index handle = some timer) := by
  rcases run_withTimer_ok ran with ⟨refused, rfl⟩ | ⟨timer, found, ran⟩
  · exact ⟨.refl _, .inl refused⟩
  · obtain ⟨_, u, moded, ran⟩ := run_bind_ok.mp ran
    obtain ⟨_, v, masked, ran⟩ := run_bind_ok.mp ran
    rw [run_modify_bind] at ran
    obtain ⟨-, rfl⟩ := run_pure_ok.mp ran
    exact ⟨((kept_of_timers moded).trans (kept_modifyMask masked)).trans (kept_modifySlot timer ⟨rfl, rfl, .inl⟩),
      .inr ⟨timer, found⟩⟩

end TimerHost

namespace TimerRun

open TimerHost

variable {r r' : TimerRun}

theorem Orderly.of_fresh (fresh : Fresh r) : Orderly r := by
  have idle (timer : TimerId) : r.host.machine.inFlight timer = 0 := by
    unfold CallbackMachine.inFlight CallbackMachine.queuedFor
    rw [fresh.queue, fresh.running]
    rfl
  refine ⟨?_, ?_, ?_, ?_, ?_⟩
  · rw [fresh.queue]
    exact fun _ member => absurd member (List.not_mem_nil)
  · exact fun timer => (idle timer).trans_le (Nat.zero_le _)
  · exact fun timer busy => absurd (idle timer) busy
  · intro timer pending
    rw [fresh.slots] at pending
    cases pending
  · intro timer handled
    rw [fresh.slots] at handled
    exact absurd rfl handled

variable {host' : TimerHost} {timer : TimerId}

/-- What leaves the callbacks alone and the slots to their owners keeps them in order, as long as no
timer with a queued callback is stopped. -/
theorem Orderly.of_kept (orderly : Orderly r) (kept : r.host.Kept host')
    {started' : TimerId → Bool}
    (owned : ∀ entry ∈ r.host.machine.timerCallbacks, started' entry.1 = true) :
    Orderly ⟨host', started'⟩ where
  owned entry member := owned entry (kept.machine.queue ▸ member)
  single timer := (CallbackMachine.inFlight_congr kept.machine timer).trans_le (orderly.single timer)
  pending timer busy := by
    rw [CallbackMachine.inFlight_congr kept.machine] at busy
    exact (kept.slots timer).pending.trans (orderly.pending timer busy)
  allocated timer pending := by
    rw [(kept.slots timer).pending] at pending
    exact (kept.slots timer).allocated.trans (orderly.allocated timer pending)
  handled timer given := by
    rw [(kept.slots timer).allocated]
    exact ((kept.slots timer).handler given).elim (orderly.handled timer) id

theorem Orderly.of_reset (orderly : Orderly r) {slot : TimerSlot}
    (machine : host'.machine = r.host.machine)
    (slots : host'.slots = Function.update r.host.slots timer slot)
    (idle : r.host.machine.inFlight timer = 0) (silent : slot.callbackPending = false)
    (unset : slot.handler = none) {started' : TimerId → Bool}
    (owned : ∀ entry ∈ r.host.machine.timerCallbacks, started' entry.1 = true) :
    Orderly ⟨host', started'⟩ where
  owned entry member := owned entry (machine ▸ member)
  single other := by
    show host'.machine.inFlight other ≤ 1
    rw [machine]
    exact orderly.single other
  pending other busy := by
    have busy : r.host.machine.inFlight other ≠ 0 := machine ▸ busy
    have apart : other ≠ timer := fun same => busy (same ▸ idle)
    show (host'.slots other).callbackPending = true
    rw [slots, Function.update_of_ne apart]
    exact orderly.pending other busy
  allocated other pending := by
    show (host'.slots other).allocated = true
    have pending : (host'.slots other).callbackPending = true := pending
    rw [slots] at pending ⊢
    rcases eq_or_ne other timer with rfl | apart
    · rw [Function.update_self, silent] at pending
      cases pending
    · rw [Function.update_of_ne apart] at pending ⊢
      exact orderly.allocated other pending
  handled other given := by
    show (host'.slots other).allocated = true
    have given : (host'.slots other).handler ≠ none := given
    rw [slots] at given ⊢
    rcases eq_or_ne other timer with rfl | apart
    · rw [Function.update_self] at given
      exact absurd unset given
    · rw [Function.update_of_ne apart] at given ⊢
      exact orderly.handled other given

theorem owned_update (orderly : Orderly r) {value : Bool}
    (unqueued : value = true ∨ r.host.machine.queuedFor timer = []) :
    ∀ entry ∈ r.host.machine.timerCallbacks,
      Function.update r.started timer value entry.1 = true := by
  intro entry member
  rcases eq_or_ne entry.1 timer with same | apart
  · rw [same, Function.update_self]
    refine unqueued.resolve_right fun none_ => ?_
    have queued : entry ∈ r.host.machine.queuedFor timer :=
      List.mem_filter.mpr ⟨member, decide_eq_true same⟩
    rw [none_] at queued
    exact absurd queued List.not_mem_nil
  · rw [Function.update_of_ne apart]
    exact orderly.owned entry member

theorem queuedFor_of_idle {m : CallbackMachine} (idle : m.inFlight timer = 0) :
    m.queuedFor timer = [] := by
  unfold CallbackMachine.inFlight at idle
  exact List.length_eq_zero_iff.mp (by omega)

theorem markTimer_cases (handle code : Word) (value : Bool) (started : TimerId → Bool) :
    markTimer handle code value started = started ∨ code = 0 ∧ ∃ timer,
      handleTimer handle = some timer ∧
        markTimer handle code value started = Function.update started timer value := by
  unfold markTimer
  cases handleTimer handle with
  | none => exact .inl rfl
  | some timer =>
    by_cases succeeded : code = 0
    · exact .inr ⟨succeeded, timer, rfl, if_pos succeeded⟩
    · exact .inl (if_neg succeeded)

theorem Orderly.owned_mark (orderly : Orderly r) (handle code : Word) (value : Bool)
    (unqueued : ∀ timer, code = 0 → handleTimer handle = some timer → value = true ∨
      r.host.machine.queuedFor timer = []) :
    ∀ entry ∈ r.host.machine.timerCallbacks, markTimer handle code value r.started entry.1 = true := by
  rcases markTimer_cases handle code value r.started with same | ⟨succeeded, timer, named, same⟩
  · rw [same]
    exact orderly.owned
  · rw [same]
    exact owned_update orderly (unqueued timer succeeded named)

theorem Orderly.call (orderly : Orderly r) {call : TimerCall} {code : Word}
    (careful : Careful r (.call call code)) (ran : call.perform.run r.host = .ok code host') :
    Orderly ⟨host', call.marks code r.started⟩ := by
  cases call with
  | alloc source size prescale =>
    rcases allocHardTimer_ok ran with rfl | ⟨timer, free, rfl⟩
    · exact orderly.of_kept (.refl _) orderly.owned
    · have idle : r.host.machine.inFlight timer = 0 := by
        by_contra busy
        have allocated := orderly.allocated timer (orderly.pending timer busy)
        rw [free] at allocated
        cases allocated
      have machine : (r.host.modifySlot timer fun _ =>
          { TimerSlot.default with allocated := true }).machine = r.host.machine := rfl
      have slots : (r.host.modifySlot timer fun _ =>
          { TimerSlot.default with allocated := true }).slots =
            Function.update r.host.slots timer { TimerSlot.default with allocated := true } := rfl
      exact orderly.of_reset machine slots idle rfl rfl orderly.owned
  | free handle =>
    rcases freeHardTimer_ok ran with ⟨refused, rfl⟩ | ⟨timer, found, rfl, machine, slots⟩
    · exact orderly.of_kept (.refl _)
        (orderly.owned_mark handle code false fun _ succeeded _ => absurd succeeded refused)
    · have idle := careful timer found
      refine orderly.of_reset machine slots idle rfl rfl
        (orderly.owned_mark handle 0 false fun timer' _ named => .inr ?_)
      have same := (index_eq_some found).1
      rw [named] at same
      cases same
      exact queuedFor_of_idle idle
  | counter handle => exact orderly.of_kept (getTimerCounter_kept ran) orderly.owned
  | setHandler handle compare entry argument =>
    exact orderly.of_kept (setTimerHandler_kept ran) orderly.owned
  | setup handle source mode prescale =>
    exact orderly.of_kept (setupHardTimer_kept ran) orderly.owned
  | start handle =>
    exact orderly.of_kept (startHardTimer_kept ran)
      (orderly.owned_mark handle code true fun _ _ _ => .inl rfl)
  | stop handle =>
    obtain ⟨kept, stopped⟩ := stopHardTimer_kept ran
    refine orderly.of_kept kept
      (orderly.owned_mark handle code false fun timer succeeded named => .inr ?_)
    obtain ⟨timer', found⟩ := stopped.resolve_left (not_not.mpr succeeded)
    have same := (index_eq_some found).1
    rw [named] at same
    cases same
    exact careful timer found

/-! ### Time and callbacks -/

theorem handler_queueCallback (host : TimerHost) (timer other : TimerId) :
    ((host.queueCallback timer).slots other).handler = (host.slots other).handler := by
  unfold queueCallback
  split
  next => rfl
  next entry argument given =>
    split
    next => rfl
    next =>
      show (Function.update host.slots timer _ other).handler = _
      rcases eq_or_ne other timer with rfl | apart
      · rw [Function.update_self]
      · rw [Function.update_of_ne apart]

theorem Orderly.queueCallback (orderly : Orderly r)
    (started : (r.host.slots timer).handler ≠ none → r.started timer = true) :
    Orderly ⟨r.host.queueCallback timer, r.started⟩ := by
  unfold TimerHost.queueCallback
  split
  next => exact orderly
  next entry argument given =>
    split
    next => exact orderly
    next idle_ =>
      have idle : r.host.machine.inFlight timer = 0 := by
        by_contra busy
        exact idle_ (orderly.pending timer busy)
      have handled : (r.host.slots timer).handler ≠ none := by
        rw [given]
        exact Option.some_ne_none _
      have flight : ∀ other, CallbackMachine.inFlight
          { r.host.machine with timerCallbacks := r.host.machine.timerCallbacks ++
            [(timer, ⟨entry.toNat, argument, returnEntry, timerIndex timer⟩)] } other =
          r.host.machine.inFlight other + if other = timer then 1 else 0 :=
        CallbackMachine.inFlight_append rfl rfl
      constructor
      · intro queued member
        rcases List.mem_append.mp member with old | new
        · exact orderly.owned queued old
        · rw [List.mem_singleton.mp new]
          exact started handled
      · intro other
        refine (flight other).trans_le ?_
        rcases eq_or_ne other timer with rfl | apart
        · rw [idle, if_pos rfl]
        · rw [if_neg apart]
          exact orderly.single other
      · intro other busy
        show (Function.update r.host.slots timer _ other).callbackPending = true
        rcases eq_or_ne other timer with rfl | apart
        · rw [Function.update_self]
        · rw [Function.update_of_ne apart]
          refine orderly.pending other fun idle' => busy ((flight other).trans ?_)
          rw [idle', if_neg apart]
      · exact (Function.forall_update_iff _ fun _ (slot : TimerSlot) =>
          slot.callbackPending = true → slot.allocated = true).mpr
          ⟨fun _ => orderly.handled timer handled, fun other _ => orderly.allocated other⟩
      · exact (Function.forall_update_iff _ fun _ (slot : TimerSlot) =>
          slot.handler ≠ none → slot.allocated = true).mpr
          ⟨orderly.handled timer, fun other _ => orderly.handled other⟩

theorem Orderly.observe (events : List TimingEvent) {r : TimerRun} (orderly : Orderly r)
    (started : ∀ timer, .counter timer .target ∈ events → (r.host.slots timer).handler ≠ none →
      r.started timer = true) : Orderly ⟨events.foldl TimerHost.observe r.host, r.started⟩ := by
  induction events generalizing r with
  | nil => exact orderly
  | cons event events ih =>
    have others (timer : TimerId) (member : .counter timer .target ∈ events) :
        (r.host.slots timer).handler ≠ none → r.started timer = true :=
      started timer (List.mem_cons_of_mem _ member)
    cases event with
    | counter timer boundary =>
      cases boundary with
      | target =>
        have next := orderly.queueCallback (started timer List.mem_cons_self)
        refine ih next fun other member given => others other member ?_
        rwa [handler_queueCallback] at given
      | overflow => exact ih orderly others
    | vBlankStart => exact ih orderly others
    | vBlankEnd => exact ih orderly others

theorem Orderly.elapse (orderly : Orderly r) {ops : List TimerOp}
    (careful : Careful r (.elapse ops)) (ran : (TimerHost.elapse ops).run r.host = .ok () host') :
    Orderly ⟨host', r.started⟩ := by
  obtain ⟨_, u, passed, ran⟩ := run_bind_ok.mp ran
  obtain ⟨timers, advanced, rfl⟩ := run_zoom_ok.mp passed
  obtain rfl := run_modify_ok.mp ran
  have kept : r.host.Kept { r.host with timers := { timers with events := [] } } :=
    ⟨⟨rfl, rfl⟩, fun _ => .refl _⟩
  exact (orderly.of_kept kept orderly.owned).observe timers.events (careful timers advanced)

theorem Orderly.enter (orderly : Orderly r)
    (ran : (onMachine CallbackMachine.enterPendingCallback).run r.host = .ok () host') :
    Orderly ⟨host', r.started⟩ := by
  obtain ⟨machine, entered, rfl⟩ := run_zoom_ok.mp ran
  rcases CallbackMachine.run_enterPendingCallback_timers entered with
    same | ⟨timer, callback, rest, queue, idle, left, running⟩
  · have kept : r.host.Kept { r.host with machine := machine } := ⟨same, fun _ => .refl _⟩
    exact orderly.of_kept kept orderly.owned
  · have flight := CallbackMachine.inFlight_enter (left ▸ queue) idle running
    exact
      { owned := fun entry member =>
          orderly.owned entry (queue ▸ List.mem_cons_of_mem _ (left ▸ member))
        single := fun other => (flight other).trans_le (orderly.single other)
        pending := fun other busy => orderly.pending other ((flight other) ▸ busy)
        allocated := orderly.allocated
        handled := orderly.handled }

theorem Orderly.finish (orderly : Orderly r)
    (ran : returnFromTimer.run r.host = .ok () host') : Orderly ⟨host', r.started⟩ := by
  unfold returnFromTimer at ran
  rw [run_get_bind] at ran
  split at ran
  next timer cpu active =>
    obtain ⟨context, u, step, ran⟩ := run_bind_ok.mp ran
    obtain ⟨machine, inner, rfl⟩ := run_zoom_ok.mp step
    obtain ⟨kernel, -, rfl⟩ := run_zoom_ok.mp inner
    rw [run_modify_bind] at ran
    obtain rfl := run_modify_ok.mp ran
    have running : r.host.machine.runningTimer = some timer := by
      unfold CallbackMachine.runningTimer
      rw [active]
    have flight : ∀ other, r.host.machine.inFlight other =
        CallbackMachine.inFlight { r.host.machine with callbackActive := none } other +
          if other = timer then 1 else 0 :=
      CallbackMachine.inFlight_return rfl running rfl
    have idle (other : TimerId) (busy : CallbackMachine.inFlight
        { r.host.machine with callbackActive := none } other ≠ 0) :
        other ≠ timer ∧ r.host.machine.inFlight other ≠ 0 := by
      have single := orderly.single other
      have same := flight other
      refine ⟨?_, by omega⟩
      rintro rfl
      rw [if_pos rfl] at same
      omega
    refine ⟨orderly.owned, fun other => ?_, fun other busy => ?_, ?_, ?_⟩
    · have single := orderly.single other
      have same := flight other
      show CallbackMachine.inFlight { r.host.machine with callbackActive := none } other ≤ 1
      omega
    · obtain ⟨apart, busy⟩ := idle other busy
      show (Function.update r.host.slots timer _ other).callbackPending = true
      rw [Function.update_of_ne apart]
      exact orderly.pending other busy
    · exact (Function.forall_update_iff _ fun _ (slot : TimerSlot) =>
        slot.callbackPending = true → slot.allocated = true).mpr
        ⟨fun pending => absurd pending Bool.false_ne_true, fun other _ => orderly.allocated other⟩
    · exact (Function.forall_update_iff _ fun _ (slot : TimerSlot) =>
        slot.handler ≠ none → slot.allocated = true).mpr
        ⟨orderly.handled timer, fun other _ => orderly.handled other⟩
  next => cases ran

theorem Orderly.next (orderly : Orderly r) {step : TimerStep} (careful : Careful r step)
    (next : Next r step r') : Orderly r' := by
  cases next with
  | call ran => exact orderly.call careful ran
  | access ran => exact orderly.of_kept (kept_of_timers ran) orderly.owned
  | elapse ran => exact orderly.elapse careful ran
  | enter ran => exact orderly.enter ran
  | finish ran => exact orderly.finish ran
  | @elsewhere machine same =>
    have kept : r.host.Kept { r.host with machine := machine } := ⟨same, fun _ => .refl _⟩
    exact orderly.of_kept kept orderly.owned

theorem Orderly.disciplined (orderly : Orderly r) : Disciplined r where
  entered r' timer next idle running := by
    cases next with
    | enter ran =>
      obtain ⟨machine, entered, rfl⟩ := run_zoom_ok.mp ran
      rcases CallbackMachine.run_enterPendingCallback_timers entered with
        same | ⟨timer', callback, rest, queue, -, -, running'⟩
      · have none_ := (same.running.trans idle).symm.trans running
        cases none_
      · have same := running'.symm.trans running
        cases same
        exact orderly.owned (timer, callback) (queue ▸ List.mem_cons_self)
  owned entry member :=
    ⟨orderly.owned entry member, orderly.allocated _
      (orderly.pending _ (CallbackMachine.inFlight_ne_zero_of_mem member))⟩
  single := orderly.single

/-- In a run that cuts off no callback and in which only started timers reach their target with a
handler, handlers run as they should in every state. -/
theorem careful_runs_disciplined {steps : List TimerStep} (fresh : Fresh r)
    (run : Run CarefulNext r steps r') : Disciplined r' :=
  (run.invariant (I := Orderly) (.of_fresh fresh)
    fun _ _ _ orderly step => orderly.next step.1 step.2).disciplined

/-! ### Runs -/

/-- The machine at reset. -/
def atReset : TimerRun := ⟨⟨.unmasked [], .new, fun _ => .default⟩, fun _ => false⟩

theorem fresh_atReset : Fresh atReset := ⟨rfl, rfl, rfl, rfl⟩

/-- What a step leaves. -/
def after (r : TimerRun) : TimerStep → TimerRun
  | .call call code => ⟨leaves (call.perform.run r.host), call.marks code r.started⟩
  | .access op => ⟨leaves ((onTimers op.perform).run r.host), r.started⟩
  | .elapse ops => ⟨leaves ((TimerHost.elapse ops).run r.host), r.started⟩
  | .enter => ⟨leaves ((onMachine CallbackMachine.enterPendingCallback).run r.host), r.started⟩
  | .finish => ⟨leaves (returnFromTimer.run r.host), r.started⟩
  | .elsewhere machine => ⟨{ r.host with machine := machine }, r.started⟩

theorem next_call {call : TimerCall} {code : Word}
    (ran : returned (call.perform.run r.host) = some code) :
    Next r (.call call code) (r.after (.call call code)) :=
  .call (eq_ok_of_returned ran)

theorem next_elapse {ops : List TimerOp} (ran : returned ((TimerHost.elapse ops).run r.host) = some ()) :
    Next r (.elapse ops) (r.after (.elapse ops)) :=
  .elapse (eq_ok_of_returned ran)

theorem next_enter (ran : returned ((onMachine CallbackMachine.enterPendingCallback).run r.host) =
    some ()) : Next r .enter (r.after .enter) :=
  .enter (eq_ok_of_returned ran)

/-- A 16-bit timer with a handler at 0x3000 for its hundredth tick. -/
def handled : TimerRun :=
  (atReset.after (.call (.alloc 1 16 1) (timerHandle .timer2))).after
    (.call (.setHandler (timerHandle .timer2) 100 0x3000 0) 0)

theorem run_handled : Run Next atReset [.call (.alloc 1 16 1) (timerHandle .timer2),
    .call (.setHandler (timerHandle .timer2) 100 0x3000 0) 0] handled :=
  .snoc (.snoc (.refl _) (next_call (by decide +kernel))) (next_call (by decide +kernel))

/-- A timer that was never started counts to its reset target, and its handler is entered. -/
theorem unstarted_handler_entered : ∃ steps r, Run Next atReset steps r ∧
    (∀ handle code, TimerStep.call (.start handle) code ∉ steps) ∧
    r.host.machine.runningTimer = some .timer2 ∧ r.started .timer2 = false ∧
    ¬ ∀ steps r', Run Next atReset steps r' → Disciplined r' := by
  have counted : Run Next atReset [.call (.alloc 1 16 1) (timerHandle .timer2),
      .call (.setHandler (timerHandle .timer2) 100 0x3000 0) 0, .elapse [.advanceCpu 65536]]
      (handled.after (.elapse [.advanceCpu 65536])) :=
    .snoc run_handled (next_elapse (by decide +kernel))
  have entered : Next (handled.after (.elapse [.advanceCpu 65536])) .enter
      ((handled.after (.elapse [.advanceCpu 65536])).after .enter) :=
    next_enter (by decide +kernel)
  have running : ((handled.after (.elapse [.advanceCpu 65536])).after .enter).host.machine.runningTimer =
      some .timer2 := by decide +kernel
  have unstarted : (handled.after (.elapse [.advanceCpu 65536])).started .timer2 = false := by
    decide +kernel
  refine ⟨_, _, counted.snoc entered, ?_, running, unstarted, fun always => ?_⟩
  · intro handle code member
    simp at member
  · have started := (always _ _ counted).entered _ .timer2 entered (by decide +kernel) running
    rw [unstarted] at started
    cases started

/-- The timer, started. -/
def underway : TimerRun := handled.after (.call (.start (timerHandle .timer2)) 0)

theorem run_underway : Run CarefulNext atReset [.call (.alloc 1 16 1) (timerHandle .timer2),
    .call (.setHandler (timerHandle .timer2) 100 0x3000 0) 0,
    .call (.start (timerHandle .timer2)) 0] underway := by
  have allocated : CarefulNext atReset (.call (.alloc 1 16 1) (timerHandle .timer2))
      (atReset.after (.call (.alloc 1 16 1) (timerHandle .timer2))) :=
    ⟨trivial, next_call (by decide +kernel)⟩
  have given : CarefulNext (atReset.after (.call (.alloc 1 16 1) (timerHandle .timer2)))
      (.call (.setHandler (timerHandle .timer2) 100 0x3000 0) 0) handled :=
    ⟨trivial, next_call (by decide +kernel)⟩
  have started : CarefulNext handled (.call (.start (timerHandle .timer2)) 0) underway :=
    ⟨trivial, next_call (by decide +kernel)⟩
  exact ((Run.refl _).snoc allocated |>.snoc given).snoc started

/-- Started, the timer reaches its target, and its handler waits to be entered. -/
theorem careful_runs_disciplined_underway :
    Disciplined (underway.after (.elapse [.advanceCpu 100])) := by
  have events : (leaves (([TimerOp.advanceCpu 100].forM TimerOp.perform).run
      underway.host.timers)).events = [.counter .timer2 .target] := by decide +kernel
  have careful : Careful underway (.elapse [.advanceCpu 100]) := by
    intro timers ran timer member _
    have left : leaves (([TimerOp.advanceCpu 100].forM TimerOp.perform).run
        underway.host.timers) = timers := by rw [ran, leaves_ok]
    rw [← left, events, List.mem_singleton] at member
    obtain ⟨rfl, -⟩ := TimingEvent.counter.inj member
    decide +kernel
  exact careful_runs_disciplined fresh_atReset
    (run_underway.snoc ⟨careful, next_elapse (by decide +kernel)⟩)

end TimerRun

end Upse.Iop
