import Upse.Hw.Ps1.TimerTicks

/-!
# Advancing the root counters in parts

An advance drives each counter by itself: what it does to a counter and to the requests of that
counter depends on nothing else.  Advances therefore add up counter by counter, although the requests
of different counters interleave differently.
-/

namespace Upse.Ps1

open ErrorState

namespace RootCounters

variable {S : Type} {timers timers' : RootCounters} {id : TimerId} {input : ClockInput}

/-! ### One counter -/

section Drive

variable (request : InterruptSource → S → S)

/-- What ticks of a clock domain do to one counter. -/
def drive (input : ClockInput) (id : TimerId) (ticks : ℕ) (c : Counter) (sink : S) : Counter × S :=
  match input with
  | .system =>
    if (id = .timer0 ∨ id = .timer1) ∧ c.clockBits &&& 1 ≠ 0 then (c, sink)
    else if id = .timer2 ∧ c.clockBits &&& 2 ≠ 0 then
      (c.withRemainder ((c.dividerRemainder + ticks) % 8)).tick request id
        ((c.dividerRemainder + ticks) / 8) sink
    else c.tick request id ticks sink
  | .dotClock =>
    if id = .timer0 ∧ c.clockBits &&& 1 ≠ 0 then c.tick request id ticks sink else (c, sink)
  | .hBlank =>
    if id = .timer1 ∧ c.clockBits &&& 1 ≠ 0 then c.tick request id ticks sink else (c, sink)

end Drive

variable {request : InterruptSource → S → S} {sink : S}

theorem tick_withRemainder (c : Counter) (id : TimerId) (ticks r : ℕ) :
    (c.withRemainder r).tick request id ticks sink =
      ((c.tick request id ticks sink).1.withRemainder r, (c.tick request id ticks sink).2) := by
  obtain ⟨c', n, -, acts⟩ := Counter.acts_tick c id ticks
  have ran := acts S request sink c.dividerRemainder
  rw [Counter.withRemainder_self] at ran
  have ran' := acts S request sink r
  beta_reduce at ran ran'
  rw [ran', ran]
  rfl

theorem clockBits_tick (c : Counter) (id : TimerId) (ticks : ℕ) :
    (c.tick request id ticks sink).1.clockBits = c.clockBits := by
  obtain ⟨c', n, kin, acts⟩ := Counter.acts_tick c id ticks
  have ran := acts S request sink c.dividerRemainder
  rw [Counter.withRemainder_self] at ran
  beta_reduce at ran
  rw [ran]
  exact kin.clockBits

theorem dividerRemainder_tick (c : Counter) (id : TimerId) (ticks : ℕ) :
    (c.tick request id ticks sink).1.dividerRemainder = c.dividerRemainder := by
  have ran : (c.withRemainder c.dividerRemainder).tick request id ticks sink = _ :=
    tick_withRemainder c id ticks c.dividerRemainder
  rw [Counter.withRemainder_self] at ran
  rw [ran]
  rfl

theorem drive_add (input : ClockInput) (id : TimerId) (a b : ℕ) (c : Counter) :
    drive request input id b (drive request input id a c sink).1 (drive request input id a c sink).2 =
      drive request input id (a + b) c sink := by
  cases input with
  | system =>
    unfold drive
    simp only
    by_cases apart : (id = .timer0 ∨ id = .timer1) ∧ c.clockBits &&& 1 ≠ 0
    · simp only [if_pos apart]
    rw [if_neg apart]
    by_cases divides : id = .timer2 ∧ c.clockBits &&& 2 ≠ 0
    · have bits : ((c.withRemainder ((c.dividerRemainder + a) % 8)).tick request id
          ((c.dividerRemainder + a) / 8) sink).1.clockBits = c.clockBits := clockBits_tick _ _ _
      have carried : ((c.withRemainder ((c.dividerRemainder + a) % 8)).tick request id
          ((c.dividerRemainder + a) / 8) sink).1.dividerRemainder = (c.dividerRemainder + a) % 8 :=
        dividerRemainder_tick _ _ _
      rw [if_pos divides, if_neg apart, if_pos divides, bits, carried, if_neg apart, if_pos divides]
      have whole : (c.dividerRemainder + a) / 8 + ((c.dividerRemainder + a) % 8 + b) / 8 =
          (c.dividerRemainder + (a + b)) / 8 := by omega
      have rest : ((c.dividerRemainder + a) % 8 + b) % 8 = (c.dividerRemainder + (a + b)) % 8 := by
        omega
      simp only [tick_withRemainder, Counter.withRemainder_withRemainder]
      rw [rest, Counter.tick_add, whole]
    · rw [if_neg divides, if_neg apart, if_neg divides, clockBits_tick, if_neg apart, if_neg divides,
        Counter.tick_add]
  | dotClock | hBlank =>
    unfold drive
    simp only
    split
    next drives =>
      rw [clockBits_tick, if_pos drives, Counter.tick_add]
    next idle => rfl

/-- A counter asks for its own interrupt only, and how often does not depend on the sink. -/
theorem drive_acts (input : ClockInput) (id : TimerId) (ticks : ℕ) (c : Counter) :
    ∃ c' n, ∀ (S : Type) (request : InterruptSource → S → S) (sink : S),
      drive request input id ticks c sink = (c', (request id.interrupt)^[n] sink) := by
  have ticked (c : Counter) (ticks : ℕ) : ∃ c' n, ∀ (S : Type) (request : InterruptSource → S → S)
      (sink : S), c.tick request id ticks sink = (c', (request id.interrupt)^[n] sink) := by
    obtain ⟨c', n, -, acts⟩ := Counter.acts_tick c id ticks
    exact ⟨_, n, fun S request sink => acts S request sink c.dividerRemainder⟩
  have still : ∃ c' n, ∀ (S : Type) (request : InterruptSource → S → S) (sink : S),
      (c, sink) = (c', (request id.interrupt)^[n] sink) := ⟨c, 0, fun _ _ _ => rfl⟩
  cases input with
  | system =>
    unfold drive
    simp only
    split
    · exact still
    · split
      · exact ticked _ _
      · exact ticked c ticks
  | dotClock | hBlank =>
    unfold drive
    simp only
    split
    · exact ticked c ticks
    · exact still

/-! ### All counters -/

/-- The counters and the requests after a counter was driven. -/
def driveCounter (request : InterruptSource → S → S) (input : ClockInput) (ticks : ℕ)
    (state : RootCounters × S) (id : TimerId) : RootCounters × S :=
  let driven := drive request input id ticks (state.1.counter id) state.2
  (state.1.setCounter id driven.1, driven.2)

/-- Every counter driven, in order. -/
def driven (request : InterruptSource → S → S) (input : ClockInput) (ticks : ℕ)
    (state : RootCounters × S) : RootCounters × S :=
  TimerId.all.foldl (driveCounter request input ticks) state

/-- The clock of the counters after ticks of a clock domain. -/
def nowAfter (input : ClockInput) (ticks : ℕ) (now : Deadline) : Deadline :=
  if input = .system then now + ticks else now

theorem setCounter_self (timers : RootCounters) (id : TimerId) :
    timers.setCounter id (timers.counter id) = timers := by
  unfold setCounter
  congr 1
  funext other
  split
  next same => rw [same]
  next => rfl

@[simp] theorem counter_setCounter (timers : RootCounters) (id : TimerId) (c : Counter) :
    (timers.setCounter id c).counter id = c := if_pos rfl

theorem counter_setCounter_ne {other : TimerId} (ne : other ≠ id) (timers : RootCounters)
    (c : Counter) : (timers.setCounter id c).counter other = timers.counter other := if_neg ne

@[simp] theorem setCounter_setCounter (timers : RootCounters) (id : TimerId) (c c' : Counter) :
    (timers.setCounter id c).setCounter id c' = timers.setCounter id c' := by
  unfold setCounter
  congr 1
  funext other
  simp only
  split <;> rfl

theorem driveCounter_idle {ticks : ℕ} {state : RootCounters × S}
    (idle : drive request input id ticks (state.1.counter id) state.2 = (state.1.counter id, state.2)) :
    driveCounter request input ticks state id = state := by
  unfold driveCounter
  simp only [idle, setCounter_self]

theorem driveCounter_system (ticks : ℕ) (state : RootCounters × S) (id : TimerId) :
    driveCounter request .system ticks state id = state.1.systemTick request id ticks state.2 := by
  unfold systemTick
  simp only
  split
  next apart => exact driveCounter_idle (if_pos apart)
  next apart =>
    split
    next divides =>
      unfold driveCounter drive tickCounter
      simp only [if_neg apart, if_pos divides, counter_setCounter, setCounter_setCounter]
      rfl
    next divides =>
      unfold driveCounter drive tickCounter
      simp only [if_neg apart, if_neg divides]

theorem driven_eq_of_only {ticks : ℕ} {state : RootCounters × S} {only : TimerId}
    (idle : ∀ id c sink, id ≠ only → drive request input id ticks c sink = (c, sink)) :
    driven request input ticks state = driveCounter request input ticks state only := by
  have still {id : TimerId} (ne : id ≠ only) (state : RootCounters × S) :
      driveCounter request input ticks state id = state := driveCounter_idle (idle id _ _ ne)
  unfold driven TimerId.all
  cases only <;> simp [still]

theorem driveCounter_gated {ticks : ℕ}
    (gated : ∀ c sink, drive request input id ticks c sink =
      if c.clockBits &&& 1 ≠ 0 then c.tick request id ticks sink else (c, sink)) :
    driveCounter request input ticks (timers, sink) id =
      if (timers.counter id).clockBits &&& 1 ≠ 0 then timers.tickCounter request id ticks sink
      else (timers, sink) := by
  unfold driveCounter tickCounter
  simp only [gated]
  split
  · rfl
  · rw [setCounter_self]

theorem run_advance (input : ClockInput) (ticks : ℕ) (timers : RootCounters) (sink : S)
    (fits : nowAfter input ticks timers.now < 2 ^ 64 ∨ input ≠ .system) :
    (advance request input ticks).run (timers, sink) =
      .ok () (driven request input ticks
        ({ timers with now := nowAfter input ticks timers.now }, sink)) := by
  cases input with
  | system =>
    have advanced := Deadline.checkedAdvance_of_lt (fits.resolve_right fun ne => ne rfl)
    have rounds : (fun (state : RootCounters × S) id => state.1.systemTick request id ticks state.2) =
        driveCounter request .system ticks := by
      funext state id
      exact (driveCounter_system ticks state id).symm
    unfold advance advanceSystem
    rw [run_get_bind]
    simp only [advanced]
    unfold driven
    rw [← rounds]
    rfl
  | dotClock =>
    have only : driven request .dotClock ticks (timers, sink) =
        driveCounter request .dotClock ticks (timers, sink) .timer0 :=
      driven_eq_of_only fun id c sink ne => if_neg fun drives => ne drives.1
    rw [driveCounter_gated fun c sink => by simp [drive]] at only
    exact congrArg (EStateM.Result.ok ()) only.symm
  | hBlank =>
    have only : driven request .hBlank ticks (timers, sink) =
        driveCounter request .hBlank ticks (timers, sink) .timer1 :=
      driven_eq_of_only fun id c sink ne => if_neg fun drives => ne drives.1
    rw [driveCounter_gated fun c sink => by simp [drive]] at only
    exact congrArg (EStateM.Result.ok ()) only.symm

theorem fits_of_advance {ticks : ℕ} {sink' : S}
    (run : (advance request input ticks).run (timers, sink) = .ok () (timers', sink')) :
    nowAfter input ticks timers.now < 2 ^ 64 ∨ input ≠ .system := by
  cases input with
  | system =>
    left
    by_contra late
    have failed := Deadline.checkedAdvance_of_le (not_lt.mp late)
    unfold advance advanceSystem at run
    rw [run_get_bind] at run
    simp only [failed] at run
    cases run
  | dotClock => exact .inr (by decide)
  | hBlank => exact .inr (by decide)

/-! ### The requests of each counter -/

/-- The sink that records every request. -/
def record (source : InterruptSource) (log : List InterruptSource) : List InterruptSource :=
  log ++ [source]

/-- The requests of one counter. -/
def requestsOf (id : TimerId) (log : List InterruptSource) : List InterruptSource :=
  log.filter (· = id.interrupt)

theorem interrupt_injective {id other : TimerId} (same : id.interrupt = other.interrupt) :
    id = other := by
  cases id <;> cases other <;> first | rfl | cases same

theorem requestsOf_iterate (id : TimerId) (n : ℕ) (log : List InterruptSource) :
    requestsOf id ((record id.interrupt)^[n] log) = (record id.interrupt)^[n] (requestsOf id log) := by
  have one : Function.Semiconj (requestsOf id) (record id.interrupt) (record id.interrupt) := by
    intro log
    simp [requestsOf, record]
  exact one.iterate_right n log

theorem requestsOf_iterate_ne {other : TimerId} (ne : other ≠ id) (n : ℕ)
    (log : List InterruptSource) :
    requestsOf other ((record id.interrupt)^[n] log) = requestsOf other log := by
  have one : Function.Semiconj (requestsOf other) (record id.interrupt) fun log => log := by
    intro log
    have apart : id.interrupt ≠ other.interrupt := fun same => ne (interrupt_injective same).symm
    simp [requestsOf, record, apart]
  have still : (fun log : List InterruptSource => log)^[n] = fun log => log := Function.iterate_id n
  have all := one.iterate_right n log
  rwa [still] at all

/-- What an advance has to do with one counter: its record and its requests. -/
def single (state : RootCounters × List InterruptSource) (id : TimerId) :
    Counter × List InterruptSource :=
  (state.1.counter id, requestsOf id state.2)

theorem single_driveCounter (ticks : ℕ) (state : RootCounters × List InterruptSource)
    (id other : TimerId) :
    single (driveCounter record input ticks state id) other =
      if other = id then drive record input id ticks (single state id).1 (single state id).2
      else single state other := by
  obtain ⟨c', n, acts⟩ := drive_acts input id ticks (state.1.counter id)
  unfold single driveCounter
  simp only [acts]
  split
  next same => rw [same, counter_setCounter, requestsOf_iterate]
  next ne => rw [counter_setCounter_ne ne, requestsOf_iterate_ne ne]

theorem single_driven (input : ClockInput) (ticks : ℕ) (state : RootCounters × List InterruptSource)
    (id : TimerId) :
    single (driven record input ticks state) id =
      drive record input id ticks (single state id).1 (single state id).2 := by
  unfold driven TimerId.all
  cases id <;> simp [single_driveCounter]

@[simp] theorem now_driven (input : ClockInput) (ticks : ℕ) (state : RootCounters × S) :
    (driven request input ticks state).1.now = state.1.now := rfl

/-! ### Reachable counters -/

/-- Counters reached by register accesses, blank signals and advances. -/
inductive Reachable : RootCounters → Prop
  | new : Reachable .new
  | read {timers : RootCounters} (id : TimerId) (register : TimerRegister) :
      Reachable timers → Reachable (timers.readRegister id register).2
  | write {timers : RootCounters} (id : TimerId) (register : TimerRegister) (value : BitVec 16) :
      Reachable timers → Reachable (timers.writeRegister id register value)
  | hblank {timers : RootCounters} (asserted : Bool) :
      Reachable timers → Reachable (timers.setHblank asserted)
  | vblank {timers : RootCounters} (asserted : Bool) :
      Reachable timers → Reachable (timers.setVblank asserted)
  | advance {timers timers' : RootCounters} {log log' : List InterruptSource} {input : ClockInput}
      {ticks : Ticks} : Reachable timers →
      (advance record input ticks).run (timers, log) = .ok () (timers', log') → Reachable timers'

theorem dividerRemainder_drive (input : ClockInput) (id : TimerId) (ticks : ℕ) (c : Counter) :
    (drive request input id ticks c sink).1.dividerRemainder = c.dividerRemainder ∨
      input = .system ∧
        (drive request input id ticks c sink).1.dividerRemainder = (c.dividerRemainder + ticks) % 8 := by
  have ticked : (c.tick request id ticks sink).1.dividerRemainder = _ := dividerRemainder_tick c id ticks
  cases input with
  | system =>
    unfold drive
    simp only
    split
    · exact .inl rfl
    · split
      · exact .inr ⟨trivial, dividerRemainder_tick _ id _⟩
      · exact .inl ticked
  | dotClock | hBlank =>
    unfold drive
    simp only
    split
    · exact .inl ticked
    · exact .inl rfl

theorem dividerRemainder_setBlank (c : Counter) (id : TimerId) (asserted : Bool) :
    (c.setBlank id asserted).dividerRemainder = c.dividerRemainder := by
  unfold Counter.setBlank
  simp only
  split
  · rfl
  · split <;> rfl

theorem remainders_setCounter {P : ℕ → Deadline → Prop}
    (all : ∀ id, P (timers.counter id).dividerRemainder timers.now) {c : Counter}
    (one : P c.dividerRemainder timers.now) (other : TimerId) :
    P ((timers.setCounter id c).counter other).dividerRemainder (timers.setCounter id c).now := by
  by_cases same : other = id
  · rw [same, counter_setCounter]
    exact one
  · rw [counter_setCounter_ne same]
    exact all other

/-- What holds of a cleared divider, and is kept as the clock goes on with and without it, holds of
every divider remainder and the elapsed time. -/
theorem Reachable.remainders {P : ℕ → Deadline → Prop} (reached : Reachable timers)
    (cleared : ∀ now, P 0 now) (later : ∀ r now ticks, P r now → P r (now + ticks))
    (divided : ∀ r now ticks, P r now → P ((r + ticks) % 8) (now + ticks)) (id : TimerId) :
    P (timers.counter id).dividerRemainder timers.now := by
  induction reached generalizing id with
  | new => exact cleared 0
  | read id' register _ ih =>
    cases register with
    | mode =>
      refine remainders_setCounter ih ?_ id
      exact ih id'
    | counter | target => exact ih id
  | @write timers id' register value _ ih =>
    cases register with
    | mode => exact remainders_setCounter ih (cleared timers.now) id
    | counter | target =>
      refine remainders_setCounter ih ?_ id
      exact ih id'
  | hblank asserted _ ih | vblank asserted _ ih =>
    refine remainders_setCounter ih ?_ id
    rw [dividerRemainder_setBlank]
    exact ih _
  | @advance timers timers' log log' input ticks _ run ih =>
    rw [run_advance input ticks timers log (fits_of_advance run)] at run
    obtain ⟨-, reached⟩ := EStateM.Result.ok.inj run
    have now : nowAfter input ticks timers.now = timers'.now :=
      congrArg (fun state => state.1.now) reached
    have one : (drive record input id ticks (timers.counter id) (requestsOf id log)).1 =
        timers'.counter id := by
      have same := congrArg (fun state => (single state id).1) reached
      simp only [single_driven] at same
      exact same
    have kept : P (timers.counter id).dividerRemainder timers'.now := by
      rw [← now]
      unfold nowAfter
      split
      · exact later _ _ ticks (ih id)
      · exact ih id
    rw [← one]
    have cases : (drive record input id ticks (timers.counter id)
        (requestsOf id log)).1.dividerRemainder = _ ∨ _ := dividerRemainder_drive input id ticks _
    rcases cases with same | ⟨system, same⟩
    · rw [same]
      exact kept
    · rw [same, ← now, system]
      exact divided _ _ ticks (ih id)

/-- Every divider remainder is below eight. -/
def Divided (timers : RootCounters) : Prop := ∀ id, (timers.counter id).dividerRemainder < 8

theorem Reachable.divided (reached : Reachable timers) : timers.Divided :=
  reached.remainders (P := fun r _ => r < 8) (fun _ => by decide) (fun _ _ _ below => below)
    fun _ _ _ _ => Nat.mod_lt _ (by decide)

/-! ### Advances in parts -/

theorem driven_zero (divided : timers.Divided) (log : List InterruptSource) (id : TimerId) :
    single (driven record input 0 (timers, log)) id = single (timers, log) id := by
  have below := divided id
  rw [single_driven]
  unfold single drive
  simp only [Nat.add_zero, Counter.tick_zero, Nat.mod_eq_of_lt below, Nat.div_eq_of_lt below,
    Counter.withRemainder_self, ite_self]
  cases input <;> rfl

/-- As many one-tick advances. -/
def advanceSingly (request : InterruptSource → S → S) (input : ClockInput) :
    ℕ → EStateM TimerError (RootCounters × S) Unit
  | 0 => pure ()
  | ticks + 1 => do
    advanceSingly request input ticks
    advance request input 1

/-- The same counters and clock, and the same requests of each counter. -/
def Agrees (state state' : RootCounters × List InterruptSource) : Prop :=
  state.1 = state'.1 ∧ ∀ id, requestsOf id state.2 = requestsOf id state'.2

theorem agrees_of_single {state state' : RootCounters × List InterruptSource}
    (now : state.1.now = state'.1.now) (same : ∀ id, single state id = single state' id) :
    Agrees state state' := by
  have counters : state.1.counter = state'.1.counter := funext fun id => congrArg Prod.fst (same id)
  refine ⟨?_, fun id => congrArg Prod.snd (same id)⟩
  cases timers : state.1 with
  | mk counter now' =>
    cases timers' : state'.1 with
    | mk counter' now'' =>
      rw [timers, timers'] at counters now
      cases counters
      cases now
      rfl

theorem nowAfter_add (input : ClockInput) (a b : ℕ) (now : Deadline) :
    nowAfter input b (nowAfter input a now) = nowAfter input (a + b) now := by
  unfold nowAfter
  split
  · exact Nat.add_assoc now a b
  · rfl

theorem nowAfter_le (input : ClockInput) (ticks : ℕ) (now : Deadline) :
    now ≤ nowAfter input ticks now := by
  unfold nowAfter
  split
  · exact Nat.le_add_right now ticks
  · rfl

/-- An advance whose sum does not overflow the clock is the advances of its parts. -/
theorem advance_add {a b : Ticks} {log : List InterruptSource}
    {bulk : RootCounters × List InterruptSource}
    (run : (advance record input (a + b)).run (timers, log) = .ok () bulk) :
    ∃ state, (advance record input a >>= fun _ => advance record input b).run (timers, log) =
      .ok () state ∧ Agrees state bulk := by
  have fits := fits_of_advance run
  rw [run_advance input (a + b) timers log fits] at run
  obtain ⟨-, rfl⟩ := EStateM.Result.ok.inj run
  have first : nowAfter input a timers.now < 2 ^ 64 ∨ input ≠ .system := by
    refine fits.imp_left (lt_of_le_of_lt ?_)
    rw [← nowAfter_add]
    exact nowAfter_le input b _
  obtain ⟨middle, middle_eq⟩ : ∃ middle, middle = driven record input a
    ({ timers with now := nowAfter input a timers.now }, log) := ⟨_, rfl⟩
  have now : middle.1.now = nowAfter input a timers.now := by rw [middle_eq, now_driven]
  have second : nowAfter input b middle.1.now < 2 ^ 64 ∨ input ≠ .system := by
    rw [now, nowAfter_add]
    exact fits
  have ran : (advance record input a).run (timers, log) = _ := run_advance input a timers log first
  rw [← middle_eq] at ran
  refine ⟨_, (run_bind_of_ok ran).trans (run_advance input b middle.1 middle.2 second), ?_⟩
  apply agrees_of_single
  · rw [now_driven, now_driven]
    show nowAfter input b middle.1.now = _
    rw [now, nowAfter_add]
  · intro id
    have before : single (middle.1, middle.2) id =
        drive record input id a (timers.counter id) (requestsOf id log) := by
      rw [middle_eq]
      exact single_driven input a _ id
    rw [single_driven, single_driven]
    show drive record input id b (single (middle.1, middle.2) id).1 (single (middle.1, middle.2) id).2 = _
    rw [before]
    exact drive_add input id a b (timers.counter id)

theorem Agrees.advance {state state' next : RootCounters × List InterruptSource}
    (agrees : Agrees state state') {ticks : Ticks}
    (run : (advance record input ticks).run state' = .ok () next) :
    ∃ next', (RootCounters.advance record input ticks).run state = .ok () next' ∧
      Agrees next' next := by
  obtain ⟨timers, log⟩ := state
  obtain ⟨timers', log'⟩ := state'
  obtain ⟨same, requests⟩ := agrees
  obtain rfl : timers = timers' := same
  have fits := fits_of_advance run
  rw [run_advance input ticks timers log' fits] at run
  obtain ⟨-, rfl⟩ := EStateM.Result.ok.inj run
  refine ⟨_, run_advance input ticks timers log fits, agrees_of_single rfl fun id => ?_⟩
  rw [single_driven, single_driven]
  unfold single
  rw [requests id]

theorem advance_singly (divided : timers.Divided) {ticks : Ticks} {log : List InterruptSource}
    {bulk : RootCounters × List InterruptSource}
    (run : (advance record input ticks).run (timers, log) = .ok () bulk) :
    ∃ state, (advanceSingly record input ticks).run (timers, log) = .ok () state ∧
      Agrees state bulk := by
  induction ticks generalizing bulk with
  | zero =>
    rw [run_advance input 0 timers log (fits_of_advance run)] at run
    obtain ⟨-, rfl⟩ := EStateM.Result.ok.inj run
    have now : nowAfter input 0 timers.now = timers.now := ite_self _
    refine ⟨_, rfl, agrees_of_single ?_ fun id => ?_⟩
    · rw [now_driven, now]
    · rw [now]
      exact (driven_zero divided log id).symm
  | succ ticks ih =>
    have whole : (advance record input (ticks + 1)).run (timers, log) = .ok () bulk := run
    obtain ⟨state, parts, agrees⟩ := advance_add whole
    obtain ⟨_, middle, first, last⟩ := run_bind_ok.mp parts
    obtain ⟨single, ran, alike⟩ := ih first
    obtain ⟨next, advanced, alike'⟩ := alike.advance last
    refine ⟨next, (run_bind_of_ok ran).trans advanced, ?_⟩
    exact ⟨alike'.1.trans agrees.1, fun id => (alike'.2 id).trans (agrees.2 id)⟩

/-- From any reachable state and for any clock, an advance that does not overflow the clock leaves the
same counters, and requests the same of each counter, as the advances of its parts, and as that many
one-tick advances. -/
theorem bulk_advance_agrees (reached : Reachable timers) {a b : Ticks} {log : List InterruptSource}
    {bulk : RootCounters × List InterruptSource}
    (run : (advance record input (a + b)).run (timers, log) = .ok () bulk) :
    (∃ state, (advance record input a >>= fun _ => advance record input b).run (timers, log) =
      .ok () state ∧ Agrees state bulk) ∧
    ∃ state, (advanceSingly record input (a + b)).run (timers, log) = .ok () state ∧
      Agrees state bulk :=
  ⟨advance_add run, advance_singly reached.divided run⟩

/-- A counter that resets at its target and pulses there, over three ticks. -/
theorem bulk_advance_agrees_sample :
    let timers := (RootCounters.new.writeRegister .timer0 .mode 0x58).writeRegister .timer0 .target 2
    ∃ state, (advanceSingly record .system (2 + 1)).run (timers, []) = .ok () state ∧
      Agrees state (leaves ((advance record .system (2 + 1)).run (timers, []))) := by
  intro timers
  have reached : Reachable timers := .write _ _ _ (.write _ _ _ .new)
  have run : (advance record .system (2 + 1)).run (timers, []) = _ :=
    run_advance .system (2 + 1) timers [] (.inl (by decide))
  rw [run, leaves_ok]
  exact (bulk_advance_agrees reached run).2

end RootCounters

end Upse.Ps1
