import Mathlib.Logic.Function.Iterate
import Mathlib.Tactic.IntervalCases
import Upse.Hw.Ps2.Timers

/-!
# Counting tick by tick

A tick is one increment of a counter with the boundaries it hits.  A round of the bulk loop is as
many ticks as it takes to the next boundary, so an advance that does not exceed the event limit is
that many ticks.
-/

namespace Upse

open ErrorState

/-! ### Control bits -/

/-- What the boundaries of a counter leave alone: all but the count and the interrupt state. -/
structure Counter.Kin (c c' : Counter) : Prop where
  control : c'.mode &&& modeWritable = c.mode &&& modeWritable
  target : c'.target = c.target
  prescaleRemainder : c'.prescaleRemainder = c.prescaleRemainder
  gateLevel : c'.gateLevel = c.gateLevel

theorem Counter.Kin.refl (c : Counter) : c.Kin c := ⟨rfl, rfl, rfl, rfl⟩

theorem Counter.Kin.trans {a b c : Counter} (h : a.Kin b) (h' : b.Kin c) : a.Kin c :=
  ⟨h'.control.trans h.control, h'.target.trans h.target,
    h'.prescaleRemainder.trans h.prescaleRemainder, h'.gateLevel.trans h.gateLevel⟩

theorem and_of_control {a b mask : TimerMode} (same : a &&& modeWritable = b &&& modeWritable)
    (part : modeWritable &&& mask = mask) : a &&& mask = b &&& mask := by
  calc a &&& mask = a &&& (modeWritable &&& mask) := by rw [part]
    _ = b &&& (modeWritable &&& mask) := by rw [← BitVec.and_assoc, same, BitVec.and_assoc]
    _ = b &&& mask := by rw [part]

theorem Counter.Kin.prescale {c c' : Counter} (kin : c.Kin c') (timer : TimerId) :
    prescale timer c'.mode = Upse.prescale timer c.mode := by
  unfold Upse.prescale
  rw [and_of_control kin.control (by decide), and_of_control kin.control (by decide)]

theorem Counter.Kin.running {c c' : Counter} (kin : c.Kin c') : c'.running = c.running := by
  unfold Counter.running
  rw [and_of_control kin.control (by decide), and_of_control kin.control (by decide),
    kin.gateLevel]

theorem control_or {mode flag : TimerMode} (apart : flag &&& modeWritable = 0) :
    (mode ||| flag) &&& modeWritable = mode &&& modeWritable := by
  rw [BitVec.and_comm, BitVec.and_or_distrib_left, BitVec.and_comm modeWritable flag, apart,
    BitVec.and_comm]
  exact BitVec.or_zero

theorem control_xor (mode : TimerMode) :
    (mode ^^^ modeIrqRequest) &&& modeWritable = mode &&& modeWritable := by
  apply BitVec.eq_of_getLsbD_eq
  intro i hi
  interval_cases i <;> simp [modeIrqRequest, modeWritable]

theorem control_clear (mode : TimerMode) :
    (mode &&& ~~~modeIrqRequest) &&& modeWritable = mode &&& modeWritable := by
  rw [BitVec.and_assoc]
  congr 1

/-- The count and the target of a counter fit its width. -/
structure Counter.Fits (c : Counter) (timer : TimerId) : Prop where
  count_le : c.count ≤ timer.widthMask
  target_le : c.target ≤ timer.widthMask

theorem and_widthMask (n : ℕ) (timer : TimerId) :
    n &&& timer.widthMask = n % (timer.widthMask + 1) := by
  cases timer
  iterate 3 exact Nat.and_two_pow_sub_one_eq_mod n 16
  iterate 3 exact Nat.and_two_pow_sub_one_eq_mod n 32

theorem widthMask_lt (timer : TimerId) : timer.widthMask < 2 ^ 32 := by
  cases timer <;> decide

namespace IopTimers

variable {timers : IopTimers} {timer : TimerId}

/-! ### Changing one counter -/

@[simp] theorem counters_modifyCounter (timers : IopTimers) (timer : TimerId)
    (f : Counter → Counter) :
    (timers.modifyCounter timer f).counters timer = f (timers.counters timer) := if_pos rfl

theorem counters_modifyCounter_ne {other : TimerId} (ne : other ≠ timer) (timers : IopTimers)
    (f : Counter → Counter) :
    (timers.modifyCounter timer f).counters other = timers.counters other := if_neg ne

@[simp] theorem events_modifyCounter (timers : IopTimers) (timer : TimerId)
    (f : Counter → Counter) : (timers.modifyCounter timer f).events = timers.events := rfl

@[simp] theorem requests_modifyCounter (timers : IopTimers) (timer : TimerId)
    (f : Counter → Counter) : (timers.modifyCounter timer f).requests = timers.requests := rfl

@[simp] theorem modifyCounter_modifyCounter (timers : IopTimers) (timer : TimerId)
    (f g : Counter → Counter) :
    (timers.modifyCounter timer f).modifyCounter timer g =
      timers.modifyCounter timer fun c => g (f c) := by
  unfold modifyCounter
  congr 1
  funext t
  by_cases same : t = timer <;> simp [same]

theorem modifyCounter_congr {f g : Counter → Counter}
    (same : f (timers.counters timer) = g (timers.counters timer)) :
    timers.modifyCounter timer f = timers.modifyCounter timer g := by
  unfold modifyCounter
  congr 1
  funext t
  by_cases at_ : t = timer
  · rw [if_pos at_, if_pos at_, at_, same]
  · rw [if_neg at_, if_neg at_]

theorem modifyCounter_id (timers : IopTimers) (timer : TimerId) :
    timers.modifyCounter timer id = timers := by
  unfold modifyCounter
  simp

/-- Sets the count of a counter. -/
def setCount (timer : TimerId) (count : ℕ) (timers : IopTimers) : IopTimers :=
  timers.modifyCounter timer fun c => { c with count := count }

@[simp] theorem counters_setCount (timer : TimerId) (count : ℕ) (timers : IopTimers) :
    (timers.setCount timer count).counters timer =
      { timers.counters timer with count := count } :=
  counters_modifyCounter timers timer _

@[simp] theorem setCount_setCount (timer : TimerId) (count count' : ℕ) (timers : IopTimers) :
    (timers.setCount timer count).setCount timer count' = timers.setCount timer count' :=
  modifyCounter_modifyCounter timers timer _ _

/-! ### Boundaries -/

@[simp] theorem events_boundary (timer : TimerId) (b : CounterBoundary) (timers : IopTimers) :
    (boundary timer b timers).events = timers.events ++ [.counter timer b] := by
  unfold boundary
  simp only
  split_ifs <;> rfl

@[simp] theorem count_boundary (timer : TimerId) (b : CounterBoundary) (timers : IopTimers) :
    ((boundary timer b timers).counters timer).count = (timers.counters timer).count := by
  unfold boundary
  simp only
  split_ifs <;> simp

theorem counters_boundary_ne {other : TimerId} (ne : other ≠ timer) (b : CounterBoundary)
    (timers : IopTimers) : (boundary timer b timers).counters other = timers.counters other := by
  unfold boundary
  simp only
  split_ifs <;> simp [modifyCounter, ne]

theorem kin_boundary (timer : TimerId) (b : CounterBoundary) (timers : IopTimers) :
    (timers.counters timer).Kin ((boundary timer b timers).counters timer) := by
  have flagged : ((timers.counters timer).mode ||| (boundaryBits b).1) &&& modeWritable =
      (timers.counters timer).mode &&& modeWritable := control_or (by cases b <;> decide)
  unfold boundary
  simp only
  split_ifs
  · exact ⟨by simpa using flagged, by simp, by simp, by simp⟩
  · exact ⟨by simpa [control_xor] using flagged, by simp, by simp, by simp⟩
  · exact ⟨by simpa [control_xor] using flagged, by simp, by simp, by simp⟩
  · exact ⟨by simpa [control_clear] using flagged, by simp, by simp, by simp⟩

/-! ### Hits -/

@[simp] theorem hit_false (timer : TimerId) (timers : IopTimers) :
    hit timer false false timers = timers := rfl

/-- The state after the part of a hit that is about the target. -/
theorem hit_eq (timer : TimerId) (hitTarget hitOverflow : Bool) (timers : IopTimers) :
    hit timer hitTarget hitOverflow timers =
      let timers := hit timer hitTarget false timers
      if hitOverflow then boundary timer .overflow timers else timers := by
  unfold hit
  simp

theorem events_hit (timer : TimerId) (hitTarget hitOverflow : Bool) (timers : IopTimers) :
    (hit timer hitTarget hitOverflow timers).events.length =
      timers.events.length + hitTarget.toNat + hitOverflow.toNat := by
  have target : (hit timer hitTarget false timers).events.length =
      timers.events.length + hitTarget.toNat := by
    cases hitTarget with
    | false => rfl
    | true =>
      unfold hit
      simp only [if_true, Bool.false_eq_true, if_false]
      split_ifs <;> simp
  rw [hit_eq]
  cases hitOverflow with
  | false => simpa using target
  | true => simp [target]

theorem counters_hit_ne {other : TimerId} (ne : other ≠ timer) (hitTarget hitOverflow : Bool)
    (timers : IopTimers) :
    (hit timer hitTarget hitOverflow timers).counters other = timers.counters other := by
  unfold hit
  simp only
  split_ifs <;> simp [counters_boundary_ne ne, counters_modifyCounter_ne ne]

theorem kin_hit (timer : TimerId) (hitTarget hitOverflow : Bool) (timers : IopTimers) :
    (timers.counters timer).Kin ((hit timer hitTarget hitOverflow timers).counters timer) := by
  have target : (timers.counters timer).Kin
      ((hit timer hitTarget false timers).counters timer) := by
    cases hitTarget with
    | false => exact .refl _
    | true =>
      have kin := kin_boundary timer .target timers
      unfold hit
      simp only [if_true, Bool.false_eq_true, if_false]
      split_ifs
      · simpa using ⟨kin.control, kin.target, kin.prescaleRemainder, kin.gateLevel⟩
      · exact kin
  rw [hit_eq]
  cases hitOverflow with
  | false => exact target
  | true => exact target.trans (kin_boundary timer .overflow _)

theorem count_hit (timer : TimerId) (hitTarget hitOverflow : Bool) (timers : IopTimers) :
    ((hit timer hitTarget hitOverflow timers).counters timer).count ≤
      (timers.counters timer).count := by
  have target : ((hit timer hitTarget false timers).counters timer).count ≤
      (timers.counters timer).count := by
    cases hitTarget with
    | false => exact le_rfl
    | true =>
      unfold hit
      simp only [if_true, Bool.false_eq_true, if_false]
      split_ifs <;> simp
  rw [hit_eq]
  cases hitOverflow with
  | false => exact target
  | true => simpa using target

/-! ### Ticks -/

/-- One increment of a counter, with the boundaries it hits. -/
def tick (timer : TimerId) (timers : IopTimers) : IopTimers :=
  let counter := timers.counters timer
  let count := (counter.count + 1) % (timer.widthMask + 1)
  hit timer (decide (count = counter.target)) (decide (counter.count = timer.widthMask))
    (timers.setCount timer count)

theorem kin_tick (timer : TimerId) (timers : IopTimers) :
    (timers.counters timer).Kin ((tick timer timers).counters timer) := by
  have set : (timers.counters timer).Kin ((timers.setCount timer
      (((timers.counters timer).count + 1) % (timer.widthMask + 1))).counters timer) := by
    rw [counters_setCount]
    exact ⟨rfl, rfl, rfl, rfl⟩
  exact set.trans (kin_hit timer _ _ _)

theorem fits_hit {timers : IopTimers} (fits : (timers.counters timer).Fits timer)
    (hitTarget hitOverflow : Bool) :
    ((hit timer hitTarget hitOverflow timers).counters timer).Fits timer where
  count_le := (count_hit timer hitTarget hitOverflow timers).trans fits.count_le
  target_le := by
    rw [(kin_hit timer hitTarget hitOverflow timers).target]
    exact fits.target_le

theorem fits_setCount (fits : (timers.counters timer).Fits timer) {count : ℕ}
    (le : count ≤ timer.widthMask) :
    ((timers.setCount timer count).counters timer).Fits timer := by
  rw [counters_setCount]
  exact ⟨le, fits.target_le⟩

theorem fits_tick (fits : (timers.counters timer).Fits timer) :
    ((tick timer timers).counters timer).Fits timer := by
  apply fits_hit
  apply fits_setCount fits
  exact Nat.le_of_lt_succ (Nat.mod_lt _ (Nat.succ_pos _))

theorem fits_iterate (fits : (timers.counters timer).Fits timer) (n : ℕ) :
    (((tick timer)^[n] timers).counters timer).Fits timer := by
  induction n with
  | zero => exact fits
  | succ n ih =>
    rw [Function.iterate_succ_apply']
    exact fits_tick ih

theorem events_tick_le (timer : TimerId) (timers : IopTimers) :
    timers.events.length ≤ (tick timer timers).events.length := by
  unfold tick
  rw [events_hit]
  simp only [setCount, events_modifyCounter]
  omega

theorem events_iterate_le (timer : TimerId) (timers : IopTimers) (n : ℕ) :
    timers.events.length ≤ ((tick timer)^[n] timers).events.length := by
  induction n with
  | zero => exact le_rfl
  | succ n ih =>
    rw [Function.iterate_succ_apply']
    exact ih.trans (events_tick_le timer _)

/-! ### Jumps -/

/-- The ticks until the counter wraps. -/
def toOverflow (timer : TimerId) (c : Counter) : ℕ := timer.widthMask - c.count + 1

/-- The ticks until the counter reaches its target. -/
def toTarget (timer : TimerId) (c : Counter) : ℕ :=
  if c.count < c.target then c.target - c.count else toOverflow timer c + c.target

theorem reaches_target {c : Counter} (fits : c.Fits timer) {step : ℕ} (pos : 0 < step)
    (overflow : step ≤ toOverflow timer c) (target : step ≤ toTarget timer c) :
    (c.count + step) % (timer.widthMask + 1) = c.target ↔ step = toTarget timer c := by
  obtain ⟨count_le, target_le⟩ := fits
  unfold toTarget toOverflow at *
  by_cases wraps : c.count + step = timer.widthMask + 1
  · rw [wraps, Nat.mod_self]
    by_cases ahead : c.count < c.target
    · rw [if_pos ahead] at target ⊢
      omega
    · rw [if_neg ahead] at target ⊢
      omega
  · rw [Nat.mod_eq_of_lt (by omega)]
    by_cases ahead : c.count < c.target
    · rw [if_pos ahead] at target ⊢
      omega
    · rw [if_neg ahead] at target ⊢
      omega

/-- A step that passes no boundary is that many ticks. -/
theorem tick_iterate (fits : (timers.counters timer).Fits timer) {step : ℕ} (pos : 0 < step)
    (overflow : step ≤ toOverflow timer (timers.counters timer))
    (target : step ≤ toTarget timer (timers.counters timer)) :
    (tick timer)^[step] timers =
      hit timer (decide (step = toTarget timer (timers.counters timer)))
        (decide (step = toOverflow timer (timers.counters timer)))
        (timers.setCount timer
          (((timers.counters timer).count + step) % (timer.widthMask + 1))) := by
  induction step, pos using Nat.le_induction with
  | base =>
    have reaches := reaches_target fits Nat.one_pos overflow target
    have wraps : (timers.counters timer).count = timer.widthMask ↔
        1 = toOverflow timer (timers.counters timer) := by
      have := fits.count_le
      unfold toOverflow
      omega
    show tick timer timers = _
    unfold tick
    simp only [decide_eq_decide.mpr reaches, decide_eq_decide.mpr wraps]
  | succ step pos ih =>
    have quiet := ih (by omega) (by omega)
    rw [decide_eq_false (by omega), decide_eq_false (by omega), hit_false] at quiet
    have small : (timers.counters timer).count + step ≤ timer.widthMask := by
      have := fits.count_le
      unfold toOverflow at overflow
      omega
    have reaches := reaches_target fits (Nat.succ_pos step) overflow target
    have wraps : (timers.counters timer).count + step = timer.widthMask ↔
        step + 1 = toOverflow timer (timers.counters timer) := by
      have := fits.count_le
      unfold toOverflow
      omega
    rw [Function.iterate_succ_apply', quiet, Nat.mod_eq_of_lt (by omega)]
    unfold tick
    simp only [counters_setCount, setCount_setCount]
    rw [Nat.add_assoc, decide_eq_decide.mpr reaches, decide_eq_decide.mpr wraps]

/-! ### The loop -/

/-- One round: a step to the next boundary, and what it hits. -/
theorem advanceCounterLoop_succ (timers : IopTimers) (timer : TimerId) (rounds events : ℕ) {ticks : ℕ}
    (more : ticks ≠ 0) :
    let c := timers.counters timer
    let step := min ticks (min (toOverflow timer c) (toTarget timer c))
    let a := decide (step = toTarget timer c)
    let b := decide (step = toOverflow timer c)
    let timers' := timers.setCount timer ((c.count + step) % (timer.widthMask + 1))
    (advanceCounterLoop timer (rounds + 1) ticks events).run timers =
      if a = false ∧ b = false then .ok () timers'
      else if maxEventsPerAdvance < events + a.toNat + b.toNat then
        .error (.eventLimit timer maxEventsPerAdvance) timers'
      else (advanceCounterLoop timer rounds (ticks - step) (events + a.toNat + b.toNat)).run
        (hit timer a b timers') := by
  intro c step a b timers'
  have moved : timers.modifyCounter timer (fun counter =>
      { counter with count := (counter.count + step) &&& timer.widthMask }) = timers' := by
    apply modifyCounter_congr
    rw [and_widthMask]
  have unfolded : (advanceCounterLoop timer (rounds + 1) ticks events).run timers =
      (if !a && !b then pure () else do
        throwIf (maxEventsPerAdvance < events + a.toNat + b.toNat)
          (TimerError.eventLimit timer maxEventsPerAdvance)
        set (hit timer a b timers')
        advanceCounterLoop timer rounds (ticks - step) (events + a.toNat + b.toNat) :
          EStateM TimerError IopTimers Unit).run timers' := by
    rw [← moved, advanceCounterLoop, if_neg more]
    rfl
  rw [unfolded]
  by_cases quiet : a = false ∧ b = false
  · rw [if_pos quiet, if_pos (by simp [quiet])]
    rfl
  · rw [if_neg quiet, if_neg (by simpa using quiet)]
    by_cases exceeds : maxEventsPerAdvance < events + a.toNat + b.toNat
    · simp [exceeds]
    · simp [exceeds]

/-- The loop is as many ticks as it is asked for, or stops at the event limit, which it reaches
exactly when these ticks report more events. -/
theorem advanceCounterLoop_run (fits : (timers.counters timer).Fits timer) {rounds ticks events : ℕ}
    (enough : ticks ≤ rounds) (within : events ≤ maxEventsPerAdvance) :
    if events + ((tick timer)^[ticks] timers).events.length ≤
        maxEventsPerAdvance + timers.events.length then
      (advanceCounterLoop timer rounds ticks events).run timers = .ok () ((tick timer)^[ticks] timers)
    else ∃ timers', (advanceCounterLoop timer rounds ticks events).run timers =
      .error (.eventLimit timer maxEventsPerAdvance) timers' := by
  induction rounds generalizing timers ticks events with
  | zero =>
    obtain rfl := Nat.le_zero.mp enough
    rw [if_pos (by simpa using within)]
    rfl
  | succ rounds ih =>
    by_cases done : ticks = 0
    · subst done
      rw [if_pos (by simpa using within)]
      rfl
    have round := advanceCounterLoop_succ timers timer rounds events done
    simp only at round
    obtain ⟨step, stepEq⟩ : ∃ step, step = min ticks (min (toOverflow timer (timers.counters timer))
      (toTarget timer (timers.counters timer))) := ⟨_, rfl⟩
    have pos : 0 < step := by
      have : 0 < toTarget timer (timers.counters timer) := by
        unfold toTarget toOverflow
        split <;> omega
      have : 0 < toOverflow timer (timers.counters timer) := Nat.succ_pos _
      omega
    have jump := tick_iterate fits pos (by omega) (by omega)
    rw [← stepEq] at round
    have last : step ≠ toTarget timer (timers.counters timer) →
        step ≠ toOverflow timer (timers.counters timer) → ticks = step := by omega
    have before : step ≤ ticks := by omega
    generalize hitTarget : decide (step = toTarget timer (timers.counters timer)) = a at jump round
    generalize hitOverflow : decide (step = toOverflow timer (timers.counters timer)) = b at jump round
    have rest : (tick timer)^[ticks] timers =
        (tick timer)^[ticks - step] ((tick timer)^[step] timers) := by
      rw [← Function.iterate_add_apply, Nat.sub_add_cancel before]
    have reported : ((tick timer)^[step] timers).events.length =
        timers.events.length + a.toNat + b.toNat := by
      rw [jump, events_hit]
      rfl
    have later := events_iterate_le timer ((tick timer)^[step] timers) (ticks - step)
    rw [← rest, reported] at later
    by_cases quiet : a = false ∧ b = false
    · obtain ⟨rfl, rfl⟩ := quiet
      obtain rfl := last (of_decide_eq_false hitTarget) (of_decide_eq_false hitOverflow)
      rw [if_pos ⟨rfl, rfl⟩] at round
      rw [round, jump, hit_false, if_pos]
      rw [jump, hit_false] at reported
      simp only [Bool.toNat_false] at reported
      omega
    · rw [if_neg quiet] at round
      by_cases exceeds : maxEventsPerAdvance < events + a.toNat + b.toNat
      · rw [if_pos exceeds] at round
        rw [if_neg (by omega)]
        exact ⟨_, round⟩
      · rw [if_neg exceeds, ← jump] at round
        have tail := ih (fits_iterate fits step) (show ticks - step ≤ rounds by omega)
          (not_lt.mp exceeds)
        rw [← rest, reported] at tail
        rw [round]
        split at tail
        next bound => rw [if_pos (by omega)]; exact tail
        next bound => rw [if_neg (by omega)]; exact tail

end IopTimers

end Upse
