import Upse.Hw.Ps2.TimerTicks

/-!
# Counting cycle by cycle

The prescaler turns CPU cycles into ticks, and the six counters do not see each other.  So each
counter sees an advance as that many single cycles, however the cycles are split.
-/

namespace Upse

open ErrorState

/-! ### The invariant -/

theorem prescale_pos (timer : TimerId) (mode : TimerMode) : 0 < prescale timer mode := by
  unfold prescale
  split <;> split <;> decide

theorem prescale_le (timer : TimerId) (mode : TimerMode) : prescale timer mode ≤ 256 := by
  unfold prescale
  split <;> split <;> decide

/-- The count and the target of a counter fit its width, and its remainder its prescaler. -/
structure Counter.Sound (c : Counter) (timer : TimerId) : Prop extends c.Fits timer where
  remainder_lt : c.prescaleRemainder < prescale timer c.mode

theorem Counter.Sound.kin {c c' : Counter} {timer : TimerId} (sound : c.Sound timer)
    (kin : c.Kin c') (count_le : c'.count ≤ timer.widthMask) : c'.Sound timer where
  count_le := count_le
  target_le := by rw [kin.target]; exact sound.target_le
  remainder_lt := by rw [kin.prescaleRemainder, kin.prescale]; exact sound.remainder_lt

namespace IopTimers

variable {timers timers' : IopTimers} {timer other : TimerId}

/-- Every counter is sound. -/
def Sound (timers : IopTimers) : Prop := ∀ timer, (timers.counters timer).Sound timer

theorem Sound.modifyCounter (sound : timers.Sound) {f : Counter → Counter}
    (new : (f (timers.counters timer)).Sound timer) : (timers.modifyCounter timer f).Sound := by
  intro other
  by_cases same : other = timer
  · subst same
    rw [counters_modifyCounter]
    exact new
  · rw [counters_modifyCounter_ne same]
    exact sound other

theorem Sound.hit (sound : timers.Sound) (timer : TimerId) (a b : Bool) :
    (hit timer a b timers).Sound := by
  intro other
  by_cases same : other = timer
  · subst same
    exact (sound other).kin (kin_hit other a b timers)
      ((count_hit other a b timers).trans (sound other).count_le)
  · rw [counters_hit_ne same]
    exact sound other

theorem keeps_advanceCounterLoop (timer : TimerId) (rounds ticks events : ℕ) :
    Leads (Keeps Sound) timers (advanceCounterLoop timer rounds ticks events) := by
  induction rounds generalizing timers ticks events with
  | zero => exact leads_pure _
  | succ rounds ih =>
    unfold advanceCounterLoop
    refine .either (leads_pure _) (leads_get_bind ?_)
    refine leads_ok_bind (R := Keeps Sound) rfl (fun sound => sound.modifyCounter ?_) ?_
    · exact (sound timer).kin ⟨rfl, rfl, rfl, rfl⟩ Nat.and_le_right
    · refine .either (leads_pure _) (leads_throwIf_bind fun _ => ?_)
      exact leads_ok_bind (R := Keeps Sound) rfl (fun sound => sound.hit _ _ _) (ih _ _)

theorem kin_clearReached (c : Counter) : c.Kin (clearReached c) := by
  refine ⟨?_, rfl, rfl, rfl⟩
  show c.mode &&& ~~~(modeReachedTarget ||| modeReachedOverflow) &&& modeWritable = _
  rw [BitVec.and_assoc]
  congr 1

theorem writeHalf_le (timer : TimerId) (half value old : ℕ) :
    writeHalf timer half value old ≤ timer.widthMask := Nat.and_le_right

theorem keeps_readU32 (address : ℕ) : Leads (Keeps Sound) timers (readU32 address) := by
  refine leads_ofExcept_bind fun ⟨timer, register, half⟩ _ => leads_throwIf_bind fun _ => ?_
  refine leads_get_bind ?_
  match register with
  | 0 => exact leads_pure _
  | 1 =>
    refine leads_ok_bind (R := Keeps Sound) rfl (fun sound => sound.modifyCounter ?_) (leads_pure _)
    exact (sound timer).kin (kin_clearReached _) (sound timer).count_le
  | 2 => exact leads_pure _

theorem keeps_writeU32 (address value : ℕ) : Leads (Keeps Sound) timers (writeU32 address value) := by
  refine leads_ofExcept_bind fun ⟨timer, register, half⟩ _ => leads_throwIf_bind fun _ => ?_
  refine leads_modify fun sound => sound.modifyCounter ?_
  match register with
  | 0 => exact ⟨⟨Nat.and_le_right, (sound timer).target_le⟩, (sound timer).remainder_lt⟩
  | 1 => exact ⟨⟨Nat.zero_le _, (sound timer).target_le⟩, prescale_pos _ _⟩
  | 2 => exact ⟨⟨(sound timer).count_le, Nat.and_le_right⟩, (sound timer).remainder_lt⟩

theorem keeps_readU16 (address : ℕ) : Leads (Keeps Sound) timers (readU16 address) := by
  refine leads_ofExcept_bind fun ⟨timer, register, half⟩ _ => leads_get_bind ?_
  refine leads_ok_bind (R := Keeps Sound) rfl (fun sound => ?_) (leads_pure _)
  split
  next =>
    refine sound.modifyCounter ?_
    exact (sound timer).kin (kin_clearReached _) (sound timer).count_le
  next => exact sound

theorem keeps_writeU16 (address : ℕ) (value : BitVec 16) :
    Leads (Keeps Sound) timers (writeU16 address value) := by
  refine leads_ofExcept_bind fun ⟨timer, register, half⟩ _ => ?_
  match register with
  | 1 => exact .either (leads_pure _) (keeps_writeU32 _ _)
  | 0 =>
    refine leads_modify fun sound => sound.modifyCounter ?_
    exact ⟨⟨writeHalf_le _ _ _ _, (sound timer).target_le⟩, (sound timer).remainder_lt⟩
  | 2 =>
    refine leads_modify fun sound => sound.modifyCounter ?_
    exact ⟨⟨(sound timer).count_le, writeHalf_le _ _ _ _⟩, (sound timer).remainder_lt⟩

theorem Sound.setGate (sound : timers.Sound) (timer : TimerId) (asserted : Bool) :
    (setGate timer asserted timers).Sound := by
  have same := sound timer
  refine sound.modifyCounter ?_
  dsimp only
  split
  next => exact ⟨⟨same.count_le, same.target_le⟩, same.remainder_lt⟩
  next =>
    split
    iterate 3 exact ⟨⟨Nat.zero_le _, same.target_le⟩, same.remainder_lt⟩
    exact ⟨⟨same.count_le, same.target_le⟩, same.remainder_lt⟩

theorem keeps_advanceCycles (timer : TimerId) (cycles : ℕ) :
    Leads (Keeps Sound) timers (advanceCycles timer cycles) := by
  refine leads_get_bind (.either (leads_pure _) ?_)
  refine leads_ok_bind (R := Keeps Sound) rfl (fun sound => sound.modifyCounter ?_)
    (keeps_advanceCounterLoop _ _ _ _)
  exact ⟨⟨(sound timer).count_le, (sound timer).target_le⟩, Nat.mod_lt _ (prescale_pos _ _)⟩

theorem Sound.singleCycle (sound : timers.Sound) (timer : TimerId) :
    (singleCycle timer timers).Sound := by
  have same := sound timer
  unfold IopTimers.singleCycle
  dsimp only
  split
  next => exact sound
  next =>
    split
    next more => exact sound.modifyCounter ⟨⟨same.count_le, same.target_le⟩, more⟩
    next =>
      refine (sound.modifyCounter ?_).hit _ _ _
      exact ⟨⟨Nat.and_le_right, same.target_le⟩, prescale_pos _ _⟩

theorem Sound.advanceSingleCpuCycle (sound : timers.Sound) :
    (advanceSingleCpuCycle timers).Sound := by
  unfold IopTimers.advanceSingleCpuCycle
  induction TimerId.all generalizing timers with
  | nil => exact sound
  | cons timer rest ih => exact ih (sound.singleCycle timer)

theorem keeps_forM (rest : List TimerId) (cycles : ℕ) :
    Leads (Keeps Sound) timers (rest.forM fun timer => advanceCycles timer cycles) := by
  induction rest generalizing timers with
  | nil => exact leads_pure _
  | cons timer rest ih => exact (keeps_advanceCycles timer cycles).bind fun _ _ _ => ih

theorem keeps_advanceCpu (cycles : ℕ) : Leads (Keeps Sound) timers (advanceCpu cycles) :=
  .either (leads_modify fun sound => sound.advanceSingleCpuCycle)
    (keeps_forM _ cycles)

theorem keeps_advanceExternal (timer : TimerId) (ticks : ℕ) :
    Leads (Keeps Sound) timers (advanceExternal timer ticks) :=
  leads_get_bind (.either (keeps_advanceCounterLoop _ _ _ _) (leads_pure _))

end IopTimers

/-- Every step keeps the counters sound. -/
theorem TimerOp.keeps_perform {timers : IopTimers} (op : TimerOp) :
    Leads (Keeps IopTimers.Sound) timers op.perform := by
  cases op with
  | readU32 address => exact (IopTimers.keeps_readU32 address).map _
  | readU16 address => exact (IopTimers.keeps_readU16 address).map _
  | writeU32 address value => exact IopTimers.keeps_writeU32 address _
  | writeU16 address value => exact IopTimers.keeps_writeU16 address value
  | setGate timer asserted => exact leads_modify fun sound => sound.setGate timer asserted
  | advanceCpu cycles => exact IopTimers.keeps_advanceCpu cycles
  | advanceExternal timer ticks => exact IopTimers.keeps_advanceExternal timer ticks

namespace IopTimers

variable {timers timers' : IopTimers} {timer other : TimerId}

theorem sound_run {ops : List TimerOp} (run : Run Next new ops timers) : timers.Sound := by
  refine run.invariant (I := Sound) (fun timer => ?_) ?_
  · exact ⟨⟨Nat.zero_le _, Nat.zero_le _⟩, prescale_pos _ _⟩
  · rintro before op after sound rfl
    exact op.keeps_perform sound

/-! ### Cycles as ticks -/

/-- Sets the prescaler remainder of a counter. -/
def setRemainder (timer : TimerId) (remainder : ℕ) (timers : IopTimers) : IopTimers :=
  timers.modifyCounter timer fun c => { c with prescaleRemainder := remainder }

@[simp] theorem counters_setRemainder (timer : TimerId) (remainder : ℕ) (timers : IopTimers) :
    (timers.setRemainder timer remainder).counters timer =
      { timers.counters timer with prescaleRemainder := remainder } :=
  counters_modifyCounter timers timer _

@[simp] theorem setRemainder_setRemainder (timer : TimerId) (r r' : ℕ) (timers : IopTimers) :
    (timers.setRemainder timer r).setRemainder timer r' = timers.setRemainder timer r' :=
  modifyCounter_modifyCounter timers timer _ _

theorem setRemainder_self (timer : TimerId) (timers : IopTimers) :
    timers.setRemainder timer (timers.counters timer).prescaleRemainder = timers := by
  have same : timers.setRemainder timer (timers.counters timer).prescaleRemainder =
      timers.modifyCounter timer id := modifyCounter_congr rfl
  rw [same, modifyCounter_id]

theorem boundary_setRemainder (timer : TimerId) (b : CounterBoundary) (remainder : ℕ)
    (timers : IopTimers) :
    boundary timer b (timers.setRemainder timer remainder) =
      (boundary timer b timers).setRemainder timer remainder := by
  unfold boundary
  simp only [counters_setRemainder]
  split_ifs <;> simp [setRemainder, modifyCounter] <;> funext t <;> split_ifs <;> rfl

theorem hit_setRemainder (timer : TimerId) (a b : Bool) (remainder : ℕ) (timers : IopTimers) :
    hit timer a b (timers.setRemainder timer remainder) =
      (hit timer a b timers).setRemainder timer remainder := by
  have target : hit timer a false (timers.setRemainder timer remainder) =
      (hit timer a false timers).setRemainder timer remainder := by
    cases a with
    | false => rfl
    | true =>
      unfold hit
      simp only [if_true, Bool.false_eq_true, if_false, boundary_setRemainder,
        counters_setRemainder]
      split_ifs
      · simp [setRemainder]
      · rfl
  rw [hit_eq, hit_eq timer a b timers, target]
  cases b with
  | false => rfl
  | true =>
    simp only [if_true]
    exact boundary_setRemainder timer .overflow remainder _

theorem tick_setRemainder (timer : TimerId) (remainder : ℕ) :
    Function.Commute (tick timer) (setRemainder timer remainder) := by
  intro timers
  unfold tick
  rw [← hit_setRemainder]
  simp [setRemainder, setCount]

theorem kin_iterate (timer : TimerId) (n : ℕ) (timers : IopTimers) :
    (timers.counters timer).Kin (((tick timer)^[n] timers).counters timer) := by
  induction n with
  | zero => exact .refl _
  | succ n ih =>
    rw [Function.iterate_succ_apply']
    exact ih.trans (kin_tick timer _)

theorem clocked_of_kin {c c' : Counter} (kin : c.Kin c') : clocked c' = clocked c := by
  unfold clocked
  rw [and_of_control kin.control (by decide), kin.running]

theorem singleCycle_of_more (on : clocked (timers.counters timer) = true)
    (more : (timers.counters timer).prescaleRemainder + 1 <
      prescale timer (timers.counters timer).mode) :
    singleCycle timer timers =
      timers.setRemainder timer ((timers.counters timer).prescaleRemainder + 1) := by
  unfold singleCycle
  simp only [on, Bool.not_true, Bool.false_eq_true, if_false, if_pos more]
  exact modifyCounter_congr rfl

theorem singleCycle_of_full (fits : (timers.counters timer).Fits timer)
    (on : clocked (timers.counters timer) = true)
    (full : ¬ (timers.counters timer).prescaleRemainder + 1 <
      prescale timer (timers.counters timer).mode) :
    singleCycle timer timers = tick timer (timers.setRemainder timer 0) := by
  have narrow : (timers.counters timer).count + 1 ≤ 2 ^ 32 :=
    (Nat.succ_le_succ fits.count_le).trans (widthMask_lt timer)
  have count : ((timers.counters timer).count + 1) % 2 ^ 32 % (timer.widthMask + 1) =
      ((timers.counters timer).count + 1) % (timer.widthMask + 1) := by
    cases timer
    iterate 6 exact Nat.mod_mod_of_dvd _ (by decide)
  unfold singleCycle tick
  simp only [on, Bool.not_true, Bool.false_eq_true, if_false, if_neg full, and_widthMask, count,
    counters_setRemainder]
  congr 1
  simp [setRemainder, setCount]

/-- Cycles of a clocked counter are the ticks of its prescaler. -/
theorem singleCycle_iterate (sound : (timers.counters timer).Sound timer)
    (on : clocked (timers.counters timer) = true) (n : ℕ) :
    (singleCycle timer)^[n] timers =
      (tick timer)^[((timers.counters timer).prescaleRemainder + n) /
          prescale timer (timers.counters timer).mode]
        (timers.setRemainder timer (((timers.counters timer).prescaleRemainder + n) %
          prescale timer (timers.counters timer).mode)) := by
  generalize cycle : (timers.counters timer).prescaleRemainder = r
  generalize divisor : prescale timer (timers.counters timer).mode = d
  have r_lt : r < d := by
    rw [← cycle, ← divisor]
    exact sound.remainder_lt
  induction n with
  | zero =>
    rw [Nat.add_zero, Nat.div_eq_of_lt r_lt, Nat.mod_eq_of_lt r_lt, ← cycle]
    exact (setRemainder_self timer timers).symm
  | succ n ih =>
    have size := Nat.div_add_mod (r + n) d
    have rest_lt : (r + n) % d < d := Nat.mod_lt _ (by omega)
    generalize (r + n) / d = q at ih size
    generalize (r + n) % d = rest at ih size rest_lt
    have kin := kin_iterate timer q (timers.setRemainder timer rest)
    have fits : (((tick timer)^[q] (timers.setRemainder timer rest)).counters timer).Fits timer := by
      apply fits_iterate
      rw [counters_setRemainder]
      exact ⟨sound.count_le, sound.target_le⟩
    have on' : clocked (((tick timer)^[q] (timers.setRemainder timer rest)).counters timer) = true := by
      rw [clocked_of_kin kin, counters_setRemainder]
      exact on
    have remainder := kin.prescaleRemainder
    have divisor' := kin.prescale timer
    rw [counters_setRemainder] at remainder divisor'
    rw [show prescale timer (timers.counters timer).mode = d from divisor] at divisor'
    rw [Function.iterate_succ_apply', ih]
    by_cases more : rest + 1 < d
    · have next : (r + (n + 1)) / d = q ∧ (r + (n + 1)) % d = rest + 1 :=
        (Nat.div_mod_unique (by omega)).mpr ⟨by omega, more⟩
      rw [singleCycle_of_more on' (by rw [remainder, divisor']; exact more), remainder, next.1,
        next.2, ← ((tick_setRemainder timer (rest + 1)).iterate_left q).eq, setRemainder_setRemainder]
    · have next : (r + (n + 1)) / d = q + 1 ∧ (r + (n + 1)) % d = 0 :=
        (Nat.div_mod_unique (by omega)).mpr ⟨by rw [Nat.mul_succ]; omega, by omega⟩
      rw [singleCycle_of_full fits on' (by rw [remainder, divisor']; exact more), next.1, next.2,
        ← ((tick_setRemainder timer 0).iterate_left q).eq, setRemainder_setRemainder,
        Function.iterate_succ_apply']

theorem singleCycle_of_stopped (off : clocked (timers.counters timer) = false) :
    singleCycle timer timers = timers := by
  unfold singleCycle
  simp only [off, Bool.not_false, if_true]

/-- Advancing one counter in bulk is that many single cycles, or stops at the event limit, which it
reaches exactly when these cycles report more events. -/
theorem advanceCycles_run (sound : (timers.counters timer).Sound timer) {n : ℕ}
    (narrow : n + 255 < 2 ^ 64) :
    if ((singleCycle timer)^[n] timers).events.length ≤
        maxEventsPerAdvance + timers.events.length then
      (advanceCycles timer n).run timers = .ok () ((singleCycle timer)^[n] timers)
    else ∃ timers', (advanceCycles timer n).run timers =
      .error (.eventLimit timer maxEventsPerAdvance) timers' := by
  cases on : clocked (timers.counters timer) with
  | false =>
    have still : (singleCycle timer)^[n] timers = timers :=
      Function.iterate_fixed (singleCycle_of_stopped on) n
    rw [still, if_pos (Nat.le_add_left _ _)]
    simp [advanceCycles, on]
  | true =>
    have small := prescale_le timer (timers.counters timer).mode
    have below := sound.remainder_lt
    have total : ((timers.counters timer).prescaleRemainder + n) % 2 ^ 64 =
        (timers.counters timer).prescaleRemainder + n := Nat.mod_eq_of_lt (by omega)
    have run : (advanceCycles timer n).run timers =
        (advanceCounter timer (((timers.counters timer).prescaleRemainder + n) /
          prescale timer (timers.counters timer).mode)).run
          (timers.setRemainder timer (((timers.counters timer).prescaleRemainder + n) %
            prescale timer (timers.counters timer).mode)) := by
      unfold advanceCycles
      simp only [run_bind, run_get, on, Bool.not_true, Bool.false_eq_true, if_false,
        total, run_set]
      rfl
    have fits : ((timers.setRemainder timer (((timers.counters timer).prescaleRemainder + n) %
        prescale timer (timers.counters timer).mode)).counters timer).Fits timer := by
      rw [counters_setRemainder]
      exact ⟨sound.count_le, sound.target_le⟩
    have loop := advanceCounterLoop_run fits
      (le_refl (((timers.counters timer).prescaleRemainder + n) /
        prescale timer (timers.counters timer).mode)) (Nat.zero_le _)
    rw [← singleCycle_iterate sound on, Nat.zero_add] at loop
    rw [run]
    exact loop

/-! ### What one counter shows -/

/-- Whether an event is a boundary of the counter. -/
def isOf (timer : TimerId) : TimingEvent → Bool
  | .counter other _ => decide (other = timer)
  | .vBlankStart | .vBlankEnd => false

@[simp] theorem isOf_counter (timer : TimerId) (kind : CounterBoundary) :
    isOf timer (.counter other kind) = decide (other = timer) := rfl

/-- The events of one counter. -/
def eventsOf (timers : IopTimers) (timer : TimerId) : List TimingEvent :=
  timers.events.filter (isOf timer)

/-- The interrupt requests of one counter. -/
def requestsOf (timers : IopTimers) (timer : TimerId) : List InterruptSource :=
  timers.requests.filter (· = timer.interrupt)

/-- Two states show one counter alike: its registers, and what it has reported and requested. -/
structure Alike (timer : TimerId) (a b : IopTimers) : Prop where
  counter : a.counters timer = b.counters timer
  events : a.eventsOf timer = b.eventsOf timer
  requests : a.requestsOf timer = b.requestsOf timer

namespace Alike

variable {a b c : IopTimers}

theorem refl (timer : TimerId) (a : IopTimers) : Alike timer a a := ⟨rfl, rfl, rfl⟩

theorem symm (h : Alike timer a b) : Alike timer b a :=
  ⟨h.counter.symm, h.events.symm, h.requests.symm⟩

theorem trans (h : Alike timer a b) (h' : Alike timer b c) : Alike timer a c :=
  ⟨h.counter.trans h'.counter, h.events.trans h'.events, h.requests.trans h'.requests⟩

theorem modifyCounter (h : Alike timer a b) (f : Counter → Counter) :
    Alike timer (a.modifyCounter timer f) (b.modifyCounter timer f) where
  counter := by rw [counters_modifyCounter, counters_modifyCounter, h.counter]
  events := h.events
  requests := h.requests

theorem boundary (h : Alike timer a b) (kind : CounterBoundary) :
    Alike timer (IopTimers.boundary timer kind a) (IopTimers.boundary timer kind b) := by
  have events := h.events
  have requests := h.requests
  unfold eventsOf at events
  unfold requestsOf at requests
  unfold IopTimers.boundary
  rw [h.counter]
  simp only
  split_ifs
  all_goals
    refine ⟨by simp, ?_, ?_⟩
    · simp [eventsOf, events]
    · simp [requestsOf, requests]

theorem hit (h : Alike timer a b) (x y : Bool) :
    Alike timer (IopTimers.hit timer x y a) (IopTimers.hit timer x y b) := by
  have target : Alike timer (IopTimers.hit timer x false a) (IopTimers.hit timer x false b) := by
    cases x with
    | false => exact h
    | true =>
      have reached := h.boundary .target
      unfold IopTimers.hit
      simp only [if_true, Bool.false_eq_true, if_false, reached.counter]
      split_ifs
      · exact reached.modifyCounter _
      · exact reached
  rw [hit_eq, hit_eq timer x y b]
  cases y with
  | false => exact target
  | true => exact target.boundary .overflow

/-- A cycle of a counter depends on what is shown of that counter. -/
theorem singleCycle (h : Alike timer a b) :
    Alike timer (IopTimers.singleCycle timer a) (IopTimers.singleCycle timer b) := by
  unfold IopTimers.singleCycle
  rw [h.counter]
  simp only
  split_ifs
  · exact h
  · exact h.modifyCounter _
  · exact (h.modifyCounter _).hit _ _

theorem iterate (h : Alike timer a b) (n : ℕ) :
    Alike timer ((IopTimers.singleCycle timer)^[n] a) ((IopTimers.singleCycle timer)^[n] b) := by
  induction n with
  | zero => exact h
  | succ n ih =>
    rw [Function.iterate_succ_apply', Function.iterate_succ_apply']
    exact ih.singleCycle

end Alike

theorem interrupt_ne (ne : other ≠ timer) : other.interrupt ≠ timer.interrupt := by
  revert ne
  cases other <;> cases timer <;> decide

/-! A counter does not show what happens to another one. -/

theorem alike_modifyCounter (ne : other ≠ timer) (f : Counter → Counter) (a : IopTimers) :
    Alike other (a.modifyCounter timer f) a :=
  ⟨counters_modifyCounter_ne ne a f, rfl, rfl⟩

theorem alike_boundary (ne : other ≠ timer) (kind : CounterBoundary) (a : IopTimers) :
    Alike other (boundary timer kind a) a := by
  have apart := (interrupt_ne ne).symm
  refine ⟨counters_boundary_ne ne kind a, ?_, ?_⟩
  · simp [eventsOf, ne.symm]
  · unfold boundary
    simp only
    split_ifs <;> simp [requestsOf, apart]

theorem alike_hit (ne : other ≠ timer) (x y : Bool) (a : IopTimers) :
    Alike other (hit timer x y a) a := by
  have target : Alike other (hit timer x false a) a := by
    cases x with
    | false => exact .refl _ _
    | true =>
      unfold hit
      simp only [if_true, Bool.false_eq_true, if_false]
      split_ifs
      · exact (alike_modifyCounter ne _ _).trans (alike_boundary ne _ _)
      · exact alike_boundary ne _ _
  rw [hit_eq]
  cases y with
  | false => exact target
  | true => exact (alike_boundary ne .overflow _).trans target

theorem alike_singleCycle (ne : other ≠ timer) (a : IopTimers) :
    Alike other (singleCycle timer a) a := by
  unfold singleCycle
  simp only
  split_ifs
  · exact .refl _ _
  · exact alike_modifyCounter ne _ _
  · exact (alike_hit ne _ _ _).trans (alike_modifyCounter ne _ _)

theorem alike_iterate (ne : other ≠ timer) (n : ℕ) (a : IopTimers) :
    Alike other ((singleCycle timer)^[n] a) a := by
  induction n with
  | zero => exact .refl _ _
  | succ n ih =>
    rw [Function.iterate_succ_apply']
    exact (alike_singleCycle ne _).trans ih

/-- The events from one state to the next are all of one counter. -/
def Reports (timer : TimerId) (a b : IopTimers) : Prop :=
  b.events.length + (a.eventsOf timer).length = a.events.length + (b.eventsOf timer).length

theorem Reports.trans {a b c : IopTimers} (h : Reports timer a b) (h' : Reports timer b c) :
    Reports timer a c := by
  unfold Reports at *
  omega

theorem reports_boundary (timer : TimerId) (kind : CounterBoundary) (a : IopTimers) :
    Reports timer a (boundary timer kind a) := by
  unfold Reports eventsOf
  simp
  omega

theorem reports_hit (timer : TimerId) (x y : Bool) (a : IopTimers) :
    Reports timer a (hit timer x y a) := by
  have target : Reports timer a (hit timer x false a) := by
    cases x with
    | false => exact rfl
    | true =>
      have reached := reports_boundary timer .target a
      unfold hit
      simp only [if_true, Bool.false_eq_true, if_false]
      split_ifs
      · exact reached
      · exact reached
  rw [hit_eq]
  cases y with
  | false => exact target
  | true => exact target.trans (reports_boundary timer .overflow _)

theorem reports_iterate (timer : TimerId) (n : ℕ) (a : IopTimers) :
    Reports timer a ((singleCycle timer)^[n] a) := by
  induction n with
  | zero => exact rfl
  | succ n ih =>
    rw [Function.iterate_succ_apply']
    refine ih.trans ?_
    generalize (singleCycle timer)^[n] a = b
    unfold singleCycle
    simp only
    split_ifs
    · exact rfl
    · exact rfl
    · have unreported (f : Counter → Counter) : Reports timer b (b.modifyCounter timer f) := rfl
      exact (unreported _).trans (reports_hit timer _ _ _)

theorem events_singleCycle (timer : TimerId) (a : IopTimers) :
    a.events.length ≤ (singleCycle timer a).events.length ∧
      (singleCycle timer a).events.length ≤ a.events.length + 2 := by
  unfold singleCycle
  simp only
  split_ifs
  · omega
  · simp
  · have flag (b : Bool) : b.toNat ≤ 1 := Bool.toNat_le b
    have target := flag (decide (((a.counters timer).count + 1) % 2 ^ 32 &&& timer.widthMask =
      (a.counters timer).target))
    have overflow := flag (decide ((a.counters timer).count = timer.widthMask))
    rw [events_hit, events_modifyCounter]
    omega

theorem alike_advanceSingleCpuCycle (timer : TimerId) (a : IopTimers) :
    Alike timer (advanceSingleCpuCycle a) (singleCycle timer a) := by
  have others (rest : List TimerId) (absent : timer ∉ rest) (b : IopTimers) :
      Alike timer (rest.foldl (fun timers timer => singleCycle timer timers) b) b := by
    induction rest generalizing b with
    | nil => exact .refl _ _
    | cons other rest ih =>
      obtain ⟨ne, absent⟩ := not_or.mp (mt List.mem_cons.mpr absent)
      exact (ih absent _).trans (alike_singleCycle ne b)
  have all (rest : List TimerId) (nodup : rest.Nodup) (present : timer ∈ rest) (b : IopTimers) :
      Alike timer (rest.foldl (fun timers timer => singleCycle timer timers) b)
        (singleCycle timer b) := by
    induction rest generalizing b with
    | nil => cases present
    | cons other rest ih =>
      obtain ⟨absent, nodup⟩ := List.nodup_cons.mp nodup
      obtain rfl | present := List.mem_cons.mp present
      · exact others rest absent _
      · have ne : timer ≠ other := fun same => absent (same ▸ present)
        exact (ih nodup present _).trans (alike_singleCycle ne b).singleCycle
  exact all TimerId.all (by decide) (by cases timer <;> decide) a

theorem alike_cycles (timer : TimerId) (n : ℕ) (a : IopTimers) :
    Alike timer (advanceSingleCpuCycle^[n] a) ((singleCycle timer)^[n] a) := by
  induction n with
  | zero => exact .refl _ _
  | succ n ih =>
    rw [Function.iterate_succ_apply', Function.iterate_succ_apply']
    exact (alike_advanceSingleCpuCycle timer _).trans ih.singleCycle

/-! ### Advancing all counters -/

/-- The counter reports no more events over the cycles than one advance may. -/
def Within (timer : TimerId) (n : ℕ) (a : IopTimers) : Prop :=
  (((singleCycle timer)^[n] a).eventsOf timer).length ≤
    maxEventsPerAdvance + (a.eventsOf timer).length

theorem Within.alike {a b : IopTimers} {n : ℕ} (within : Within timer n a)
    (alike : Alike timer a b) : Within timer n b := by
  have after := (alike.iterate n).events
  unfold Within at *
  rw [← after, ← alike.events]
  exact within

theorem within_iff (timer : TimerId) (n : ℕ) (a : IopTimers) :
    Within timer n a ↔
      ((singleCycle timer)^[n] a).events.length ≤ maxEventsPerAdvance + a.events.length := by
  have reports := reports_iterate timer n a
  unfold Within
  unfold Reports at reports
  omega

theorem Sound.iterate (sound : timers.Sound) (timer : TimerId) (n : ℕ) :
    ((IopTimers.singleCycle timer)^[n] timers).Sound := by
  induction n with
  | zero => exact sound
  | succ n ih =>
    rw [Function.iterate_succ_apply']
    exact ih.singleCycle timer

/-- Advancing some counters in bulk shows each of them its single cycles, or stops at the event
limit of one of them. -/
theorem forM_run {n : ℕ} (narrow : n + 255 < 2 ^ 64) (rest : List TimerId) (nodup : rest.Nodup)
    (sound : timers.Sound) :
    ((∀ timer ∈ rest, Within timer n timers) → ∃ timers',
      (rest.forM fun timer => advanceCycles timer n).run timers = .ok () timers' ∧
        (∀ timer ∈ rest, Alike timer timers' ((singleCycle timer)^[n] timers)) ∧
        ∀ timer ∉ rest, Alike timer timers' timers) ∧
      ∀ timers', (rest.forM fun timer => advanceCycles timer n).run timers = .ok () timers' →
        ∀ timer ∈ rest, Within timer n timers := by
  induction rest generalizing timers with
  | nil =>
    refine ⟨fun _ => ⟨timers, rfl, nofun, fun timer _ => .refl timer timers⟩, fun _ _ => nofun⟩
  | cons first rest ih =>
    obtain ⟨absent, nodup⟩ := List.nodup_cons.mp nodup
    have apart {timer : TimerId} (member : timer ∈ rest) : timer ≠ first :=
      fun same => absent (same ▸ member)
    have one := advanceCycles_run (sound first) narrow
    obtain ⟨ok, within⟩ := ih nodup (sound.iterate first n)
    constructor
    · intro all
      rw [if_pos ((within_iff first n timers).mp (all first List.mem_cons_self))] at one
      obtain ⟨timers', run, shown, hidden⟩ := ok fun timer member =>
        (all timer (List.mem_cons_of_mem _ member)).alike (alike_iterate (apart member) n _).symm
      refine ⟨timers', ?_, fun timer member => ?_, fun timer member => ?_⟩
      · exact run_bind_ok.mpr ⟨(), _, one, run⟩
      · obtain rfl | member := List.mem_cons.mp member
        · exact hidden timer absent
        · exact (shown timer member).trans ((alike_iterate (apart member) n _).iterate n)
      · obtain ⟨ne, member⟩ := not_or.mp (mt List.mem_cons.mpr member)
        exact (hidden timer member).trans (alike_iterate ne n _)
    · intro timers' run
      obtain ⟨_, between, first_, run⟩ := run_bind_ok.mp run
      split at one
      next bound =>
        rw [one] at first_
        cases first_
        intro timer member
        obtain rfl | member := List.mem_cons.mp member
        · exact (within_iff _ n timers).mpr bound
        · exact (within timers' run timer member).alike (alike_iterate (apart member) n _)
      next =>
        obtain ⟨failed, one⟩ := one
        rw [one] at first_
        cases first_

theorem within_one (timer : TimerId) (a : IopTimers) : Within timer 1 a := by
  have two := (events_singleCycle timer a).2
  have small : 2 ≤ maxEventsPerAdvance := by decide
  rw [within_iff, Function.iterate_one]
  omega

theorem reported_le (timer : TimerId) (n : ℕ) (a : IopTimers) :
    (a.eventsOf timer).length ≤ (((singleCycle timer)^[n] a).eventsOf timer).length := by
  have reports := reports_iterate timer n a
  have grows : a.events.length ≤ ((singleCycle timer)^[n] a).events.length := by
    induction n with
    | zero => exact le_rfl
    | succ n ih =>
      rw [Function.iterate_succ_apply']
      exact (ih (reports_iterate timer n a)).trans (events_singleCycle timer _).1
  unfold Reports at reports
  omega

theorem Within.split {x : IopTimers} {m n : ℕ} (whole : Within timer (m + n) x) :
    Within timer m x ∧ Within timer n ((singleCycle timer)^[m] x) := by
  have before := reported_le timer m x
  have after := reported_le timer n ((singleCycle timer)^[m] x)
  unfold Within at *
  rw [← Function.iterate_add_apply, Nat.add_comm n m] at *
  omega

/-- Advancing all counters shows each of them its single cycles, or stops at the event limit of one
of them. -/
theorem advanceCpu_run {n : ℕ} (narrow : n + 255 < 2 ^ 64) (sound : timers.Sound) :
    ((∀ timer, Within timer n timers) → ∃ timers', (advanceCpu n).run timers = .ok () timers' ∧
      ∀ timer, Alike timer timers' ((singleCycle timer)^[n] timers)) ∧
    ∀ timers', (advanceCpu n).run timers = .ok () timers' → ∀ timer, Within timer n timers := by
  have all (timer : TimerId) : timer ∈ TimerId.all := by cases timer <;> decide
  unfold advanceCpu
  by_cases one : n = 1
  · subst one
    rw [if_pos rfl]
    exact ⟨fun _ => ⟨_, rfl, fun timer => alike_advanceSingleCpuCycle timer timers⟩,
      fun _ _ timer => within_one timer timers⟩
  · rw [if_neg one]
    obtain ⟨ok, within⟩ := forM_run narrow TimerId.all (by decide) sound
    constructor
    · intro bound
      obtain ⟨timers', run, shown, -⟩ := ok fun timer _ => bound timer
      exact ⟨timers', run, fun timer => shown timer (all timer)⟩
    · intro timers' run timer
      exact within timers' run timer (all timer)

/-- As many calls of the single-cycle path. -/
def singleSteps : ℕ → EStateM TimerError IopTimers Unit
  | 0 => return
  | n + 1 => do
    advanceCpu 1
    singleSteps n

theorem singleSteps_run (n : ℕ) (timers : IopTimers) :
    (singleSteps n).run timers = .ok () (advanceSingleCpuCycle^[n] timers) := by
  induction n generalizing timers with
  | zero => rfl
  | succ n ih =>
    rw [Function.iterate_succ_apply]
    exact ih _

/-- Over every run, an advance within the event limit may be split at any point, and into single
cycles: each counter ends with the same registers, events and interrupt requests. -/
theorem advanceCpu_add {ops : List TimerOp} {a b : ℕ} (run : Run Next new ops timers)
    (narrow : a + b + 255 < 2 ^ 64) (whole : (advanceCpu (a + b)).run timers = .ok () timers') :
    (∃ between split, (advanceCpu a).run timers = .ok () between ∧
      (advanceCpu b).run between = .ok () split ∧ ∀ timer, Alike timer split timers') ∧
    ∃ stepped, (singleSteps (a + b)).run timers = .ok () stepped ∧
      ∀ timer, Alike timer stepped timers' := by
  have sound := sound_run run
  obtain ⟨ok, within⟩ := advanceCpu_run narrow sound
  have bound := within timers' whole
  obtain ⟨whole', run', shown⟩ := ok bound
  rw [whole] at run'
  cases run'
  obtain ⟨between, runA, shownA⟩ := (advanceCpu_run (show a + 255 < 2 ^ 64 by omega) sound).1
    fun timer => (bound timer).split.1
  have soundA : between.Sound := by
    have kept : Keeps Sound timers (leaves ((advanceCpu a).run timers)) := keeps_advanceCpu a
    have after := kept sound
    rw [runA] at after
    exact after
  obtain ⟨split, runB, shownB⟩ := (advanceCpu_run (show b + 255 < 2 ^ 64 by omega) soundA).1
    fun timer => (bound timer).split.2.alike (shownA timer).symm
  refine ⟨⟨between, split, runA, runB, fun timer => ?_⟩, _, singleSteps_run _ _, fun timer => ?_⟩
  · have joined := (shownB timer).trans ((shownA timer).iterate b)
    rw [← Function.iterate_add_apply, Nat.add_comm b a] at joined
    exact joined.trans (shown timer).symm
  · exact (alike_cycles timer _ timers).trans (shown timer).symm

/-- The state after a list of steps. -/
def after (timers : IopTimers) (ops : List TimerOp) : IopTimers :=
  ops.foldl (fun timers op => leaves (op.perform.run timers)) timers

theorem run_after (timers : IopTimers) (ops : List TimerOp) :
    Run Next timers ops (timers.after ops) := by
  induction ops generalizing timers with
  | nil => exact .refl timers
  | cons op ops ih => exact (Run.single rfl).append (ih _)

/-- A prescaled counter that resets at its target and repeats its interrupt, and one that wraps
through the target zero. -/
theorem advanceCpu_add_sample :
    let timers := after new [.writeU32 0x1f801128 3, .writeU32 0x1f801124 0x258,
      .writeU32 0x1f801104 0x60, .writeU16 0x1f801100 0xfff0]
    let timers' := leaves ((advanceCpu (20 + 28)).run timers)
    (timers'.eventsOf .timer2).length = 2 ∧ (timers'.eventsOf .timer0).length = 2 ∧
      (∃ between split, (advanceCpu 20).run timers = .ok () between ∧
        (advanceCpu 28).run between = .ok () split ∧ ∀ timer, Alike timer split timers') ∧
      ∃ stepped, (singleSteps (20 + 28)).run timers = .ok () stepped ∧
        ∀ timer, Alike timer stepped timers' := by
  intro timers timers'
  refine ⟨by decide +kernel, by decide +kernel, ?_⟩
  exact advanceCpu_add (run_after new _) (by decide) (eq_ok_of_succeeds (by decide +kernel))

end IopTimers

end Upse
