import Upse.Hw.Ps1.TimerAdvances

/-!
# The machine integers of the root counters

The advances again, with every addition, subtraction and conversion of the source checked at its
width.  On counters that can be reached no check fails: the remainder of the divider never exceeds the
elapsed time, which is known to leave room for the ticks.
-/

namespace Upse.Ps1

open ErrorState

/-- How an advance stops early: with an error, or at arithmetic that does not fit. -/
inductive TimerFault where
  | error (source : TimerError)
  | panic
  deriving DecidableEq, Repr

/-- `u16::try_from`. -/
def toU16 (value : ℕ) : Option (BitVec 16) :=
  if value < 2 ^ 16 then some (BitVec.ofNat 16 value) else none

/-- `u8::try_from`. -/
def toU8 (value : ℕ) : Option ℕ := if value < 2 ^ 8 then some value else none

namespace Counter

variable {S : Type} (request : InterruptSource → S → S)

/-- `boundary`, checked. -/
def boundaryChecked (counter : Counter) : Option (ℕ × Bool × Bool) := do
  let value := counter.value.toNat
  let target := counter.target.toNat
  let overflowDistance ← checkedSub 0x10000 value
  let targetDistance ← if value < target then checkedSub target value
    else (checkedSub 0x10000 value).bind (checkedAdd 64 · target)
  let distance := min overflowDistance targetDistance
  return (distance, distance == targetDistance, distance == overflowDistance)

/-- `tickLoop`, checked; ticks that are left when the rounds run out fail as well. -/
def tickLoopChecked (id : TimerId) : ℕ → Counter → ℕ → S → Option (Counter × S)
  | 0, counter, ticks, sink => if ticks = 0 then some (counter, sink) else none
  | rounds + 1, counter, ticks, sink =>
    if ticks = 0 then some (counter, sink)
    else do
      let (distance, hitTarget, hitOverflow) ← counter.boundaryChecked
      if ticks < distance then
        let value ← (checkedAdd 64 counter.value.toNat ticks).bind toU16
        return ({ counter with value := value }, sink)
      else
        let next ← checkedAdd 64 counter.value.toNat distance
        let value ← toU16 (next &&& 0xffff)
        let ticks ← checkedSub ticks distance
        let (counter, sink) :=
          arrive request id hitTarget hitOverflow { counter with value := value } sink
        tickLoopChecked id rounds (if ticks ≠ 0 then counter.settlePulse else counter) ticks sink

/-- `tick` in machine integers. -/
def tickChecked (counter : Counter) (id : TimerId) (ticks : ℕ) (sink : S) : Option (Counter × S) :=
  if ticks = 0 then some (counter, sink)
  else
    let counter := counter.settlePulse
    if counter.paused id then some (counter, sink)
    else tickLoopChecked request id ticks counter ticks sink

end Counter

namespace RootCounters

variable {S : Type} (request : InterruptSource → S → S)

def tickCounterChecked (timers : RootCounters) (id : TimerId) (ticks : ℕ) (sink : S) :
    Option (RootCounters × S) := do
  let (counter, sink) ← (timers.counter id).tickChecked request id ticks sink
  return (timers.setCounter id counter, sink)

/-- `systemTick`, checked. -/
def systemTickChecked (timers : RootCounters) (id : TimerId) (ticks : ℕ) (sink : S) :
    Option (RootCounters × S) :=
  let counter := timers.counter id
  if (id = .timer0 ∨ id = .timer1) ∧ counter.clockBits &&& 1 ≠ 0 then some (timers, sink)
  else if id = .timer2 ∧ counter.clockBits &&& 2 ≠ 0 then do
    let total ← checkedAdd 64 counter.dividerRemainder ticks
    let remainder ← toU8 (total % 8)
    let timers := timers.setCounter id { counter with dividerRemainder := remainder }
    timers.tickCounterChecked request id (total / 8) sink
  else timers.tickCounterChecked request id ticks sink

/-- `advance`, checked. -/
def advanceChecked (input : ClockInput) (ticks : Ticks) :
    EStateM TimerFault (RootCounters × S) Unit := do
  let (timers, sink) ← get
  match input with
  | .system =>
    match timers.now.checkedAdvance ticks with
    | .error _ => throw (.error .clockOverflow)
    | .ok now =>
      set (← okOr (TimerId.all.foldlM
        (fun (timers, sink) id => timers.systemTickChecked request id ticks sink)
        ({ timers with now := now }, sink)) .panic)
  | .dotClock =>
    if (timers.counter .timer0).clockBits &&& 1 ≠ 0 then
      set (← okOr (timers.tickCounterChecked request .timer0 ticks sink) .panic)
  | .hBlank =>
    if (timers.counter .timer1).clockBits &&& 1 ≠ 0 then
      set (← okOr (timers.tickCounterChecked request .timer1 ticks sink) .panic)

end RootCounters

/-! ### No check fails in a counter -/

namespace Counter

variable {c : Counter} {id : TimerId} {S : Type} {request : InterruptSource → S → S} {sink : S}

theorem boundaryChecked_eq (c : Counter) : c.boundaryChecked = some c.boundary := by
  have value := c.value.isLt
  have target := c.target.isLt
  have overflow : checkedSub 0x10000 c.value.toNat = some (0x10000 - c.value.toNat) :=
    checkedSub_eq_some.mpr ⟨by omega, rfl⟩
  have sum : checkedAdd 64 (0x10000 - c.value.toNat) c.target.toNat = some _ :=
    checkedAdd_eq_some.mpr ⟨by omega, rfl⟩
  unfold boundaryChecked boundary
  simp only [overflow, Option.bind_eq_bind, Option.bind_some, sum]
  by_cases before : c.value.toNat < c.target.toNat
  · simp only [if_pos before, checkedSub_eq_some.mpr ⟨before.le, rfl⟩, Option.bind_some]
    rfl
  · simp only [if_neg before]
    rfl

theorem boundary_le (c : Counter) : c.boundary.1 ≤ 0x10000 - c.value.toNat := min_le_left _ _

theorem toU16_masked (n : ℕ) : toU16 (n &&& 0xffff) = some (BitVec.ofNat 16 n) := by
  have masked : n &&& 0xffff = n % 2 ^ 16 := Nat.and_two_pow_sub_one_eq_mod n 16
  have below : n % 2 ^ 16 < 2 ^ 16 := Nat.mod_lt _ (by decide)
  unfold toU16
  rw [masked, if_pos below]
  congr 1
  apply BitVec.eq_of_toNat_eq
  rw [BitVec.toNat_ofNat, BitVec.toNat_ofNat, Nat.mod_mod]

theorem tickLoopChecked_eq {rounds ticks : ℕ} (enough : ticks ≤ rounds) :
    tickLoopChecked request id rounds c ticks sink = some (tickLoop request id rounds c ticks sink) := by
  induction rounds generalizing c ticks sink with
  | zero =>
    obtain rfl := Nat.le_zero.mp enough
    rfl
  | succ rounds ih =>
    by_cases done : ticks = 0
    · rw [done, tickLoop_zero]
      rfl
    have value := c.value.isLt
    have progress := boundary_pos c
    have within := boundary_le c
    rw [tickLoop_succ c rounds done, tickLoopChecked, if_neg done, boundaryChecked_eq]
    simp only [Option.bind_eq_bind, Option.bind_some]
    by_cases short : ticks < c.boundary.1
    · -- the last round stops below the boundary, so the value keeps its width
      have sum : checkedAdd 64 c.value.toNat ticks = some (c.value.toNat + ticks) :=
        checkedAdd_eq_some.mpr ⟨by omega, rfl⟩
      have narrow : toU16 (c.value.toNat + ticks) = some (BitVec.ofNat 16 (c.value.toNat + ticks)) :=
        if_pos (by omega)
      rw [if_pos short, if_pos short, sum, Option.bind_some, narrow]
      rfl
    · have sum : checkedAdd 64 c.value.toNat c.boundary.1 = some (c.value.toNat + c.boundary.1) :=
        checkedAdd_eq_some.mpr ⟨by omega, rfl⟩
      have left : checkedSub ticks c.boundary.1 = some (ticks - c.boundary.1) :=
        checkedSub_eq_some.mpr ⟨by omega, rfl⟩
      rw [if_neg short, if_neg short, sum, Option.bind_some, toU16_masked, Option.bind_some, left,
        Option.bind_some]
      exact ih (by omega)

theorem tickChecked_eq (c : Counter) (ticks : ℕ) :
    c.tickChecked request id ticks sink = some (c.tick request id ticks sink) := by
  unfold tickChecked tick
  by_cases none : ticks = 0
  · rw [if_pos none, if_pos none]
  · simp only [if_neg none, tickLoopChecked_eq (Nat.le_refl ticks)]
    exact (apply_ite some _ _ _).symm

end Counter

/-! ### Nor in an advance -/

namespace RootCounters

variable {S : Type} {request : InterruptSource → S → S} {timers : RootCounters} {sink : S}

theorem tickCounterChecked_eq (timers : RootCounters) (id : TimerId) (ticks : ℕ) (sink : S) :
    timers.tickCounterChecked request id ticks sink = some (timers.tickCounter request id ticks sink) := by
  unfold tickCounterChecked
  rw [Counter.tickChecked_eq]
  rfl

theorem systemTickChecked_eq {id : TimerId} {ticks : ℕ}
    (fits : (timers.counter id).dividerRemainder + ticks < 2 ^ 64) :
    timers.systemTickChecked request id ticks sink = some (timers.systemTick request id ticks sink) := by
  have sum : checkedAdd 64 (timers.counter id).dividerRemainder ticks = some _ :=
    checkedAdd_eq_some.mpr ⟨fits, rfl⟩
  have narrow : toU8 (((timers.counter id).dividerRemainder + ticks) % 8) = some _ :=
    if_pos (Nat.lt_trans (Nat.mod_lt _ (by decide)) (by decide))
  unfold systemTickChecked systemTick
  simp only [sum, narrow, tickCounterChecked_eq, Option.bind_eq_bind, Option.bind_some]
  split
  · rfl
  · split <;> rfl

theorem counter_systemTick_ne {id other : TimerId} (ne : other ≠ id) (ticks : ℕ) :
    (timers.systemTick request id ticks sink).1.counter other = timers.counter other := by
  unfold systemTick tickCounter
  simp only
  split
  · rfl
  · split
    · rw [counter_setCounter_ne ne, counter_setCounter_ne ne]
    · rw [counter_setCounter_ne ne]

/-- The counters are driven one after the other, each from where it stood before the advance. -/
theorem foldlM_systemTick {ticks : ℕ}
    (fits : ∀ id, (timers.counter id).dividerRemainder + ticks < 2 ^ 64) :
    TimerId.all.foldlM (fun (state : RootCounters × S) id =>
        state.1.systemTickChecked request id ticks state.2) (timers, sink) =
      some (TimerId.all.foldl (fun (state : RootCounters × S) id =>
        state.1.systemTick request id ticks state.2) (timers, sink)) := by
  have first : timers.systemTickChecked request .timer0 ticks sink = _ :=
    systemTickChecked_eq (fits .timer0)
  obtain ⟨one, one_eq⟩ : ∃ one, timers.systemTick request .timer0 ticks sink = one := ⟨_, rfl⟩
  have kept (id : TimerId) (ne : id ≠ .timer0) : one.1.counter id = timers.counter id := by
    rw [← one_eq, counter_systemTick_ne ne]
  have second : one.1.systemTickChecked request .timer1 ticks one.2 = _ :=
    systemTickChecked_eq (by rw [kept .timer1 nofun]; exact fits .timer1)
  obtain ⟨two, two_eq⟩ : ∃ two, one.1.systemTick request .timer1 ticks one.2 = two := ⟨_, rfl⟩
  have third : two.1.systemTickChecked request .timer2 ticks two.2 = _ :=
    systemTickChecked_eq (by
      have ne : TimerId.timer2 ≠ .timer1 := by decide
      rw [← two_eq, counter_systemTick_ne ne, kept .timer2 nofun]
      exact fits .timer2)
  simp only [TimerId.all, List.foldlM_cons, List.foldlM_nil, List.foldl_cons, List.foldl_nil, first,
    one_eq, second, two_eq, third, Option.bind_eq_bind, Option.bind_some]
  rfl

theorem Reachable.elapsed (reached : Reachable timers) (id : TimerId) :
    (timers.counter id).dividerRemainder ≤ timers.now :=
  reached.remainders (P := fun r now => r ≤ now) (fun _ => Nat.zero_le _)
    (fun _ _ _ within => Nat.le_add_right_of_le within)
    (fun r _ ticks within => (Nat.mod_le (r + ticks) 8).trans (Nat.add_le_add_right within ticks)) id

theorem run_advance_system (ticks : Ticks) : (advance request .system ticks).run (timers, sink) =
    match timers.now.checkedAdvance ticks with
    | .error _ => .error .clockOverflow (timers, sink)
    | .ok now => .ok () (TimerId.all.foldl
        (fun state id => state.1.systemTick request id ticks state.2)
        ({ timers with now := now }, sink)) := by
  have system : advance request .system ticks = advanceSystem request ticks := rfl
  rw [system]
  unfold advanceSystem
  rw [run_get_bind]
  dsimp only
  cases timers.now.checkedAdvance ticks <;> rfl

/-- From any reachable state and for any number of ticks, an advance in the machine integers of the
source is the advance: it fails only where the clock would overflow, and then changes nothing. -/
theorem advance_fits_widths (reached : Reachable timers) (input : ClockInput) (ticks : Ticks)
    (sink : S) :
    (∀ id, (timers.counter id).dividerRemainder < 8 ∧
      (timers.counter id).dividerRemainder ≤ timers.now) ∧
    (∀ c : Counter, 1 ≤ c.boundary.1 ∧ c.value.toNat < 65536) ∧
    ((∃ state, (advanceChecked request input ticks).run (timers, sink) = .ok () state ∧
      (advance request input ticks).run (timers, sink) = .ok () state) ∨
    (input = .system ∧ 2 ^ 64 ≤ timers.now + ticks ∧
      (advanceChecked request input ticks).run (timers, sink) =
        .error (.error .clockOverflow) (timers, sink) ∧
      (advance request input ticks).run (timers, sink) = .error .clockOverflow (timers, sink))) := by
  refine ⟨fun id => ⟨reached.divided id, reached.elapsed id⟩,
    fun c => ⟨Counter.boundary_pos c, c.value.isLt⟩, ?_⟩
  cases input with
  | system =>
    by_cases fits : timers.now + ticks < 2 ^ 64
    · left
      have advanced := Deadline.checkedAdvance_of_lt fits
      have rounds : TimerId.all.foldlM (fun (state : RootCounters × S) id =>
          state.1.systemTickChecked request id ticks state.2)
          ({ timers with now := timers.now + ticks }, sink) = _ :=
        foldlM_systemTick fun id =>
          Nat.lt_of_le_of_lt (Nat.add_le_add_right (reached.elapsed id) ticks) fits
      refine ⟨TimerId.all.foldl (fun state id => state.1.systemTick request id ticks state.2)
        ({ timers with now := timers.now + ticks }, sink), ?_, ?_⟩
      · simp only [advanceChecked, run_get_bind, advanced, rounds]
        rfl
      · rw [run_advance_system, advanced]
    · right
      have late := Deadline.checkedAdvance_of_le (Nat.not_lt.mp fits)
      refine ⟨rfl, Nat.not_lt.mp fits, ?_, ?_⟩
      · simp only [advanceChecked, run_get_bind, late]
        rfl
      · rw [run_advance_system, late]
  | dotClock | hBlank =>
    left
    simp only [advanceChecked, advance, run_get_bind, tickCounterChecked_eq]
    split
    next drives => exact ⟨_, rfl, congrArg (EStateM.Result.ok ()) (if_pos drives)⟩
    next idle => exact ⟨_, rfl, congrArg (EStateM.Result.ok ()) (if_neg idle)⟩

/-- A divided counter, up to the last tick of the clock and one beyond it. -/
theorem advance_fits_widths_sample :
    let timers := RootCounters.new.writeRegister .timer2 .mode 0x200
    (∃ state, (advance record .system (2 ^ 64 - 1)).run (timers, []) = .ok () state ∧
      (advanceChecked record .system (2 ^ 64 - 1)).run (timers, []) = .ok () state) ∧
    (advanceChecked record .system (2 ^ 64)).run (timers, []) =
      .error (.error .clockOverflow) (timers, []) := by
  intro timers
  have reached : Reachable timers := .write _ _ _ .new
  constructor
  · obtain ⟨-, -, ⟨state, checked, run⟩ | ⟨-, late, -⟩⟩ :=
      @advance_fits_widths _ record _ reached .system (2 ^ 64 - 1) []
    · exact ⟨state, run, checked⟩
    · exact absurd late (by decide)
  · obtain ⟨-, -, ⟨state, -, run⟩ | ⟨-, -, stopped, -⟩⟩ :=
      @advance_fits_widths _ record _ reached .system (2 ^ 64) []
    · have late : timers.now.checkedAdvance (2 ^ 64) = .error .overflow :=
        Deadline.checkedAdvance_of_le (Nat.le_add_left _ _)
      rw [run_advance_system, late] at run
      cases run
    · exact stopped

end RootCounters

end Upse.Ps1
