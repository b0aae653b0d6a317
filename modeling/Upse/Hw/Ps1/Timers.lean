import Mathlib.Data.Fintype.Basic
import Upse.Hw.Ps1.Irq
import Upse.Lib.ErrorState

/-!
# The PS1 root counters and refresh clock

Three counters that jump from boundary to boundary, and the drift-free producer of vertical blanks.
Both report their interrupts to a sink, one request at a time.
-/

namespace Upse.Ps1

open ErrorState

/-- Nominal CPU clock. -/
def cpuHz : ℕ := 33868800

/-- First root-counter register address. -/
def timerBase : ℕ := 0x1f801100

def counterStride : ℕ := 0x10

/-- A counter mode register. -/
abbrev CounterMode := BitVec 16

def modeSyncEnable : CounterMode := 1 <<< 0
def modeResetTarget : CounterMode := 1 <<< 3
def modeIrqTarget : CounterMode := 1 <<< 4
def modeIrqOverflow : CounterMode := 1 <<< 5
def modeIrqRepeat : CounterMode := 1 <<< 6
def modeIrqToggle : CounterMode := 1 <<< 7
def modeClockMask : CounterMode := 3 <<< 8
def modeIrqRequest : CounterMode := 1 <<< 10
def modeReachedTarget : CounterMode := 1 <<< 11
def modeReachedOverflow : CounterMode := 1 <<< 12
def modeWritable : CounterMode := 0x03ff

/-- Root-counter identifier. -/
inductive TimerId where
  | timer0
  | timer1
  | timer2
  deriving DecidableEq, Repr

namespace TimerId

def all : List TimerId := [.timer0, .timer1, .timer2]

/-- The interrupt of a counter. -/
def interrupt : TimerId → InterruptSource
  | .timer0 => .timer0
  | .timer1 => .timer1
  | .timer2 => .timer2

end TimerId

/-- Counter register within one timer block. -/
inductive TimerRegister where
  | counter
  | mode
  | target
  deriving DecidableEq, Repr

/-- Input clock domain supplied to the root counters. -/
inductive ClockInput where
  | system
  | dotClock
  | hBlank
  deriving DecidableEq, Repr

/-- PAL or NTSC refresh selection. -/
inductive VideoStandard where
  | ntsc
  | pal
  deriving DecidableEq, Repr

namespace VideoStandard

/-- The integer refresh frequency. -/
def refreshHz : VideoStandard → ℕ
  | .ntsc => 60
  | .pal => 50

/-- CPU clocks per vertical blank. -/
def cyclesPerVblank (standard : VideoStandard) : ℕ := cpuHz / standard.refreshHz

/-- Scanlines in one video frame. -/
def scanlinesPerFrame : VideoStandard → ℕ
  | .ntsc => 263
  | .pal => 314

/-- The horizontal-blank edge rate. -/
def hblankHz (standard : VideoStandard) : ℕ := standard.refreshHz * standard.scanlinesPerFrame

end VideoStandard

/-- Invalid register or clock arithmetic. -/
inductive TimerError where
  | invalidRegister (address : ℕ)
  | clockOverflow
  deriving DecidableEq, Repr

/-- One of the three root counters. -/
structure Counter where
  value : BitVec 16
  target : BitVec 16
  mode : CounterMode
  dividerRemainder : ℕ
  irqFired : Bool
  irqRequestHigh : Bool
  pulsePending : Bool
  blank : Bool
  syncStarted : Bool
  deriving DecidableEq, Repr

namespace Counter

/-- A reset counter. -/
def new : Counter := ⟨0, 0, 0, 0, false, true, false, false, false⟩

/-- Reads the mode and clears its reached flags. -/
def readMode (counter : Counter) : CounterMode × Counter :=
  let value := if counter.irqRequestHigh then counter.mode ||| modeIrqRequest else counter.mode
  (value, { counter with mode := counter.mode &&& ~~~(modeReachedTarget ||| modeReachedOverflow) })

/-- Writes the mode, which clears the count. -/
def writeMode (counter : Counter) (value : CounterMode) : Counter :=
  { counter with
    value := 0
    mode := value &&& modeWritable
    dividerRemainder := 0
    irqFired := false
    irqRequestHigh := true
    pulsePending := false
    syncStarted := false }

/-- The clock a mode selects. -/
def clockBits (counter : Counter) : CounterMode := (counter.mode &&& modeClockMask) >>> 8

/-- The synchronisation a mode selects. -/
def syncMode (counter : Counter) : ℕ := ((counter.mode >>> 1) &&& 3).toNat

/-- Whether synchronisation holds a counter. -/
def paused (counter : Counter) (id : TimerId) : Bool :=
  if counter.mode &&& modeSyncEnable = 0 then false
  else if id = .timer2 then counter.syncMode == 0 || counter.syncMode == 3
  else
    match counter.syncMode with
    | 0 => counter.blank
    | 1 => false
    | 2 => !counter.blank
    | _ => !counter.syncStarted

/-- Sets the blanking a counter sees. -/
def setBlank (counter : Counter) (id : TimerId) (asserted : Bool) : Counter :=
  let rising := asserted && !counter.blank
  let counter := { counter with blank := asserted }
  if id = .timer2 ∨ counter.mode &&& modeSyncEnable = 0 ∨ !rising then counter
  else
    match counter.syncMode with
    | 1 | 2 => { counter with value := 0 }
    | 3 => { counter with syncStarted := true }
    | _ => counter

/-- Ends a pulse of the request line. -/
def settlePulse (counter : Counter) : Counter :=
  if counter.pulsePending then { counter with irqRequestHigh := true, pulsePending := false }
  else counter

variable {S : Type} (request : InterruptSource → S → S)

/-- Fires the counter's interrupt unless it is one-shot and already fired. -/
def fireIrq (counter : Counter) (id : TimerId) (sink : S) : Counter × S :=
  if counter.mode &&& modeIrqRepeat = 0 ∧ counter.irqFired then (counter, sink)
  else if counter.mode &&& modeIrqToggle ≠ 0 then
    let counter := { counter with irqFired := true, irqRequestHigh := !counter.irqRequestHigh }
    (counter, if counter.irqRequestHigh then sink else request id.interrupt sink)
  else
    ({ counter with irqFired := true, irqRequestHigh := false, pulsePending := true },
      request id.interrupt sink)

/-- The ticks to the next boundary, and whether it is the target and the overflow. -/
def boundary (counter : Counter) : ℕ × Bool × Bool :=
  let value := counter.value.toNat
  let target := counter.target.toNat
  let overflowDistance := 0x10000 - value
  let targetDistance := if value < target then target - value else 0x10000 - value + target
  let distance := min overflowDistance targetDistance
  (distance, distance == targetDistance, distance == overflowDistance)

/-- Moves to the boundary: the reached flags, the reset and the interrupt. -/
def reachBoundary (counter : Counter) (id : TimerId) (sink : S) : Counter × S :=
  let (distance, hitTarget, hitOverflow) := counter.boundary
  let counter := { counter with value := BitVec.ofNat 16 (counter.value.toNat + distance) }
  let counter := if hitTarget then
      { counter with
        mode := counter.mode ||| modeReachedTarget
        value := if counter.mode &&& modeResetTarget ≠ 0 then 0 else counter.value }
    else counter
  let counter := if hitOverflow then { counter with mode := counter.mode ||| modeReachedOverflow }
    else counter
  if (hitTarget ∧ counter.mode &&& modeIrqTarget ≠ 0) ∨
      (hitOverflow ∧ counter.mode &&& modeIrqOverflow ≠ 0) then
    counter.fireIrq request id sink
  else (counter, sink)

/-- The loop of `tick`; every round consumes at least one tick, so `ticks` rounds are enough. -/
def tickLoop (id : TimerId) : ℕ → Counter → ℕ → S → Counter × S
  | 0, counter, _, sink => (counter, sink)
  | rounds + 1, counter, ticks, sink =>
    if ticks = 0 then (counter, sink)
    else
      let distance := counter.boundary.1
      if ticks < distance then
        ({ counter with value := BitVec.ofNat 16 (counter.value.toNat + ticks) }, sink)
      else
        let (counter, sink) := counter.reachBoundary request id sink
        let ticks := ticks - distance
        tickLoop id rounds (if ticks ≠ 0 then counter.settlePulse else counter) ticks sink

/-- Advances a counter by ticks of its clock. -/
def tick (counter : Counter) (id : TimerId) (ticks : ℕ) (sink : S) : Counter × S :=
  if ticks = 0 then (counter, sink)
  else
    let counter := counter.settlePulse
    if counter.paused id then (counter, sink) else tickLoop request id ticks counter ticks sink

end Counter

/-- Three independent root counters. -/
structure RootCounters where
  counter : TimerId → Counter
  now : Deadline

namespace RootCounters

/-- Reset root counters. -/
def new : RootCounters := ⟨fun _ => .new, 0⟩

/-- Replaces a counter. -/
def setCounter (timers : RootCounters) (id : TimerId) (counter : Counter) : RootCounters :=
  { timers with counter := fun other => if other = id then counter else timers.counter other }

@[simp] theorem now_setCounter (timers : RootCounters) (id : TimerId) (counter : Counter) :
    (timers.setCounter id counter).now = timers.now := rfl

/-- Reads a typed counter register.  Reading the mode clears its reached flags. -/
def readRegister (timers : RootCounters) (id : TimerId) (register : TimerRegister) :
    BitVec 16 × RootCounters :=
  match register with
  | .counter => ((timers.counter id).value, timers)
  | .mode =>
    let (value, counter) := (timers.counter id).readMode
    (value, timers.setCounter id counter)
  | .target => ((timers.counter id).target, timers)

/-- Writes a typed counter register. -/
def writeRegister (timers : RootCounters) (id : TimerId) (register : TimerRegister)
    (value : BitVec 16) : RootCounters :=
  let counter := timers.counter id
  timers.setCounter id <| match register with
    | .counter => { counter with value := value }
    | .mode => counter.writeMode value
    | .target => { counter with target := value }

/-- The counter and the register a physical address selects. -/
def decodeRegister (address : ℕ) : Except TimerError (TimerId × TimerRegister) :=
  if address < timerBase then .error (.invalidRegister address)
  else
    let relative := address - timerBase
    let id := match relative / counterStride with
      | 0 => some TimerId.timer0
      | 1 => some .timer1
      | 2 => some .timer2
      | _ => none
    let register := match relative % counterStride with
      | 0 => some TimerRegister.counter
      | 4 => some .mode
      | 8 => some .target
      | _ => none
    match id, register with
    | some id, some register => .ok (id, register)
    | _, _ => .error (.invalidRegister address)

/-- Reads a physical counter register. -/
def read (address : ℕ) : EStateM TimerError RootCounters Word := do
  let (id, register) ← ErrorState.ofExcept (decodeRegister address)
  let timers ← get
  set (timers.readRegister id register).2
  return (timers.readRegister id register).1.setWidth 32

/-- Writes a physical counter register. -/
def write (address : ℕ) (value : Word) : EStateM TimerError RootCounters Unit := do
  let (id, register) ← ErrorState.ofExcept (decodeRegister address)
  modify (·.writeRegister id register (value.setWidth 16))

/-- Changes horizontal-blank state for timer 0 synchronization. -/
def setHblank (timers : RootCounters) (asserted : Bool) : RootCounters :=
  timers.setCounter .timer0 ((timers.counter .timer0).setBlank .timer0 asserted)

/-- Changes vertical-blank state for timer 1 synchronization. -/
def setVblank (timers : RootCounters) (asserted : Bool) : RootCounters :=
  timers.setCounter .timer1 ((timers.counter .timer1).setBlank .timer1 asserted)

section Advance

variable {S : Type} (request : InterruptSource → S → S)

/-- Advances one of the counters. -/
def tickCounter (timers : RootCounters) (id : TimerId) (ticks : ℕ) (sink : S) : RootCounters × S :=
  let (counter, sink) := (timers.counter id).tick request id ticks sink
  (timers.setCounter id counter, sink)

/-- System clocks for one counter: not where another clock drives it, divided by eight on request. -/
def systemTick (timers : RootCounters) (id : TimerId) (ticks : ℕ) (sink : S) : RootCounters × S :=
  let counter := timers.counter id
  if (id = .timer0 ∨ id = .timer1) ∧ counter.clockBits &&& 1 ≠ 0 then (timers, sink)
  else if id = .timer2 ∧ counter.clockBits &&& 2 ≠ 0 then
    let total := counter.dividerRemainder + ticks
    let timers := timers.setCounter id { counter with dividerRemainder := total % 8 }
    timers.tickCounter request id (total / 8) sink
  else timers.tickCounter request id ticks sink

/-- Advances to a later tick of the system clock. -/
def advanceSystem (ticks : Ticks) : EStateM TimerError (RootCounters × S) Unit := do
  let (timers, sink) ← get
  match timers.now.checkedAdvance ticks with
  | .error _ => throw .clockOverflow
  | .ok now =>
    set (TimerId.all.foldl (fun (timers, sink) id => timers.systemTick request id ticks sink)
      ({ timers with now := now }, sink))

/-- Advances one typed clock domain. -/
def advance (input : ClockInput) (ticks : Ticks) : EStateM TimerError (RootCounters × S) Unit :=
  match input with
  | .system => advanceSystem request ticks
  | .dotClock => modify fun (timers, sink) =>
    if (timers.counter .timer0).clockBits &&& 1 ≠ 0 then timers.tickCounter request .timer0 ticks sink
    else (timers, sink)
  | .hBlank => modify fun (timers, sink) =>
    if (timers.counter .timer1).clockBits &&& 1 ≠ 0 then timers.tickCounter request .timer1 ticks sink
    else (timers, sink)

end Advance

/-! ### The clock of the counters -/

section Now

variable {S : Type} {request : InterruptSource → S → S}

@[simp] theorem now_tickCounter (timers : RootCounters) (id : TimerId) (ticks : ℕ) (sink : S) :
    (timers.tickCounter request id ticks sink).1.now = timers.now := rfl

@[simp] theorem now_systemTick (timers : RootCounters) (id : TimerId) (ticks : ℕ) (sink : S) :
    (timers.systemTick request id ticks sink).1.now = timers.now := by
  simp only [systemTick]
  split
  · rfl
  · split <;> simp

theorem now_advance_system {timers timers' : RootCounters} {sink sink' : S} {ticks : Ticks}
    (h : (advance request .system ticks).run (timers, sink) = .ok () (timers', sink')) :
    timers'.now = timers.now + ticks := by
  simp only [advance, advanceSystem, run_bind_ok, run_get_ok] at h
  obtain ⟨_, _, ⟨rfl, rfl⟩, h⟩ := h
  cases advanced : timers.now.checkedAdvance ticks with
  | error e => simp [advanced] at h
  | ok now =>
    simp only [advanced, run_set_ok] at h
    obtain ⟨-, rfl⟩ := Deadline.checkedAdvance_eq_ok.mp advanced
    have reached := congrArg (fun s => s.1.now) h
    simpa [TimerId.all] using reached.symm

theorem now_advance_hBlank {timers timers' : RootCounters} {sink sink' : S} {ticks : Ticks}
    (h : (advance request .hBlank ticks).run (timers, sink) = .ok () (timers', sink')) :
    timers'.now = timers.now := by
  simp only [advance, run_modify_ok] at h
  have reached := congrArg (fun s => s.1.now) h
  split at reached <;> simpa using reached.symm

end Now

end RootCounters

/-- Drift-free periodic producer of vertical blanks. -/
structure VBlankClock where
  standard : VideoStandard
  now : Deadline
  next : Deadline
  deriving DecidableEq, Repr

namespace VBlankClock

/-- Refresh timing whose first event occurs after one full frame. -/
def new (standard : VideoStandard) : VBlankClock := ⟨standard, 0, standard.cyclesPerVblank⟩

section Advance

variable {S : Type} (request : InterruptSource → S → S)

/-- Requests each vertical blank up to `stop`; the deadline grows by a whole frame a round, so
`stop - next + 1` rounds are enough. -/
def advanceLoop (stop : Deadline) : ℕ → ℕ → EStateM TimerError (VBlankClock × S) ℕ
  | 0, events => pure events
  | rounds + 1, events => do
    let (clock, _) ← get
    if clock.next ≤ stop then
      modify fun (clock, sink) => (clock, request .vBlank sink)
      let events ← okOr (checkedAdd 64 events 1) .clockOverflow
      match clock.next.checkedAdvance clock.standard.cyclesPerVblank with
      | .error _ => throw .clockOverflow
      | .ok next =>
        modify fun (clock, sink) => ({ clock with next := next }, sink)
        advanceLoop stop rounds events
    else return events

/-- Advances system time, requests each crossed vertical blank, and returns its count. -/
def advance (ticks : Ticks) : EStateM TimerError (VBlankClock × S) ℕ := do
  let (clock, _) ← get
  match clock.now.checkedAdvance ticks with
  | .error _ => throw .clockOverflow
  | .ok stop =>
    let events ← advanceLoop request stop (stop - clock.next + 1) 0
    modify fun (clock, sink) => ({ clock with now := stop }, sink)
    return events

end Advance

/-! ### The refresh clock -/

section Now

variable {S : Type} {request : InterruptSource → S → S}

theorem run_advanceLoop_ok {stop : Deadline} {rounds events events' : ℕ}
    {clock clock' : VBlankClock} {sink sink' : S}
    (h : (advanceLoop request stop rounds events).run (clock, sink) = .ok events' (clock', sink')) :
    clock'.now = clock.now ∧ clock'.standard = clock.standard := by
  induction rounds generalizing clock sink events with
  | zero => cases h; exact ⟨rfl, rfl⟩
  | succ rounds ih =>
    simp only [advanceLoop, run_bind_ok, run_get_ok] at h
    obtain ⟨_, _, ⟨rfl, rfl⟩, h⟩ := h
    split at h
    next =>
      simp only [run_bind_ok, run_modify_ok, run_okOr_ok] at h
      obtain ⟨_, _, rfl, _, _, ⟨-, rfl⟩, h⟩ := h
      split at h
      · cases h
      · simp only [run_bind_ok, run_modify_ok] at h
        obtain ⟨_, _, rfl, h⟩ := h
        exact ⟨(ih h).1, (ih h).2⟩
    next =>
      cases h
      exact ⟨rfl, rfl⟩

theorem now_advance {clock clock' : VBlankClock} {sink sink' : S} {ticks : Ticks} {events : ℕ}
    (h : (advance request ticks).run (clock, sink) = .ok events (clock', sink')) :
    clock'.now = clock.now + ticks ∧ clock'.standard = clock.standard := by
  simp only [advance, run_bind_ok, run_get_ok] at h
  obtain ⟨_, _, ⟨rfl, rfl⟩, h⟩ := h
  cases advanced : clock.now.checkedAdvance ticks with
  | error e => simp [advanced] at h
  | ok stop =>
    simp only [advanced, run_bind_ok, run_modify_ok, run_pure_ok] at h
    obtain ⟨_, ⟨_, _⟩, loop, _, _, rfl, -, h⟩ := h
    obtain ⟨-, rfl⟩ := Deadline.checkedAdvance_eq_ok.mp advanced
    cases h
    exact ⟨rfl, (run_advanceLoop_ok loop).2⟩

end Now

end VBlankClock

end Upse.Ps1
