import Upse.Hw.Ps2.Irq
import Upse.Lib.ErrorState
import Upse.Lib.Runs

/-!
# The IOP counters

Six counters with prescalers, targets, gates and their interrupt modes.  A bulk advance jumps from
boundary to boundary; an advance by one cycle has a path of its own that increments.
-/

namespace Upse

open ErrorState

/-- Counter register bases. -/
def timer0Base : ℕ := 0x1f801100
def timer1Base : ℕ := 0x1f801110
def timer2Base : ℕ := 0x1f801120
def timer3Base : ℕ := 0x1f801480
def timer4Base : ℕ := 0x1f801490
def timer5Base : ℕ := 0x1f8014a0

/-- A mode register. -/
abbrev TimerMode := BitVec 16

def modeGateEnable : TimerMode := 1 <<< 0
def modeGateModeMask : TimerMode := 3 <<< 1
def modeResetOnTarget : TimerMode := 1 <<< 3
def modeIrqOnTarget : TimerMode := 1 <<< 4
def modeIrqOnOverflow : TimerMode := 1 <<< 5
def modeIrqRepeat : TimerMode := 1 <<< 6
def modeIrqToggle : TimerMode := 1 <<< 7
def modeExternalClock : TimerMode := 1 <<< 8
def modeLowPrescale8 : TimerMode := 1 <<< 9
def modeIrqRequest : TimerMode := 1 <<< 10
def modeReachedTarget : TimerMode := 1 <<< 11
def modeReachedOverflow : TimerMode := 1 <<< 12
def modeHighPrescaleMask : TimerMode := 3 <<< 13
def modeWritable : TimerMode := 0x63ff

/-- Boundaries one advance may report for a counter. -/
def maxEventsPerAdvance : ℕ := 1000000

/-- One of the six IOP counters. -/
inductive TimerId where
  | timer0
  | timer1
  | timer2
  | timer3
  | timer4
  | timer5
  deriving DecidableEq, Repr

namespace TimerId

def all : List TimerId := [.timer0, .timer1, .timer2, .timer3, .timer4, .timer5]

/-- The largest count. -/
def widthMask : TimerId → ℕ
  | .timer0 | .timer1 | .timer2 => 0xffff
  | .timer3 | .timer4 | .timer5 => 0xffffffff

/-- The interrupt of a timer. -/
def interrupt : TimerId → InterruptSource
  | .timer0 => .timer0
  | .timer1 => .timer1
  | .timer2 => .timer2
  | .timer3 => .timer3
  | .timer4 => .timer4
  | .timer5 => .timer5

end TimerId

/-- A counter boundary observed by the machine or BIOS layer. -/
inductive CounterBoundary where
  | target
  | overflow
  deriving DecidableEq, Repr

/-- Hardware timing event exposed without a BIOS dependency. -/
inductive TimingEvent where
  | counter (timer : TimerId) (boundary : CounterBoundary)
  | vBlankStart
  | vBlankEnd
  deriving DecidableEq, Repr

/-- Counter failure. -/
inductive TimerError where
  | invalidRegister (address : ℕ)
  | eventLimit (timer : TimerId) (limit : ℕ)
  deriving DecidableEq, Repr

/-- One of the six counters. -/
structure Counter where
  count : ℕ
  mode : TimerMode
  target : ℕ
  prescaleRemainder : ℕ
  irqFired : Bool
  gateLevel : Bool
  deriving DecidableEq, Repr

/-- A reset counter. -/
def Counter.new : Counter := ⟨0, modeIrqRequest, 0, 0, false, false⟩

/-- Whether its gate lets a timer count. -/
def Counter.running (counter : Counter) : Bool :=
  if counter.mode &&& modeGateEnable = 0 then true
  else
    match ((counter.mode &&& modeGateModeMask) >>> 1).toNat with
    | 0 => !counter.gateLevel
    | 1 => counter.gateLevel
    | _ => true

/-- The divider a mode selects. -/
def prescale (timer : TimerId) (mode : TimerMode) : ℕ :=
  match timer with
  | .timer0 | .timer1 | .timer2 => if mode &&& modeLowPrescale8 ≠ 0 then 8 else 1
  | .timer3 | .timer4 | .timer5 =>
    match ((mode &&& modeHighPrescaleMask) >>> 13).toNat with
    | 0 => 1
    | 1 => 8
    | 2 => 16
    | _ => 256

/-- The counter, the register and the halfword an address selects. -/
def decodeTimerRegister (address : ℕ) : Except TimerError (TimerId × Fin 3 × ℕ) :=
  let decoded := [(TimerId.timer0, timer0Base), (.timer1, timer1Base), (.timer2, timer2Base),
    (.timer3, timer3Base), (.timer4, timer4Base), (.timer5, timer5Base)].findSome?
      fun (timer, base) =>
        if base ≤ address then
          match address - base with
          | 0 => some (timer, 0, 0)
          | 2 => some (timer, 0, 1)
          | 4 => some (timer, 1, 0)
          | 6 => some (timer, 1, 1)
          | 8 => some (timer, 2, 0)
          | 10 => some (timer, 2, 1)
          | _ => none
        else none
  match decoded with
  | some register => .ok register
  | none => .error (.invalidRegister address)

/-- The counters with what an advance tells the interrupt sink and the observer. -/
structure IopTimers where
  counters : TimerId → Counter
  requests : List InterruptSource
  events : List TimingEvent

namespace IopTimers

/-- Reset counter state. -/
def new : IopTimers := ⟨fun _ => .new, [], []⟩

/-- Changes one counter. -/
def modifyCounter (timer : TimerId) (f : Counter → Counter) (timers : IopTimers) : IopTimers :=
  { timers with counters := fun t => if t = timer then f (timers.counters t) else timers.counters t }

/-- Changes the gate signal for counters using a blanking gate. -/
def setGate (timer : TimerId) (asserted : Bool) (timers : IopTimers) : IopTimers :=
  timers.modifyCounter timer fun counter =>
    let wasAsserted := counter.gateLevel
    let counter := { counter with gateLevel := asserted }
    if counter.mode &&& modeGateEnable = 0 ∨ wasAsserted = asserted then counter
    else
      match ((counter.mode &&& modeGateModeMask) >>> 1).toNat, asserted with
      | 1, true | 2, true | 3, false => { counter with count := 0 }
      | _, _ => counter

/-- Clears the reached flags of a counter. -/
def clearReached (counter : Counter) : Counter :=
  { counter with mode := counter.mode &&& ~~~(modeReachedTarget ||| modeReachedOverflow) }

/-- Reads a 32-bit counter register. -/
def readU32 (address : ℕ) : EStateM TimerError IopTimers ℕ := do
  let (timer, register, half) ← ErrorState.ofExcept (decodeTimerRegister address)
  throwIf (half ≠ 0) (.invalidRegister address)
  let timers ← get
  match register with
  | 0 => return (timers.counters timer).count
  | 1 =>
    set (timers.modifyCounter timer clearReached)
    return (timers.counters timer).mode.toNat
  | 2 => return (timers.counters timer).target

/-- Writes a 32-bit counter register. -/
def writeU32 (address value : ℕ) : EStateM TimerError IopTimers Unit := do
  let (timer, register, half) ← ErrorState.ofExcept (decodeTimerRegister address)
  throwIf (half ≠ 0) (.invalidRegister address)
  modify fun timers => timers.modifyCounter timer fun counter =>
    match register with
    | 0 => { counter with count := value &&& timer.widthMask }
    | 1 =>
      { counter with
        mode := BitVec.ofNat 16 value &&& modeWritable ||| modeIrqRequest
        count := 0
        prescaleRemainder := 0
        irqFired := false }
    | 2 => { counter with target := value &&& timer.widthMask }

/-- Reads a counter-register halfword. -/
def readU16 (address : ℕ) : EStateM TimerError IopTimers ℕ := do
  let (timer, register, half) ← ErrorState.ofExcept (decodeTimerRegister address)
  let timers ← get
  let counter := timers.counters timer
  let value := match register with
    | 0 => counter.count
    | 1 => counter.mode.toNat
    | 2 => counter.target
  set (if register = 1 ∧ half = 0 then timers.modifyCounter timer clearReached else timers)
  return if half = 0 then value % 2 ^ 16 else value / 2 ^ 16 % 2 ^ 16

/-- A 32-bit register after a write to one of its halves. -/
def writeHalf (timer : TimerId) (half value old : ℕ) : ℕ :=
  (if half = 0 then old &&& 0xffff0000 ||| value
    else if timer.widthMask = 0xffffffff then old &&& 0x0000ffff ||| value <<< 16
    else old) &&& timer.widthMask

/-- Writes a counter-register halfword. -/
def writeU16 (address : ℕ) (value : BitVec 16) : EStateM TimerError IopTimers Unit := do
  let (timer, register, half) ← ErrorState.ofExcept (decodeTimerRegister address)
  match register with
  | 1 => if half ≠ 0 then return else writeU32 address value.toNat
  | 0 =>
    modify fun timers => timers.modifyCounter timer fun counter =>
      { counter with count := writeHalf timer half value.toNat counter.count }
  | 2 =>
    modify fun timers => timers.modifyCounter timer fun counter =>
      { counter with target := writeHalf timer half value.toNat counter.target }

/-! ### Advancing -/

/-- The status flag and the enabling mode bit of a boundary. -/
def boundaryBits : CounterBoundary → TimerMode × TimerMode
  | .target => (modeReachedTarget, modeIrqOnTarget)
  | .overflow => (modeReachedOverflow, modeIrqOnOverflow)

/-- Reports a boundary: flags it, tells the observer and requests the interrupt its mode asks for. -/
def boundary (timer : TimerId) (boundary : CounterBoundary) (timers : IopTimers) : IopTimers :=
  let (status, enabled) := boundaryBits boundary
  let counter := timers.counters timer
  let counter := { counter with mode := counter.mode ||| status }
  let timers :=
    { timers.modifyCounter timer fun _ => counter with
      events := timers.events ++ [.counter timer boundary] }
  if counter.mode &&& enabled = 0 ∨ counter.irqFired ∧ counter.mode &&& modeIrqRepeat = 0 then timers
  else if counter.mode &&& modeIrqToggle ≠ 0 then
    let counter := { counter with mode := counter.mode ^^^ modeIrqRequest }
    if counter.mode &&& modeIrqRequest ≠ 0 then timers.modifyCounter timer fun _ => counter
    else
      { timers.modifyCounter timer fun _ => { counter with irqFired := true } with
        requests := timers.requests ++ [timer.interrupt] }
  else
    let counter := { counter with mode := counter.mode &&& ~~~modeIrqRequest }
    { timers.modifyCounter timer fun _ => { counter with irqFired := true } with
      requests := timers.requests ++ [timer.interrupt] }

/-- Reports the boundaries a step hits, the target first, and resets at a target that asks so. -/
def hit (timer : TimerId) (hitTarget hitOverflow : Bool) (timers : IopTimers) : IopTimers :=
  let timers :=
    if hitTarget then
      let timers := boundary timer .target timers
      if (timers.counters timer).mode &&& modeResetOnTarget ≠ 0 then
        timers.modifyCounter timer fun counter => { counter with count := 0 }
      else timers
    else timers
  if hitOverflow then boundary timer .overflow timers else timers

/-- The loop of `advance_counter`.  Each round takes at least one tick, so as many rounds as ticks
are enough. -/
def advanceCounterLoop (timer : TimerId) : ℕ → ℕ → ℕ → EStateM TimerError IopTimers Unit
  | 0, _, _ => return
  | rounds + 1, ticks, events => do
    if ticks = 0 then return
    let timers ← get
    let counter := timers.counters timer
    let toOverflow := timer.widthMask - counter.count + 1
    let toTarget := if counter.count < counter.target then counter.target - counter.count
      else toOverflow + counter.target
    let step := min ticks (min toOverflow toTarget)
    let timers := timers.modifyCounter timer fun counter =>
      { counter with count := (counter.count + step) &&& timer.widthMask }
    set timers
    let hitTarget := decide (step = toTarget)
    let hitOverflow := decide (step = toOverflow)
    if !hitTarget && !hitOverflow then return
    let events := events + hitTarget.toNat + hitOverflow.toNat
    throwIf (maxEventsPerAdvance < events) (.eventLimit timer maxEventsPerAdvance)
    set (hit timer hitTarget hitOverflow timers)
    advanceCounterLoop timer rounds (ticks - step) events

/-- Advances a timer by ticks of its clock. -/
def advanceCounter (timer : TimerId) (ticks : ℕ) : EStateM TimerError IopTimers Unit :=
  advanceCounterLoop timer ticks ticks 0

/-- Whether the system clock drives the counter. -/
def clocked (counter : Counter) : Bool :=
  counter.mode &&& modeExternalClock = 0 && counter.running

/-- One counter through one CPU cycle. -/
def singleCycle (timer : TimerId) (timers : IopTimers) : IopTimers :=
  let counter := timers.counters timer
  if !clocked counter then timers
  else if counter.prescaleRemainder + 1 < prescale timer counter.mode then
    timers.modifyCounter timer fun counter =>
      { counter with prescaleRemainder := counter.prescaleRemainder + 1 }
  else
    let hitOverflow := decide (counter.count = timer.widthMask)
    let count := (counter.count + 1) % 2 ^ 32 &&& timer.widthMask
    let hitTarget := decide (count = counter.target)
    hit timer hitTarget hitOverflow
      (timers.modifyCounter timer fun counter =>
        { counter with prescaleRemainder := 0, count := count })

/-- All counters through one CPU cycle. -/
def advanceSingleCpuCycle (timers : IopTimers) : IopTimers :=
  TimerId.all.foldl (fun timers timer => singleCycle timer timers) timers

/-- One counter through many CPU cycles. -/
def advanceCycles (timer : TimerId) (cycles : ℕ) : EStateM TimerError IopTimers Unit := do
  let timers ← get
  let counter := timers.counters timer
  if !clocked counter then return
  let divisor := prescale timer counter.mode
  let total := (counter.prescaleRemainder + cycles) % 2 ^ 64
  set (timers.modifyCounter timer fun counter =>
    { counter with prescaleRemainder := total % divisor })
  advanceCounter timer (total / divisor)

/-- Advances all system-clocked counters by CPU cycles. -/
def advanceCpu (cycles : ℕ) : EStateM TimerError IopTimers Unit :=
  if cycles = 1 then modify advanceSingleCpuCycle
  else TimerId.all.forM fun timer => advanceCycles timer cycles

/-- Advances an explicitly clocked counter input. -/
def advanceExternal (timer : TimerId) (ticks : ℕ) : EStateM TimerError IopTimers Unit := do
  let timers ← get
  let counter := timers.counters timer
  if counter.mode &&& modeExternalClock ≠ 0 ∧ counter.running then advanceCounter timer ticks

end IopTimers

/-- One step on the counters: a register access, a gate change or an advance. -/
inductive TimerOp where
  | readU32 (address : ℕ)
  | readU16 (address : ℕ)
  | writeU32 (address : ℕ) (value : Word)
  | writeU16 (address : ℕ) (value : BitVec 16)
  | setGate (timer : TimerId) (asserted : Bool)
  | advanceCpu (cycles : ℕ)
  | advanceExternal (timer : TimerId) (ticks : ℕ)
  deriving DecidableEq, Repr

/-- Runs one step. -/
def TimerOp.perform : TimerOp → EStateM TimerError IopTimers Unit
  | .readU32 address => (fun _ => ()) <$> IopTimers.readU32 address
  | .readU16 address => (fun _ => ()) <$> IopTimers.readU16 address
  | .writeU32 address value => IopTimers.writeU32 address value.toNat
  | .writeU16 address value => IopTimers.writeU16 address value
  | .setGate timer asserted => modify (IopTimers.setGate timer asserted)
  | .advanceCpu cycles => IopTimers.advanceCpu cycles
  | .advanceExternal timer ticks => IopTimers.advanceExternal timer ticks

/-- One step leaves this state, whether it returned or failed. -/
def IopTimers.Next (timers : IopTimers) (op : TimerOp) (timers' : IopTimers) : Prop :=
  leaves (op.perform.run timers) = timers'

end Upse
