import Mathlib.Order.Fin.Basic
import Upse.Bios.Ps1.Heap

/-!
# The events of the PS1 firmware

Programs open events of a class and a specification.  Whoever delivers one, a program or a device,
walks the table: a callback-mode event queues its callback, a ready-mode event stays delivered until a
test consumes it.
-/

namespace Upse.Ps1.Events

open ErrorState

/-- The number of places for events. -/
def eventSlots : ℕ := 32

/-- The modes of an event: what its delivery does. -/
def callbackMode : Word := 0x1000
/-- The mode of events that are made ready. -/
def readyMode : Word := 0x2000

def v1 : ℕ := 3

/-- Whether an event is ready. -/
inductive EventState where
  | idle
  | delivered
  deriving DecidableEq, Repr

/-- An event of the table. -/
structure Event where
  eventClass : Word
  spec : Word
  mode : Word
  callback : Word
  enabled : Bool
  state : EventState
  deriving DecidableEq, Repr

/-- A deferred call of a guest function. -/
structure CallbackRequest where
  address : Word
  deriving DecidableEq, Repr

/-- The part of the firmware's state the event services use. -/
structure EventHle where
  limits : HleLimits
  events : Vector (Option Event) eventSlots
  pendingCallbacks : List CallbackRequest
  deriving DecidableEq, Repr

/-- Clean state. -/
def EventHle.new (limits : HleLimits) : EventHle := ⟨limits, .replicate eventSlots none, []⟩

/-- A place of the table. -/
abbrev Slot := Fin eventSlots

namespace EventHle

/-- Puts an event in a place. -/
def setEvent (bios : EventHle) (slot : Slot) (event : Option Event) : EventHle :=
  { bios with events := bios.events.set slot event }

/-- The place of an open event, by its handle. -/
def eventSlot (bios : EventHle) (handle : Word) : Option Slot :=
  if handle &&& 0xffff0000 ≠ 0xf1000000 then none
  else
    let index := (handle &&& 0xffff).toNat
    if h : index < eventSlots then
      if bios.events[index].isSome then some ⟨index, h⟩ else none
    else none

/-- The handle of a place. -/
def eventHandle (slot : Slot) : Word := 0xf1000000 ||| BitVec.ofNat 32 slot.val

/-- The first free place of the table. -/
def freeSlot (bios : EventHle) : Option Slot :=
  (List.finRange eventSlots).find? fun slot => bios.events[slot].isNone

/-- What a test of an event finds, and the table with its delivery consumed. -/
def consume (bios : EventHle) (handle : Word) : Bool × EventHle :=
  match bios.eventSlot handle with
  | none => (false, bios)
  | some slot =>
    match bios.events[slot] with
    | none => (false, bios)
    | some event =>
      if event.enabled ∧ event.state = .delivered then
        (true, bios.setEvent slot (some { event with state := .idle }))
      else (false, bios)

/-- Removes the oldest deferred event callback. -/
def takeCallback (bios : EventHle) : Option CallbackRequest × EventHle :=
  match bios.pendingCallbacks with
  | [] => (none, bios)
  | callback :: rest => (some callback, { bios with pendingCallbacks := rest })

end EventHle

/-! ### Delivery -/

/-- Delivers to one place of the table, counting the events that match. -/
def signalSlot (eventClass spec : Word) (delivered : ℕ) (slot : Slot) :
    EStateM BiosError EventHle ℕ := do
  let bios ← get
  match bios.events[slot] with
  | none => return delivered
  | some event =>
    if event.enabled = false ∨ event.eventClass ≠ eventClass ∨ event.spec ≠ spec then
      return delivered
    else if event.mode = callbackMode ∧ event.callback ≠ 0 then
      if bios.limits.pendingCallbacks ≤ bios.pendingCallbacks.length then
        throw .callbackCapacity
      else
        set { bios with pendingCallbacks := bios.pendingCallbacks ++ [CallbackRequest.mk event.callback] }
        return min u32Max (delivered + 1)
    else if event.mode = readyMode then
      set (bios.setEvent slot (some { event with state := .delivered }))
      return min u32Max (delivered + 1)
    else return min u32Max (delivered + 1)

/-- Delivers one kernel event raised by an emulated hardware source. -/
def signalEvent (eventClass spec : Word) : EStateM BiosError EventHle ℕ :=
  (List.finRange eventSlots).foldlM (signalSlot eventClass spec) 0

/-- Takes back the delivery of one place, counting the events that match. -/
def undeliverSlot (eventClass spec : Word) (state : ℕ × EventHle) (slot : Slot) : ℕ × EventHle :=
  match state.2.events[slot] with
  | none => state
  | some event =>
    if event.eventClass = eventClass ∧ event.spec = spec ∧ event.mode = readyMode then
      (min u32Max (state.1 + 1), state.2.setEvent slot (some { event with state := .idle }))
    else state

/-! ### Services -/

/-- The firmware and the registers during a call. -/
structure EventCallState where
  bios : EventHle
  context : CpuContext

/-- Programs of the event services. -/
abbrev EventM := EStateM BiosError EventCallState

namespace EventM

/-- An argument register. -/
def word (index : ℕ) : EventM Word := do
  return ((← get).context.register (a0 + index)).getD 0

/-- Sets a register. -/
def setWord (register : ℕ) (value : Word) : EventM Unit :=
  modify fun s => { s with context := s.context.setRegister register value }

/-- Runs an operation on the events. -/
def onBios {α : Type} (f : EventHle → α × EventHle) : EventM α :=
  modifyGet fun s => ((f s.bios).1, { s with bios := (f s.bios).2 })

end EventM

open EventM

/-- `OpenEvent`. -/
def openEvent : EventM ℕ := do
  let event : Event := ⟨← word 0, ← word 1, ← word 2, ← word 3, false, .idle⟩
  match (← get).bios.freeSlot with
  | none =>
    setWord v0 (-1)
    return 8
  | some slot =>
    onBios fun bios => ((), bios.setEvent slot (some event))
    setWord v0 (EventHle.eventHandle slot)
    return 18

/-- `CloseEvent`. -/
def closeEvent : EventM ℕ := do
  let handle ← word 0
  onBios fun bios => ((), match bios.eventSlot handle with
    | none => bios
    | some slot => bios.setEvent slot none)
  setWord v0 1
  return 10

/-- `EnableEvent` and `DisableEvent`. -/
def enableEvent (enabled : Bool) : EventM ℕ := do
  let handle ← word 0
  onBios fun bios => ((), match bios.eventSlot handle with
    | none => bios
    | some slot =>
      bios.setEvent slot (bios.events[slot].map fun event => { event with enabled := enabled }))
  setWord v0 1
  return 8

/-- The readiness result goes to both result registers. -/
def testEvent : EventM ℕ := do
  let delivered ← onBios (·.consume (← word 0))
  setWord v0 (if delivered then 1 else 0)
  setWord v1 (if delivered then 1 else 0)
  return 8

/-- Whether the event was ready goes to the machine, which waits otherwise. -/
def waitEvent : EventM (ℕ × Bool) := do
  let delivered ← onBios (·.consume (← word 0))
  modify fun s => if delivered then { s with context := s.context.setRegister v0 1 } else s
  return (8, delivered)

/-- Delivery by a device. -/
def signal (eventClass spec : Word) : EventM ℕ :=
  zoom EventCallState.bios (fun bios s => { s with bios := bios }) id (signalEvent eventClass spec)

/-- `DeliverEvent`. -/
def deliverEvent : EventM ℕ := do
  let delivered ← signal (← word 0) (← word 1)
  setWord v0 (BitVec.ofNat 32 delivered)
  return min u32Max (12 + min u32Max (delivered * 4))

/-- `UnDeliverEvent`. -/
def undeliverEvent : EventM ℕ := do
  let eventClass ← word 0
  let spec ← word 1
  let changed ← onBios fun bios =>
    (List.finRange eventSlots).foldl (undeliverSlot eventClass spec) (0, bios)
  setWord v0 (BitVec.ofNat 32 changed)
  return 10

/-!
## Deliveries of the PS1 firmware

A delivery walks the table and changes it as it goes, so one that the callback queue refuses leaves
what it has done by then.  Between a test that finds an event ready and the next one there is always
a delivery.
-/

/-! ### What a delivery means for one event -/

namespace Event

variable (eventClass spec : Word) (event : Event)

/-- The event is enabled and of the class and the specification. -/
def Matches : Prop := event.enabled = true ∧ event.eventClass = eventClass ∧ event.spec = spec

instance : Decidable (event.Matches eventClass spec) :=
  inferInstanceAs (Decidable (_ ∧ _ ∧ _))

/-- A delivery queues the callback of the event. -/
def Calls : Prop := event.Matches eventClass spec ∧ event.mode = callbackMode ∧ event.callback ≠ 0

instance : Decidable (event.Calls eventClass spec) :=
  inferInstanceAs (Decidable (_ ∧ _ ∧ _))

/-- A delivery makes the event ready. -/
def Latches : Prop := event.Matches eventClass spec ∧ event.mode = readyMode

instance : Decidable (event.Latches eventClass spec) :=
  inferInstanceAs (Decidable (_ ∧ _))

theorem Latches.not_calls {eventClass spec : Word} {event : Event}
    (latches : event.Latches eventClass spec) : ¬ event.Calls eventClass spec := by
  intro calls
  have same := latches.2.symm.trans calls.2.1
  revert same
  decide

/-- The event once it is delivered to. -/
def reached : Event :=
  if event.Latches eventClass spec then { event with state := .delivered } else event

/-- A delivery would change the event. -/
def Awaits : Prop := event.Latches eventClass spec ∧ event.state = .idle

theorem reached_eq {eventClass spec : Word} {event : Event} :
    event.reached eventClass spec = event ↔ ¬ event.Awaits eventClass spec := by
  unfold reached Awaits
  by_cases latches : event.Latches eventClass spec
  · rw [if_pos latches]
    obtain ⟨eventClass', spec', mode, callback, enabled, state⟩ := event
    cases state <;> simp [latches]
  · rw [if_neg latches]
    simp [latches]

end Event

namespace EventHle

variable (bios : EventHle) (eventClass spec : Word)

/-- The callback that a delivery to a place queues. -/
def called (slot : Slot) : Option CallbackRequest :=
  bios.events[slot].bind fun event =>
    if event.Calls eventClass spec then some ⟨event.callback⟩ else none

/-- Whether the event of a place matches. -/
def matching (slot : Slot) : Bool :=
  bios.events[slot].any fun event => event.Matches eventClass spec

/-- The firmware after a delivery has gone through some places. -/
def reaching (visited : List Slot) : EventHle :=
  { bios with
    events := .ofFn fun slot =>
      if slot ∈ visited then bios.events[slot].map (·.reached eventClass spec)
      else bios.events[slot]
    pendingCallbacks := bios.pendingCallbacks ++ visited.filterMap (bios.called eventClass spec) }

variable {bios eventClass spec}

theorem reaching_nil : bios.reaching eventClass spec [] = bios := by
  unfold reaching
  simp

theorem reaching_limits (visited : List Slot) :
    (bios.reaching eventClass spec visited).limits = bios.limits := by
  unfold reaching
  rfl

theorem getElem_reaching (visited : List Slot) (slot : Slot) :
    (bios.reaching eventClass spec visited).events[slot] =
      if slot ∈ visited then bios.events[slot].map (·.reached eventClass spec)
      else bios.events[slot] := by
  unfold reaching
  simp

theorem reaching_event {visited : List Slot} {slot : Slot} (fresh : slot ∉ visited) :
    (bios.reaching eventClass spec visited).events[slot] = bios.events[slot] := by
  rw [getElem_reaching, if_neg fresh]

theorem reaching_concat (visited : List Slot) (slot : Slot) :
    bios.reaching eventClass spec (visited ++ [slot]) =
      { (bios.reaching eventClass spec visited).setEvent slot
          (bios.events[slot].map (·.reached eventClass spec)) with
        pendingCallbacks := (bios.reaching eventClass spec visited).pendingCallbacks ++
          (bios.called eventClass spec slot).toList } := by
  unfold reaching setEvent
  simp only [EventHle.mk.injEq, true_and]
  constructor
  · apply Vector.ext
    intro i hi
    rw [Vector.getElem_set]
    by_cases here : slot.val = i
    · subst here
      simp
    · have other : (⟨i, hi⟩ : Slot) ≠ slot := fun same => here (congrArg Fin.val same).symm
      simp [here, other]
  · rw [List.filterMap_append, ← List.append_assoc]
    congr 1

end EventHle

/-! ### One place -/

section Slots

variable {eventClass spec : Word} {bios : EventHle}

theorem setEvent_self (slot : Slot) : bios.setEvent slot bios.events[slot] = bios := by
  unfold EventHle.setEvent
  simp

/-- Delivering to a place does to it what a delivery means for its event, unless it has to queue a
callback and cannot. -/
theorem run_signalSlot (eventClass spec : Word) (bios : EventHle) (delivered : ℕ) (slot : Slot) :
    (signalSlot eventClass spec delivered slot).run bios =
      if (bios.called eventClass spec slot).isSome ∧
          bios.limits.pendingCallbacks ≤ bios.pendingCallbacks.length then
        .error .callbackCapacity bios
      else
        .ok (if bios.matching eventClass spec slot then min u32Max (delivered + 1) else delivered)
          { bios.setEvent slot (bios.events[slot].map (·.reached eventClass spec)) with
            pendingCallbacks := bios.pendingCallbacks ++
              (bios.called eventClass spec slot).toList } := by
  have same : bios.setEvent slot bios.events[slot] = bios := setEvent_self slot
  unfold signalSlot EventHle.called EventHle.matching
  rw [run_get_bind]
  cases found : bios.events[slot] with
  | none =>
    rw [found] at same
    simp [same]
  | some event =>
    rw [found] at same
    simp only [Option.bind_some, Option.any_some, Option.map_some, decide_eq_true_eq]
    by_cases matched : event.Matches eventClass spec
    · have skip : ¬ (event.enabled = false ∨ event.eventClass ≠ eventClass ∨ event.spec ≠ spec) := by
        obtain ⟨enabled, sameClass, sameSpec⟩ := matched
        simp [enabled, sameClass, sameSpec]
      rw [if_neg skip]
      by_cases calls : event.mode = callbackMode ∧ event.callback ≠ 0
      · have latches : ¬ event.Latches eventClass spec := fun latches =>
          latches.not_calls ⟨matched, calls⟩
        rw [if_pos calls, if_pos (show event.Calls eventClass spec from ⟨matched, calls⟩)]
        unfold Event.reached
        rw [if_neg latches, same, if_pos matched]
        by_cases full : bios.limits.pendingCallbacks ≤ bios.pendingCallbacks.length
        · rw [if_pos full, if_pos ⟨rfl, full⟩]
          rfl
        · rw [if_neg full, if_neg fun h => full h.2]
          rfl
      · rw [if_neg calls, if_neg fun h : event.Calls eventClass spec => calls h.2, if_pos matched]
        unfold Event.reached
        by_cases ready : event.mode = readyMode
        · rw [if_pos ready, if_pos (show event.Latches eventClass spec from ⟨matched, ready⟩)]
          simp
          rfl
        · rw [if_neg ready, if_neg fun h : event.Latches eventClass spec => ready h.2, same]
          simp
    · have skip : event.enabled = false ∨ event.eventClass ≠ eventClass ∨ event.spec ≠ spec := by
        by_contra none
        rw [not_or, not_or, not_not, not_not] at none
        exact matched ⟨by simpa using none.1, none.2⟩
      rw [if_pos skip, if_neg fun h : event.Calls eventClass spec => matched h.1, if_neg matched]
      unfold Event.reached
      rw [if_neg fun h : event.Latches eventClass spec => matched h.1, same]
      simp

/-- The queue has room for the callbacks of these places, or there are none. -/
def Room (bios : EventHle) (eventClass spec : Word) (places : List Slot) : Prop :=
  places.filterMap (bios.called eventClass spec) = [] ∨
    bios.pendingCallbacks.length + (places.filterMap (bios.called eventClass spec)).length ≤
      bios.limits.pendingCallbacks

variable {slot : Slot} {visited : List Slot}

theorem called_reaching (fresh : slot ∉ visited) :
    (bios.reaching eventClass spec visited).called eventClass spec slot =
      bios.called eventClass spec slot := by
  unfold EventHle.called
  rw [EventHle.reaching_event fresh]

theorem matching_reaching (fresh : slot ∉ visited) :
    (bios.reaching eventClass spec visited).matching eventClass spec slot =
      bios.matching eventClass spec slot := by
  unfold EventHle.matching
  rw [EventHle.reaching_event fresh]

/-- What a walk over the rest of the table comes to: it reaches every place, or it stops where the
queue has no room left. -/
inductive Walks (bios : EventHle) (eventClass spec : Word) (visited places : List Slot)
    (delivered : ℕ) : EStateM.Result BiosError EventHle ℕ → Prop
  | reached (room : Room bios eventClass spec (visited ++ places)) :
      Walks bios eventClass spec visited places delivered
        (.ok (places.foldl (fun n slot =>
            if bios.matching eventClass spec slot then min u32Max (n + 1) else n) delivered)
          (bios.reaching eventClass spec (visited ++ places)))
  | refused {before after : List Slot} {slot : Slot} (split : places = before ++ slot :: after)
      (calls : (bios.called eventClass spec slot).isSome)
      (room : Room bios eventClass spec (visited ++ before))
      (full : bios.limits.pendingCallbacks ≤
        (bios.reaching eventClass spec (visited ++ before)).pendingCallbacks.length) :
      Walks bios eventClass spec visited places delivered
        (.error .callbackCapacity (bios.reaching eventClass spec (visited ++ before)))

theorem Walks.cons {visited places : List Slot} {delivered : ℕ}
    {r : EStateM.Result BiosError EventHle ℕ}
    (rest : Walks bios eventClass spec (visited ++ [slot]) places
      (if bios.matching eventClass spec slot then min u32Max (delivered + 1) else delivered) r) :
    Walks bios eventClass spec visited (slot :: places) delivered r := by
  cases rest with
  | reached room =>
    rw [List.append_assoc, List.singleton_append] at room ⊢
    exact .reached room
  | @refused before after other split calls room full =>
    rw [List.append_assoc, List.singleton_append] at room full ⊢
    have longer : slot :: places = (slot :: before) ++ other :: after := by rw [split]; rfl
    exact .refused longer calls room full

theorem Room.concat (room : Room bios eventClass spec visited)
    (taken : ¬ ((bios.called eventClass spec slot).isSome ∧ bios.limits.pendingCallbacks ≤
      (bios.reaching eventClass spec visited).pendingCallbacks.length)) :
    Room bios eventClass spec (visited ++ [slot]) := by
  unfold Room
  rw [List.filterMap_append]
  cases calls : bios.called eventClass spec slot with
  | none =>
    rw [List.filterMap_cons_none calls, List.filterMap_nil, List.append_nil]
    exact room
  | some callback =>
    right
    have fits : (bios.reaching eventClass spec visited).pendingCallbacks.length <
        bios.limits.pendingCallbacks := by
      rw [calls] at taken
      exact Nat.lt_of_not_le fun full => taken ⟨rfl, full⟩
    simp only [EventHle.reaching, List.length_append] at fits
    simp only [List.filterMap_cons, calls, List.filterMap_nil, List.length_append,
      List.length_singleton]
    omega

theorem walks_signalSlots (delivered : ℕ) {visited places : List Slot}
    (distinct : (visited ++ places).Nodup) (room : Room bios eventClass spec visited) :
    Walks bios eventClass spec visited places delivered
      ((places.foldlM (signalSlot eventClass spec) delivered).run
        (bios.reaching eventClass spec visited)) := by
  induction places generalizing delivered visited with
  | nil =>
    have reached : Walks bios eventClass spec visited [] delivered
        (.ok delivered (bios.reaching eventClass spec (visited ++ []))) :=
      .reached (by rwa [List.append_nil])
    rwa [List.append_nil] at reached
  | cons slot places ih =>
    have fresh : slot ∉ visited := by
      intro member
      exact (List.nodup_append.mp distinct).2.2 slot member slot List.mem_cons_self rfl
    have step := run_signalSlot eventClass spec (bios.reaching eventClass spec visited) delivered slot
    rw [called_reaching fresh, matching_reaching fresh, EventHle.reaching_event fresh,
      EventHle.reaching_limits] at step
    rw [List.foldlM_cons]
    by_cases taken : (bios.called eventClass spec slot).isSome ∧
        bios.limits.pendingCallbacks ≤
          (bios.reaching eventClass spec visited).pendingCallbacks.length
    · rw [if_pos taken] at step
      rw [run_bind, step]
      have refused : Walks bios eventClass spec visited (slot :: places) delivered
          (.error .callbackCapacity (bios.reaching eventClass spec (visited ++ []))) :=
        .refused (List.nil_append _).symm taken.1 (by rwa [List.append_nil])
          (by rw [List.append_nil]; exact taken.2)
      rwa [List.append_nil] at refused
    · rw [if_neg taken] at step
      rw [run_bind_of_ok (step.trans (congrArg _ (EventHle.reaching_concat visited slot).symm))]
      have distinct' : ((visited ++ [slot]) ++ places).Nodup := by
        rwa [List.append_assoc, List.singleton_append]
      exact (ih _ distinct' (room.concat taken)).cons

theorem saturating_count {α : Type} (p : α → Bool) (items : List α) (n : ℕ)
    (small : n + items.length ≤ u32Max) :
    items.foldl (fun n item => if p item then min u32Max (n + 1) else n) n =
      n + items.countP p := by
  induction items generalizing n with
  | nil => rfl
  | cons item items ih =>
    rw [List.length_cons] at small
    rw [List.foldl_cons, List.countP_cons]
    by_cases h : p item = true
    · rw [if_pos h, if_pos h, Nat.min_eq_right (by omega), ih _ (by omega)]
      omega
    · rw [if_neg h, if_neg h, ih _ (by omega)]
      omega

/-! ### A whole delivery -/

/-- Every place of the table in order. -/
def places : List Slot := List.finRange eventSlots

/-- A delivery did all it means, or failed and changed nothing: it counted the events that match,
queued their callbacks in table order and made the ready-mode ones ready. -/
def AllOrNothing (bios : EventHle) (eventClass spec : Word) :
    EStateM.Result BiosError EventHle ℕ → Prop
  | .ok n t => n = places.countP (bios.matching eventClass spec) ∧
      t.pendingCallbacks = bios.pendingCallbacks ++
        places.filterMap (bios.called eventClass spec) ∧
      ∀ slot : Slot, t.events[slot] = bios.events[slot].map (·.reached eventClass spec)
  | .error _ t => t = bios

/-- The queue has room for every callback, or it is full before the first one and no event in an
earlier place is waiting to be made ready. -/
def Undivided (bios : EventHle) (eventClass spec : Word) : Prop :=
  Room bios eventClass spec places ∨
    (bios.limits.pendingCallbacks ≤ bios.pendingCallbacks.length ∧
      ∃ first : Slot, (bios.called eventClass spec first).isSome ∧
        ∀ slot < first, bios.called eventClass spec slot = none ∧
          ∀ event ∈ bios.events[slot], ¬ event.Awaits eventClass spec)

theorem walks_signalEvent (bios : EventHle) (eventClass spec : Word) :
    Walks bios eventClass spec [] places 0 ((signalEvent eventClass spec).run bios) := by
  have walks : Walks bios eventClass spec [] places 0
      ((places.foldlM (signalSlot eventClass spec) 0).run (bios.reaching eventClass spec [])) :=
    walks_signalSlots 0 (List.nodup_finRange eventSlots) (.inl rfl)
  rwa [EventHle.reaching_nil] at walks

theorem mem_before_iff {before after : List Slot} {slot other : Slot}
    (split : places = before ++ slot :: after) : other ∈ before ↔ other < slot := by
  have sorted := List.pairwise_lt_finRange eventSlots
  have all := List.mem_finRange other
  rw [show List.finRange eventSlots = before ++ slot :: after from split] at sorted all
  obtain ⟨-, behind, apart⟩ := List.pairwise_append.mp sorted
  constructor
  · intro member
    exact apart other member slot List.mem_cons_self
  · intro less
    rcases List.mem_append.mp all with member | later
    · exact member
    · rcases List.mem_cons.mp later with rfl | later
      · exact absurd less (Nat.lt_irrefl _)
      · exact absurd ((List.pairwise_cons.mp behind).1 other later) (Nat.lt_asymm less)

/-- A walk changes nothing exactly where it queues no callback and finds no event to make ready. -/
theorem reaching_eq_self :
    bios.reaching eventClass spec visited = bios ↔
      ∀ slot ∈ visited, bios.called eventClass spec slot = none ∧
        ∀ event ∈ bios.events[slot], ¬ event.Awaits eventClass spec := by
  constructor
  · intro same slot member
    have queue : bios.pendingCallbacks ++ visited.filterMap (bios.called eventClass spec) =
        bios.pendingCallbacks := congrArg EventHle.pendingCallbacks same
    refine ⟨List.filterMap_eq_nil_iff.mp (List.append_right_eq_self.mp queue) slot member, ?_⟩
    intro event found
    have here : (bios.reaching eventClass spec visited).events[slot] = bios.events[slot] := by
      rw [same]
    rw [EventHle.getElem_reaching, if_pos member, show bios.events[slot] = some event from found]
      at here
    exact Event.reached_eq.mp (Option.some.inj here)
  · intro none
    have queue : visited.filterMap (bios.called eventClass spec) = [] :=
      List.filterMap_eq_nil_iff.mpr fun slot member => (none slot member).1
    have events : (bios.reaching eventClass spec visited).events = bios.events := by
      apply Vector.ext
      intro i hi
      have here : (bios.reaching eventClass spec visited).events[(⟨i, hi⟩ : Slot)] = _ :=
        EventHle.getElem_reaching visited ⟨i, hi⟩
      rw [Fin.getElem_fin] at here
      rw [here]
      by_cases member : (⟨i, hi⟩ : Slot) ∈ visited
      · rw [if_pos member]
        cases found : bios.events[(⟨i, hi⟩ : Slot)] with
        | none => rfl
        | some event => rw [Option.map_some, Event.reached_eq.mpr ((none _ member).2 event found)]
      · rw [if_neg member]
        rfl
    unfold EventHle.reaching at events ⊢
    rw [queue, List.append_nil]
    exact congrArg (fun events => { bios with events := events }) events

theorem countP_places (p : Slot → Bool) :
    places.foldl (fun n slot => if p slot then min u32Max (n + 1) else n) 0 = places.countP p := by
  rw [saturating_count p places 0 (by unfold places; rw [List.length_finRange]; decide)]
  exact Nat.zero_add _

/-- Delivery is all or nothing exactly where it is undivided. -/
theorem allOrNothing_iff :
    AllOrNothing bios eventClass spec ((signalEvent eventClass spec).run bios) ↔
      Undivided bios eventClass spec := by
  have walks := walks_signalEvent bios eventClass spec
  generalize (signalEvent eventClass spec).run bios = result at walks ⊢
  cases walks with
  | reached room =>
    refine ⟨fun _ => .inl room, fun _ => ⟨countP_places _, rfl, fun slot => ?_⟩⟩
    rw [EventHle.getElem_reaching, List.nil_append, if_pos (show slot ∈ places from List.mem_finRange slot)]
  | @refused before after slot split calls room full =>
    have queue : (bios.reaching eventClass spec ([] ++ before)).pendingCallbacks.length =
        bios.pendingCallbacks.length + (before.filterMap (bios.called eventClass spec)).length :=
      List.length_append
    rw [queue] at full
    rw [List.nil_append] at room ⊢
    show bios.reaching eventClass spec before = bios ↔ _
    rw [reaching_eq_self]
    constructor
    · intro same
      have none : before.filterMap (bios.called eventClass spec) = [] :=
        List.filterMap_eq_nil_iff.mpr fun place member => (same place member).1
      rw [none, List.length_nil, Nat.add_zero] at full
      exact .inr ⟨full, slot, calls, fun place less => same place ((mem_before_iff split).mpr less)⟩
    · rintro (all | ⟨filled, first, firstCalls, earlier⟩) place member
      · -- The refused callback would have to fit as well.
        exfalso
        unfold Room at all
        rw [split, List.filterMap_append] at all
        obtain ⟨callback, called⟩ := Option.isSome_iff_exists.mp calls
        rw [List.filterMap_cons_some called] at all
        rcases all with nothing | fits
        · simp at nothing
        · rw [List.length_append, List.length_cons] at fits
          omega
      · have unqueued : before.filterMap (bios.called eventClass spec) = [] := by
          rcases room with nothing | fits
          · exact nothing
          · apply List.eq_nil_of_length_eq_zero
            omega
        apply earlier
        have less := (mem_before_iff split).mp member
        -- No callback is queued in front of the refused one, so it is the first.
        by_contra notEarlier
        have inFront : first < slot := Nat.lt_of_le_of_lt (Nat.le_of_not_lt notEarlier) less
        have uncalled := List.filterMap_eq_nil_iff.mp unqueued first
          ((mem_before_iff split).mpr inFront)
        rw [uncalled] at firstCalls
        cases firstCalls

end Slots

/-! ### Calls -/

/-- A call that reads or changes the events: a service, a delivery by a device or the machine taking a
callback. -/
inductive EventCall where
  | openEvent
  | closeEvent
  | enableEvent (enabled : Bool)
  | testEvent
  | waitEvent
  | deliverEvent
  | undeliverEvent
  | signal (eventClass spec : Word)
  | takeCallback
  deriving DecidableEq, Repr

/-- Runs one call: whether it is a test that found its event ready. -/
def EventCall.perform : EventCall → EventM Bool
  | .openEvent => do
    let _ ← Events.openEvent
    return false
  | .closeEvent => do
    let _ ← Events.closeEvent
    return false
  | .enableEvent enabled => do
    let _ ← Events.enableEvent enabled
    return false
  | .testEvent => do
    let _ ← Events.testEvent
    return (← get).context.register v0 = some 1
  | .waitEvent => do
    let (_, ready) ← Events.waitEvent
    return ready
  | .deliverEvent => do
    let _ ← Events.deliverEvent
    return false
  | .undeliverEvent => do
    let _ ← Events.undeliverEvent
    return false
  | .signal eventClass spec => do
    let _ ← Events.signal eventClass spec
    return false
  | .takeCallback => do
    let _ ← EventM.onBios EventHle.takeCallback
    return false

/-- The class and the specification a call delivers. -/
def EventCall.delivers (call : EventCall) (context : CpuContext) : Option (Word × Word) :=
  match call with
  | .deliverEvent => some ((context.register a0).getD 0, (context.register (a0 + 1)).getD 0)
  | .signal eventClass spec => some (eventClass, spec)
  | _ => none

/-- A call with whatever registers the guest has by then, and what it came to. -/
structure EventStep where
  call : EventCall
  context : CpuContext
  before : EventHle
  after : EventHle
  ready : Bool

/-- The step is a run of its call, which succeeds or fails. -/
def EventStep.Happens (s : EventHle) (step : EventStep) (t : EventHle) : Prop :=
  step.before = s ∧ step.after = t ∧
    t = (leaves ((step.call.perform).run ⟨s, step.context⟩)).bios ∧
    step.ready = ((returned ((step.call.perform).run ⟨s, step.context⟩)).getD false)

namespace EventHle

/-- The event of a place is ready. -/
def ready (bios : EventHle) (slot : Slot) : Bool :=
  bios.events[slot].any fun event => event.state = .delivered

end EventHle

namespace EventStep

/-- The step is a successful test of a place. -/
def tested (slot : Slot) (step : EventStep) : Bool :=
  step.ready && step.before.eventSlot ((step.context.register a0).getD 0) == some slot

/-- The step is a delivery that makes the event of a place ready. -/
def latched (slot : Slot) (step : EventStep) : Bool :=
  (step.call.delivers step.context).any fun (eventClass, spec) =>
    (step.before.events[slot].any fun event => event.Latches eventClass spec) &&
      !step.before.ready slot && step.after.ready slot

end EventStep

section Tests

variable {slot : Slot} {bios : EventHle}

theorem ready_setEvent (other : Slot) (event : Option Event) :
    (bios.setEvent other event).ready slot =
      if other = slot then event.any fun event => event.state = .delivered else bios.ready slot := by
  unfold EventHle.ready EventHle.setEvent
  by_cases same : other = slot
  · subst same
    simp
  · have apart : other.val ≠ slot.val := fun equal => same (Fin.ext equal)
    rw [if_neg same]
    simp [apart]

theorem consume_cases (bios : EventHle) (handle : Word) :
    (bios.consume handle = (false, bios)) ∨
      ∃ tested event, bios.eventSlot handle = some tested ∧ bios.events[tested] = some event ∧
        event.state = .delivered ∧
        bios.consume handle = (true, bios.setEvent tested (some { event with state := .idle })) := by
  unfold EventHle.consume
  cases place : bios.eventSlot handle with
  | none => exact .inl rfl
  | some tested =>
    simp only
    cases found : bios.events[tested] with
    | none => exact .inl rfl
    | some event =>
      simp only
      by_cases delivered : event.enabled ∧ event.state = .delivered
      · rw [if_pos delivered]
        exact .inr ⟨tested, event, rfl, found, delivered.2, rfl⟩
      · rw [if_neg delivered]
        exact .inl rfl

theorem ready_signalEvent (eventClass spec : Word)
    (ready : (leaves ((signalEvent eventClass spec).run bios)).ready slot = true) :
    bios.ready slot = true ∨
      bios.events[slot].any (fun event => event.Latches eventClass spec) = true := by
  obtain ⟨visited, left⟩ : ∃ visited, leaves ((signalEvent eventClass spec).run bios) =
      bios.reaching eventClass spec visited := by
    have walks := walks_signalEvent bios eventClass spec
    generalize (signalEvent eventClass spec).run bios = result at walks ⊢
    cases walks with
    | reached room => exact ⟨_, rfl⟩
    | refused split calls room full => exact ⟨_, rfl⟩
  rw [left] at ready
  unfold EventHle.ready at ready ⊢
  rw [EventHle.getElem_reaching] at ready
  by_cases member : slot ∈ visited
  · rw [if_pos member] at ready
    cases found : bios.events[slot] with
    | none => rw [found] at ready; cases ready
    | some event =>
      rw [found, Option.map_some, Option.any_some] at ready
      unfold Event.reached at ready
      by_cases latches : event.Latches eventClass spec
      · exact .inr (decide_eq_true latches)
      · rw [if_neg latches] at ready
        exact .inl ready
  · rw [if_neg member] at ready
    exact .inl ready

theorem ready_undeliver (eventClass spec : Word) (visited : List Slot) (n : ℕ)
    (ready : (visited.foldl (undeliverSlot eventClass spec) (n, bios)).2.ready slot = true) :
    bios.ready slot = true := by
  induction visited generalizing n bios with
  | nil => exact ready
  | cons place visited ih =>
    rw [List.foldl_cons] at ready
    have kept := ih _ ready
    cases found : bios.events[place] with
    | none => rw [found] at kept; exact kept
    | some event =>
      rw [found] at kept
      simp only at kept
      split at kept
      next =>
        rw [ready_setEvent] at kept
        split at kept
        next => cases kept
        next => exact kept
      next => exact kept

/-! ### One step -/

variable {s t : EventHle} {step : EventStep}

theorem balance_of_kept (untested : step.ready = false)
    (kept : t.ready slot = true → s.ready slot = true) :
    (t.ready slot).toNat + (step.tested slot).toNat ≤
      (s.ready slot).toNat + (step.latched slot).toNat := by
  unfold EventStep.tested
  rw [untested, Bool.false_and]
  cases ready : t.ready slot with
  | false => exact Nat.zero_le _
  | true => rw [kept ready]; simp

theorem balance_of_test (before : step.before = s)
    (outcome : (t, step.ready) = ((s.consume ((step.context.register a0).getD 0)).2,
      (s.consume ((step.context.register a0).getD 0)).1)) :
    (t.ready slot).toNat + (step.tested slot).toNat ≤
      (s.ready slot).toNat + (step.latched slot).toNat := by
  obtain ⟨after, found⟩ := Prod.mk.inj outcome
  rcases consume_cases s ((step.context.register a0).getD 0) with
    none | ⟨tested, event, place, held, delivered, one⟩
  · rw [none] at after found
    refine balance_of_kept found fun ready => ?_
    rw [after] at ready
    exact ready
  · rw [one] at after found
    have readyBefore : s.ready tested = true := by
      unfold EventHle.ready
      rw [held, Option.any_some, delivered]
      rfl
    unfold EventStep.tested
    rw [after, ready_setEvent, found, before, place]
    by_cases same : tested = slot
    · subst same
      simp [readyBefore]
    · have other : (some tested == some slot) = false := by simpa using same
      rw [if_neg same, other]
      simp

theorem balance_of_delivery {eventClass spec : Word} (before : step.before = s)
    (after : step.after = t) (untested : step.ready = false)
    (delivers : step.call.delivers step.context = some (eventClass, spec))
    (left : t = leaves ((signalEvent eventClass spec).run s)) :
    (t.ready slot).toNat + (step.tested slot).toNat ≤
      (s.ready slot).toNat + (step.latched slot).toNat := by
  by_cases ready : t.ready slot = true ∧ s.ready slot = false
  · have latches : s.events[slot].any (fun event => event.Latches eventClass spec) = true := by
      rcases ready_signalEvent eventClass spec (left ▸ ready.1) with known | latches
      · rw [ready.2] at known
        cases known
      · exact latches
    have latched : step.latched slot = true := by
      unfold EventStep.latched
      rw [delivers, Option.any_some, before, after]
      simp only [latches, ready.1, ready.2]
      rfl
    unfold EventStep.tested
    rw [untested, latched, ready.1, ready.2]
    rfl
  · refine balance_of_kept untested fun now => ?_
    by_contra unready
    exact ready ⟨now, by simpa using unready⟩

theorem run_testEvent (bios : EventHle) (context : CpuContext) :
    (leaves (EventCall.testEvent.perform.run ⟨bios, context⟩)).bios =
        (bios.consume ((context.register a0).getD 0)).2 ∧
      returned (EventCall.testEvent.perform.run ⟨bios, context⟩) =
        some (bios.consume ((context.register a0).getD 0)).1 := by
  refine ⟨rfl, ?_⟩
  have ran : returned (EventCall.testEvent.perform.run ⟨bios, context⟩) = some (decide
      (((context.setRegister v0 (if (bios.consume ((context.register a0).getD 0)).1 then 1 else 0)).setRegister
        v1 (if (bios.consume ((context.register a0).getD 0)).1 then 1 else 0)).register v0 =
          some 1)) := rfl
  rw [ran]
  generalize (bios.consume ((context.register a0).getD 0)).1 = delivered
  cases delivered <;> simp [CpuContext.setRegister, CpuContext.register, v0, v1]

theorem run_waitEvent (bios : EventHle) (context : CpuContext) :
    (leaves (EventCall.waitEvent.perform.run ⟨bios, context⟩)).bios =
        (bios.consume ((context.register a0).getD 0)).2 ∧
      returned (EventCall.waitEvent.perform.run ⟨bios, context⟩) =
        some (bios.consume ((context.register a0).getD 0)).1 := by
  have ran : EventCall.waitEvent.perform.run ⟨bios, context⟩ =
      .ok (bios.consume ((context.register a0).getD 0)).1
        (if (bios.consume ((context.register a0).getD 0)).1 then
          ⟨(bios.consume ((context.register a0).getD 0)).2, context.setRegister v0 1⟩
        else ⟨(bios.consume ((context.register a0).getD 0)).2, context⟩) := rfl
  rw [ran]
  refine ⟨?_, rfl⟩
  rw [leaves_ok]
  split <;> rfl

theorem run_openEvent (bios : EventHle) (context : CpuContext) :
    returned (EventCall.openEvent.perform.run ⟨bios, context⟩) = some false ∧
      ((leaves (EventCall.openEvent.perform.run ⟨bios, context⟩)).bios = bios ∨
        ∃ slot event, event.state = .idle ∧
          (leaves (EventCall.openEvent.perform.run ⟨bios, context⟩)).bios =
            bios.setEvent slot (some event)) := by
  simp only [EventCall.perform, Events.openEvent, EventM.word, EventM.setWord, EventM.onBios,
    run_bind, run_get, run_pure]
  cases bios.freeSlot with
  | none => exact ⟨rfl, .inl rfl⟩
  | some slot => exact ⟨rfl, .inr ⟨slot, _, rfl, rfl⟩⟩

theorem run_closeEvent (bios : EventHle) (context : CpuContext) :
    (leaves (EventCall.closeEvent.perform.run ⟨bios, context⟩)).bios = bios ∨
      ∃ closed, (leaves (EventCall.closeEvent.perform.run ⟨bios, context⟩)).bios =
        bios.setEvent closed none := by
  simp only [EventCall.perform, Events.closeEvent, EventM.word, EventM.setWord, EventM.onBios,
    run_bind, run_get, run_pure, EStateM.run_modifyGet, run_modify,
    leaves_ok, Nat.add_zero]
  cases bios.eventSlot ((context.register a0).getD 0) with
  | none => exact .inl rfl
  | some closed => exact .inr ⟨closed, rfl⟩

theorem run_enableEvent (enabled : Bool) (bios : EventHle) (context : CpuContext) :
    (leaves ((EventCall.enableEvent enabled).perform.run ⟨bios, context⟩)).bios = bios ∨
      ∃ changed, (leaves ((EventCall.enableEvent enabled).perform.run ⟨bios, context⟩)).bios =
        bios.setEvent changed (bios.events[changed].map fun event : Event =>
          { event with enabled := enabled }) := by
  simp only [EventCall.perform, Events.enableEvent, EventM.word, EventM.setWord, EventM.onBios,
    run_bind, run_get, run_pure, EStateM.run_modifyGet, run_modify,
    leaves_ok, Nat.add_zero]
  cases bios.eventSlot ((context.register a0).getD 0) with
  | none => exact .inl rfl
  | some changed => exact .inr ⟨changed, rfl⟩

theorem run_undeliverEvent (bios : EventHle) (context : CpuContext) :
    returned (EventCall.undeliverEvent.perform.run ⟨bios, context⟩) = some false ∧
      (leaves (EventCall.undeliverEvent.perform.run ⟨bios, context⟩)).bios =
        (places.foldl (undeliverSlot ((context.register a0).getD 0)
          ((context.register (a0 + 1)).getD 0)) (0, bios)).2 := by
  simp only [EventCall.perform, Events.undeliverEvent, EventM.word, EventM.setWord, EventM.onBios,
    run_bind, run_get, run_pure, EStateM.run_modifyGet,
    run_modify, returned, leaves_ok, Nat.add_zero, true_and]
  rfl

theorem run_signal (bios : EventHle) (context : CpuContext) (eventClass spec : Word) :
    (signal eventClass spec).run ⟨bios, context⟩ =
      match (signalEvent eventClass spec).run bios with
      | .ok n bios => .ok n ⟨bios, context⟩
      | .error e bios => .error e ⟨bios, context⟩ := by
  unfold signal
  rw [run_zoom]
  cases (signalEvent eventClass spec).run bios <;> rfl

theorem run_delivery (bios : EventHle) {call : EventCall} {context : CpuContext}
    {eventClass spec : Word} (delivers : call.delivers context = some (eventClass, spec)) :
    (leaves (call.perform.run ⟨bios, context⟩)).bios =
        leaves ((signalEvent eventClass spec).run bios) ∧
      (returned (call.perform.run ⟨bios, context⟩)).getD false = false := by
  cases call with
  | deliverEvent =>
    cases delivers
    simp only [EventCall.perform, Events.deliverEvent, EventM.word, EventM.setWord,
      run_bind, run_get, run_pure, run_signal, Nat.add_zero]
    cases (signalEvent ((context.register a0).getD 0)
      ((context.register (a0 + 1)).getD 0)).run bios <;> exact ⟨rfl, rfl⟩
  | signal eventClass' spec' =>
    cases delivers
    simp only [EventCall.perform, run_bind, run_pure, run_signal]
    cases (signalEvent eventClass spec).run bios <;> exact ⟨rfl, rfl⟩
  | _ => cases delivers

theorem EventStep.Happens.balance (happens : step.Happens s t) (slot : Slot) :
    (t.ready slot).toNat + (step.tested slot).toNat ≤
      (s.ready slot).toNat + (step.latched slot).toNat := by
  obtain ⟨call, context, before, after, ready⟩ := step
  obtain ⟨rfl, rfl, left, found⟩ := happens
  simp only at left found ⊢
  cases call with
  | openEvent =>
    have ran := run_openEvent before context
    rw [ran.1] at found
    refine balance_of_kept found fun ready => ?_
    rcases ran.2 with same | ⟨opened, event, idle, same⟩
    · rwa [left, same] at ready
    · rw [left, same, ready_setEvent] at ready
      split at ready
      next =>
        rw [Option.any_some, idle] at ready
        cases ready
      next => exact ready
  | closeEvent =>
    refine balance_of_kept found fun ready => ?_
    rcases run_closeEvent before context with same | ⟨closed, same⟩
    · rwa [left, same] at ready
    · rw [left, same, ready_setEvent] at ready
      split at ready
      next => cases ready
      next => exact ready
  | enableEvent enabled =>
    refine balance_of_kept found fun ready => ?_
    rcases run_enableEvent enabled before context with same | ⟨changed, same⟩
    · rwa [left, same] at ready
    · rw [left, same, ready_setEvent] at ready
      split at ready
      next place =>
        subst place
        rw [Option.any_map] at ready
        exact ready
      next => exact ready
  | testEvent =>
    have ran := run_testEvent before context
    refine balance_of_test rfl (Prod.ext (left.trans ran.1) ?_)
    rw [ran.2] at found
    exact found
  | waitEvent =>
    have ran := run_waitEvent before context
    refine balance_of_test rfl (Prod.ext (left.trans ran.1) ?_)
    rw [ran.2] at found
    exact found
  | deliverEvent =>
    have delivers : EventCall.deliverEvent.delivers context =
        some ((context.register a0).getD 0, (context.register (a0 + 1)).getD 0) := rfl
    have ran := run_delivery before delivers
    exact balance_of_delivery rfl rfl (found.trans ran.2) delivers (left.trans ran.1)
  | undeliverEvent =>
    have ran := run_undeliverEvent before context
    rw [ran.1] at found
    refine balance_of_kept found fun ready => ?_
    rw [left, ran.2] at ready
    exact ready_undeliver _ _ places 0 ready
  | signal eventClass spec =>
    have delivers : (EventCall.signal eventClass spec).delivers context = some (eventClass, spec) := rfl
    have ran := run_delivery before delivers
    exact balance_of_delivery rfl rfl (found.trans ran.2) delivers (left.trans ran.1)
  | takeCallback =>
    refine balance_of_kept found fun ready => ?_
    rw [left] at ready
    change (before.takeCallback.2).ready slot = true at ready
    unfold EventHle.takeCallback at ready
    cases queue : before.pendingCallbacks <;> rw [queue] at ready <;> exact ready

/-! ### Runs -/

theorem EventStep.Happens.consumes (happens : step.Happens s t) (tested : step.tested slot = true) :
    s.ready slot = true ∧ t.ready slot = false := by
  have balance := happens.balance slot
  have latched : step.latched slot = true → s.ready slot = false ∧ t.ready slot = true := by
    intro latched
    unfold EventStep.latched at latched
    rw [happens.1, happens.2.1] at latched
    cases delivered : step.call.delivers step.context with
    | none => rw [delivered] at latched; cases latched
    | some event =>
      rw [delivered, Option.any_some] at latched
      simp only [Bool.and_eq_true, Bool.not_eq_true'] at latched
      exact ⟨latched.1.2, latched.2⟩
  rw [tested] at balance
  cases found : step.latched slot with
  | true =>
    rw [(latched found).1, (latched found).2, found] at balance
    exact absurd balance (by decide)
  | false =>
    rw [found] at balance
    cases before : s.ready slot <;> cases after : t.ready slot <;> rw [before, after] at balance
    case true.false => exact ⟨rfl, rfl⟩
    all_goals exact absurd balance (by decide)

theorem count_step (p : EventStep → Bool) (steps : List EventStep) (step : EventStep) :
    (steps ++ [step]).countP p = steps.countP p + (p step).toNat := by
  rw [List.countP_append, List.countP_singleton]
  cases p step <;> rfl

/-- Over any run the successful tests of a place are at most the deliveries that made it ready, but for
a readiness there was at the start. -/
theorem tests_le_deliveries {steps : List EventStep}
    (run : Run (fun s step t => step.Happens s t) s steps t) (slot : Slot) :
    (t.ready slot).toNat + steps.countP (·.tested slot) ≤
      (s.ready slot).toNat + steps.countP (·.latched slot) := by
  induction run with
  | refl => exact Nat.le_refl _
  | snoc _ happens ih =>
    have balance := happens.balance slot
    rw [count_step, count_step]
    omega

end Tests

/-- Delivery is all or nothing exactly where it is undivided; over any run a place is found ready at
most as often as a delivery made it ready, and each time it is found so it is no longer. -/
theorem event_delivery (bios : EventHle) (eventClass spec : Word) :
    (AllOrNothing bios eventClass spec ((signalEvent eventClass spec).run bios) ↔
      Undivided bios eventClass spec) ∧
    ∀ (steps : List EventStep) (final : EventHle),
      Run (fun s step t => step.Happens s t) bios steps final → ∀ slot : Slot,
        (final.ready slot).toNat + steps.countP (·.tested slot) ≤
          (bios.ready slot).toNat + steps.countP (·.latched slot) ∧
        ∀ (step : EventStep) (after : EventHle), step.Happens final after →
          step.tested slot = true → final.ready slot = true ∧ after.ready slot = false :=
  ⟨allOrNothing_iff, fun _ _ run slot =>
    ⟨tests_le_deliveries run slot, fun _ _ happens tested => happens.consumes tested⟩⟩

/-- One enabled event in ready mode. -/
def readyEvent : EventHle :=
  (EventHle.new .default).setEvent ⟨0, by decide⟩ (some ⟨1, 2, readyMode, 0, true, .idle⟩)

/-- The steps of calls, and the state they leave. -/
def happened (s : EventHle) : List (EventCall × CpuContext) → List EventStep × EventHle
  | [] => ([], s)
  | (call, context) :: calls =>
    let after := (leaves (call.perform.run ⟨s, context⟩)).bios
    let (steps, final) := happened after calls
    (⟨call, context, s, after, (returned (call.perform.run ⟨s, context⟩)).getD false⟩ :: steps, final)

theorem run_happened (s : EventHle) (calls : List (EventCall × CpuContext)) :
    Run (fun s step t => EventStep.Happens s step t) s (happened s calls).1 (happened s calls).2 := by
  induction calls generalizing s with
  | nil => exact .refl s
  | cons call calls ih => exact (Run.single ⟨rfl, rfl, rfl, rfl⟩).append (ih _)

/-- The guest tests the event of the first place. -/
def testFirst : EventCall × CpuContext :=
  (.testEvent, (CpuContext.reset 0 0).setRegister a0 (EventHle.eventHandle ⟨0, by decide⟩))

/-- Two deliveries before a test count once: the test finds the event ready, and a second one does not. -/
theorem event_delivery_signal :
    let signal : EventCall × CpuContext := (.signal 1 2, .reset 0 0)
    let run := happened readyEvent [signal, signal, testFirst, testFirst]
    AllOrNothing readyEvent 1 2 ((signalEvent 1 2).run readyEvent) ∧
      run.1.map (·.ready) = [false, false, true, false] ∧ run.2.ready ⟨0, by decide⟩ = false := by
  intro signal run
  obtain ⟨whole, counted⟩ := event_delivery readyEvent 1 2
  have balance := (counted run.1 run.2 (run_happened _ _) ⟨0, by decide⟩).1
  have tests : run.1.countP (·.tested ⟨0, by decide⟩) = 1 := by decide +kernel
  have deliveries : (readyEvent.ready ⟨0, by decide⟩).toNat + run.1.countP (·.latched ⟨0, by decide⟩) = 1 := by
    decide +kernel
  refine ⟨whole.mpr ?_, by decide +kernel, ?_⟩
  · exact .inl (.inl (by decide +kernel))
  · rw [tests, deliveries] at balance
    exact Bool.toNat_eq_zero.mp (by omega)

/-- Two enabled events of one class, the second delivery of which the queue refuses. -/
def twoCallbacks : EventHle :=
  let event : Event := ⟨1, 2, callbackMode, 0x80010000, true, .idle⟩
  ((EventHle.new ⟨2 * 1024 * 1024, 1, 16, 1000000⟩).setEvent ⟨0, by decide⟩ (some event)).setEvent
    ⟨1, by decide⟩ (some event)

/-- The refused delivery has queued the first callback. -/
theorem delivery_divided :
    ¬ AllOrNothing twoCallbacks 1 2 ((signalEvent 1 2).run twoCallbacks) := by
  have refused : succeeds ((signalEvent 1 2).run twoCallbacks) = false ∧
      (leaves ((signalEvent 1 2).run twoCallbacks)).pendingCallbacks.length = 1 := by
    decide +kernel
  intro all
  cases ran : (signalEvent 1 2).run twoCallbacks with
  | ok n t => rw [ran] at refused; cases refused.1
  | error e t =>
    rw [ran] at all refused
    rw [show t = twoCallbacks from all] at refused
    cases refused.2

end Upse.Ps1.Events
