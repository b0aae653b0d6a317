import Upse.Machine.Ps2.Callbacks

/-!
# Which interrupt handler a step enters

A step enters the handler of the lowest pending source that has one exactly when the controller's first
pending source has one: a lower source without a handler hides every source above it.
-/

namespace Upse.Iop

open ErrorState R3000

namespace CallbackMachine

variable {m : CallbackMachine} {source : InterruptSource}

/-- The source is latched and unmasked. -/
def Pends (m : CallbackMachine) (source : InterruptSource) : Prop :=
  m.irq.pendingBits.getLsbD source.index = true

/-- The source has this callback. -/
def Handles (m : CallbackMachine) (source : InterruptSource) (callback : CallbackRequest) : Prop :=
  m.handlers.dispatchInterrupt source.index = .ok callback

/-- The lowest-numbered source that is latched, unmasked and handled. -/
structure LowestHandled (m : CallbackMachine) (source : InterruptSource) (callback : CallbackRequest) :
    Prop where
  pends : m.Pends source
  handles : m.Handles source callback
  lowest : ∀ other callback', m.Pends other → m.Handles other callback' → source.index ≤ other.index

/-- The machine in the handler of a callback, the interrupted context saved in the frame. -/
def inHandler (m : CallbackMachine) (callback : CallbackRequest) : CallbackMachine :=
  { m with
    cpu := applyBiosContext m.cpu (callback.apply (interruptContext (biosContext m.cpu)))
    guest := m.guest.store exceptionFrameAddress
      (encodeFrame (savedContext interruptCode (biosContext m.cpu)))
    exceptionActive := true
    callbackActive := some ⟨.interrupt, m.cpu⟩ }

@[simp] theorem inHandler_interruptCallbacks (m : CallbackMachine) (callback : CallbackRequest) :
    (m.inHandler callback).interruptCallbacks = m.interruptCallbacks := by
  simp only [inHandler]

@[simp] theorem inHandler_callbackActive (m : CallbackMachine) (callback : CallbackRequest) :
    (m.inHandler callback).callbackActive = some ⟨.interrupt, m.cpu⟩ := by
  simp only [inHandler]

/-- The step enters the handler of this callback. -/
def Enters (m : CallbackMachine) (callback : CallbackRequest) : Prop :=
  beginStep.run m = .ok .guest (m.inHandler callback)

/-- The exception frame can be written, and no exception is being handled. -/
structure FrameFree (m : CallbackMachine) : Prop where
  idle : m.exceptionActive = false
  range : m.guest.range.validate exceptionFrameAddress
    (encodeFrame (savedContext interruptCode (biosContext m.cpu))).length 1 = .ok ()
  accepts : m.guest.accepts exceptionFrameAddress
    (encodeFrame (savedContext interruptCode (biosContext m.cpu))).length = true

variable {callback : CallbackRequest}

theorem run_enterHandler_ok {t : CallbackMachine} :
    (enterHandler callback).run m = .ok () t ↔ m.FrameFree ∧ t = m.inHandler callback := by
  constructor
  · intro run
    unfold enterHandler at run
    rw [run_get_bind] at run
    obtain ⟨context, u, entered, run⟩ := run_bind_ok.mp run
    unfold enterInterrupt at entered
    rw [run_get_bind] at entered
    obtain ⟨_, _, fresh, entered⟩ := run_bind_ok.mp entered
    obtain ⟨idle, rfl⟩ := run_throwIf_ok.mp fresh
    obtain ⟨_, v, wrote, entered⟩ := run_bind_ok.mp entered
    obtain ⟨guest, stored, rfl⟩ := run_zoom_ok.mp wrote
    unfold GuestMemory.writeGuest at stored
    rw [run_get_bind] at stored
    obtain ⟨_, _, valid, stored⟩ := run_bind_ok.mp stored
    obtain ⟨range, rfl⟩ := run_ofExcept_ok_iff.mp valid
    obtain ⟨_, _, takes, stored⟩ := run_bind_ok.mp stored
    obtain ⟨accepts, rfl⟩ := run_throwIf_ok.mp takes
    obtain rfl := run_set_ok.mp stored
    obtain ⟨_, _, marked, entered⟩ := run_bind_ok.mp entered
    obtain rfl := run_modify_ok.mp marked
    obtain ⟨rfl, rfl⟩ := run_pure_ok.mp entered
    obtain rfl := run_modify_ok.mp run
    exact ⟨⟨by simpa using idle, except_mapError_ok.mp range, by simpa using accepts⟩, rfl⟩
  · rintro ⟨⟨idle, range, accepts⟩, rfl⟩
    have wrote : (GuestMemory.writeGuest exceptionFrameAddress
        (encodeFrame (savedContext interruptCode (biosContext m.cpu)))).run m.guest = .ok ()
          (m.guest.store exceptionFrameAddress
            (encodeFrame (savedContext interruptCode (biosContext m.cpu)))) := by
      unfold GuestMemory.writeGuest
      rw [run_get_bind, range]
      show ((throwIf _ _ >>= _).run _) = _
      rw [run_throwIf_bind (by simp [accepts])]
      rfl
    have entered : (enterInterrupt (biosContext m.cpu)).run m =
        .ok (interruptContext (biosContext m.cpu)) { m with
          guest := m.guest.store exceptionFrameAddress
            (encodeFrame (savedContext interruptCode (biosContext m.cpu)))
          exceptionActive := true } := by
      unfold enterInterrupt
      rw [run_get_bind, run_throwIf_bind (by simp [idle]),
        run_bind_of_ok (run_zoom_ok.mpr ⟨_, wrote, rfl⟩)]
      rfl
    unfold enterHandler
    rw [run_get_bind, run_bind_of_ok entered]
    rfl

theorem index_of_fromIndex {index : ℕ} (h : InterruptSource.fromIndex index = some source) :
    source.index = index := by
  have bound := (List.getElem?_eq_some_iff.mp (InterruptSource.fromIndex_index source)).1
  have distinct : InterruptSource.all.Nodup := by decide
  exact (List.getElem?_inj bound distinct).mp ((InterruptSource.fromIndex_index source).trans h.symm)

theorem firstPending_eq_some (first : m.irq.firstPending = some source) :
    m.Pends source ∧ ∀ other, m.Pends other → source.index ≤ other.index := by
  unfold InterruptController.firstPending at first
  obtain ⟨index, found, named⟩ := Option.bind_eq_some_iff.mp first
  obtain rfl := index_of_fromIndex named
  obtain ⟨pends, -, none⟩ := List.find?_range_eq_some.mp found
  refine ⟨pends, fun other pends' => not_lt.mp fun lower => ?_⟩
  have absent := none other.index lower
  rw [show m.irq.pendingBits.getLsbD other.index = true from pends'] at absent
  cases absent

/-- What keeps the lowest handled source's handler from being entered is nothing but the step's own
return, a frame in use, or a first pending source without a handler. -/
structure Serves (m : CallbackMachine) : Prop where
  notCallbackReturn : m.cpu.pc ≠ returnEntry
  notThreadReturn : m.cpu.pc ≠ threadReturnEntry
  frame : m.FrameFree
  handled : ∃ source callback, m.irq.firstPending = some source ∧ m.Handles source callback

theorem pendingHandler_eq_some :
    m.pendingHandler = some callback ↔
      ∃ source, m.irq.firstPending = some source ∧ m.Handles source callback := by
  unfold pendingHandler Handles
  rw [Option.bind_eq_some_iff]
  constructor
  · rintro ⟨source, first, handles⟩
    refine ⟨source, first, ?_⟩
    cases found : m.handlers.dispatchInterrupt source.index with
    | ok callback' => rw [found] at handles; cases handles; rfl
    | error e => rw [found] at handles; cases handles
  · rintro ⟨source, first, handles⟩
    exact ⟨source, first, by rw [handles]; rfl⟩

theorem run_enterPendingCallback (enabled : m.interruptsEnabled = true) (idle : m.callbackActive = none)
    (frame : m.FrameFree) (handled : m.pendingHandler = some callback) :
    enterPendingCallback.run m = .ok () (m.inHandler callback) := by
  unfold enterPendingCallback
  rw [run_get_bind, if_neg (by simp [enabled, idle]), handled]
  exact run_enterHandler_ok.mpr ⟨frame, rfl⟩

theorem run_enterPendingCallback_none (hidden : m.pendingHandler = none)
    (interrupts : m.interruptCallbacks = []) (timers : m.timerCallbacks = [])
    (callbacks : m.callbacks = []) : enterPendingCallback.run m = .ok () m := by
  unfold enterPendingCallback
  rw [run_get_bind]
  split
  · rfl
  · simp only [hidden, interrupts, timers, callbacks]
    rfl

/-- Only the first pending source's handler is entered with the queues as they were. -/
theorem of_run_enterPendingCallback (enabled : m.interruptsEnabled = true)
    (idle : m.callbackActive = none) {u : Unit}
    (run : enterPendingCallback.run m = .ok u (m.inHandler callback)) :
    m.FrameFree ∧ ∃ callback', m.pendingHandler = some callback' := by
  unfold enterPendingCallback at run
  rw [run_get_bind, if_neg (by simp [enabled, idle])] at run
  cases handled : m.pendingHandler with
  | some callback' =>
    rw [handled] at run
    exact ⟨(run_enterHandler_ok.mp run).1, callback', rfl⟩
  | none =>
    exfalso
    rw [handled] at run
    cases interrupts : m.interruptCallbacks with
    | cons next rest =>
      simp only [interrupts] at run
      rw [run_modify_bind] at run
      have queue := congrArg CallbackMachine.interruptCallbacks (run_enterHandler_ok.mp run).2
      rw [inHandler_interruptCallbacks, inHandler_interruptCallbacks, interrupts] at queue
      exact List.cons_ne_self next rest queue
    | nil =>
      simp only [interrupts] at run
      cases timers : m.timerCallbacks with
      | cons next rest =>
        simp only [timers] at run
        rw [run_modify_bind] at run
        obtain ⟨context, t, -, active⟩ := run_bind_ok.mp run
        have kind := congrArg CallbackMachine.callbackActive (run_modify_ok.mp active)
        rw [inHandler_callbackActive] at kind
        cases congrArg ActiveCallback.kind (Option.some.inj kind)
      | nil =>
        simp only [timers] at run
        cases queued : m.callbacks with
        | cons next rest =>
          simp only [queued] at run
          rw [run_modify_bind] at run
          obtain ⟨context, t, -, active⟩ := run_bind_ok.mp run
          have kind := congrArg CallbackMachine.callbackActive (run_modify_ok.mp active)
          rw [inHandler_callbackActive] at kind
          cases congrArg ActiveCallback.kind (Option.some.inj kind)
        | nil =>
          simp only [queued] at run
          have active := congrArg CallbackMachine.callbackActive (run_pure_ok.mp run).2
          rw [idle, inHandler_callbackActive] at active
          cases active

/-- With interrupts enabled and no callback active, the next step enters the handler of the
lowest-numbered source that is latched, unmasked and handled exactly when the controller's first
pending source has a handler, and the step is no return and finds the frame free. -/
theorem enters_lowest_iff (enabled : m.interruptsEnabled = true) (idle : m.callbackActive = none)
    {callback : CallbackRequest} (lowest : m.LowestHandled source callback) :
    m.Enters callback ↔ m.Serves := by
  constructor
  · intro enters
    unfold Enters beginStep at enters
    rw [run_get_bind] at enters
    by_cases returns : m.cpu.pc = returnEntry
    · rw [if_pos returns] at enters
      cases (run_pure_ok.mp enters).1
    rw [if_neg returns] at enters
    by_cases threads : m.cpu.pc = threadReturnEntry
    · rw [if_pos threads] at enters
      cases (run_pure_ok.mp enters).1
    rw [if_neg threads] at enters
    obtain ⟨_, t, entered, last⟩ := run_bind_ok.mp enters
    obtain ⟨-, same⟩ := run_pure_ok.mp last
    rw [same] at entered
    obtain ⟨frame, callback', handled⟩ := of_run_enterPendingCallback enabled idle entered
    obtain ⟨first, found, handles⟩ := pendingHandler_eq_some.mp handled
    exact ⟨returns, threads, frame, first, callback', found, handles⟩
  · rintro ⟨returns, threads, frame, first, callback', found, handles⟩
    obtain ⟨pends, least⟩ := firstPending_eq_some found
    obtain rfl : source = first := by
      apply Option.some.inj
      rw [← InterruptSource.fromIndex_index source, ← InterruptSource.fromIndex_index first,
        le_antisymm (lowest.lowest first callback' pends handles) (least source lowest.pends)]
    obtain rfl : callback = callback' := Except.ok.inj (lowest.handles.symm.trans handles)
    unfold Enters beginStep
    rw [run_get_bind, if_neg returns, if_neg threads,
      run_bind_of_ok (run_enterPendingCallback enabled idle frame
        (pendingHandler_eq_some.mpr ⟨source, found, handles⟩))]
    rfl

/-- The handlers after a guest of a small machine registered one for the sound unit. -/
def soundHandlers : HandlerRegistry :=
  (HandlerRegistry.registerInterrupt (fun _ => none) InterruptSource.spu2.index 1 0x2000 0x30
    ⟨0, 0x200000⟩).toOption.getD fun _ => none

/-- A reset machine whose guest unmasked the vertical blank and the sound unit, with a handler for the
sound unit only. -/
def unmasked (latched : List InterruptSource) : CallbackMachine where
  cpu := .new ⟨0x1000, 0, 0, 0, 0⟩
  irq := latched.foldl InterruptController.request (InterruptController.new.setMask 0x201)
  guest := ⟨⟨0, 0x200000⟩, fun _ _ => true, fun _ => 0⟩
  kernel := .new
  handlers := soundHandlers
  exceptionActive := false
  interruptCallbacks := []
  timerCallbacks := []
  callbacks := []
  callbackActive := none
  interruptsEnabled := true

/-- The sound unit's callback. -/
def soundCallback : CallbackRequest := ⟨0x2000, 0x30, returnEntry, 9⟩

theorem handles_unmasked {latched : List InterruptSource} {other : InterruptSource}
    (handles : (unmasked latched).Handles other callback) :
    other.index = 9 := by
  have registered : soundHandlers =
      Function.update (fun _ => none) ⟨9, by decide⟩ (some ⟨0x2000, 0x30, 1⟩) := rfl
  unfold Handles at handles
  rw [show (unmasked latched).handlers = soundHandlers from rfl, registered] at handles
  cases other with
  | spu2 => rfl
  | _ => cases handles

theorem lowestHandled_unmasked {latched : List InterruptSource} (sound : (unmasked latched).Pends .spu2) :
    (unmasked latched).LowestHandled .spu2 soundCallback where
  pends := sound
  handles := rfl
  lowest _ _ _ handles := (handles_unmasked handles).ge

theorem frameFree_unmasked (latched : List InterruptSource) : (unmasked latched).FrameFree := by
  have range : (unmasked []).guest.range.validate exceptionFrameAddress
      (encodeFrame (savedContext interruptCode (biosContext (unmasked []).cpu))).length 1 = .ok () := by
    decide +kernel
  exact ⟨rfl, range, rfl⟩

theorem enters_lowest_iff_sample : (unmasked [.spu2]).Enters soundCallback := by
  have pends : (unmasked [.spu2]).Pends .spu2 := by unfold Pends; decide +kernel
  refine (enters_lowest_iff rfl rfl (lowestHandled_unmasked pends)).mpr
    ⟨by decide +kernel, by decide +kernel, frameFree_unmasked _, .spu2, soundCallback, ?_, rfl⟩
  decide +kernel

/-- A latched vertical blank without a handler keeps the sound unit's handler from being entered. -/
theorem unhandled_source_starves :
    (unmasked [.spu2, .vBlank]).LowestHandled .spu2 soundCallback ∧
      beginStep.run (unmasked [.spu2, .vBlank]) = .ok .guest (unmasked [.spu2, .vBlank]) ∧
      ¬ (unmasked [.spu2, .vBlank]).Enters soundCallback := by
  have pends : (unmasked [.spu2, .vBlank]).Pends .spu2 := by unfold Pends; decide +kernel
  have hidden : (unmasked [.spu2, .vBlank]).pendingHandler = none := by decide +kernel
  have passes : beginStep.run (unmasked [.spu2, .vBlank]) = .ok .guest (unmasked [.spu2, .vBlank]) := by
    unfold beginStep
    rw [run_get_bind, if_neg (by decide +kernel), if_neg (by decide +kernel),
      run_bind_of_ok (run_enterPendingCallback_none hidden rfl rfl rfl)]
    rfl
  refine ⟨lowestHandled_unmasked pends, passes, fun enters => ?_⟩
  have same := passes.symm.trans enters
  have active := congrArg (fun r => (leaves r).callbackActive) same
  rw [leaves_ok, leaves_ok, inHandler_callbackActive] at active
  cases active

end CallbackMachine

end Upse.Iop
