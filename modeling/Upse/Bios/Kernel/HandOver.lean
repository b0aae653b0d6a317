import Upse.Bios.Kernel.Waits

/-!
# Handing over to queued threads

A signal, a message and a freed fixed block go to the first queued thread that still waits for the
object; setting event bits and freeing a variable block serve every queued thread that can be
satisfied.  Each of the two loops is stated once, with the equations of the operations that use it.
-/

namespace Upse

open ErrorState Kernel

variable {k : Kernel}

/-! ### Refused calls -/

theorem signalSemaphore_unknown {id : ℕ} (unknown : k.semaphores.get id = none) :
    (signalSemaphore id).run k = .error (.kernel .unknownSemaphoreId) k := by
  simp [signalSemaphore, run_bind, orFail, unknown]

theorem sendMessage_invalid {id : ℕ} {message : Word} (invalid : message = 0 ∨ message &&& 3 ≠ 0) :
    (sendMessage id message).run k = .error (.kernel .illegalObject) k := by
  simp only [sendMessage, failIf, if_pos invalid, run_bind, run_throw]

theorem sendMessage_unknown {id : ℕ} {message : Word}
    (valid : ¬ (message = 0 ∨ message &&& 3 ≠ 0)) (unknown : k.messageBoxes.get id = none) :
    (sendMessage id message).run k = .error (.kernel .unknownMessageBoxId) k := by
  simp only [sendMessage, failIf, if_neg valid, run_bind, run_pure, run_get,
    orFail, unknown, run_okOr_none]

variable {id address : ℕ}

theorem freeFixed_unknown (unknown : k.fixedPools.get id = none) :
    (freeFixed id address).run k = .error (.kernel .unknownFixedPoolId) k := by
  simp [freeFixed, run_bind, orFail, unknown]

theorem freeFixed_illegal {pool : FixedPool}
    (found : k.fixedPools.get id = some pool) (unused : address ∉ pool.allocated) :
    (freeFixed id address).run k = .error (.kernel .illegalMemoryBlock) k := by
  simp [freeFixed, run_bind, orFail, found, failIf, unused]

theorem setEventFlag_unknown {id : ℕ} {bits : Word} (unknown : k.eventFlags.get id = none) :
    (setEventFlag id bits).run k = .error (.kernel .unknownEventFlagId) k := by
  simp [setEventFlag, run_bind, orFail, unknown]

theorem clearEventFlag_unknown {id : ℕ} {mask : Word} (unknown : k.eventFlags.get id = none) :
    (clearEventFlag id mask).run k = .error (.kernel .unknownEventFlagId) k := by
  simp [clearEventFlag, run_bind, orFail, unknown]

theorem freeVariable_unknown (unknown : k.variablePools.get id = none) :
    (freeVariable id address).run k = .error (.kernel .unknownVariablePoolId) k := by
  simp [freeVariable, run_bind, orFail, unknown]

theorem freeVariable_illegal {pool : VariablePool}
    (found : k.variablePools.get id = some pool) (unused : pool.allocated.lookup address = none) :
    (freeVariable id address).run k = .error (.kernel .illegalMemoryBlock) k := by
  simp [freeVariable, run_bind, orFail, found, unused]

/-! ### Handing over to one thread -/

/-- The loop of an operation that hands over to the first queued thread that still waits. -/
def handOverLoop (setQueue : List ℕ → Kernel → Kernel) (reason : WaitReason) (give : ℕ → KernelM Unit)
    (keep : KernelM (Option ℕ)) : List ℕ → KernelM (Option ℕ)
  | [] => keep
  | thread :: waiters => do
    modify (setQueue waiters)
    if (← get).waitMatches thread reason then
      give thread
      return some thread
    handOverLoop setQueue reason give keep waiters

/-- The queue from the first thread that waits for `reason` on. -/
def Kernel.stillWaiting (k : Kernel) (reason : WaitReason) (waiters : List ℕ) : List ℕ :=
  waiters.dropWhile fun thread => !k.waitMatches thread reason

theorem Kernel.stillWaiting_eq_cons {reason : WaitReason} {waiters rest : List ℕ} {thread : ℕ}
    (h : k.stillWaiting reason waiters = thread :: rest) : k.waitReasonOf thread = some reason := by
  have head := List.head?_dropWhile_not (fun thread => !k.waitMatches thread reason) waiters
  unfold stillWaiting at h
  rw [h] at head
  exact waitMatches_iff.mp (by simpa using head)

section HandOver

variable {setQueue : List ℕ → Kernel → Kernel} {reason : WaitReason} {give : ℕ → KernelM Unit}
  {keep : KernelM (Option ℕ)} {waiters rest : List ℕ} {thread : ℕ}

theorem handOverLoop_run (overwrites : ∀ ws ws' k, setQueue ws' (setQueue ws k) = setQueue ws' k)
    (core : ∀ ws k, (setQueue ws k).core = k.core) (queued : setQueue waiters k = k) :
    (handOverLoop setQueue reason give keep waiters).run k =
      match k.stillWaiting reason waiters with
      | [] => keep.run (setQueue [] k)
      | thread :: rest => (give thread >>= fun _ => pure (some thread)).run (setQueue rest k) := by
  have waits (ws : List ℕ) (thread : ℕ) :
      (setQueue ws k).waitMatches thread reason = k.waitMatches thread reason :=
    (congrArg (·.waitMatches thread reason) (core ws k) :)
  -- after the first round the queue is the rest of the list
  have rounds (tail : List ℕ) : (handOverLoop setQueue reason give keep tail).run
      (setQueue tail k) = match k.stillWaiting reason tail with
      | [] => keep.run (setQueue [] k)
      | thread :: rest => (give thread >>= fun _ => pure (some thread)).run (setQueue rest k) := by
    induction tail with
    | nil => rfl
    | cons thread tail ih =>
      unfold stillWaiting at ih ⊢
      by_cases matched : k.waitMatches thread reason = true
      · simp [handOverLoop, run_bind, overwrites, waits, matched]
      · rw [Bool.not_eq_true] at matched
        simpa [handOverLoop, run_bind, overwrites, waits, matched] using ih
  rw [← rounds waiters, queued]

end HandOver

/-! ### Signals, messages and fixed blocks -/

namespace Kernel

/-- Replaces the queue of a semaphore. -/
def queueSemaphore (id : ℕ) (waiters : List ℕ) (k : Kernel) : Kernel :=
  k.modifySemaphore id fun value => { value with waiters := waiters }

/-- Replaces the queue of a message box. -/
def queueMessageBox (id : ℕ) (waiters : List ℕ) (k : Kernel) : Kernel :=
  k.modifyMessageBox id fun value => { value with waiters := waiters }

/-- Replaces the queue of a fixed pool. -/
def queueFixedPool (id : ℕ) (waiters : List ℕ) (k : Kernel) : Kernel :=
  k.modifyFixedPool id fun value => { value with waiters := waiters }

/-- Adds a count to a semaphore. -/
def addCount (k : Kernel) (id : ℕ) : Kernel :=
  k.modifySemaphore id fun value => { value with count := value.count + 1 }

/-- Adds a message to a message box. -/
def addMessage (k : Kernel) (id : ℕ) (message : Word) : Kernel :=
  k.modifyMessageBox id fun value => { value with messages := value.messages ++ [message] }

/-- Takes an allocated block of a fixed pool in hand. -/
def releaseBlock (k : Kernel) (id address : ℕ) : Kernel :=
  k.modifyFixedPool id fun value => { value with allocated := value.allocated.erase address }

/-- Puts a block in hand at the end of the free list of a fixed pool. -/
def freeBlock (k : Kernel) (id address : ℕ) : Kernel :=
  k.modifyFixedPool id fun value => { value with free := value.free ++ [address] }

/-- Records a block in hand as allocated. -/
def assignBlock (k : Kernel) (id address : ℕ) : Kernel :=
  k.modifyFixedPool id fun value => { value with allocated := value.allocated.insert address }

/-! The records these changes leave. -/

theorem record?_queueSemaphore {id : ℕ} {value : Semaphore} (found : k.semaphores.get id = some value)
    (waiters : List ℕ) : (k.queueSemaphore id waiters).record? (.semaphore id) =
      some (.semaphore { value with waiters := waiters }) := by
  rw [queueSemaphore, record?_modifySemaphore, if_pos rfl, found]
  rfl

theorem record?_addCount {id : ℕ} {value : Semaphore} (found : k.semaphores.get id = some value) :
    ((k.queueSemaphore id []).addCount id).record? (.semaphore id) =
      some (.semaphore { value with count := value.count + 1, waiters := [] }) := by
  simp [record?, addCount, queueSemaphore, modifySemaphore, FixedTable.get_modify, found]

theorem record?_queueMessageBox {id : ℕ} {value : MessageBox}
    (found : k.messageBoxes.get id = some value) (waiters : List ℕ) :
    (k.queueMessageBox id waiters).record? (.messageBox id) =
      some (.messageBox { value with waiters := waiters }) := by
  rw [queueMessageBox, record?_modifyMessageBox, if_pos rfl, found]
  rfl

theorem record?_addMessage {id : ℕ} {value : MessageBox}
    (found : k.messageBoxes.get id = some value) (message : Word) :
    ((k.queueMessageBox id []).addMessage id message).record? (.messageBox id) =
      some (.messageBox { value with messages := value.messages ++ [message], waiters := [] }) := by
  simp [record?, addMessage, queueMessageBox, modifyMessageBox, FixedTable.get_modify, found]

theorem record?_freeBlock {id address : ℕ} {value : FixedPool}
    (found : k.fixedPools.get id = some value) :
    (((k.releaseBlock id address).queueFixedPool id []).freeBlock id address).record?
      (.fixedPool id) = some (.fixedPool { value with
        free := value.free ++ [address]
        allocated := value.allocated.erase address
        waiters := [] }) := by
  simp [record?, freeBlock, queueFixedPool, releaseBlock, modifyFixedPool, FixedTable.get_modify,
    found]

theorem record?_assignBlock {id address : ℕ} {value : FixedPool}
    (found : k.fixedPools.get id = some value) (waiters : List ℕ) :
    (((k.releaseBlock id address).queueFixedPool id waiters).assignBlock id address).record?
      (.fixedPool id) = some (.fixedPool { value with
        allocated := (value.allocated.erase address).insert address
        waiters := waiters }) := by
  simp [record?, assignBlock, queueFixedPool, releaseBlock, modifyFixedPool, FixedTable.get_modify,
    found]

/-- The outcome of ending the wait of the thread something was handed over to. -/
def handedOver (k : Kernel) (thread : ℕ) (value : Option Word) :
    EStateM.Result BiosError Kernel (Option ℕ) :=
  if k.nextReadyOrder + 1 < 2 ^ 64 then .ok (some thread) (k.wake thread 0 value)
  else .error (.kernel .noMemory) (k.disarm thread)

end Kernel

/-- A thread is ready with a value in its second result register. -/
def Kernel.Received (k : Kernel) (thread : ℕ) (value : Word) : Prop :=
  ∃ record, k.threads.get thread = some record ∧ record.state = .ready ∧
    record.context.register v1 = some value

variable {reason : WaitReason}

theorem Kernel.received_wake {thread : ℕ}
    (waiting : k.waitReasonOf thread = some reason) (result : ℤ) (value : Word) :
    (k.wake thread result (some value)).Received thread value := by
  obtain ⟨record, found, -⟩ := waitReasonOf_eq_some.mp waiting
  have after := get_modifyThread (k.disarm thread)
    thread (fun record => record.resume result (some value) k.nextReadyOrder) thread
  have found' : (k.disarm thread).threads.get thread = some record := found
  rw [if_pos rfl, found'] at after
  exact ⟨_, after, rfl, CpuContext.register_setRegister_self _ _ (by decide) (by decide)⟩

theorem Kernel.Received.wake {thread other : ℕ} {value : Word}
    (h : k.Received thread value) (waiting : k.waitReasonOf other = some reason) (result : ℤ)
    (value' : Option Word) : (k.wake other result value').Received thread value := by
  obtain ⟨record, found, ready, holds⟩ := h
  refine ⟨record, ?_, ready, holds⟩
  have ne : thread ≠ other := by
    rintro rfl
    obtain ⟨record', found', waits⟩ := waitReasonOf_eq_some.mp waiting
    rw [found] at found'
    cases found'
    rw [ready] at waits
    cases waits
  have after := get_modifyThread (k.disarm other)
    other (fun record => record.resume result value' k.nextReadyOrder) thread
  rw [if_neg ne] at after
  exact after.trans found

theorem completeWait_handedOver {thread : ℕ} (value : Option Word)
    (waiting : k.waitReasonOf thread = some reason) :
    (completeWait thread 0 value >>= fun _ => pure (some thread) : KernelM (Option ℕ)).run k =
      k.handedOver thread value := by
  rw [run_bind, completeWait_run waiting, Kernel.handedOver]
  by_cases fit : k.nextReadyOrder + 1 < 2 ^ 64
  · rw [if_pos fit, if_pos fit]
    rfl
  · rw [if_neg fit, if_neg fit]

theorem signalSemaphore_run {id : ℕ} {semaphore : Semaphore}
    (found : k.semaphores.get id = some semaphore) : (signalSemaphore id).run k =
      match k.stillWaiting (.semaphore id) semaphore.waiters with
      | [] => if semaphore.count = semaphore.maximum
        then .error (.kernel .semaphoreOverflow) (k.queueSemaphore id [])
        else .ok none ((k.queueSemaphore id []).addCount id)
      | thread :: rest => (k.queueSemaphore id rest).handedOver thread none := by
  have loop (waiters : List ℕ) : signalSemaphoreLoop id waiters =
      handOverLoop (queueSemaphore id) (.semaphore id) (fun thread => completeWait thread 0 none)
        (signalSemaphoreLoop id []) waiters := by
    induction waiters with
    | nil => rfl
    | cons thread waiters ih => simp only [signalSemaphoreLoop, handOverLoop, ih]; rfl
  have overwrites (ws ws' : List ℕ) (k : Kernel) :
      (k.queueSemaphore id ws).queueSemaphore id ws' = k.queueSemaphore id ws' := by
    simp only [queueSemaphore, modifySemaphore, FixedTable.modify_modify]
  have queued : k.queueSemaphore id semaphore.waiters = k := by
    simp only [queueSemaphore, modifySemaphore, FixedTable.modify_of_get found]
  simp only [signalSemaphore, run_bind, run_get, found, orFail, run_okOr_some]
  rw [loop, handOverLoop_run overwrites (fun _ _ => rfl) queued]
  cases still : k.stillWaiting (.semaphore id) semaphore.waiters with
  | nil =>
    have emptied : (k.queueSemaphore id []).semaphores.get id =
        some { semaphore with waiters := [] } := by
      simp [queueSemaphore, modifySemaphore, FixedTable.get_modify, found]
    by_cases full : semaphore.count = semaphore.maximum
    · simp [signalSemaphoreLoop, run_bind, emptied, orFail, failIf, full]
    · simp [signalSemaphoreLoop, run_bind, emptied, orFail, failIf, full, addCount]
  | cons thread rest => exact completeWait_handedOver none (stillWaiting_eq_cons still)

theorem sendMessage_run {id : ℕ} {message : Word} {messageBox : MessageBox}
    (valid : ¬ (message = 0 ∨ message &&& 3 ≠ 0)) (found : k.messageBoxes.get id = some messageBox) :
    (sendMessage id message).run k =
      match k.stillWaiting (.messageBox id) messageBox.waiters with
      | [] => .ok none ((k.queueMessageBox id []).addMessage id message)
      | thread :: rest => (k.queueMessageBox id rest).handedOver thread (some message) := by
  have loop (waiters : List ℕ) : sendMessageLoop id message waiters =
      handOverLoop (queueMessageBox id) (.messageBox id)
        (fun thread => completeWait thread 0 (some message)) (sendMessageLoop id message [])
        waiters := by
    induction waiters with
    | nil => rfl
    | cons thread waiters ih => simp only [sendMessageLoop, handOverLoop, ih]; rfl
  have overwrites (ws ws' : List ℕ) (k : Kernel) :
      (k.queueMessageBox id ws).queueMessageBox id ws' = k.queueMessageBox id ws' := by
    simp only [queueMessageBox, modifyMessageBox, FixedTable.modify_modify]
  have queued : k.queueMessageBox id messageBox.waiters = k := by
    simp only [queueMessageBox, modifyMessageBox, FixedTable.modify_of_get found]
  simp only [sendMessage, failIf, if_neg valid, run_bind, run_pure, run_get,
    found, orFail, run_okOr_some]
  rw [loop, handOverLoop_run overwrites (fun _ _ => rfl) queued]
  cases still : k.stillWaiting (.messageBox id) messageBox.waiters with
  | nil =>
    have emptied : (k.queueMessageBox id []).messageBoxes.get id =
        some { messageBox with waiters := [] } := by
      simp [queueMessageBox, modifyMessageBox, FixedTable.get_modify, found]
    simp [sendMessageLoop, run_bind, emptied, orFail, addMessage]
  | cons thread rest => exact completeWait_handedOver _ (stillWaiting_eq_cons still)

theorem freeFixed_run {id address : ℕ} {pool : FixedPool}
    (found : k.fixedPools.get id = some pool) (used : address ∈ pool.allocated) :
    (freeFixed id address).run k =
      match k.stillWaiting (.fixedPool id) pool.waiters with
      | [] => .ok none (((k.releaseBlock id address).queueFixedPool id []).freeBlock id address)
      | thread :: rest =>
        (((k.releaseBlock id address).queueFixedPool id rest).assignBlock id address).handedOver
          thread (some (BitVec.ofNat 32 address)) := by
  have loop (waiters : List ℕ) : freeFixedLoop id address waiters =
      handOverLoop (queueFixedPool id) (.fixedPool id)
        (fun thread => modify (assignBlock · id address) >>= fun _ =>
          completeWait thread 0 (some (BitVec.ofNat 32 address)))
        (freeFixedLoop id address []) waiters := by
    induction waiters with
    | nil => rfl
    | cons thread waiters ih => simp only [freeFixedLoop, handOverLoop, ih, bind_assoc]; rfl
  have overwrites (ws ws' : List ℕ) (k : Kernel) :
      (k.queueFixedPool id ws).queueFixedPool id ws' = k.queueFixedPool id ws' := by
    simp only [queueFixedPool, modifyFixedPool, FixedTable.modify_modify]
  have inHand : (k.releaseBlock id address).fixedPools.get id =
      some { pool with allocated := pool.allocated.erase address } := by
    simp [releaseBlock, modifyFixedPool, FixedTable.get_modify, found]
  have queued : (k.releaseBlock id address).queueFixedPool id pool.waiters =
      k.releaseBlock id address := by
    simp only [queueFixedPool, modifyFixedPool, FixedTable.modify_of_get inHand]
  simp only [freeFixed, failIf, run_bind, run_get, found, orFail, run_okOr_some,
    used, not_true_eq_false, if_false, run_pure, run_modify]
  change (freeFixedLoop id address pool.waiters).run (k.releaseBlock id address) = _
  rw [loop, handOverLoop_run overwrites (fun _ _ => rfl) queued]
  change (match k.stillWaiting (.fixedPool id) pool.waiters with | [] => _ | _ :: _ => _) = _
  cases still : k.stillWaiting (.fixedPool id) pool.waiters with
  | nil =>
    have emptied : ((k.releaseBlock id address).queueFixedPool id []).fixedPools.get id =
        some { pool with allocated := pool.allocated.erase address, waiters := [] } := by
      simp [queueFixedPool, modifyFixedPool, FixedTable.get_modify, inHand]
    simp [freeFixedLoop, run_bind, emptied, orFail, freeBlock]
  | cons thread rest => exact completeWait_handedOver _ (stillWaiting_eq_cons still)

/-! ### Serving every queued thread -/

/-- The loop of an operation that serves every queued thread it can satisfy: the threads served and
those retained. -/
def serveLoop {W : Type} (wants : Kernel → ℕ → Option W) (serve : W → KernelM (Option Word)) :
    List ℕ → KernelM (List ℕ × List ℕ)
  | [] => return ([], [])
  | thread :: queued => do
    match wants (← get) thread with
    | none => serveLoop wants serve queued
    | some wanted =>
      match ← serve wanted with
      | some value =>
        completeWait thread 0 (some value)
        let (ready, retained) ← serveLoop wants serve queued
        return (thread :: ready, retained)
      | none =>
        let (ready, retained) ← serveLoop wants serve queued
        return (ready, thread :: retained)

/-- How the rounds of such a loop change the state; without a result the ready orders ran out. -/
inductive Kernel.Serves {W : Type} (wants : Kernel → ℕ → Option W)
    (give : Kernel → W → Option (Word × Kernel)) :
    Kernel → List ℕ → Option (List ℕ × List ℕ) → Kernel → Prop
  | done (k : Kernel) : Serves wants give k [] (some ([], [])) k
  | skip {k k' : Kernel} {thread : ℕ} {queued : List ℕ} {result : Option (List ℕ × List ℕ)} :
      wants k thread = none → Serves wants give k queued result k' →
      Serves wants give k (thread :: queued) result k'
  | keep {k k' : Kernel} {thread : ℕ} {wanted : W} {queued : List ℕ}
      {result : Option (List ℕ × List ℕ)} :
      wants k thread = some wanted → give k wanted = none → Serves wants give k queued result k' →
      Serves wants give k (thread :: queued) (result.map fun r => (r.1, thread :: r.2)) k'
  | serve {k given k' : Kernel} {thread : ℕ} {wanted : W} {value : Word} {queued : List ℕ}
      {result : Option (List ℕ × List ℕ)} :
      wants k thread = some wanted → give k wanted = some (value, given) → ¬ given.OrdersExhausted →
      Serves wants give (given.wake thread 0 (some value)) queued result k' →
      Serves wants give k (thread :: queued) (result.map fun r => (thread :: r.1, r.2)) k'
  | full {k given : Kernel} {thread : ℕ} {wanted : W} {value : Word} {queued : List ℕ} :
      wants k thread = some wanted → give k wanted = some (value, given) → given.OrdersExhausted →
      Serves wants give k (thread :: queued) none (given.disarm thread)

/-- Which object a loop serves, and what its rounds give. -/
structure Serving {W : Type} (o : Obj) (wants : Kernel → ℕ → Option W)
    (give : Kernel → W → Option (Word × Kernel)) (serve : W → KernelM (Option Word)) : Prop where
  waits : ∀ k thread wanted, wants k thread = some wanted →
    ∃ reason, k.waitReasonOf thread = some reason ∧ reason.object = some o
  reads : ∀ k k' thread, k'.waitReasonOf thread = k.waitReasonOf thread →
    wants k' thread = wants k thread
  serves : ∀ k wanted, k.record? o ≠ none → (serve wanted).run k =
    (give k wanted).elim (.ok none k) fun given => .ok (some given.1) given.2
  touches : ∀ k wanted value given, give k wanted = some (value, given) →
    k.Does (.touch o) given ∧ given.record? o ≠ none

theorem serveLoop_run {W : Type} {o : Obj} {wants : Kernel → ℕ → Option W}
    {give : Kernel → W → Option (Word × Kernel)} {serve : W → KernelM (Option Word)}
    (serving : Serving o wants give serve) (queued : List ℕ) (live : k.record? o ≠ none) :
    ∃ result k', k.Serves wants give queued result k' ∧ (serveLoop wants serve queued).run k =
      result.elim (.error (.kernel .noMemory) k') (.ok · k') := by
  induction queued generalizing k with
  | nil => exact ⟨_, k, .done k, rfl⟩
  | cons thread queued ih =>
    cases wanting : wants k thread with
    | none =>
      obtain ⟨result, k', rounds, run⟩ := ih live
      refine ⟨result, k', .skip wanting rounds, ?_⟩
      simp only [serveLoop, run_bind, run_get, wanting, run]
    | some wanted =>
      have served := serving.serves k wanted live
      cases given : give k wanted with
      | none =>
        obtain ⟨result, k', rounds, run⟩ := ih live
        refine ⟨_, k', .keep wanting given rounds, ?_⟩
        rw [given] at served
        simp only [serveLoop, run_bind, run_get, wanting, served, Option.elim_none,
          run]
        cases result <;> rfl
      | some handed =>
        obtain ⟨value, k₁⟩ := handed
        obtain ⟨touch, live₁⟩ := serving.touches k wanted value k₁ given
        obtain ⟨reason, waiting, -⟩ := serving.waits k thread wanted wanting
        have waiting₁ : k₁.waitReasonOf thread = some reason := by
          cases touch with
          | touch core _ _ => exact (congrArg (·.waitReasonOf thread) core :).trans waiting
        rw [given] at served
        by_cases full : k₁.OrdersExhausted
        · refine ⟨none, _, .full wanting given full, ?_⟩
          simp only [serveLoop, run_bind, run_get, wanting, served, Option.elim_some,
            completeWait_of_full full]
          rfl
        · obtain ⟨result, k', rounds, run⟩ := ih (k := k₁.wake thread 0 (some value))
            (by rw [record?_wake]; exact live₁)
          refine ⟨_, k', .serve wanting given full rounds, ?_⟩
          simp only [serveLoop, run_bind, run_get, wanting, served, Option.elim_some,
            completeWait_of_waiting waiting₁ (not_le.mp full), run]
          cases result <;> rfl

/-! ### Event bits and variable blocks -/

namespace Kernel

/-- The bits a flag gives to a satisfied wait. -/
def giveBits (id : ℕ) (k : Kernel) (wanted : Word × Word) : Option (Word × Kernel) :=
  (k.eventFlags.get id).bind fun event =>
    if satisfied event.bits wanted.1 wanted.2 then
      some (event.bits, k.takeBits id wanted.1 wanted.2)
    else none

/-- The block a pool gives to a wait for a size that fits. -/
def giveRegion (id : ℕ) (k : Kernel) (size : ℕ) : Option (Word × Kernel) :=
  (k.variablePools.get id).bind fun pool => (allocateRegion pool size).map fun taken =>
    (BitVec.ofNat 32 taken.1, k.modifyVariablePool id fun _ => taken.2)

/-- Sets bits of a flag whose queue is in hand. -/
def setBits (k : Kernel) (id : ℕ) (bits : Word) : Kernel :=
  k.modifyEventFlag id fun event => { event with bits := event.bits ||| bits, waiters := [] }

/-- Frees a block of a pool whose queue is in hand. -/
def releaseRegion (k : Kernel) (id address size : ℕ) : Kernel :=
  k.modifyVariablePool id fun pool =>
    { pool with
      free := coalesceRegions (pool.free ++ [⟨address, size⟩])
      allocated := pool.allocated.erase address
      waiters := [] }

/-- Replaces the queue of an event flag. -/
def queueEventFlag (id : ℕ) (waiters : List ℕ) (k : Kernel) : Kernel :=
  k.modifyEventFlag id fun value => { value with waiters := waiters }

/-- Replaces the queue of a variable pool. -/
def queueVariablePool (id : ℕ) (waiters : List ℕ) (k : Kernel) : Kernel :=
  k.modifyVariablePool id fun value => { value with waiters := waiters }

end Kernel

/-- Serves one wait on an event flag. -/
def serveBits (id : ℕ) (wanted : Word × Word) : KernelM (Option Word) := do
  let event ← orFail ((← get).eventFlags.get id) .unknownEventFlagId
  consumeEventBits id event wanted.1 wanted.2

/-- Serves one wait on a variable pool. -/
def serveRegion (id size : ℕ) : KernelM (Option Word) := do
  let pool ← orFail ((← get).variablePools.get id) .unknownVariablePoolId
  match allocateRegion pool size with
  | some (block, pool) =>
    modify fun k => k.modifyVariablePool id fun _ => pool
    return some (BitVec.ofNat 32 block)
  | none => return none

theorem serving_eventFlag (id : ℕ) :
    Serving (.eventFlag id) (·.eventWaitOf id ·) (giveBits id) (serveBits id) where
  waits k thread wanted wants := ⟨_, eventWaitOf_eq_some.mp wants, rfl⟩
  reads k k' thread same := by simp only [eventWaitOf, same]
  serves k wanted live := by
    cases found : k.eventFlags.get id with
    | none => simp [record?, found] at live
    | some event =>
      cases holds : satisfied event.bits wanted.1 wanted.2 with
      | true =>
        simp [serveBits, giveBits, run_bind, orFail, found, holds, takeBits,
          consumeEventBits_of_satisfied holds]
      | false =>
        simp [serveBits, giveBits, run_bind, orFail, found, holds,
          consumeEventBits_of_unsatisfied holds]
  touches k wanted value given gave := by
    unfold giveBits at gave
    obtain ⟨event, found, gave⟩ := Option.bind_eq_some_iff.mp gave
    split at gave
    · cases gave
      refine ⟨does_modifyEventFlag k id _, ?_⟩
      rw [takeBits, record?_modifyEventFlag, if_pos rfl, found]
      exact Option.some_ne_none _
    · cases gave

theorem serving_variablePool (id : ℕ) :
    Serving (.variablePool id) (·.poolWaitOf id ·) (giveRegion id) (serveRegion id) where
  waits k thread wanted wants := ⟨_, poolWaitOf_eq_some.mp wants, rfl⟩
  reads k k' thread same := by simp only [poolWaitOf, same]
  serves k wanted live := by
    cases found : k.variablePools.get id with
    | none => simp [record?, found] at live
    | some pool =>
      cases taken : allocateRegion pool wanted <;>
        simp [serveRegion, giveRegion, run_bind, orFail, found, taken]
  touches k wanted value given gave := by
    unfold giveRegion at gave
    obtain ⟨pool, found, gave⟩ := Option.bind_eq_some_iff.mp gave
    obtain ⟨taken, -, gave⟩ := Option.map_eq_some_iff.mp gave
    cases gave
    refine ⟨does_modifyVariablePool k id _, ?_⟩
    rw [record?_modifyVariablePool, if_pos rfl, found]
    exact Option.some_ne_none _

/-- Serving the waiters of an object keeps it alive. -/
theorem Kernel.Serves.live {W : Type} {o : Obj} {wants : Kernel → ℕ → Option W}
    {give : Kernel → W → Option (Word × Kernel)} {serve : W → KernelM (Option Word)}
    (serving : Serving o wants give serve) {queued : List ℕ} {result : Option (List ℕ × List ℕ)}
    {k' : Kernel} (h : k.Serves wants give queued result k') (live : k.record? o ≠ none) :
    k'.record? o ≠ none := by
  induction h with
  | done => exact live
  | skip _ _ ih => exact ih live
  | keep _ _ _ ih => exact ih live
  | serve _ gave _ _ ih =>
    refine ih ?_
    rw [record?_wake]
    exact (serving.touches _ _ _ _ gave).2
  | full _ gave _ =>
    rw [record?_disarm]
    exact (serving.touches _ _ _ _ gave).2

/-- A thread that could not be satisfied when its turn came cannot be satisfied at the end, when
giving to others only makes what is wanted harder to give. -/
theorem Kernel.Serves.retained {W : Type} {o : Obj} {wants : Kernel → ℕ → Option W}
    {give : Kernel → W → Option (Word × Kernel)} {serve : W → KernelM (Option Word)}
    (serving : Serving o wants give serve) {I : Kernel → Prop}
    (invariant : ∀ k thread wanted value given, wants k thread = some wanted →
      give k wanted = some (value, given) → I k → I (given.wake thread 0 (some value)) ∧
        ∀ other, give k other = none → give (given.wake thread 0 (some value)) other = none)
    {queued : List ℕ} {result : Option (List ℕ × List ℕ)} {k' : Kernel}
    (h : k.Serves wants give queued result k') (holds : I k) (finished : result ≠ none) :
    I k' ∧ (∀ thread wanted, wants k thread = some wanted → give k wanted = none →
      wants k' thread = some wanted ∧ give k' wanted = none) ∧
    ∀ r, result = some r → ∀ thread ∈ r.2, ∃ wanted,
      wants k' thread = some wanted ∧ give k' wanted = none := by
  induction h with
  | done => exact ⟨holds, fun _ _ w g => ⟨w, g⟩, by rintro _ ⟨⟩ _ ⟨⟩⟩
  | skip _ _ ih => exact ih holds finished
  | @keep k k' thread wanted queued result wanting gives _ ih =>
    obtain ⟨holds', kept, retained⟩ := ih holds (by rintro rfl; exact finished rfl)
    refine ⟨holds', kept, fun r returned other member => ?_⟩
    obtain ⟨r', rfl, rfl⟩ := Option.map_eq_some_iff.mp returned
    rcases List.mem_cons.mp member with rfl | member
    · exact ⟨wanted, kept _ wanted wanting gives⟩
    · exact retained r' rfl other member
  | @serve k given k' thread wanted value queued result wanting gave fits _ ih =>
    obtain ⟨holds₁, harder⟩ := invariant k thread wanted value given wanting gave holds
    obtain ⟨holds', kept, retained⟩ := ih holds₁ (by rintro rfl; exact finished rfl)
    have core : given.core = k.core := by
      cases (serving.touches k wanted value given gave).1 with | touch core _ _ => exact core
    refine ⟨holds', fun other wanted' w g => kept other wanted' ?_ (harder wanted' g), ?_⟩
    · have ne : other ≠ thread := by
        rintro rfl
        rw [wanting] at w
        cases w
        rw [gave] at g
        cases g
      rw [serving.reads k (given.wake thread 0 (some value)) other, w]
      rw [waitReasonOf_wake, if_neg ne]
      exact (congrArg (·.waitReasonOf other) core :)
    · intro r returned other member
      obtain ⟨r', rfl, rfl⟩ := Option.map_eq_some_iff.mp returned
      exact retained r' rfl other member
  | full _ _ _ => exact absurd rfl finished

/-- Setting bits serves the queue, and retains the threads it could not satisfy. -/
theorem setEventFlag_run {id : ℕ} (bits : Word) {event : EventFlag}
    (found : k.eventFlags.get id = some event) : ∃ result k',
      (k.setBits id bits).Serves (·.eventWaitOf id ·) (giveBits id) event.waiters result k' ∧
      (setEventFlag id bits).run k = result.elim (.error (.kernel .noMemory) k') fun r =>
        .ok r.1 (k'.queueEventFlag id r.2) := by
  have loop (queued : List ℕ) :
      setEventFlagLoop id queued = serveLoop (·.eventWaitOf id ·) (serveBits id) queued := by
    induction queued with
    | nil => rfl
    | cons thread queued ih =>
      refine bind_congr fun k => ?_
      cases wanting : k.eventWaitOf id thread with
      | none => simp only [wanting, ih]
      | some wanted =>
        simp only [wanting, ih]
        rw [serveBits, bind_assoc]
        exact bind_congr fun k => (bind_assoc _ _ _).symm
  have live : (k.setBits id bits).record? (.eventFlag id) ≠ none := by
    rw [setBits, record?_modifyEventFlag, if_pos rfl, found]
    exact Option.some_ne_none _
  obtain ⟨result, k', rounds, run⟩ := serveLoop_run (serving_eventFlag id) event.waiters live
  refine ⟨result, k', rounds, ?_⟩
  obtain ⟨r, alive⟩ := Option.ne_none_iff_exists'.mp (rounds.live (serving_eventFlag id) live)
  obtain ⟨event', found', -⟩ := Option.map_eq_some_iff.mp alive
  rw [← loop, setBits] at run
  simp only [setEventFlag, run_bind, run_get, found, orFail, run_okOr_some,
    run_modify, run]
  cases result with
  | none => rfl
  | some r => simp [found', queueEventFlag]

/-- Freeing a block serves the queue, and retains the threads whose size does not fit. -/
theorem freeVariable_run {id address size : ℕ} {pool : VariablePool}
    (found : k.variablePools.get id = some pool) (used : pool.allocated.lookup address = some size) :
    ∃ result k', (k.releaseRegion id address size).Serves (·.poolWaitOf id ·) (giveRegion id)
        pool.waiters result k' ∧
      (freeVariable id address).run k = result.elim (.error (.kernel .noMemory) k') fun r =>
        .ok r.1 (k'.queueVariablePool id r.2) := by
  have loop (queued : List ℕ) :
      freeVariableLoop id queued = serveLoop (·.poolWaitOf id ·) (serveRegion id) queued := by
    induction queued with
    | nil => rfl
    | cons thread queued ih =>
      refine bind_congr fun k => ?_
      cases wanting : k.poolWaitOf id thread with
      | none => simp only [wanting, ih]
      | some size =>
        simp only [wanting, ih, serveRegion, bind_assoc]
        refine bind_congr fun k => bind_congr fun pool => ?_
        cases allocateRegion pool size <;> simp
  have live : (k.releaseRegion id address size).record? (.variablePool id) ≠ none := by
    rw [releaseRegion, record?_modifyVariablePool, if_pos rfl, found]
    exact Option.some_ne_none _
  obtain ⟨result, k', rounds, run⟩ := serveLoop_run (serving_variablePool id) pool.waiters live
  refine ⟨result, k', rounds, ?_⟩
  obtain ⟨r, alive⟩ := Option.ne_none_iff_exists'.mp (rounds.live (serving_variablePool id) live)
  obtain ⟨pool', found', -⟩ := Option.map_eq_some_iff.mp alive
  rw [← loop, releaseRegion] at run
  simp only [freeVariable, run_bind, run_get, found, orFail, run_okOr_some,
    run_modify, used, run]
  cases result with
  | none => rfl
  | some r => simp [found', queueVariablePool]

end Upse
