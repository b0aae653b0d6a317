import Upse.Bios.Kernel.Decomposition.Rules

/-!
# The acts of the operations on objects

The loops over a waiter queue are followed by induction on the queue they captured.
-/

namespace Upse

open ErrorState Relation Kernel

variable {L : Act → Prop} {k : Kernel}

/-! ### Blocking on an object and releasing its waiters -/

variable {context : CpuContext} {timeout : Option Ticks} {waiters : List ℕ} {id : ℕ}

theorem acts_enqueue {α : Type} {enqueue : Kernel → Kernel}
    {reason : WaitReason} {finish : ScheduleAction × CpuContext → α}
    (queued : Acts L k (enqueue k)) (sound : k.RunningSound) (blocks : ∀ id, L (.block id reason))
    (dispatches : L .dispatch) :
    Leads (Acts L) k (do
      modify enqueue
      let deadline ← waitDeadline timeout
      let result ← blockCurrent context reason deadline
      return finish result) := by
  refine leads_modify_bind queued (leads_waitDeadline_bind fun deadline => ?_)
  exact (acts_blockCurrent (queued.runningSound sound) blocks dispatches).bind
    fun _ _ _ => leads_pure _

theorem acts_releaseDeletedWaiters
    (wakes : ∀ id ∈ waiters, ∀ reason, L (.wake id reason KernelError.waitDeleted.code none))
    (disarms : ∀ id, L (.disarm id)) : Leads (Acts L) k (releaseDeletedWaiters waiters) := by
  induction waiters generalizing k with
  | nil => exact leads_pure _
  | cons id waiters ih =>
    have rest {k : Kernel} : Leads (Acts L) k (releaseDeletedWaiters waiters) :=
      ih fun id member => wakes id (List.mem_cons_of_mem _ member)
    refine leads_get_bind ?_
    dsimp only
    split
    next waits =>
      obtain ⟨reason, waiting⟩ := isWaiting_iff.mp waits
      have wake := wakes id List.mem_cons_self reason
      exact (acts_completeWait waiting wake (disarms id)).bind fun _ _ _ => rest
    next => exact rest

/-- A wait on the object for the reason may do all it does. -/
structure LetsWait (L : Act → Prop) (o : Obj) (reason : WaitReason) : Prop where
  touches : L (.touch o)
  blocks : ∀ thread, L (.block thread reason)
  dispatches : L .dispatch

/-- A deletion of the object may do all it does. -/
structure LetsDelete (L : Act → Prop) (k : Kernel) (o : Obj) : Prop where
  touches : L (.touch o)
  wakes : ∀ waiters, k.queue? o = some waiters → ∀ thread ∈ waiters, ∀ reason,
    L (.wake thread reason KernelError.waitDeleted.code none)
  disarms : ∀ thread, L (.disarm thread)

theorem LetsDelete.releases {k' : Kernel} {o : Obj} {r : ObjRecord} (lets : LetsDelete L k o)
    (found : k.record? o = some r) : Leads (Acts L) k' (releaseDeletedWaiters r.waiters) :=
  acts_releaseDeletedWaiters (lets.wakes r.waiters (by rw [queue?, found]; rfl)) lets.disarms

/-! ### Semaphores -/

theorem acts_createSemaphore {spec : SemaphoreSpec} (creates : ∀ o, L (.create o)) :
    Leads (Acts L) k (createSemaphore spec) := by
  unfold createSemaphore
  refine leads_check_bind fun _ _ => leads_failIf_bind fun _ => leads_get_bind (leads_check_bind ?_)
  rintro ⟨id, table⟩ inserted
  exact (does_insertSemaphore inserted).acts (creates _)

theorem acts_deleteSemaphore (lets : LetsDelete L k (.semaphore id)) :
    Leads (Acts L) k (deleteSemaphore id) := by
  unfold deleteSemaphore
  refine leads_get_bind (leads_modify_bind ((does_removeSemaphore k id).acts lets.touches) ?_)
  refine leads_orFail_bind fun value found => lets.releases (r := .semaphore value) ?_
  simpa [record?, FixedTable.remove_fst] using found

theorem acts_waitSemaphore (sound : k.RunningSound)
    (lets : LetsWait L (.semaphore id) (.semaphore id)) :
    Leads (Acts L) k (waitSemaphore id timeout context) := by
  unfold waitSemaphore
  refine leads_get_bind (leads_orFail_bind fun semaphore found => ?_)
  dsimp only
  split
  · exact leads_modify_bind ((does_modifySemaphore k id _).acts lets.touches) (leads_pure _)
  · refine leads_get_bind (leads_orFail_bind fun thread running => ?_)
    exact acts_enqueue ((does_modifySemaphore k id _).acts lets.touches) sound lets.blocks lets.dispatches

theorem acts_pollSemaphore (touches : L (.touch (.semaphore id))) :
    Leads (Acts L) k (pollSemaphore id) := by
  unfold pollSemaphore
  refine leads_get_bind (leads_orFail_bind fun semaphore found => leads_failIf_bind fun _ => ?_)
  exact leads_modify ((does_modifySemaphore k id _).acts touches)

theorem acts_signalSemaphoreLoop (touches : L (.touch (.semaphore id)))
    (wakes : ∀ thread, L (.wake thread (.semaphore id) 0 none)) (disarms : ∀ thread, L (.disarm thread)) :
    Leads (Acts L) k (signalSemaphoreLoop id waiters) := by
  induction waiters generalizing k with
  | nil =>
    refine leads_get_bind (leads_orFail_bind fun semaphore found => leads_failIf_bind fun _ => ?_)
    exact leads_modify_bind ((does_modifySemaphore k id _).acts touches) (leads_pure _)
  | cons thread waiters ih =>
    refine leads_modify_bind ((does_modifySemaphore k id _).acts touches) (leads_get_bind ?_)
    split
    next waits =>
      exact (acts_completeWait (waitMatches_iff.mp waits) (wakes thread) (disarms thread)).bind
        fun _ _ _ => leads_pure _
    next => exact ih

theorem acts_signalSemaphore (touches : L (.touch (.semaphore id)))
    (wakes : ∀ thread, L (.wake thread (.semaphore id) 0 none)) (disarms : ∀ thread, L (.disarm thread)) :
    Leads (Acts L) k (signalSemaphore id) :=
  leads_get_bind (leads_orFail_bind fun _ _ => acts_signalSemaphoreLoop touches wakes disarms)

/-! ### Event flags -/

theorem acts_createEventFlag {spec : EventFlagSpec} (creates : ∀ o, L (.create o)) :
    Leads (Acts L) k (createEventFlag spec) := by
  unfold createEventFlag
  refine leads_failIf_bind fun _ => leads_get_bind (leads_check_bind ?_)
  rintro ⟨id, table⟩ inserted
  exact (does_insertEventFlag inserted).acts (creates _)

theorem acts_deleteEventFlag (lets : LetsDelete L k (.eventFlag id)) :
    Leads (Acts L) k (deleteEventFlag id) := by
  unfold deleteEventFlag
  refine leads_get_bind (leads_modify_bind ((does_removeEventFlag k id).acts lets.touches) ?_)
  refine leads_orFail_bind fun value found => lets.releases (r := .eventFlag value) ?_
  simpa [record?, FixedTable.remove_fst] using found

variable {pattern mode : Word} {id address : ℕ}

theorem acts_consumeEventBits {event : EventFlag}
    (touches : L (.touch (.eventFlag id))) :
    Leads (Acts L) k (consumeEventBits id event pattern mode) := by
  unfold consumeEventBits
  split
  · exact leads_pure _
  · exact leads_modify_bind ((does_modifyEventFlag k id _).acts touches) (leads_pure _)

theorem acts_waitEventFlag (sound : k.RunningSound)
    (lets : LetsWait L (.eventFlag id) (.eventFlag id pattern mode)) :
    Leads (Acts L) k (waitEventFlag id pattern mode timeout context) := by
  unfold waitEventFlag
  refine leads_check_bind fun _ _ => leads_get_bind (leads_orFail_bind fun thread running => ?_)
  refine leads_get_bind (leads_orFail_bind fun event found => ?_)
  have consumed : Leads (Acts L) k (consumeEventBits id event pattern mode) :=
    acts_consumeEventBits lets.touches
  refine consumed.bind fun bits k' ran => ?_
  unfold Leads at consumed
  rw [ran] at consumed
  cases bits with
  | some bits => exact leads_pure _
  | none =>
    refine leads_failIf_bind fun _ => ?_
    exact acts_enqueue ((does_modifyEventFlag k' id _).acts lets.touches) (consumed.runningSound sound)
      lets.blocks lets.dispatches

theorem acts_pollEventFlag (touches : L (.touch (.eventFlag id))) :
    Leads (Acts L) k (pollEventFlag id pattern mode) := by
  unfold pollEventFlag
  refine leads_check_bind fun _ _ => leads_get_bind (leads_orFail_bind fun event found => ?_)
  exact (acts_consumeEventBits touches).bind fun _ _ _ => leads_okOr _ _

theorem acts_setEventFlagLoop (touches : L (.touch (.eventFlag id)))
    (wakes : ∀ thread pattern mode bits, satisfied bits pattern mode = true →
      L (.wake thread (.eventFlag id pattern mode) 0 (some bits)))
    (disarms : ∀ thread, L (.disarm thread)) :
    Leads (Acts L) k (setEventFlagLoop id waiters) := by
  induction waiters generalizing k with
  | nil => exact leads_pure _
  | cons thread waiters ih =>
    refine leads_get_bind ?_
    split
    next => exact ih
    next pattern mode waits =>
      refine leads_get_bind (leads_orFail_bind fun event found => ?_)
      cases holds : satisfied event.bits pattern mode with
      | false =>
        refine leads_ok_bind (consumeEventBits_of_unsatisfied holds) (Std.Refl.refl k) ?_
        exact ih.returning
      | true =>
        refine leads_ok_bind (consumeEventBits_of_satisfied holds)
          ((does_modifyEventFlag k id _).acts touches) ?_
        have waiting := eventWaitOf_eq_some.mp waits
        refine (acts_completeWait ?_ (wakes thread pattern mode _ holds) (disarms thread)).bind fun _ _ _ => ?_
        · exact waiting
        · exact ih.returning

theorem acts_setEventFlag {bits : Word} (touches : L (.touch (.eventFlag id)))
    (wakes : ∀ thread pattern mode bits, satisfied bits pattern mode = true →
      L (.wake thread (.eventFlag id pattern mode) 0 (some bits)))
    (disarms : ∀ thread, L (.disarm thread)) : Leads (Acts L) k (setEventFlag id bits) := by
  unfold setEventFlag
  refine leads_get_bind (leads_orFail_bind fun event found => ?_)
  refine leads_modify_bind ((does_modifyEventFlag k id _).acts touches) ?_
  refine (acts_setEventFlagLoop touches wakes disarms).bind fun _ k' _ => ?_
  refine leads_get_bind (leads_orFail_bind fun event found => ?_)
  exact leads_modify_bind ((does_modifyEventFlag k' id _).acts touches) (leads_pure _)

theorem acts_clearEventFlag {mask : Word} (touches : L (.touch (.eventFlag id))) :
    Leads (Acts L) k (clearEventFlag id mask) := by
  unfold clearEventFlag
  refine leads_get_bind (leads_orFail_bind fun event found => ?_)
  exact leads_modify_bind ((does_modifyEventFlag k id _).acts touches) (leads_pure _)

/-! ### Message boxes -/

theorem acts_createMessageBox {spec : MessageBoxSpec} (creates : ∀ o, L (.create o)) :
    Leads (Acts L) k (createMessageBox spec) := by
  unfold createMessageBox
  refine leads_check_bind fun _ _ => leads_get_bind (leads_check_bind ?_)
  rintro ⟨id, table⟩ inserted
  exact (does_insertMessageBox inserted).acts (creates _)

theorem acts_deleteMessageBox (lets : LetsDelete L k (.messageBox id)) :
    Leads (Acts L) k (deleteMessageBox id) := by
  unfold deleteMessageBox
  refine leads_get_bind (leads_modify_bind ((does_removeMessageBox k id).acts lets.touches) ?_)
  refine leads_orFail_bind fun value found => lets.releases (r := .messageBox value) ?_
  simpa [record?, FixedTable.remove_fst] using found

theorem acts_sendMessageLoop {message : Word}
    (touches : L (.touch (.messageBox id))) (wakes : ∀ thread, L (.wake thread (.messageBox id) 0 (some message)))
    (disarms : ∀ thread, L (.disarm thread)) :
    Leads (Acts L) k (sendMessageLoop id message waiters) := by
  induction waiters generalizing k with
  | nil =>
    refine leads_get_bind (leads_orFail_bind fun messageBox found => ?_)
    exact leads_modify_bind ((does_modifyMessageBox k id _).acts touches) (leads_pure _)
  | cons thread waiters ih =>
    refine leads_modify_bind ((does_modifyMessageBox k id _).acts touches) (leads_get_bind ?_)
    split
    next waits =>
      exact (acts_completeWait (waitMatches_iff.mp waits) (wakes thread) (disarms thread)).bind
        fun _ _ _ => leads_pure _
    next => exact ih

theorem acts_sendMessage {message : Word} (touches : L (.touch (.messageBox id)))
    (wakes : ∀ thread, L (.wake thread (.messageBox id) 0 (some message))) (disarms : ∀ thread, L (.disarm thread)) :
    Leads (Acts L) k (sendMessage id message) := by
  unfold sendMessage
  refine leads_failIf_bind fun _ => leads_get_bind (leads_orFail_bind fun _ _ => ?_)
  exact acts_sendMessageLoop touches wakes disarms

theorem acts_receiveMessage (sound : k.RunningSound)
    (lets : LetsWait L (.messageBox id) (.messageBox id)) :
    Leads (Acts L) k (receiveMessage id timeout context) := by
  unfold receiveMessage
  refine leads_get_bind (leads_orFail_bind fun thread running => ?_)
  refine leads_get_bind (leads_orFail_bind fun messageBox found => ?_)
  split
  · exact leads_modify_bind ((does_modifyMessageBox k id _).acts lets.touches) (leads_pure _)
  · exact acts_enqueue ((does_modifyMessageBox k id _).acts lets.touches) sound lets.blocks lets.dispatches

theorem acts_pollMessage (touches : L (.touch (.messageBox id))) :
    Leads (Acts L) k (pollMessage id) := by
  unfold pollMessage
  refine leads_get_bind (leads_orFail_bind fun messageBox found => ?_)
  split
  · exact leads_throw _
  · exact leads_modify_bind ((does_modifyMessageBox k id _).acts touches) (leads_pure _)

/-! ### Fixed pools -/

theorem acts_createFixedPool {spec : FixedPoolSpec} {guestRange : GuestRange}
    (creates : ∀ o, L (.create o)) : Leads (Acts L) k (createFixedPool spec guestRange) := by
  unfold createFixedPool
  refine leads_check_bind fun _ _ => leads_failIf_bind fun _ => leads_orFail_bind fun size fits => ?_
  refine leads_check_bind fun _ _ => leads_get_bind (leads_check_bind ?_)
  rintro ⟨id, table⟩ inserted
  exact (does_insertFixedPool inserted).acts (creates _)

theorem acts_deleteFixedPool (lets : LetsDelete L k (.fixedPool id)) :
    Leads (Acts L) k (deleteFixedPool id) := by
  unfold deleteFixedPool
  refine leads_get_bind (leads_orFail_bind fun pool found => leads_failIf_bind fun _ => ?_)
  refine leads_modify_bind ((does_removeFixedPool k id).acts lets.touches) ?_
  exact lets.releases (r := .fixedPool pool) (by simp [record?, found])

theorem acts_allocateFixed (sound : k.RunningSound)
    (lets : LetsWait L (.fixedPool id) (.fixedPool id)) :
    Leads (Acts L) k (allocateFixed id timeout context) := by
  unfold allocateFixed
  refine leads_get_bind (leads_orFail_bind fun thread running => ?_)
  refine leads_get_bind (leads_orFail_bind fun pool found => ?_)
  split
  · exact leads_modify_bind ((does_modifyFixedPool k id _).acts lets.touches) (leads_pure _)
  · exact acts_enqueue ((does_modifyFixedPool k id _).acts lets.touches) sound lets.blocks lets.dispatches

theorem acts_freeFixedLoop
    (touches : L (.touch (.fixedPool id)))
    (wakes : ∀ thread, L (.wake thread (.fixedPool id) 0 (some (BitVec.ofNat 32 address))))
    (disarms : ∀ thread, L (.disarm thread)) :
    Leads (Acts L) k (freeFixedLoop id address waiters) := by
  induction waiters generalizing k with
  | nil =>
    refine leads_get_bind (leads_orFail_bind fun pool found => ?_)
    exact leads_modify_bind ((does_modifyFixedPool k id _).acts touches) (leads_pure _)
  | cons thread waiters ih =>
    refine leads_modify_bind ((does_modifyFixedPool k id _).acts touches) (leads_get_bind ?_)
    split
    next waits =>
      refine leads_modify_bind ((does_modifyFixedPool _ id _).acts touches) ?_
      have waiting := waitMatches_iff.mp waits
      refine (acts_completeWait ?_ (wakes thread) (disarms thread)).returning
      exact waiting
    next => exact ih

theorem acts_freeFixed (touches : L (.touch (.fixedPool id)))
    (wakes : ∀ thread, L (.wake thread (.fixedPool id) 0 (some (BitVec.ofNat 32 address))))
    (disarms : ∀ thread, L (.disarm thread)) :
    Leads (Acts L) k (freeFixed id address) := by
  unfold freeFixed
  refine leads_get_bind (leads_orFail_bind fun pool found => leads_failIf_bind fun _ => ?_)
  refine leads_modify_bind ((does_modifyFixedPool k id _).acts touches) ?_
  exact acts_freeFixedLoop touches wakes disarms

/-! ### Variable pools -/

theorem acts_createVariablePool {spec : VariablePoolSpec} {guestRange : GuestRange}
    (creates : ∀ o, L (.create o)) : Leads (Acts L) k (createVariablePool spec guestRange) := by
  unfold createVariablePool
  refine leads_check_bind fun _ _ => leads_failIf_bind fun _ => leads_check_bind fun _ _ => ?_
  refine leads_get_bind (leads_check_bind ?_)
  rintro ⟨id, table⟩ inserted
  exact (does_insertVariablePool inserted).acts (creates _)

theorem acts_deleteVariablePool (lets : LetsDelete L k (.variablePool id)) :
    Leads (Acts L) k (deleteVariablePool id) := by
  unfold deleteVariablePool
  refine leads_get_bind (leads_orFail_bind fun pool found => leads_failIf_bind fun _ => ?_)
  refine leads_modify_bind ((does_removeVariablePool k id).acts lets.touches) ?_
  exact lets.releases (r := .variablePool pool) (by simp [record?, found])

theorem acts_allocateVariable {id size : ℕ} (sound : k.RunningSound)
    (lets : ∀ aligned, alignPoolSize size = .ok aligned →
      LetsWait L (.variablePool id) (.variablePool id aligned)) :
    Leads (Acts L) k (allocateVariable id size timeout context) := by
  unfold allocateVariable
  refine leads_check_bind fun aligned valid => ?_
  have lets := lets aligned valid
  refine leads_get_bind (leads_orFail_bind fun thread running => ?_)
  refine leads_get_bind (leads_orFail_bind fun pool found => ?_)
  split
  · exact leads_modify_bind ((does_modifyVariablePool k id _).acts lets.touches) (leads_pure _)
  · exact acts_enqueue ((does_modifyVariablePool k id _).acts lets.touches) sound lets.blocks
      lets.dispatches

theorem acts_freeVariableLoop (touches : L (.touch (.variablePool id)))
    (wakes : ∀ thread size block,
      L (.wake thread (.variablePool id size) 0 (some (BitVec.ofNat 32 block))))
    (disarms : ∀ thread, L (.disarm thread)) :
    Leads (Acts L) k (freeVariableLoop id waiters) := by
  induction waiters generalizing k with
  | nil => exact leads_pure _
  | cons thread waiters ih =>
    refine leads_get_bind ?_
    split
    next => exact ih
    next size waits =>
      refine leads_get_bind (leads_orFail_bind fun pool found => ?_)
      split
      next block pool' allocated =>
        refine leads_modify_bind ((does_modifyVariablePool k id _).acts touches) ?_
        have waiting := poolWaitOf_eq_some.mp waits
        refine (acts_completeWait ?_ (wakes thread size block) (disarms thread)).bind fun _ _ _ => ?_
        · exact waiting
        · exact ih.returning
      next => exact ih.returning

theorem acts_freeVariable (touches : L (.touch (.variablePool id)))
    (wakes : ∀ thread size block,
      L (.wake thread (.variablePool id size) 0 (some (BitVec.ofNat 32 block))))
    (disarms : ∀ thread, L (.disarm thread)) : Leads (Acts L) k (freeVariable id address) := by
  unfold freeVariable
  refine leads_get_bind (leads_orFail_bind fun pool found => leads_orFail_bind fun size _ => ?_)
  refine leads_modify_bind ((does_modifyVariablePool k id _).acts touches) ?_
  refine (acts_freeVariableLoop touches wakes disarms).bind fun _ k' _ => ?_
  refine leads_get_bind (leads_orFail_bind fun pool found => ?_)
  exact leads_modify_bind ((does_modifyVariablePool k' id _).acts touches) (leads_pure _)

end Upse
