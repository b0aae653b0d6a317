import Upse.Bios.Kernel.QueueRuns

/-!
# What a call does to the order of a queue

A call only takes threads out of the queue of an object, or inserts the running thread into it.
-/

namespace Upse

open ErrorState Kernel

variable {k k' : Kernel} {op : Op} {o : Obj}

namespace Kernel

/-- The object keeps its attributes, and of its waiters some, in their order. -/
def Thins (k k' : Kernel) (o : Obj) : Prop :=
  ∀ r', k'.record? o = some r' → ∃ r, k.record? o = some r ∧ r'.attributes = r.attributes ∧
    r'.waiters.Sublist r.waiters

theorem thins_of_eq (same : k'.record? o = k.record? o) : k.Thins k' o :=
  fun r' found => ⟨r', same ▸ found, rfl, .refl _⟩

theorem thins_of_record {r r' : ObjRecord} (before : k.record? o = some r)
    (after : k'.record? o = some r') (attributes : r'.attributes = r.attributes)
    (waiters : r'.waiters.Sublist r.waiters) : k.Thins k' o := by
  intro r'' found
  rw [after] at found
  cases found
  exact ⟨r, before, attributes, waiters⟩

@[simp] theorem attributes_withWaiters (waiters : List ℕ) (r : ObjRecord) :
    (r.withWaiters waiters).attributes = r.attributes := by
  cases r <;> rfl

theorem Thinned.thins (h : k.Thinned k' o) : k.Thins k' o := by
  obtain ⟨p, same⟩ := h
  intro r' found
  rw [same] at found
  obtain ⟨r, before, rfl⟩ := Option.map_eq_some_iff.mp found
  refine ⟨r, before, attributes_withWaiters _ r, ?_⟩
  rw [ObjRecord.waiters_thin]
  exact List.filter_sublist

/-! ### Taking -/

theorem allocateRegion_attributes {pool pool' : VariablePool} {size address : ℕ}
    (taken : allocateRegion pool size = some (address, pool')) : pool'.attributes = pool.attributes := by
  obtain ⟨_, _, _, _, -, -, -, rfl⟩ := allocateRegion_eq_some taken
  rfl

theorem Takes.thins {reply : Reply} (h : k.Takes op reply k') (target : op.target = some o) :
    k.Thins k' o := by
  cases h with
  | @waitSemaphore id _ semaphore found _ | @pollSemaphore id semaphore found _ =>
    cases target
    have before : k.record? (.semaphore id) = some (.semaphore semaphore) := by simp [record?, found]
    intro r' after
    have taken := (record?_modifySemaphore k id _ _).symm.trans after
    rw [if_pos rfl, found] at taken
    cases taken
    exact ⟨_, before, rfl, .refl _⟩
  | @waitEventFlag id pattern mode _ event found _ | @pollEventFlag id pattern mode event found _ =>
    cases target
    have before : k.record? (.eventFlag id) = some (.eventFlag event) := by simp [record?, found]
    intro r' after
    have taken := (record?_modifyEventFlag k id _ _).symm.trans after
    rw [if_pos rfl, found] at taken
    cases taken
    exact ⟨_, before, rfl, .refl _⟩
  | @receiveMessage id _ messageBox _ messages found _
  | @pollMessage id messageBox _ messages found _ =>
    cases target
    have before : k.record? (.messageBox id) = some (.messageBox messageBox) := by
      simp [record?, found]
    intro r' after
    have taken := (record?_modifyMessageBox k id _ _).symm.trans after
    rw [if_pos rfl, found] at taken
    cases taken
    exact ⟨_, before, rfl, .refl _⟩
  | @allocateFixed id _ pool address free found _ =>
    cases target
    have before : k.record? (.fixedPool id) = some (.fixedPool pool) := by simp [record?, found]
    intro r' after
    have taken := (record?_modifyFixedPool k id _ _).symm.trans after
    rw [if_pos rfl, found] at taken
    cases taken
    exact ⟨_, before, rfl, .refl _⟩
  | @allocateVariable id _ _ _ _ pool pool' found _ region =>
    cases target
    have before : k.record? (.variablePool id) = some (.variablePool pool) := by simp [record?, found]
    have after : (k.modifyVariablePool id fun _ => pool').record? (.variablePool id) =
        some (.variablePool pool') := by
      rw [record?_modifyVariablePool, if_pos rfl, found]
      rfl
    refine thins_of_record before after (allocateRegion_attributes region) ?_
    show pool'.waiters.Sublist pool.waiters
    rw [(allocateRegion_smaller region).1]

/-! ### Handing over -/

theorem record?_handedOver (k : Kernel) (thread : ℕ) (value : Option Word) (o : Obj) :
    (leaves (k.handedOver thread value)).record? o = k.record? o := by
  unfold handedOver
  split
  · exact record?_wake k thread 0 value o
  · exact record?_disarm k thread o

theorem stillWaiting_sublist {reason : WaitReason} {waiters rest : List ℕ} {thread : ℕ}
    (still : k.stillWaiting reason waiters = thread :: rest) : rest.Sublist waiters := by
  have tail : rest.Sublist (thread :: rest) := List.sublist_cons_self thread rest
  rw [← still] at tail
  exact tail.trans (List.dropWhile_sublist _)

theorem thins_signalSemaphore (k : Kernel) (id : ℕ) :
    k.Thins (leaves ((signalSemaphore id).run k)) (.semaphore id) := by
  cases found : k.semaphores.get id with
  | none =>
    rw [signalSemaphore_unknown found]
    exact thins_of_eq rfl
  | some value =>
    have before : k.record? (.semaphore id) = some (.semaphore value) := by simp [record?, found]
    rw [signalSemaphore_run found]
    cases still : k.stillWaiting (.semaphore id) value.waiters with
    | nil =>
      dsimp only
      split
      · exact thins_of_record before (record?_queueSemaphore found []) rfl (List.nil_sublist _)
      · exact thins_of_record before (record?_addCount found) rfl (List.nil_sublist _)
    | cons thread rest =>
      refine thins_of_record before ((record?_handedOver _ thread none _).trans
        (record?_queueSemaphore found rest)) rfl (stillWaiting_sublist still)

theorem thins_sendMessage (k : Kernel) (id : ℕ) (message : Word) :
    k.Thins (leaves ((sendMessage id message).run k)) (.messageBox id) := by
  by_cases valid : message = 0 ∨ message &&& 3 ≠ 0
  · rw [sendMessage_invalid valid]
    exact thins_of_eq rfl
  cases found : k.messageBoxes.get id with
  | none =>
    rw [sendMessage_unknown valid found]
    exact thins_of_eq rfl
  | some value =>
    have before : k.record? (.messageBox id) = some (.messageBox value) := by simp [record?, found]
    rw [sendMessage_run valid found]
    cases still : k.stillWaiting (.messageBox id) value.waiters with
    | nil => exact thins_of_record before (record?_addMessage found message) rfl (List.nil_sublist _)
    | cons thread rest =>
      exact thins_of_record before ((record?_handedOver _ thread _ _).trans
        (record?_queueMessageBox found rest)) rfl (stillWaiting_sublist still)

theorem thins_freeFixed (k : Kernel) (id address : ℕ) :
    k.Thins (leaves ((freeFixed id address).run k)) (.fixedPool id) := by
  cases found : k.fixedPools.get id with
  | none =>
    rw [freeFixed_unknown found]
    exact thins_of_eq rfl
  | some value =>
    by_cases used : address ∈ value.allocated
    · have before : k.record? (.fixedPool id) = some (.fixedPool value) := by simp [record?, found]
      rw [freeFixed_run found used]
      cases still : k.stillWaiting (.fixedPool id) value.waiters with
      | nil => exact thins_of_record before (record?_freeBlock found) rfl (List.nil_sublist _)
      | cons thread rest =>
        exact thins_of_record before ((record?_handedOver _ thread _ _).trans
          (record?_assignBlock found rest)) rfl (stillWaiting_sublist still)
    · rw [freeFixed_illegal found used]
      exact thins_of_eq rfl

/-! ### Serving a whole queue -/

theorem Serves.sublist {W : Type} {wants : Kernel → ℕ → Option W}
    {give : Kernel → W → Option (Word × Kernel)} {queued : List ℕ}
    {result : Option (List ℕ × List ℕ)} (h : k.Serves wants give queued result k') :
    ∀ r, result = some r → r.2.Sublist queued := by
  induction h with
  | done => rintro r ⟨⟩; exact .refl _
  | skip _ _ ih => exact fun r returned => (ih r returned).cons _
  | keep _ _ _ ih =>
    intro r returned
    obtain ⟨r', rfl, rfl⟩ := Option.map_eq_some_iff.mp returned
    exact (ih r' rfl).cons_cons _
  | serve _ _ _ _ ih =>
    intro r returned
    obtain ⟨r', rfl, rfl⟩ := Option.map_eq_some_iff.mp returned
    exact (ih r' rfl).cons _
  | full _ _ _ => rintro r ⟨⟩

theorem giveBits_attributes {id : ℕ} {wanted : Word × Word} {value : Word} {given : Kernel}
    (gave : k.giveBits id wanted = some (value, given)) :
    (given.record? (.eventFlag id)).map ObjRecord.attributes =
      (k.record? (.eventFlag id)).map ObjRecord.attributes := by
  unfold giveBits at gave
  obtain ⟨event, found, gave⟩ := Option.bind_eq_some_iff.mp gave
  split at gave
  · cases gave
    simp [record?, takeBits, modifyEventFlag, FixedTable.get_modify, found, ObjRecord.attributes]
  · cases gave

theorem giveRegion_attributes {id size : ℕ} {value : Word} {given : Kernel}
    (gave : k.giveRegion id size = some (value, given)) :
    (given.record? (.variablePool id)).map ObjRecord.attributes =
      (k.record? (.variablePool id)).map ObjRecord.attributes := by
  obtain ⟨pool, found, gave⟩ := Option.bind_eq_some_iff.mp gave
  obtain ⟨⟨block, pool'⟩, taken, gave⟩ := Option.map_eq_some_iff.mp gave
  cases gave
  have same := allocateRegion_attributes taken
  simp [record?, modifyVariablePool, FixedTable.get_modify, found, ObjRecord.attributes, same]

theorem thins_of_serves {W : Type} {wants : Kernel → ℕ → Option W}
    {give : Kernel → W → Option (Word × Kernel)} {start k'' : Kernel} {r : ObjRecord}
    {result : Option (List ℕ × List ℕ)} (before : k.record? o = some r)
    (rounds : start.Serves wants give r.waiters result k')
    (inHand : (start.record? o).map (fun r => (r.attributes, r.waiters)) = some (r.attributes, []))
    (attributes : ∀ k wanted value given, give k wanted = some (value, given) →
      (given.record? o).map ObjRecord.attributes = (k.record? o).map ObjRecord.attributes)
    (queues : ∀ k wanted value given, give k wanted = some (value, given) →
      given.queue? o = k.queue? o)
    (after : match result with
      | none => k'' = k'
      | some served => k''.record? o = (k'.record? o).map (·.withWaiters served.2)) :
    k.Thins k'' o := by
  have same := rounds.kept ObjRecord.attributes attributes
  have empty : (k'.record? o).map ObjRecord.waiters = _ := rounds.waiters queues
  obtain ⟨started, found, place⟩ := Option.map_eq_some_iff.mp inHand
  rw [queue?, found] at empty
  rw [found] at same
  obtain ⟨ended, found', -⟩ := Option.map_eq_some_iff.mp same
  rw [found'] at same empty
  have same' : ended.attributes = r.attributes :=
    (Option.some.inj same).trans (congrArg Prod.fst place)
  have empty' : ended.waiters = [] := (Option.some.inj empty).trans (congrArg Prod.snd place)
  cases result with
  | none =>
    rw [show k'' = k' from after]
    refine thins_of_record before found' same' ?_
    rw [empty']
    exact List.nil_sublist _
  | some served =>
    have after' : k''.record? o = some (ended.withWaiters served.2) := by
      rw [show k''.record? o = _ from after, found']
      rfl
    refine thins_of_record before after' ((attributes_withWaiters _ ended).trans same') ?_
    rw [ObjRecord.waiters_withWaiters]
    exact rounds.sublist served rfl

theorem thins_setEventFlag (k : Kernel) (id : ℕ) (bits : Word) :
    k.Thins (leaves ((setEventFlag id bits).run k)) (.eventFlag id) := by
  cases found : k.eventFlags.get id with
  | none =>
    rw [setEventFlag_unknown found]
    exact thins_of_eq rfl
  | some event =>
    obtain ⟨result, k', rounds, run⟩ := setEventFlag_run bits found
    have before : k.record? (.eventFlag id) = some (.eventFlag event) := by simp [record?, found]
    refine thins_of_serves before rounds ?_ (fun _ _ _ _ => giveBits_attributes)
      (fun _ _ _ _ => giveBits_queue) ?_
    · simp [record?, setBits, modifyEventFlag, FixedTable.get_modify, found, ObjRecord.waiters,
        ObjRecord.attributes]
    · rw [run]
      cases result with
      | none => rfl
      | some served =>
        refine (record?_modifyEventFlag k' id _ _).trans ?_
        rw [if_pos rfl, record?, Option.map_map]
        rfl

theorem thins_freeVariable (k : Kernel) (id address : ℕ) :
    k.Thins (leaves ((freeVariable id address).run k)) (.variablePool id) := by
  cases found : k.variablePools.get id with
  | none =>
    rw [freeVariable_unknown found]
    exact thins_of_eq rfl
  | some pool =>
    cases used : pool.allocated.lookup address with
    | none =>
      rw [freeVariable_illegal found used]
      exact thins_of_eq rfl
    | some size =>
      obtain ⟨result, k', rounds, run⟩ := freeVariable_run found used
      have before : k.record? (.variablePool id) = some (.variablePool pool) := by
        simp [record?, found]
      refine thins_of_serves before rounds ?_ (fun _ _ _ _ => giveRegion_attributes)
        (fun _ _ _ _ => giveRegion_queue) ?_
      · simp [record?, releaseRegion, modifyVariablePool, FixedTable.get_modify, found,
          ObjRecord.waiters, ObjRecord.attributes]
      · rw [run]
        cases result with
        | none => rfl
        | some served =>
          refine (record?_modifyVariablePool k' id _ _).trans ?_
          rw [if_pos rfl, record?, Option.map_map]
          rfl

theorem thins_clearEventFlag (k : Kernel) (id : ℕ) (mask : Word) :
    k.Thins (leaves ((clearEventFlag id mask).run k)) (.eventFlag id) := by
  cases found : k.eventFlags.get id with
  | none =>
    rw [clearEventFlag_unknown found]
    exact thins_of_eq rfl
  | some event =>
    have before : k.record? (.eventFlag id) = some (.eventFlag event) := by simp [record?, found]
    have cleared : (clearEventFlag id mask).run k = .ok event.bits
        (k.modifyEventFlag id fun event => { event with bits := event.bits &&& mask }) := by
      simp [clearEventFlag, run_bind, orFail, found]
    rw [cleared]
    intro r' after
    rw [leaves_ok, record?_modifyEventFlag, if_pos rfl, found] at after
    cases after
    exact ⟨_, before, rfl, .refl _⟩

/-! ### Any call -/

/-- An object after a call: its queue is empty, or has lost threads, or the running thread was
inserted. -/
def QueueStep (k k' : Kernel) (o : Obj) : Prop :=
  ∀ r', k'.record? o = some r' → r'.waiters = [] ∨ ∃ r, k.record? o = some r ∧
    r'.attributes = r.attributes ∧ (r'.waiters.Sublist r.waiters ∨ ∃ id, k.currentThread = some id ∧
      r'.waiters = insertWaiter r.waiters id r.attributes k.threads)

theorem Thins.queueStep (h : k.Thins k' o) : k.QueueStep k' o := by
  intro r' found
  obtain ⟨r, before, attributes, waiters⟩ := h r' found
  exact .inr ⟨r, before, attributes, .inl waiters⟩

end Kernel

theorem takes_queueStep (sound : k.RunningSound) (takes : op.takes = true)
    (target : op.target = some o) (context : CpuContext) :
    k.QueueStep (leaves ((step op context).run k)) o := by
  obtain ⟨id, running, waits⟩ | ⟨e, failed⟩ | ⟨reply, k', returned, taken⟩ := step_takes takes context
  · obtain ⟨k', reason, o', target', -, inserts, records, -⟩ := step_inserts sound running waits context
    obtain rfl := Option.some.inj (target'.symm.trans target)
    obtain ⟨-, -, r, before, after⟩ := inserts
    intro r' found
    rw [records, after] at found
    cases found
    refine .inr ⟨r, before, attributes_withWaiters _ r, .inr ⟨id, running, ?_⟩⟩
    rw [ObjRecord.waiters_withWaiters]
  · rw [failed]
    exact (thins_of_eq rfl).queueStep
  · rw [returned]
    exact (taken.thins target).queueStep

/-- A call takes threads out of a queue, or inserts the running thread into it. -/
theorem step_queueStep (sound : k.RunningSound) (op : Op) (context : CpuContext) (o : Obj) :
    k.QueueStep (leaves ((step op context).run k)) o := by
  intro r' found
  have live : (leaves ((step op context).run k)).record? o ≠ none := by
    rw [found]
    exact Option.some_ne_none r'
  rcases step_object sound op context live with ⟨-, -, thinned⟩ | ⟨-, id, r, k', run, new, adds⟩ |
    ⟨target, -⟩
  · exact thinned.thins.queueStep r' found
  · rw [run, leaves_ok, adds.added] at found
    cases found
    exact .inl (by cases new <;> rfl)
  · revert r'
    show k.QueueStep (leaves ((step op context).run k)) o
    by_cases takes : op.takes = true
    · exact takes_queueStep sound takes target context
    by_cases deletes : op.deletes = some o
    · rw [step_deletes_dead deletes context live]
      exact (thins_of_eq rfl).queueStep
    cases op with
    | deleteSemaphore | deleteEventFlag | deleteMessageBox | deleteFixedPool | deleteVariablePool =>
      exact absurd target deletes
    | signalSemaphore id =>
      cases target
      simp only [step, leaves_map]
      exact (thins_signalSemaphore k id).queueStep
    | sendMessage id message =>
      cases target
      simp only [step, leaves_map]
      exact (thins_sendMessage k id message).queueStep
    | freeFixed id address =>
      cases target
      simp only [step, leaves_map]
      exact (thins_freeFixed k id address).queueStep
    | setEventFlag id bits =>
      cases target
      simp only [step, leaves_map]
      exact (thins_setEventFlag k id bits).queueStep
    | clearEventFlag id mask =>
      cases target
      simp only [step, leaves_map]
      exact (thins_clearEventFlag k id mask).queueStep
    | freeVariable id address =>
      cases target
      simp only [step, leaves_map]
      exact (thins_freeVariable k id address).queueStep
    | waitSemaphore | pollSemaphore | waitEventFlag | pollEventFlag | receiveMessage | pollMessage
    | allocateFixed | allocateVariable => exact absurd rfl takes
    | _ => cases target

end Upse
