import Upse.Bios.Kernel.Wakeups

/-!
# Resources are handed over once

The signals of a semaphore and its initial count balance its count and its acquisitions, and the
messages a box accepted are, in order, those it handed out followed by those it holds.  Both are
relations between a whole history and the state it leads to.
-/

namespace Upse

open ErrorState Kernel

variable {k k' : Kernel} {op : Op} {context : CpuContext} {id : ℕ}

/-! ### What an observer counts -/

/-- The successful signals of a semaphore in a call: one or none. -/
def Call.signals (id : ℕ) (call : Call) : ℕ :=
  match call.op, call.result with
  | .signalSemaphore o, .ok _ => if o = id then 1 else 0
  | _, _ => 0

/-- The acquisitions of a semaphore in a call: by its caller, or by the thread a signal woke. -/
def Call.acquisitions (id : ℕ) (call : Call) : ℕ :=
  match call.op, call.result with
  | .waitSemaphore o _, .ok (.acquired, _) => if o = id then 1 else 0
  | .pollSemaphore o, .ok _ => if o = id then 1 else 0
  | .signalSemaphore o, .ok (.woken (some _), _) => if o = id then 1 else 0
  | _, _ => 0

/-- The message a box accepted in a call. -/
def Call.accepted (id : ℕ) (call : Call) : List Word :=
  match call.op, call.result with
  | .sendMessage o message, .ok _ => if o = id then [message] else []
  | _, _ => []

/-- The second result register of a thread. -/
def Kernel.resultValue (k : Kernel) (thread : ℕ) : Option Word :=
  (k.threads.get thread).bind fun record => record.context.register v1

/-- The message a box handed out in a call: to its caller, or to the thread a send woke. -/
def Call.handedOut (id : ℕ) (call : Call) : List Word :=
  match call.op, call.result with
  | .receiveMessage o _, .ok (.word message, _) => if o = id then [message] else []
  | .pollMessage o, .ok (.word message, _) => if o = id then [message] else []
  | .sendMessage o _, .ok (.woken (some thread), _) =>
    if o = id then (call.after.resultValue thread).toList else []
  | _, _ => []

/-! ### Calls that move nothing -/

/-- A call that neither gives to an object nor takes from it: it does not name the object, fails, or
blocks its caller. -/
def Call.Silent (call : Call) (o : Obj) : Prop :=
  call.op.target ≠ some o ∨ (∃ e, call.result = .error e) ∨
    call.op.waitsOnObject = true ∧ ∃ action context, call.result = .ok (.action action, context)

variable {call : Call}

theorem Call.signals_of_unnamed (other : call.op.target ≠ some (.semaphore id)) :
    call.signals id = 0 ∧ call.acquisitions id = 0 := by
  obtain ⟨before, op, context, result, after⟩ := call
  cases op with
  | waitSemaphore o timeout =>
    have ne : o ≠ id := by rintro rfl; exact other rfl
    refine ⟨rfl, ?_⟩
    unfold Call.acquisitions
    split <;> simp_all
  | pollSemaphore o =>
    have ne : o ≠ id := by rintro rfl; exact other rfl
    refine ⟨rfl, ?_⟩
    unfold Call.acquisitions
    split <;> simp_all
  | signalSemaphore o =>
    have ne : o ≠ id := by rintro rfl; exact other rfl
    constructor
    · unfold Call.signals
      split <;> simp_all
    · unfold Call.acquisitions
      split <;> simp_all
  | _ => exact ⟨rfl, rfl⟩

theorem Call.accepted_of_unnamed (other : call.op.target ≠ some (.messageBox id)) :
    call.accepted id = [] ∧ call.handedOut id = [] := by
  obtain ⟨before, op, context, result, after⟩ := call
  cases op with
  | receiveMessage o timeout =>
    have ne : o ≠ id := by rintro rfl; exact other rfl
    refine ⟨rfl, ?_⟩
    unfold Call.handedOut
    split <;> simp_all
  | pollMessage o =>
    have ne : o ≠ id := by rintro rfl; exact other rfl
    refine ⟨rfl, ?_⟩
    unfold Call.handedOut
    split <;> simp_all
  | sendMessage o message =>
    have ne : o ≠ id := by rintro rfl; exact other rfl
    constructor
    · unfold Call.accepted
      split <;> simp_all
    · unfold Call.handedOut
      split <;> simp_all
  | _ => exact ⟨rfl, rfl⟩

theorem Call.signals_of_error {e : BiosError} (failed : call.result = .error e) :
    call.signals id = 0 ∧ call.acquisitions id = 0 := by
  constructor
  · unfold Call.signals
    split <;> simp_all
  · unfold Call.acquisitions
    split <;> simp_all

theorem Call.accepted_of_error {e : BiosError} (failed : call.result = .error e) :
    call.accepted id = [] ∧ call.handedOut id = [] := by
  constructor
  · unfold Call.accepted
    split <;> simp_all
  · unfold Call.handedOut
    split <;> simp_all

theorem Call.Silent.semaphore (h : call.Silent (.semaphore id)) :
    call.signals id = 0 ∧ call.acquisitions id = 0 := by
  rcases h with other | ⟨e, failed⟩ | ⟨waits, action, context, blocked⟩
  · exact Call.signals_of_unnamed other
  · exact Call.signals_of_error failed
  · obtain ⟨before, op, _, result, after⟩ := call
    subst blocked
    cases op <;> first | exact ⟨rfl, rfl⟩ | cases waits

theorem Call.Silent.messageBox (h : call.Silent (.messageBox id)) :
    call.accepted id = [] ∧ call.handedOut id = [] := by
  rcases h with other | ⟨e, failed⟩ | ⟨waits, action, context, blocked⟩
  · exact Call.accepted_of_unnamed other
  · exact Call.accepted_of_error failed
  · obtain ⟨before, op, _, result, after⟩ := call
    subst blocked
    cases op <;> first | exact ⟨rfl, rfl⟩ | cases waits

theorem step_blocked_outcome {thread : ℕ} (running : k.currentThread = some thread)
    (waits : k.MustWait op) (context : CpuContext) :
    (∃ e, outcome ((step op context).run k) = .error e) ∨
      ∃ action context', outcome ((step op context).run k) = .ok (.action action, context') := by
  obtain ⟨enqueue, reason, o, -, -, -, run⟩ := step_of_mustWait running waits context
  rw [run, run_map]
  cases (enqueueAndBlock enqueue op.timeout context reason).run k with
  | ok decision k' => exact .inr ⟨decision.1, decision.2, rfl⟩
  | error e k' => exact .inl ⟨e, rfl⟩

theorem Kernel.MustWait.waitsOnObject (h : k.MustWait op) : op.waitsOnObject = true := by
  cases op <;> first | rfl | exact h.elim

/-- How a call can change an object that is alive before and after it: only its queue, or by taking
from it, or by giving to it. -/
theorem step_record (sound : k.RunningSound) (op : Op) (context : CpuContext) {o : Obj}
    {r r' : ObjRecord} (found : k.record? o = some r)
    (found' : (leaves ((step op context).run k)).record? o = some r') :
    ((∃ waiters, r' = r.withWaiters waiters) ∧ (Call.of k op context).Silent o) ∨
    (op.target = some o ∧ ∃ reply k', (step op context).run k = .ok (reply, context) k' ∧
      k.Takes op reply k') ∨
    (op.target = some o ∧ op.takes = false ∧ op.deletes = none) := by
  have live : (leaves ((step op context).run k)).record? o ≠ none := by
    rw [found']
    exact Option.some_ne_none _
  by_cases named : op.target = some o
  swap
  · have lives : op ≠ .reset := by
      rintro rfl
      rw [reset_run] at live
      cases o <;> simp [record?, Kernel.new] at live
    obtain ⟨p, thinned⟩ := step_thinned sound lives context named
      (by rw [found]; exact Option.some_ne_none _)
    rw [found, found'] at thinned
    exact .inl ⟨⟨_, Option.some.inj thinned⟩, .inl named⟩
  by_cases takes : op.takes = true
  · obtain ⟨caller, running, waits⟩ | ⟨e, error⟩ | taken := step_takes takes context
    · obtain ⟨r₀, waiters, before, after⟩ := step_enqueues_record sound running waits context named
      cases found.symm.trans before
      rw [after] at found'
      refine .inl ⟨⟨waiters, (Option.some.inj found').symm⟩, .inr ?_⟩
      exact (step_blocked_outcome running waits context).imp_right fun ok => ⟨waits.waitsOnObject, ok⟩
    · rw [error, leaves_error, found] at found'
      cases found'
      refine .inl ⟨⟨r.waiters, r.withWaiters_waiters.symm⟩, .inr (.inl ⟨e, ?_⟩)⟩
      show outcome ((step op context).run k) = .error e
      rw [error]
      rfl
    · exact .inr (.inl ⟨named, taken⟩)
  · cases deletes : op.deletes with
    | none => exact .inr (.inr ⟨named, Bool.not_eq_true _ ▸ takes, rfl⟩)
    | some o' =>
      have same : o' = o := by
        cases op <;> first | cases deletes; cases named; rfl | cases deletes
      subst same
      rcases step_deletes (k := k) deletes context with ⟨e, error⟩ | ⟨r₀, -, run⟩
      · rw [error, leaves_error, found] at found'
        cases found'
        refine .inl ⟨⟨r.waiters, r.withWaiters_waiters.symm⟩, .inr (.inl ⟨e, ?_⟩)⟩
        show outcome ((step op context).run k) = .error e
        rw [error]
        rfl
      · have dead : (leaves ((step op context).run k)).record? o' = none := by
          rw [run]
          have releases : Leads (Acts (· ≠ .create o')) (k.without o')
            (releaseDeletedWaiters r₀.waiters) := acts_releaseDeletedWaiters (by simp) (by simp)
          exact (releases.map _).dead (by simp) (k.record?_without o')
        exact absurd dead live

/-! ### Semaphores -/

/-- The account of a semaphore over a call: what it holds, signals and acquisitions balance. -/
structure Semaphore.Balances (value value' : Semaphore) (signals acquisitions : ℕ) : Prop where
  maximum : value'.maximum = value.maximum
  bounded : value.count ≤ value.maximum → value'.count ≤ value'.maximum
  balance : value.count + signals = value'.count + acquisitions

theorem Semaphore.balances_refl (value : Semaphore) (waiters : List ℕ) :
    value.Balances { value with waiters := waiters } 0 0 := ⟨rfl, id, rfl⟩

theorem Semaphore.balances_take {value : Semaphore} (available : value.count ≠ 0) :
    value.Balances { value with count := value.count - 1 } 0 1 := by
  refine ⟨rfl, fun le => (Nat.sub_le _ _).trans le, ?_⟩
  show value.count + 0 = value.count - 1 + 1
  omega

theorem signalSemaphore_balances {value value' : Semaphore}
    (found : k.semaphores.get id = some value)
    (found' : (leaves ((signalSemaphore id).run k)).semaphores.get id = some value') :
    (∃ e, outcome ((signalSemaphore id).run k) = .error e ∧ value.Balances value' 0 0) ∨
    (outcome ((signalSemaphore id).run k) = .ok none ∧ value.Balances value' 1 0) ∨
    ∃ thread, outcome ((signalSemaphore id).run k) = .ok (some thread) ∧
      value.Balances value' 1 1 := by
  have queued (waiters : List ℕ) : (k.queueSemaphore id waiters).semaphores.get id =
      some { value with waiters := waiters } := by
    simp [queueSemaphore, modifySemaphore, FixedTable.get_modify, found]
  rw [signalSemaphore_run found] at found' ⊢
  cases still : k.stillWaiting (.semaphore id) value.waiters with
  | nil =>
    rw [still] at found'
    dsimp only at found' ⊢
    split at found'
    next full =>
      rw [leaves_error, queued, Option.some.injEq] at found'
      subst found'
      exact .inl ⟨_, by rw [if_pos full]; rfl, value.balances_refl []⟩
    next room =>
      have counted : ((k.queueSemaphore id []).addCount id).semaphores.get id =
          some { value with count := value.count + 1, waiters := [] } := by
        simp [addCount, queueSemaphore, modifySemaphore, FixedTable.get_modify, found]
      rw [leaves_ok, counted, Option.some.injEq] at found'
      subst found'
      refine .inr (.inl ⟨by rw [if_neg room]; rfl, rfl, fun le => ?_, rfl⟩)
      show value.count + 1 ≤ value.maximum
      omega
  | cons thread rest =>
    rw [still] at found'
    dsimp only at found' ⊢
    unfold Kernel.handedOver at found' ⊢
    split at found'
    next fit =>
      have same : ((k.queueSemaphore id rest).wake thread 0 none).semaphores.get id =
        (k.queueSemaphore id rest).semaphores.get id := rfl
      rw [leaves_ok, same, queued, Option.some.injEq] at found'
      subst found'
      exact .inr (.inr ⟨thread, by rw [if_pos fit]; rfl, rfl, fun le => le, rfl⟩)
    next full =>
      have same : ((k.queueSemaphore id rest).disarm thread).semaphores.get id =
        (k.queueSemaphore id rest).semaphores.get id := rfl
      rw [leaves_error, same, queued, Option.some.injEq] at found'
      subst found'
      exact .inl ⟨_, by rw [if_neg full]; rfl, value.balances_refl rest⟩

theorem step_balances (sound : k.RunningSound) (op : Op) (context : CpuContext)
    {value value' : Semaphore} (found : k.semaphores.get id = some value)
    (found' : (leaves ((step op context).run k)).semaphores.get id = some value') :
    value.Balances value' ((Call.of k op context).signals id)
      ((Call.of k op context).acquisitions id) := by
  have record : k.record? (.semaphore id) = some (.semaphore value) := by simp [record?, found]
  have record' : (leaves ((step op context).run k)).record? (.semaphore id) =
      some (.semaphore value') := by simp [record?, found']
  rcases step_record sound op context record record' with
    ⟨⟨waiters, same⟩, silent⟩ | ⟨named, reply, k', returned, taken⟩ | ⟨named, takes, deletes⟩
  · obtain ⟨signals, acquisitions⟩ := silent.semaphore
    rw [signals, acquisitions]
    cases same
    exact value.balances_refl waiters
  · have after : (k.takeCount id).record? (.semaphore id) =
        some (.semaphore { value with count := value.count - 1 }) := by
      simp [record?, takeCount, modifySemaphore, FixedTable.get_modify, found]
    cases taken with
    | waitSemaphore found'' available | pollSemaphore found'' available =>
      cases named
      rw [found] at found''
      cases found''
      rw [returned, leaves_ok, after] at record'
      cases record'
      simpa [Call.signals, Call.acquisitions, Call.of, returned, outcome] using
        Semaphore.balances_take available
    | _ => cases named
  · cases op with
    | signalSemaphore o =>
      cases named
      simp only [step, leaves_map] at found'
      have result : (Call.of k (.signalSemaphore id) context).result =
          (outcome ((signalSemaphore id).run k)).map fun woken => (.woken woken, context) :=
        outcome_map _ _ _
      have op : (Call.of k (.signalSemaphore id) context).op = .signalSemaphore id := rfl
      rcases signalSemaphore_balances found found' with
        ⟨e, error, balances⟩ | ⟨ok, balances⟩ | ⟨thread, ok, balances⟩
      · rw [error] at result
        simpa [Call.signals, Call.acquisitions, result, op, Except.map] using balances
      · rw [ok] at result
        simpa [Call.signals, Call.acquisitions, result, op, Except.map] using balances
      · rw [ok] at result
        simpa [Call.signals, Call.acquisitions, result, op, Except.map] using balances
    | waitSemaphore | pollSemaphore => cases takes
    | deleteSemaphore => cases deletes
    | _ => cases named

/-! ### Message boxes -/

theorem sendMessage_conserves {message : Word} {value value' : MessageBox}
    (found : k.messageBoxes.get id = some value)
    (found' : (leaves ((sendMessage id message).run k)).messageBoxes.get id = some value') :
    (∃ e, outcome ((sendMessage id message).run k) = .error e ∧
      value'.messages = value.messages) ∨
    (outcome ((sendMessage id message).run k) = .ok none ∧
      value'.messages = value.messages ++ [message]) ∨
    ∃ thread, outcome ((sendMessage id message).run k) = .ok (some thread) ∧
      value'.messages = value.messages ∧ value.waiters ≠ [] ∧
      (leaves ((sendMessage id message).run k)).resultValue thread = some message := by
  by_cases valid : message = 0 ∨ message &&& 3 ≠ 0
  · have error : (sendMessage id message).run k = .error (.kernel .illegalObject) k := by
      simp only [sendMessage, failIf, if_pos valid, run_bind, run_throw]
    rw [error, leaves_error, found, Option.some.injEq] at found'
    subst found'
    exact .inl ⟨_, by rw [error]; rfl, rfl⟩
  have queued (waiters : List ℕ) : (k.queueMessageBox id waiters).messageBoxes.get id =
      some { value with waiters := waiters } := by
    simp [queueMessageBox, modifyMessageBox, FixedTable.get_modify, found]
  rw [sendMessage_run valid found] at found' ⊢
  cases still : k.stillWaiting (.messageBox id) value.waiters with
  | nil =>
    rw [still] at found'
    dsimp only at found' ⊢
    have added : ((k.queueMessageBox id []).addMessage id message).messageBoxes.get id =
        some { value with messages := value.messages ++ [message], waiters := [] } := by
      simp [addMessage, queueMessageBox, modifyMessageBox, FixedTable.get_modify, found]
    rw [leaves_ok, added, Option.some.injEq] at found'
    subst found'
    exact .inr (.inl ⟨rfl, rfl⟩)
  | cons thread rest =>
    rw [still] at found'
    dsimp only at found' ⊢
    have waiting : (k.queueMessageBox id rest).waitReasonOf thread = some (.messageBox id) :=
      stillWaiting_eq_cons still
    unfold Kernel.handedOver at found' ⊢
    split at found'
    next fit =>
      have same : ((k.queueMessageBox id rest).wake thread 0 (some message)).messageBoxes.get id =
        (k.queueMessageBox id rest).messageBoxes.get id := rfl
      rw [leaves_ok, same, queued, Option.some.injEq] at found'
      subst found'
      obtain ⟨record, found'', -, received⟩ := received_wake waiting 0 message
      refine .inr (.inr ⟨thread, by rw [if_pos fit]; rfl, rfl, stillWaiting_ne_nil still, ?_⟩)
      rw [if_pos fit, leaves_ok, resultValue, found'']
      exact received
    next full =>
      have same : ((k.queueMessageBox id rest).disarm thread).messageBoxes.get id =
        (k.queueMessageBox id rest).messageBoxes.get id := rfl
      rw [leaves_error, same, queued, Option.some.injEq] at found'
      subst found'
      exact .inl ⟨_, by rw [if_neg full]; rfl, rfl⟩

/-- One call keeps the order of messages: what it hands out is the oldest, what it accepts the
newest. -/
theorem step_messages (sound : k.RunningSound) (op : Op) (context : CpuContext)
    {value value' : MessageBox} (found : k.messageBoxes.get id = some value)
    (calm : value.waiters ≠ [] → value.messages = [])
    (found' : (leaves ((step op context).run k)).messageBoxes.get id = some value') :
    value.messages ++ (Call.of k op context).accepted id =
      (Call.of k op context).handedOut id ++ value'.messages := by
  have record : k.record? (.messageBox id) = some (.messageBox value) := by simp [record?, found]
  have record' : (leaves ((step op context).run k)).record? (.messageBox id) =
      some (.messageBox value') := by simp [record?, found']
  rcases step_record sound op context record record' with
    ⟨⟨waiters, same⟩, silent⟩ | ⟨named, reply, k', returned, taken⟩ | ⟨named, takes, deletes⟩
  · obtain ⟨accepted, handedOut⟩ := silent.messageBox
    rw [accepted, handedOut, List.append_nil, List.nil_append]
    cases same
    rfl
  · cases taken with
    | @receiveMessage o _ _ message messages found'' holds
    | @pollMessage o _ message messages found'' holds =>
      cases named
      rw [found] at found''
      cases found''
      have after : (k.takeMessage id messages).record? (.messageBox id) =
          some (.messageBox { value with messages := messages }) := by
        simp [record?, takeMessage, modifyMessageBox, FixedTable.get_modify, found]
      rw [returned, leaves_ok, after] at record'
      cases record'
      simp [Call.accepted, Call.handedOut, Call.of, returned, outcome, holds]
    | _ => cases named
  · cases op with
    | sendMessage o message =>
      cases named
      have leaves_step : (Call.of k (.sendMessage id message) context).after =
          leaves ((sendMessage id message).run k) := leaves_map _ _ _
      simp only [step, leaves_map] at found'
      have result : (Call.of k (.sendMessage id message) context).result =
          (outcome ((sendMessage id message).run k)).map fun woken => (.woken woken, context) :=
        outcome_map _ _ _
      have op : (Call.of k (.sendMessage id message) context).op = .sendMessage id message := rfl
      rcases sendMessage_conserves found found' with
        ⟨e, error, same⟩ | ⟨ok, added⟩ | ⟨thread, ok, same, queued, received⟩
      · rw [error] at result
        simp [Call.accepted, Call.handedOut, result, op, Except.map, same]
      · rw [ok] at result
        simp [Call.accepted, Call.handedOut, result, op, Except.map, added]
      · rw [ok] at result
        rw [← leaves_step] at received
        simp [Call.accepted, Call.handedOut, result, op, Except.map, same, calm queued, received]
    | receiveMessage | pollMessage => cases takes
    | deleteMessageBox => cases deletes
    | _ => cases named

/-! ### Every run since the creation -/

theorem signalSemaphore_wakes {thread : ℕ}
    (woken : outcome ((signalSemaphore id).run k) = .ok (some thread)) :
    k.waitReasonOf thread = some (.semaphore id) ∧
      (leaves ((signalSemaphore id).run k)).waitReasonOf thread = none := by
  cases found : k.semaphores.get id with
  | none =>
    rw [signalSemaphore_unknown found] at woken
    cases woken
  | some value =>
    rw [signalSemaphore_run found] at woken ⊢
    cases still : k.stillWaiting (.semaphore id) value.waiters with
    | nil =>
      rw [still] at woken
      dsimp only at woken
      split at woken <;> cases woken
    | cons thread' rest =>
      rw [still] at woken
      dsimp only at woken ⊢
      unfold Kernel.handedOver at woken ⊢
      split at woken
      next fit =>
        cases woken
        refine ⟨stillWaiting_eq_cons still, ?_⟩
        rw [if_pos fit, leaves_ok, waitReasonOf_wake, if_pos rfl]
      next => cases woken

theorem semaphore_history {spec : SemaphoreSpec} (h : Reachable k)
    (found : k.semaphores.get id = some ⟨spec.initial, spec.maximum, spec.attributes, []⟩)
    (bounded : spec.initial ≤ spec.maximum) {calls : List Call} (run : Run Steps k calls k')
    (lives : ∀ call ∈ calls, call.after.semaphores.get id ≠ none) :
    ∃ value, k'.semaphores.get id = some value ∧ value.maximum = spec.maximum ∧
      value.count ≤ value.maximum ∧ spec.initial + (calls.map (·.signals id)).sum =
        value.count + (calls.map (·.acquisitions id)).sum := by
  have history := (run.restrict lives).history (H := fun calls a => Reachable a ∧
    ∃ value, a.semaphores.get id = some value ∧ value.maximum = spec.maximum ∧
      value.count ≤ value.maximum ∧ spec.initial + (calls.map (·.signals id)).sum =
        value.count + (calls.map (·.acquisitions id)).sum)
    ⟨h, _, found, rfl, bounded, rfl⟩ ?_
  · exact history.2
  · rintro calls a call b ⟨reachable, value, found, maximum, bounded, balance⟩ ⟨⟨eq, rfl⟩, lives⟩
    rw [eq] at lives ⊢
    obtain ⟨value', found'⟩ := Option.ne_none_iff_exists'.mp lives
    have balances := step_balances reachable.sound.running call.op call.context found found'
    refine ⟨reachable.step call.op call.context, value', found', ?_, balances.bounded bounded, ?_⟩
    · exact balances.maximum.trans maximum
    · have step := balances.balance
      rw [List.map_append, List.sum_append, List.map_append, List.sum_append, List.map_singleton,
        List.sum_singleton, List.map_singleton, List.sum_singleton]
      omega

theorem messageBox_history {spec : MessageBoxSpec} (h : Reachable k)
    (found : k.messageBoxes.get id = some ⟨spec.attributes, [], []⟩) {calls : List Call}
    (run : Run Steps k calls k') (lives : ∀ call ∈ calls, call.after.messageBoxes.get id ≠ none) :
    ∃ value, k'.messageBoxes.get id = some value ∧
      calls.flatMap (·.handedOut id) ++ value.messages = calls.flatMap (·.accepted id) := by
  have history := (run.restrict lives).history (H := fun calls a => Reachable a ∧
    ∃ value, a.messageBoxes.get id = some value ∧
      calls.flatMap (·.handedOut id) ++ value.messages = calls.flatMap (·.accepted id))
    ⟨h, _, found, rfl⟩ ?_
  · exact history.2
  · rintro calls a call b ⟨reachable, value, found, order⟩ ⟨⟨eq, rfl⟩, lives⟩
    rw [eq] at lives ⊢
    obtain ⟨value', found'⟩ := Option.ne_none_iff_exists'.mp lives
    have calm := reachable.calm (.messageBox id) (.messageBox value) (by simp [record?, found])
    have moved := step_messages reachable.sound.running call.op call.context found calm found'
    refine ⟨reachable.step call.op call.context, value', found', ?_⟩
    calc (calls ++ [Call.of a call.op call.context]).flatMap (·.handedOut id) ++ value'.messages
        = calls.flatMap (·.handedOut id) ++
            ((Call.of a call.op call.context).handedOut id ++ value'.messages) := by simp
      _ = (calls ++ [Call.of a call.op call.context]).flatMap (·.accepted id) := by
          rw [← moved, ← List.append_assoc, order]
          simp

/-- Since its creation, a semaphore's count stays within its maximum and its initial count and
successful signals equal its count and acquisitions, where a signal that reports a thread ended that
thread's wait on it; and a message box handed out and holds, in order, what it accepted. -/
theorem resources_conserved {k₀ : Kernel} (h : Reachable k₀) (create : Op) (context : CpuContext)
    (created : (Call.of k₀ create context).result = .ok (.handle id, context)) {calls : List Call}
    (run : Run Steps (Call.of k₀ create context).after calls k) :
    (∀ spec, create = .createSemaphore spec →
      (∀ call ∈ calls, call.after.semaphores.get id ≠ none) →
      ∃ value, k.semaphores.get id = some value ∧ value.maximum = spec.maximum ∧
        value.count ≤ value.maximum ∧ spec.initial + (calls.map (·.signals id)).sum =
          value.count + (calls.map (·.acquisitions id)).sum) ∧
    (∀ call ∈ calls, ∀ thread context, call.op = .signalSemaphore id →
      call.result = .ok (.woken (some thread), context) →
      call.before.waitReasonOf thread = some (.semaphore id) ∧
        call.after.waitReasonOf thread = none) ∧
    ∀ spec, create = .createMessageBox spec →
      (∀ call ∈ calls, call.after.messageBoxes.get id ≠ none) →
      ∃ value, k.messageBoxes.get id = some value ∧
        calls.flatMap (·.handedOut id) ++ value.messages = calls.flatMap (·.accepted id) := by
  have reachable : Reachable (Call.of k₀ create context).after := h.step create context
  -- the record the creating call left
  have new (creates : create.creates = true) : ∃ o r, create.Creates id o r ∧
      (Call.of k₀ create context).after.record? o = some r := by
    rcases step_creates (k := k₀) creates context with ⟨e, failed⟩ | ⟨id', o, r, k', ran, new, adds⟩
    · have error : (Call.of k₀ create context).result = .error e := by simp [Call.of, failed, outcome]
      rw [error] at created
      cases created
    · have ok : (Call.of k₀ create context).result = .ok (.handle id', context) := by
        simp [Call.of, ran, outcome]
      have after : (Call.of k₀ create context).after = k' := by simp [Call.of, ran]
      rw [ok] at created
      cases created
      exact ⟨o, r, new, after ▸ adds.added⟩
  refine ⟨?_, ?_, ?_⟩
  · rintro spec rfl lives
    obtain ⟨o, r, ⟨bounded⟩, record⟩ := new rfl
    obtain ⟨value, found, same⟩ := Option.map_eq_some_iff.mp record
    cases same
    exact semaphore_history reachable found bounded run lives
  · intro call member thread context signal woken
    have calls_of : ∀ call ∈ calls, call = Call.of call.before call.op call.context := by
      apply run.history (H := fun calls _ => ∀ call ∈ calls,
        call = Call.of call.before call.op call.context)
      · simp
      · rintro calls a call b all ⟨eq, -⟩ call' member
        rcases List.mem_append.mp member with old | new
        · exact all call' old
        · rw [List.mem_singleton.mp new, eq]
          rfl
    have eq := calls_of call member
    rw [signal] at eq
    rw [eq] at woken ⊢
    have result : (Call.of call.before (.signalSemaphore id) call.context).result =
        (outcome ((signalSemaphore id).run call.before)).map fun woken =>
          (.woken woken, call.context) := outcome_map _ _ _
    have after : (Call.of call.before (.signalSemaphore id) call.context).after =
        leaves ((signalSemaphore id).run call.before) := leaves_map _ _ _
    rw [after]
    apply signalSemaphore_wakes
    rw [result] at woken
    cases ran : outcome ((signalSemaphore id).run call.before) with
    | error e => rw [ran] at woken; cases woken
    | ok reply => rw [ran] at woken; cases woken; exact ran
  · rintro spec rfl lives
    obtain ⟨o, r, ⟨⟩, record⟩ := new rfl
    obtain ⟨value, found, same⟩ := Option.map_eq_some_iff.mp record
    cases same
    exact messageBox_history reachable found run lives

/-- Two signals, one to a queued thread and one counted, and a poll. -/
theorem resources_conserved_sample :
    let k₀ := Kernel.new.after sampleContext [.createThread (sampleThread 10) sampleRange,
      .startThread 1 0, .reschedule .hleReturn]
    let calls := (Call.of k₀ (.createSemaphore ⟨0, 2, 0⟩) sampleContext).after.history sampleContext
      [.waitSemaphore 1 none, .signalSemaphore 1, .signalSemaphore 1, .signalSemaphore 1,
        .pollSemaphore 1]
    let k := (Call.of k₀ (.createSemaphore ⟨0, 2, 0⟩) sampleContext).after.after sampleContext
      [.waitSemaphore 1 none, .signalSemaphore 1, .signalSemaphore 1, .signalSemaphore 1,
        .pollSemaphore 1]
    (calls.map (·.signals 1)).sum = 3 ∧ (calls.map (·.acquisitions 1)).sum = 2 ∧
      ∃ value, k.semaphores.get 1 = some value ∧ 0 + 3 = value.count + 2 := by
  intro k₀ calls k
  have signals : (calls.map (·.signals 1)).sum = 3 := by decide +kernel
  have acquisitions : (calls.map (·.acquisitions 1)).sum = 2 := by decide +kernel
  have created : (Call.of k₀ (.createSemaphore ⟨0, 2, 0⟩) sampleContext).result =
      .ok (.handle 1, sampleContext) := by decide +kernel
  have lives : ∀ call ∈ calls, call.after.semaphores.get 1 ≠ none := by decide +kernel
  obtain ⟨value, found, -, -, balance⟩ := (resources_conserved (reachable_new.after _ _) _ _ created
    (run_history _ _ _)).1 _ rfl lives
  rw [signals, acquisitions] at balance
  exact ⟨signals, acquisitions, value, found, balance⟩

end Upse
