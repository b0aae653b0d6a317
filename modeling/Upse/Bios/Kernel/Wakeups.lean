import Upse.Bios.Kernel.PoolPartition

/-!
# No lost wake-up

In every reachable state no queued thread waits for something its object holds.  What a later waiter
consumes never satisfies an earlier one: bits are only cleared and free regions only shrink while a
queue is served.
-/

namespace Upse

open ErrorState Kernel

variable {k : Kernel}

/-- No queued thread waits for something the object holds. -/
def Kernel.CalmAt (k : Kernel) (o : Obj) : ObjRecord → Prop
  | .semaphore value => value.waiters ≠ [] → value.count = 0
  | .eventFlag value => ∀ thread ∈ value.waiters, ∀ id pattern mode, o = .eventFlag id →
      k.waitReasonOf thread = some (.eventFlag id pattern mode) →
      satisfied value.bits pattern mode = false
  | .messageBox value => value.waiters ≠ [] → value.messages = []
  | .fixedPool value => value.waiters ≠ [] → value.free = []
  | .variablePool value => ∀ thread ∈ value.waiters, ∀ id size, o = .variablePool id →
      k.waitReasonOf thread = some (.variablePool id size) → ∀ r ∈ value.free, r.size < size

/-- An object that is alive is calm. -/
def Kernel.Calm (k : Kernel) (o : Obj) : Prop := ∀ r, k.record? o = some r → k.CalmAt o r

namespace Kernel

variable {o : Obj}

theorem calmAt_of_empty {r : ObjRecord} (empty : r.waiters = []) : k.CalmAt o r := by
  cases r with
  | semaphore | messageBox | fixedPool => exact fun some => absurd empty some
  | eventFlag value =>
    intro thread member
    rw [show value.waiters = [] from empty] at member
    cases member
  | variablePool value =>
    intro thread member
    rw [show value.waiters = [] from empty] at member
    cases member

theorem CalmAt.thin {k' : Kernel} {r : ObjRecord} (h : k.CalmAt o r) (p : ℕ → Bool)
    (waits : ∀ thread reason, reason.object = some o → k'.waitReasonOf thread = some reason →
      k.waitReasonOf thread = some reason) : k'.CalmAt o (r.thin p) := by
  have shorter {waiters : List ℕ} (some : waiters.filter p ≠ []) : waiters ≠ [] := by
    rintro rfl
    exact some rfl
  cases r with
  | semaphore | messageBox | fixedPool => exact fun some => h (shorter some)
  | eventFlag value =>
    rintro thread member id pattern mode rfl waiting
    exact h thread (List.mem_of_mem_filter member) id pattern mode rfl (waits _ _ rfl waiting)
  | variablePool value =>
    rintro thread member id size rfl waiting
    exact h thread (List.mem_of_mem_filter member) id size rfl (waits _ _ rfl waiting)

theorem Calm.of_record {k' : Kernel} (h : k.Calm o) (record : k'.record? o = k.record? o)
    (waits : ∀ thread reason, k'.waitReasonOf thread = some reason →
      k.waitReasonOf thread = some reason) : k'.Calm o := by
  intro r found
  have calm := (h r (record ▸ found)).thin (fun _ => true) fun _ _ _ => waits _ _
  rwa [ObjRecord.thin_true] at calm

theorem Calm.wake (h : k.Calm o) (thread : ℕ) (result : ℤ) (value : Option Word) :
    (k.wake thread result value).Calm o := by
  apply h.of_record (record?_wake k thread result value o)
  intro other reason waiting
  rw [waitReasonOf_wake] at waiting
  split at waiting
  · cases waiting
  · exact waiting

theorem Calm.handedOver (h : k.Calm o) (thread : ℕ) (value : Option Word) :
    (leaves (k.handedOver thread value)).Calm o := by
  unfold Kernel.handedOver
  split
  · exact h.wake thread 0 value
  · exact h.of_record (record?_disarm k thread o) fun _ _ waiting => waiting

end Kernel

/-! ### What consumption does to other waits -/

theorem unsatisfied_of_subset {bits bits' pattern mode : Word} (fewer : bits' &&& bits = bits')
    (h : satisfied bits pattern mode = false) : satisfied bits' pattern mode = false := by
  unfold satisfied at *
  have part : bits' &&& pattern = bits' &&& (bits &&& pattern) := by
    rw [← BitVec.and_assoc, fewer]
  split at h
  next any =>
    rw [if_pos any]
    have none : bits &&& pattern = 0 := by simpa using h
    simp [part, none]
  next all =>
    rw [if_neg all]
    have differs : bits &&& pattern ≠ pattern := by simpa using h
    apply decide_eq_false
    intro same
    apply differs
    calc bits &&& pattern = bits &&& (bits' &&& pattern) := by rw [same]
      _ = bits' &&& bits &&& pattern := by rw [← BitVec.and_assoc, BitVec.and_comm bits]
      _ = pattern := by rw [fewer, same]

theorem consumedBits_subset (bits pattern mode : Word) :
    consumedBits bits pattern mode &&& bits = consumedBits bits pattern mode := by
  unfold consumedBits
  split
  · rw [BitVec.and_assoc, BitVec.and_comm _ bits, ← BitVec.and_assoc, BitVec.and_self]
  · exact BitVec.and_self

/-- First-fit allocation leaves no region larger than one it started from. -/
theorem allocateRegion_smaller {pool pool' : VariablePool} {size address : ℕ}
    (taken : allocateRegion pool size = some (address, pool')) :
    pool'.waiters = pool.waiters ∧ ∀ r' ∈ pool'.free, ∃ r ∈ pool.free, r'.size ≤ r.size := by
  obtain ⟨before, r, after, free, -, -, -, rfl⟩ := allocateRegion_eq_some taken
  refine ⟨rfl, fun r' member => ?_⟩
  rw [free]
  rcases List.mem_append.mp member with member | member
  · rcases List.mem_append.mp member with member | member
    · exact ⟨r', by simp [member], le_rfl⟩
    · refine ⟨r, by simp, ?_⟩
      split at member
      · cases member
      · rw [List.mem_singleton.mp member]
        exact Nat.sub_le _ _
  · exact ⟨r', by simp [member], le_rfl⟩

theorem allocateRegion_of_small {pool : VariablePool} {size : ℕ}
    (small : ∀ r ∈ pool.free, r.size < size) : allocateRegion pool size = none := by
  have none : pool.free.findIdx? (fun r => size ≤ r.size) = none := by
    rw [List.findIdx?_eq_none_iff]
    intro r member
    simpa using small r member
  simp [allocateRegion, none]

/-! ### Calls that name an object -/

variable {o : Obj} {id : ℕ} {given : Kernel}

theorem Kernel.Takes.calm {k' : Kernel} {op : Op} {reply : Reply}
    (h : k.Takes op reply k') (named : op.target = some o) (calm : k.Calm o) : k'.Calm o := by
  intro r after
  cases h with
  | waitSemaphore found available | pollSemaphore found available =>
    cases named
    have calm := calm _ (by simp only [record?, found]; rfl)
    rw [takeCount, record?_modifySemaphore, if_pos rfl, found] at after
    cases after
    exact fun some => absurd (calm some) available
  | waitEventFlag found holds | pollEventFlag found holds =>
    cases named
    have calm := calm _ (by simp only [record?, found]; rfl)
    rw [takeBits, record?_modifyEventFlag, if_pos rfl, found] at after
    cases after
    intro thread member id pattern mode same waiting
    exact unsatisfied_of_subset (consumedBits_subset _ _ _) (calm thread member id _ _ same waiting)
  | receiveMessage found messages | pollMessage found messages =>
    cases named
    have calm := calm _ (by simp only [record?, found]; rfl)
    rw [takeMessage, record?_modifyMessageBox, if_pos rfl, found] at after
    cases after
    intro some
    rw [calm some] at messages
    cases messages
  | allocateFixed found free =>
    cases named
    have calm := calm _ (by simp only [record?, found]; rfl)
    rw [takeBlock, record?_modifyFixedPool, if_pos rfl, found] at after
    cases after
    intro some
    rw [calm some] at free
    cases free
  | allocateVariable found valid region =>
    cases named
    have calm := calm _ (by simp only [record?, found]; rfl)
    rw [record?_modifyVariablePool, if_pos rfl, found] at after
    cases after
    obtain ⟨waiters, smaller⟩ := allocateRegion_smaller region
    intro thread member id size same waiting r' member'
    obtain ⟨r, old, le⟩ := smaller r' member'
    exact le.trans_lt (calm thread (waiters ▸ member) id size same waiting r old)

theorem Kernel.RunningSound.waitReasonOf (sound : k.RunningSound)
    (running : k.currentThread = some id) : k.waitReasonOf id = none := by
  obtain ⟨order, before⟩ := sound id running
  rw [waitReasonOf_eq_view, before]
  rfl

/-- A caller is queued only when the object cannot satisfy it. -/
theorem step_enqueues_calm (sound : k.RunningSound)
    (regions : ∀ id pool, k.variablePools.get id = some pool → ∀ r ∈ pool.free, r.Sound) {op : Op}
    {caller : ℕ} (running : k.currentThread = some caller) (waits : k.MustWait op)
    (context : CpuContext) (named : op.target = some o) (calm : k.Calm o) :
    (leaves ((step op context).run k)).Calm o := by
  obtain ⟨k', reason, o', target, reasons, ⟨-, -, r, waiters, before, after, perm⟩, records, origin⟩ :=
    step_enqueues sound running waits context
  rw [named] at target
  cases target
  have calm := calm r before
  -- a queued thread that waits was queued before, or is the caller with its new reason
  have queued {thread : ℕ} {reason' : WaitReason} (member : thread ∈ waiters)
      (waiting : (leaves ((step op context).run k)).waitReasonOf thread = some reason') :
      (thread ∈ r.waiters ∧ k.waitReasonOf thread = some reason') ∨ reason' = reason := by
    rcases origin thread reason' waiting with old | new
    · rcases List.mem_cons.mp (perm.mem_iff.mp member) with rfl | member
      · rw [sound.waitReasonOf running] at old
        cases old
      · exact .inl ⟨member, old⟩
    · exact .inr new
  intro r' found
  rw [records o, after] at found
  cases found
  cases op with
  | waitSemaphore id timeout =>
    cases named
    obtain ⟨semaphore, found, zero⟩ := waits
    simp only [record?, found, Option.map_some, Option.some.injEq] at before
    subst before
    exact fun _ => zero
  | waitEventFlag id pattern mode timeout =>
    cases named
    cases reasons
    obtain ⟨-, event, found, unsatisfied, -⟩ := waits
    simp only [record?, found, Option.map_some, Option.some.injEq] at before
    subst before
    intro thread member id' pattern' mode' same waiting
    rcases queued member waiting with ⟨old, was⟩ | new
    · exact calm thread old id' pattern' mode' same was
    · cases new
      exact unsatisfied
  | receiveMessage id timeout =>
    cases named
    obtain ⟨box, found, empty⟩ := waits
    simp only [record?, found, Option.map_some, Option.some.injEq] at before
    subst before
    exact fun _ => empty
  | allocateFixed id timeout =>
    cases named
    obtain ⟨pool, found, empty⟩ := waits
    simp only [record?, found, Option.map_some, Option.some.injEq] at before
    subst before
    exact fun _ => empty
  | allocateVariable id size timeout =>
    cases named
    obtain ⟨aligned, valid, rfl⟩ := reasons
    obtain ⟨aligned', pool, valid', found, full⟩ := waits
    rw [valid] at valid'
    cases valid'
    simp only [record?, found, Option.map_some, Option.some.injEq] at before
    subst before
    have small := allocateRegion_eq_none (regions id pool found) full
    intro thread member id' size' same waiting
    rcases queued member waiting with ⟨old, was⟩ | new
    · exact calm thread old id' size' same was
    · cases new
      exact small
  | _ => exact waits.elim

theorem step_takes_calm (sound : k.RunningSound)
    (regions : ∀ id pool, k.variablePools.get id = some pool → ∀ r ∈ pool.free, r.Sound) {op : Op}
    (takes : op.takes = true) (context : CpuContext) (named : op.target = some o)
    (calm : k.Calm o) : (leaves ((step op context).run k)).Calm o := by
  obtain ⟨caller, running, waits⟩ | ⟨e, failed⟩ | ⟨reply, k', returned, taken⟩ := step_takes takes context
  · exact step_enqueues_calm sound regions running waits context named calm
  · rw [failed]
    exact calm
  · rw [returned]
    exact taken.calm named calm

/-! ### Hand-overs -/

theorem Kernel.stillWaiting_ne_nil {reason : WaitReason} {waiters rest : List ℕ} {thread : ℕ}
    (still : k.stillWaiting reason waiters = thread :: rest) : waiters ≠ [] := by
  rintro rfl
  cases still

theorem Kernel.calm_of_record {r : ObjRecord} (found : k.record? o = some r)
    (calm : k.CalmAt o r) : k.Calm o := by
  intro r' found'
  rw [found] at found'
  cases found'
  exact calm

theorem signalSemaphore_calm (calm : k.Calm (.semaphore id)) :
    (leaves ((signalSemaphore id).run k)).Calm (.semaphore id) := by
  cases found : k.semaphores.get id with
  | none =>
    rw [signalSemaphore_unknown found]
    exact calm
  | some value =>
    have before := calm _ (by simp only [record?, found]; rfl)
    rw [signalSemaphore_run found]
    split
    next =>
      split
      · exact calm_of_record (record?_queueSemaphore found []) (calmAt_of_empty rfl)
      · exact calm_of_record (record?_addCount found) (calmAt_of_empty rfl)
    next thread rest still =>
      apply Kernel.Calm.handedOver
      apply calm_of_record (record?_queueSemaphore found rest)
      exact fun _ => before (stillWaiting_ne_nil still)

theorem sendMessage_calm (calm : k.Calm (.messageBox id)) (message : Word) :
    (leaves ((sendMessage id message).run k)).Calm (.messageBox id) := by
  by_cases valid : message = 0 ∨ message &&& 3 ≠ 0
  · rw [sendMessage_invalid valid]
    exact calm
  cases found : k.messageBoxes.get id with
  | none =>
    rw [sendMessage_unknown valid found]
    exact calm
  | some value =>
    have before := calm _ (by simp only [record?, found]; rfl)
    rw [sendMessage_run valid found]
    split
    next => exact calm_of_record (record?_addMessage found message) (calmAt_of_empty rfl)
    next thread rest still =>
      apply Kernel.Calm.handedOver
      apply calm_of_record (record?_queueMessageBox found rest)
      exact fun _ => before (stillWaiting_ne_nil still)

theorem freeFixed_calm (calm : k.Calm (.fixedPool id)) (address : ℕ) :
    (leaves ((freeFixed id address).run k)).Calm (.fixedPool id) := by
  cases found : k.fixedPools.get id with
  | none =>
    rw [freeFixed_unknown found]
    exact calm
  | some value =>
    by_cases used : address ∈ value.allocated
    · have before := calm _ (by simp only [record?, found]; rfl)
      rw [freeFixed_run found used]
      split
      next => exact calm_of_record (record?_freeBlock found) (calmAt_of_empty rfl)
      next thread rest still =>
        apply Kernel.Calm.handedOver
        apply calm_of_record (record?_assignBlock found rest)
        exact fun _ => before (stillWaiting_ne_nil still)
    · rw [freeFixed_illegal found used]
      exact calm

/-! ### Queues served as a whole -/

theorem Kernel.Serves.kept {W α : Type} {wants : Kernel → ℕ → Option W}
    {give : Kernel → W → Option (Word × Kernel)} (f : ObjRecord → α)
    (keeps : ∀ k wanted value given, give k wanted = some (value, given) →
      (given.record? o).map f = (k.record? o).map f) {queued : List ℕ}
    {result : Option (List ℕ × List ℕ)} {k' : Kernel} (h : k.Serves wants give queued result k') :
    (k'.record? o).map f = (k.record? o).map f := by
  induction h with
  | done => rfl
  | skip _ _ ih => exact ih
  | keep _ _ _ ih => exact ih
  | serve _ gave _ _ ih => rw [ih, record?_wake, keeps _ _ _ _ gave]
  | full _ gave _ => rw [record?_disarm, keeps _ _ _ _ gave]

theorem Kernel.Serves.waiters {W : Type} {wants : Kernel → ℕ → Option W}
    {give : Kernel → W → Option (Word × Kernel)}
    (keeps : ∀ k wanted value given, give k wanted = some (value, given) →
      given.queue? o = k.queue? o) {queued : List ℕ} {result : Option (List ℕ × List ℕ)}
    {k' : Kernel} (h : k.Serves wants give queued result k') : k'.queue? o = k.queue? o :=
  h.kept ObjRecord.waiters keeps

variable {value : Word}

theorem giveBits_queue {wanted : Word × Word}
    (gave : k.giveBits id wanted = some (value, given)) :
    given.queue? (.eventFlag id) = k.queue? (.eventFlag id) := by
  unfold giveBits at gave
  obtain ⟨event, found, gave⟩ := Option.bind_eq_some_iff.mp gave
  split at gave
  · cases gave
    simp [queue?, record?, takeBits, modifyEventFlag, FixedTable.get_modify, found, ObjRecord.waiters]
  · cases gave

theorem giveRegion_queue {id size : ℕ}
    (gave : k.giveRegion id size = some (value, given)) :
    given.queue? (.variablePool id) = k.queue? (.variablePool id) := by
  obtain ⟨pool, found, gave⟩ := Option.bind_eq_some_iff.mp gave
  obtain ⟨⟨block, pool'⟩, taken, gave⟩ := Option.map_eq_some_iff.mp gave
  cases gave
  obtain ⟨waiters, -⟩ := allocateRegion_smaller taken
  simp [queue?, record?, modifyVariablePool, FixedTable.get_modify, found, ObjRecord.waiters, waiters]

/-- A flag that could not satisfy a wait cannot satisfy it after another one was served. -/
theorem giveBits_harder {id thread : ℕ} {wanted other : Word × Word}
    (gave : k.giveBits id wanted = some (value, given)) (unsatisfied : k.giveBits id other = none) :
    (given.wake thread 0 (some value)).giveBits id other = none := by
  unfold giveBits at gave unsatisfied
  obtain ⟨event, found, gave⟩ := Option.bind_eq_some_iff.mp gave
  rw [found] at unsatisfied
  split at gave
  · cases gave
    have found' : ((k.takeBits id wanted.1 wanted.2).wake thread 0 (some event.bits)).eventFlags.get
        id = some { event with bits := consumedBits event.bits wanted.1 wanted.2 } := by
      change (k.takeBits id wanted.1 wanted.2).eventFlags.get id = _
      simp [takeBits, modifyEventFlag, FixedTable.get_modify, found]
    have before : satisfied event.bits other.1 other.2 = false := by simpa using unsatisfied
    have after := unsatisfied_of_subset (consumedBits_subset _ wanted.1 wanted.2) before
    simp [giveBits, found', after]
  · cases gave

theorem giveRegion_harder {id thread size other : ℕ} {spec : VariablePoolSpec}
    (divides : k.VariableDivides id spec)
    (gave : k.giveRegion id size = some (value, given)) (full : k.giveRegion id other = none) :
    (given.wake thread 0 (some value)).giveRegion id other = none := by
  obtain ⟨pool, found, gave⟩ := Option.bind_eq_some_iff.mp gave
  obtain ⟨⟨block, pool'⟩, taken, gave⟩ := Option.map_eq_some_iff.mp gave
  cases gave
  obtain ⟨-, smaller⟩ := allocateRegion_smaller taken
  have none : allocateRegion pool other = none := by simpa [giveRegion, found] using full
  have small := allocateRegion_eq_none (divides pool found).free_sound none
  have found' : ((k.modifyVariablePool id fun _ => pool').wake thread 0
      (some (BitVec.ofNat 32 block))).variablePools.get id = some pool' := by
    change (k.modifyVariablePool id fun _ => pool').variablePools.get id = _
    simp [modifyVariablePool, FixedTable.get_modify, found]
  have none' : allocateRegion pool' other = Option.none := by
    apply allocateRegion_of_small
    intro r' member
    obtain ⟨r, old, le⟩ := smaller r' member
    exact le.trans_lt (small r old)
  simp [giveRegion, found', none']

theorem setEventFlag_calm (calm : k.Calm (.eventFlag id)) (bits : Word) :
    (leaves ((setEventFlag id bits).run k)).Calm (.eventFlag id) := by
  cases found : k.eventFlags.get id with
  | none =>
    rw [setEventFlag_unknown found]
    exact calm
  | some event =>
    obtain ⟨result, k', rounds, run⟩ := setEventFlag_run bits found
    have emptied : (k.setBits id bits).queue? (.eventFlag id) = some [] := by
      simp [queue?, record?, setBits, modifyEventFlag, FixedTable.get_modify, found,
        ObjRecord.waiters]
    rw [run]
    cases result with
    | none =>
      intro r found'
      have queue := rounds.waiters fun _ _ _ _ gave => giveBits_queue gave
      rw [emptied, queue?, show k'.record? (.eventFlag id) = some r from found'] at queue
      exact calmAt_of_empty (Option.some.inj queue)
    | some r =>
      obtain ⟨-, -, retained⟩ := rounds.retained (serving_eventFlag id) (I := fun _ => True)
        (fun _ _ _ _ _ _ gave _ => ⟨trivial, fun _ => giveBits_harder gave⟩) trivial
        (Option.some_ne_none r)
      intro r' after
      change (k'.queueEventFlag id r.2).record? (.eventFlag id) = some r' at after
      rw [queueEventFlag, record?_modifyEventFlag, if_pos rfl] at after
      obtain ⟨event', found', rfl⟩ := Option.map_eq_some_iff.mp after
      intro thread member id' pattern mode same waiting
      cases same
      obtain ⟨wanted, wants, unsatisfied⟩ := retained r rfl thread member
      have waits : k'.eventWaitOf id thread = some (pattern, mode) := eventWaitOf_eq_some.mpr waiting
      rw [show k'.eventWaitOf id thread = some wanted from wants] at waits
      cases waits
      simpa [giveBits, found'] using unsatisfied

theorem clearEventFlag_calm (calm : k.Calm (.eventFlag id)) (mask : Word) :
    (leaves ((clearEventFlag id mask).run k)).Calm (.eventFlag id) := by
  cases found : k.eventFlags.get id with
  | none =>
    rw [clearEventFlag_unknown found]
    exact calm
  | some event =>
    have before := calm _ (by simp only [record?, found]; rfl)
    have cleared : (clearEventFlag id mask).run k = .ok event.bits
        (k.modifyEventFlag id fun event => { event with bits := event.bits &&& mask }) := by
      simp [clearEventFlag, run_bind, orFail, found]
    rw [cleared]
    intro r after
    rw [leaves_ok, record?_modifyEventFlag, if_pos rfl, found] at after
    cases after
    intro thread member id' pattern mode same waiting
    have subset : event.bits &&& mask &&& event.bits = event.bits &&& mask := by
      rw [BitVec.and_assoc, BitVec.and_comm mask, ← BitVec.and_assoc, BitVec.and_self]
    exact unsatisfied_of_subset subset (before thread member id' pattern mode same waiting)

theorem freeVariable_calm {spec : VariablePoolSpec} (divides : k.VariableDivides id spec)
    (aligned : k.SizesAligned id) (calm : k.Calm (.variablePool id)) (address : ℕ) :
    (leaves ((freeVariable id address).run k)).Calm (.variablePool id) := by
  cases found : k.variablePools.get id with
  | none =>
    rw [freeVariable_unknown found]
    exact calm
  | some pool =>
    cases used : pool.allocated.lookup address with
    | none =>
      rw [freeVariable_illegal found used]
      exact calm
    | some size =>
      obtain ⟨result, k', rounds, run⟩ := freeVariable_run found used
      have emptied : (k.releaseRegion id address size).queue? (.variablePool id) = some [] := by
        simp [queue?, record?, releaseRegion, modifyVariablePool, FixedTable.get_modify, found,
          ObjRecord.waiters]
      have released := divides.release found used
      rw [run]
      cases result with
      | none =>
        intro r found'
        have queue := rounds.waiters fun _ _ _ _ gave => giveRegion_queue gave
        rw [emptied, queue?, show k'.record? (.variablePool id) = some r from found'] at queue
        exact calmAt_of_empty (Option.some.inj queue)
      | some r =>
        obtain ⟨⟨divides', -⟩, -, retained⟩ := rounds.retained (serving_variablePool id)
          (I := fun a => a.VariableDivides id spec ∧ a.SizesAligned id)
          (fun a thread wanted value given wants gave holds =>
            ⟨giveRegion_keeps wants gave holds.1 holds.2, fun _ => giveRegion_harder holds.1 gave⟩)
          ⟨released, aligned⟩ (Option.some_ne_none r)
        intro r' after
        change (k'.queueVariablePool id r.2).record? (.variablePool id) = some r' at after
        rw [queueVariablePool, record?_modifyVariablePool, if_pos rfl] at after
        obtain ⟨pool', found', rfl⟩ := Option.map_eq_some_iff.mp after
        intro thread member id' wanted' same waiting
        cases same
        obtain ⟨wanted, wants, full⟩ := retained r rfl thread member
        have waits : k'.poolWaitOf id thread = some wanted' := poolWaitOf_eq_some.mpr waiting
        rw [show k'.poolWaitOf id thread = some wanted from wants] at waits
        cases waits
        have none : allocateRegion pool' wanted' = none := by simpa [giveRegion, found'] using full
        have small := allocateRegion_eq_none (divides' pool' found').free_sound none
        exact small

/-! ### Every run -/

theorem step_named_calm {calls : List Call} (partitioned : k.Partitioned calls) {op : Op}
    (named : op.target = some o) (calm : k.Calm o) (context : CpuContext) :
    (leaves ((step op context).run k)).Calm o := by
  have sound := partitioned.sound.running
  have regions (id : ℕ) (pool : VariablePool) (found : k.variablePools.get id = some pool) :
      ∀ r ∈ pool.free, r.Sound := by
    obtain ⟨spec, guestRange, -, -, -, divides⟩ :=
      partitioned.variablePools id (by simp [record?, found])
    exact (divides pool found).free_sound
  have mapped {α : Type} {m : KernelM α} {f : α → Reply × CpuContext}
      (calm : (leaves (m.run k)).Calm o) : (leaves ((f <$> m).run k)).Calm o := by
    rw [run_map]
    cases run : m.run k <;> rw [run] at calm <;> exact calm
  have deleted (deletes : op.deletes = some o) : (leaves ((step op context).run k)).Calm o := by
    intro r found
    have kept := step_deletes_dead (k := k) deletes context (by rw [found]; exact Option.some_ne_none r)
    rw [kept] at found ⊢
    exact calm r found
  cases op with
  | deleteSemaphore | deleteEventFlag | deleteMessageBox | deleteFixedPool | deleteVariablePool =>
    exact deleted named
  | waitSemaphore | pollSemaphore | waitEventFlag | pollEventFlag | receiveMessage | pollMessage
  | allocateFixed | allocateVariable => exact step_takes_calm sound regions rfl context named calm
  | signalSemaphore =>
    cases named
    exact mapped (signalSemaphore_calm calm)
  | setEventFlag =>
    cases named
    exact mapped (setEventFlag_calm calm _)
  | clearEventFlag =>
    cases named
    exact mapped (clearEventFlag_calm calm _)
  | sendMessage =>
    cases named
    exact mapped (sendMessage_calm calm _)
  | freeFixed =>
    cases named
    exact mapped (freeFixed_calm calm _)
  | freeVariable id address =>
    cases named
    by_cases live : k.record? (.variablePool id) = none
    · have dead : k.variablePools.get id = none := by simpa [record?] using live
      exact mapped (by rw [freeVariable_unknown dead]; exact calm)
    · obtain ⟨spec, guestRange, -, -, -, divides⟩ := partitioned.variablePools id live
      exact mapped (freeVariable_calm divides (partitioned.sizesAligned id) calm address)
  | _ => cases named

theorem step_calm {calls : List Call} (partitioned : k.Partitioned calls)
    (calm : ∀ o, k.Calm o) (op : Op) (context : CpuContext) (o : Obj) :
    (leaves ((step op context).run k)).Calm o := by
  have sound := partitioned.sound.running
  intro r found
  have live : (leaves ((step op context).run k)).record? o ≠ none := by
    rw [found]
    exact Option.some_ne_none r
  rcases step_object sound op context live with
    ⟨other, before, p, thinned⟩ | ⟨-, id, r', k', run, new, adds⟩ | ⟨named, -⟩
  · have lives : op ≠ .reset := by
      rintro rfl
      rw [reset_run] at live
      cases o <;> simp [record?, Kernel.new] at live
    rw [found] at thinned
    obtain ⟨r', before, rfl⟩ := Option.map_eq_some_iff.mp thinned.symm
    exact (calm o r' before).thin p fun thread reason object waiting =>
      step_wait_origin sound lives context other object waiting
  · rw [run, leaves_ok, adds.added] at found
    cases found
    cases new <;> exact calmAt_of_empty rfl
  · exact step_named_calm partitioned named (calm o) context r found

theorem Reachable.calm (h : Reachable k) (o : Obj) : k.Calm o := by
  obtain ⟨calls, run⟩ := h
  have both : k.Partitioned calls ∧ ∀ o, k.Calm o := by
    refine run.history (H := fun calls a => a.Partitioned calls ∧ ∀ o, a.Calm o) ?_ ?_
    · refine ⟨partitioned_new, fun o r found => ?_⟩
      cases o <;> simp [record?, Kernel.new] at found
    · rintro calls a call b ⟨partitioned, calm⟩ ⟨eq, rfl⟩
      rw [eq]
      exact ⟨partitioned.step call.op call.context,
        step_calm partitioned calm call.op call.context⟩
  exact both.2 o

end Upse
