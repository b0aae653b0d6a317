import Upse.Bios.Kernel.QueueSteps

/-!
# The order of priority queues

An object with the priority attribute keeps its waiters in the order of their priority numbers: a
newcomer is put behind its equals, and no call reorders those that stay.  The numbers themselves are
the threads' own, so a change of the number of a queued thread can leave its queue out of order.
-/

namespace Upse

open ErrorState Kernel WaitQueues

variable {k k' : Kernel} {op : Op} {o : Obj}

/-! ### Priorities across a call -/

namespace Kernel

/-- Every thread there is was there before, with the same priority. -/
def KeepsPriorities (k k' : Kernel) : Prop :=
  ∀ id thread', k'.threads.get id = some thread' →
    ∃ thread, k.threads.get id = some thread ∧ thread'.currentPriority = thread.currentPriority

instance : Std.Refl KeepsPriorities := ⟨fun _ _ thread found => ⟨thread, found, rfl⟩⟩

instance : IsTrans Kernel KeepsPriorities where
  trans a b c ab bc id thread'' found'' := by
    obtain ⟨thread', found', same'⟩ := bc id thread'' found''
    obtain ⟨thread, found, same⟩ := ab id thread' found'
    exact ⟨thread, found, same'.trans same⟩

theorem keepsPriorities_of_threads (same : k'.threads = k.threads) : k.KeepsPriorities k' :=
  fun _ thread found => ⟨thread, same ▸ found, rfl⟩

theorem keepsPriorities_modifyThread {id : ℕ} {f : Thread → Thread}
    (changed : k'.threads = (k.modifyThread id f).threads)
    (keeps : ∀ thread, (f thread).currentPriority = thread.currentPriority) :
    k.KeepsPriorities k' := by
  intro other thread' found'
  rw [changed, get_modifyThread] at found'
  split at found'
  next same =>
    obtain ⟨thread, found, rfl⟩ := Option.map_eq_some_iff.mp found'
    exact ⟨thread, same ▸ found, keeps thread⟩
  next => exact ⟨thread', found', rfl⟩

theorem keepsPriorities_remove {id : ℕ} (removed : k'.threads = (k.threads.remove id).2) :
    k.KeepsPriorities k' := by
  intro other thread' found'
  rw [removed, FixedTable.get_remove] at found'
  split at found'
  · cases found'
  · exact ⟨thread', found', rfl⟩

/-- Only starting a thread sets its priority, and only creating one brings in a new one. -/
theorem Does.keepsPriorities {act : Act} (h : Does k act k') (spawns : act ≠ .spawn)
    (adjusts : act ≠ .adjust) (starts : ∀ id, act ≠ .start id) : k.KeepsPriorities k' := by
  cases h with
  | spawn => exact absurd rfl spawns
  | adjust => exact absurd rfl adjusts
  | start => exact absurd rfl (starts _)
  | reap => exact keepsPriorities_remove rfl
  | erase => exact keepsPriorities_remove rfl
  | wake _ _ => exact keepsPriorities_modifyThread rfl fun _ => rfl
  | exit _ => exact keepsPriorities_modifyThread rfl fun _ => rfl
  | block _ _ => exact keepsPriorities_modifyThread rfl fun _ => rfl
  | stall _ _ => exact keepsPriorities_modifyThread rfl fun _ => rfl
  | preempt _ _ => exact keepsPriorities_modifyThread rfl fun _ => rfl
  | dispatch _ _ => exact keepsPriorities_modifyThread rfl fun _ => rfl
  | save _ => exact keepsPriorities_modifyThread rfl fun _ => rfl
  | create core _ _ => exact keepsPriorities_of_threads (congrArg Kernel.threads core :)
  | touch core _ _ => exact keepsPriorities_of_threads (congrArg Kernel.threads core :)
  | unqueue _ =>
    exact keepsPriorities_of_threads (congrArg Kernel.threads (core_removeWaiter k _ _) :)
  | _ => exact keepsPriorities_of_threads rfl

end Kernel

/-- A change that neither sets a field of a thread nor brings in a thread. -/
def Act.Neutral (act : Act) : Prop := act ≠ .spawn ∧ act ≠ .adjust ∧ ∀ id, act ≠ .start id

theorem Kernel.Acts.keepsPriorities {L : Act → Prop} (h : Acts L k k')
    (neutral : ∀ act, L act → act.Neutral) : k.KeepsPriorities k' := by
  refine h.preserves (I := fun a => k.KeepsPriorities a) (Std.Refl.refl k) ?_
  intro a b act allowed does keeps
  obtain ⟨spawns, adjusts, starts⟩ := neutral act allowed
  exact Trans.trans keeps (does.keepsPriorities spawns adjusts starts)

theorem Op.Conducts.neutral (adjusts : op.adjusts = false) (spawns : op.spawns = false)
    (starts : op.starts = none) {act : Act} (h : op.Conducts k act) : act.Neutral := by
  refine ⟨?_, ?_, fun id => ?_⟩
  · rintro rfl
    exact absurd (spawns.symm.trans h) (by decide)
  · rintro rfl
    exact absurd (adjusts.symm.trans h) (by decide)
  · rintro rfl
    exact absurd (starts.symm.trans h) (by simp)

theorem keepsPriorities_sleepCurrent (sound : k.RunningSound) (context : CpuContext) :
    Leads KeepsPriorities k (sleepCurrent context) := by
  unfold sleepCurrent
  refine leads_get_bind (leads_orFail_bind fun id running => ?_)
  refine leads_get_bind (leads_orFail_bind fun thread found => ?_)
  split
  · refine leads_modify_bind ?_ (leads_pure _)
    exact keepsPriorities_modifyThread rfl fun _ => rfl
  · have blocks : Leads (Acts Act.Neutral) k (blockCurrent context .sleep none) :=
      acts_blockCurrent sound (fun _ => by simp [Act.Neutral]) (by simp [Act.Neutral])
    exact blocks.mono fun _ _ acts => acts.keepsPriorities fun _ neutral => neutral

theorem keepsPriorities_wakeupThread (id : ℕ) : Leads KeepsPriorities k (wakeupThread id) := by
  unfold wakeupThread
  refine leads_get_bind (leads_orFail_bind fun thread found => ?_)
  split
  next sleeping =>
    have waiting : k.waitReasonOf id = some .sleep :=
      waitReasonOf_eq_some.mpr ⟨thread, found, sleeping⟩
    have wakes : Leads (Acts Act.Neutral) k (completeWait id 0 none) :=
      acts_completeWait waiting (by simp [Act.Neutral]) (by simp [Act.Neutral])
    have keeps : Leads KeepsPriorities k (completeWait id 0 none) :=
      wakes.mono fun _ _ acts => acts.keepsPriorities fun _ neutral => neutral
    exact keeps.returning
  next =>
    refine leads_orFail_bind fun count _ => leads_modify_bind ?_ (leads_pure _)
    exact keepsPriorities_modifyThread rfl fun _ => rfl

theorem step_kept_of_starting (starting : op.spawns = true ∨ op.starts ≠ none) (context : CpuContext)
    {id : ℕ} {thread : Thread} (found : k.threads.get id = some thread)
    (alive : thread.state ≠ .dormant) :
    (leaves ((step op context).run k)).threads.get id = some thread := by
  have starts (id' : ℕ) (arguments : Word × Word × Word × Word) (returnAddress : Word) :
      (leaves ((startThreadWithContext id' arguments returnAddress).run k)).threads.get id =
        some thread := by
    have acts : Leads (Acts (· = .start id')) k
        (startThreadWithContext id' arguments returnAddress) := acts_startThreadWithContext rfl
    refine Acts.preserves (I := fun a => a.threads.get id = some thread) acts found ?_
    rintro a b act rfl does found
    cases does with
    | @start _ thread' _ _ found' dormant _ =>
      refine (get_modifyThread a id' _ id).trans ?_
      rw [if_neg, found]
      rintro rfl
      rw [found] at found'
      cases found'
      exact alive dormant
  cases op with
  | createThread spec range =>
    have acts : Leads (Acts (· = .spawn)) k (createThread spec range) := acts_createThread rfl
    refine Acts.preserves (I := fun a => a.threads.get id = some thread) (acts.map _) found ?_
    rintro a b act rfl does found
    cases does with
    | spawn inserted _ =>
      obtain ⟨-, free, -, -, get⟩ := FixedTable.insert_eq_ok inserted
      refine (get id).trans ?_
      rw [if_neg, found]
      rintro rfl
      rw [free] at found
      cases found
  | startThread | startThreadWithContext =>
    simp only [step, leaves_map]
    exact starts _ _ _
  | _ => simp [Op.spawns, Op.starts] at starting

theorem step_priority (sound : k.RunningSound) (lives : op ≠ .reset)
    (keeps : ∀ id priority, op ≠ .changePriority id priority) (context : CpuContext) {id : ℕ}
    {thread thread' : Thread} (found : k.threads.get id = some thread)
    (alive : thread.state ≠ .dormant)
    (found' : (leaves ((step op context).run k)).threads.get id = some thread') :
    thread'.currentPriority = thread.currentPriority := by
  have of_keeps (h : k.KeepsPriorities (leaves ((step op context).run k))) :
      thread'.currentPriority = thread.currentPriority := by
    obtain ⟨before, same, priority⟩ := h id thread' found'
    rw [found] at same
    cases same
    exact priority
  by_cases starting : op.spawns = true ∨ op.starts ≠ none
  · rw [step_kept_of_starting starting context found alive] at found'
    cases found'
    rfl
  rw [not_or, Bool.not_eq_true, not_not] at starting
  by_cases adjusts : op.adjusts = true
  · cases op with
    | changePriority id priority => exact absurd rfl (keeps id priority)
    | sleepCurrent =>
      exact of_keeps ((keepsPriorities_sleepCurrent sound context).map _)
    | wakeupThread id => exact of_keeps ((keepsPriorities_wakeupThread id).map _)
    | _ => cases adjusts
  · rw [Bool.not_eq_true] at adjusts
    exact of_keeps ((step_conducts sound lives context).keepsPriorities fun act conducts =>
      conducts.neutral adjusts starting.1 starting.2)

/-! ### The order of the queues -/

namespace Kernel

/-- The priority number by which a thread is queued. -/
def number (k : Kernel) (id : ℕ) : ℕ :=
  ((k.threads.get id).map (·.currentPriority)).getD (maxThreadPriority + 1)

theorem number_of_get {id : ℕ} {thread : Thread} (found : k.threads.get id = some thread) :
    k.number id = thread.currentPriority := by
  rw [number, found]
  rfl

/-- Every queue of an object with the priority attribute is in the order of its waiters' numbers. -/
def OrderedQueues (k : Kernel) : Prop :=
  ∀ o r, k.record? o = some r → r.attributes &&& 1 ≠ 0 → Ordered k.number r.waiters

/-- Threads leave the queue of the object, or the running thread joins it behind those whose number is
no larger. -/
def KeepsOrder (k k' : Kernel) (o : Obj) : Prop :=
  ∀ r', k'.record? o = some r' → r'.attributes &&& 1 ≠ 0 → r'.waiters = [] ∨
    ∃ r, k.record? o = some r ∧ r'.attributes = r.attributes ∧ (r'.waiters.Sublist r.waiters ∨
      ∃ id, k.currentThread = some id ∧ Joins k.number id r.waiters r'.waiters)

theorem ExactQueues.get_of_mem (exact_ : k.ExactQueues) {r : ObjRecord} (found : k.record? o = some r)
    {id : ℕ} (member : id ∈ r.waiters) :
    ∃ thread, k.threads.get id = some thread ∧ thread.state ≠ .dormant := by
  rw [← queue_of_record found] at member
  obtain ⟨reason, waiting, -⟩ := waitsFor_eq_some.mp (((exact_ o).2 id).mp member)
  obtain ⟨thread, found, state⟩ := waitReasonOf_eq_some.mp waiting
  exact ⟨thread, found, by rw [state]; simp⟩

theorem joins_insertWaiter {waiters : List ℕ} {attributes : Word}
    (ordered : Ordered k.number waiters) (priority : attributes &&& 1 ≠ 0)
    (live : ∀ id ∈ waiters, ∃ thread, k.threads.get id = some thread) (id : ℕ) :
    Joins k.number id waiters (insertWaiter waiters id attributes k.threads) := by
  unfold insertWaiter
  rw [if_neg priority]
  refine ordered.joins_findIdx fun other member => ?_
  obtain ⟨thread, found⟩ := live other member
  rw [number_of_get found, found]
  exact decide_eq_true_iff

theorem step_keepsOrder (sound : k.RunningSound) (exact_ : k.ExactQueues) (ordered : k.OrderedQueues)
    (op : Op) (context : CpuContext) (o : Obj) :
    k.KeepsOrder (leaves ((step op context).run k)) o := by
  intro r' found' priority
  rcases step_queueStep sound op context o r' found' with empty | ⟨r, found, attributes, change⟩
  · exact .inl empty
  refine .inr ⟨r, found, attributes, change.imp_right ?_⟩
  rintro ⟨id, running, waiters⟩
  rw [attributes] at priority
  refine ⟨id, running, ?_⟩
  rw [waiters]
  refine joins_insertWaiter (ordered o r found priority) priority (fun other member => ?_) id
  obtain ⟨thread, found, -⟩ := exact_.get_of_mem found member
  exact ⟨thread, found⟩

end Kernel

theorem step_ordered (agrees : k.Agrees) (ordered : k.OrderedQueues) (lives : op ≠ .reset)
    (keeps : ∀ id priority, op ≠ .changePriority id priority) (context : CpuContext)
    (clean : (Call.of k op context).Clean) :
    (leaves ((step op context).run k)).OrderedQueues := by
  intro o r' found' priority
  have exact_ := (agrees.step op context clean).queues
  have same {id : ℕ} {thread : Thread} (found : k.threads.get id = some thread)
      (alive : thread.state ≠ .dormant) (member : id ∈ r'.waiters) :
      (leaves ((step op context).run k)).number id = k.number id := by
    obtain ⟨thread', found'', -⟩ := exact_.get_of_mem found' member
    rw [number_of_get found'', number_of_get found]
    exact step_priority agrees.sound.running lives keeps context found alive found''
  rcases step_keepsOrder agrees.sound.running agrees.queues ordered op context o r' found' priority
    with empty | ⟨r, found, attributes, leaves | ⟨id, running, joins⟩⟩
  · rw [empty]
    exact List.Pairwise.nil
  · rw [attributes] at priority
    refine ((ordered o r found priority).sublist leaves).congr fun other member => ?_
    obtain ⟨thread, got, alive⟩ := agrees.queues.get_of_mem found (leaves.mem member)
    exact same got alive member
  · rw [attributes] at priority
    refine ((ordered o r found priority).join joins).congr fun other member => ?_
    by_cases newcomer : other = id
    · subst newcomer
      obtain ⟨order, view⟩ := agrees.sound.running other running
      obtain ⟨thread, got, state, -⟩ := view_eq_some.mp view
      exact same got (by rw [state]; simp) member
    · obtain ⟨ahead, behind, before, after, -⟩ := joins
      have old : other ∈ r.waiters := by
        rw [before]
        rw [after] at member
        simpa [newcomer] using member
      obtain ⟨thread, got, alive⟩ := agrees.queues.get_of_mem found old
      exact same got alive member

/-- The state after a valid change of priority. -/
def Kernel.withPriority (k : Kernel) (id priority : ℕ) : Kernel :=
  k.modifyThread id fun thread => { thread with currentPriority := priority }

theorem changePriority_leaves (k : Kernel) (id priority : ℕ) :
    leaves ((changePriority id priority).run k) = k ∨
      priority ≠ 0 ∧ validatePriority priority = .ok () ∧ k.threads.get id ≠ none ∧
        leaves ((changePriority id priority).run k) = k.withPriority id priority := by
  cases found : k.threads.get id with
  | none =>
    left
    simp [changePriority, run_bind, orFail, found]
  | some thread =>
    by_cases query : priority = 0
    · left
      simp [changePriority, run_bind, orFail, found, query]
    cases valid : validatePriority priority with
    | error e =>
      left
      simp [changePriority, run_bind, orFail, found, query, check, valid]
    | ok =>
      refine .inr ⟨query, rfl, Option.some_ne_none thread, ?_⟩
      simp [changePriority, run_bind, orFail, found, query, check, valid, Kernel.withPriority]

theorem number_withPriority {id priority : ℕ} (live : k.threads.get id ≠ none) :
    (k.withPriority id priority).number id = priority := by
  obtain ⟨thread, found⟩ := Option.ne_none_iff_exists'.mp live
  unfold Kernel.number Kernel.withPriority
  rw [get_modifyThread, if_pos rfl, found]
  rfl

theorem number_withPriority_ne {id priority other : ℕ} (ne : other ≠ id) :
    (k.withPriority id priority).number other = k.number other := by
  unfold Kernel.number Kernel.withPriority
  rw [get_modifyThread, if_neg ne]

/-- A valid change of the number of a thread leaves the thread between the numbers of those ahead of
it and those behind it, in every priority queue it is in. -/
def Call.KeepsPlace (call : Call) : Prop :=
  ∀ id priority, call.op = .changePriority id priority → priority ≠ 0 →
    validatePriority priority = .ok () → ∀ o r ahead behind, call.before.record? o = some r →
      r.attributes &&& 1 ≠ 0 → r.waiters = ahead ++ id :: behind →
        (∀ other ∈ ahead, call.before.number other ≤ priority) ∧
          ∀ other ∈ behind, priority ≤ call.before.number other

theorem changePriority_ordered (exact_ : k.ExactQueues) (ordered : k.OrderedQueues) {id priority : ℕ}
    (context : CpuContext) (place : (Call.of k (.changePriority id priority) context).KeepsPlace) :
    (leaves ((changePriority id priority).run k)).OrderedQueues := by
  rcases changePriority_leaves k id priority with same | ⟨query, valid, live, changed⟩
  · rw [same]
    exact ordered
  rw [changed]
  intro o r found' attributes
  have found : k.record? o = some r := found' ▸ (by cases o <;> rfl)
  have before := ordered o r found attributes
  by_cases queued : id ∈ r.waiters
  · obtain ⟨ahead, behind, waiters⟩ := List.append_of_mem queued
    obtain ⟨above, below⟩ := place id priority rfl query valid o r ahead behind found attributes waiters
    have nodup : r.waiters.Nodup := queue_of_record found ▸ (exact_ o).1
    rw [waiters] at before nodup ⊢
    obtain ⟨-, fresh, apart⟩ := List.nodup_append.mp nodup
    have notAhead : ∀ other ∈ ahead, other ≠ id := fun other member =>
      apart other member id List.mem_cons_self
    have notBehind : ∀ other ∈ behind, other ≠ id := by
      rintro other member rfl
      exact (List.nodup_cons.mp fresh).1 member
    obtain ⟨first, last, across⟩ := List.pairwise_append.mp before
    have last' := (List.pairwise_cons.mp last).2
    refine List.pairwise_append.mpr ⟨?_, List.pairwise_cons.mpr ⟨fun other member => ?_, ?_⟩, ?_⟩
    · exact Ordered.congr first fun other member => number_withPriority_ne (notAhead other member)
    · rw [number_withPriority live, number_withPriority_ne (notBehind other member)]
      exact below other member
    · exact Ordered.congr last' fun other member => number_withPriority_ne (notBehind other member)
    · intro a memA b memB
      rw [number_withPriority_ne (notAhead a memA)]
      by_cases same : b = id
      · rw [same, number_withPriority live]
        exact above a memA
      · rw [number_withPriority_ne same]
        exact across a memA b memB
  · refine before.congr fun other member => number_withPriority_ne ?_
    rintro rfl
    exact queued member

theorem orderedQueues_new : Kernel.new.OrderedQueues := by
  intro o r found
  cases o <;> simp [record?, Kernel.new] at found

/-! ### Variable blocks -/

/-- The pool has a block for the size the thread waits for. -/
def Kernel.fits (k : Kernel) (id thread : ℕ) : Bool :=
  (k.poolWaitOf id thread).any fun size => (k.giveRegion id size).isSome

/-- The first thread served is the first one in the queue that can be. -/
theorem Kernel.Serves.first {W : Type} {wants : Kernel → ℕ → Option W}
    {give : Kernel → W → Option (Word × Kernel)} {queued : List ℕ}
    {result : Option (List ℕ × List ℕ)} (h : k.Serves wants give queued result k') :
    ∀ thread rest retained, result = some (thread :: rest, retained) →
      ∃ ahead behind, queued = ahead ++ thread :: behind ∧
        (wants k thread).any (fun wanted => (give k wanted).isSome) = true ∧
        ∀ other ∈ ahead, (wants k other).any (fun wanted => (give k wanted).isSome) = false := by
  induction h with
  | done =>
    intro thread rest retained returned
    cases returned
  | @skip k k' passed queued result wanting _ ih =>
    intro thread rest retained returned
    obtain ⟨ahead, behind, rfl, fits, before⟩ := ih thread rest retained returned
    refine ⟨passed :: ahead, behind, rfl, fits, List.forall_mem_cons.mpr ⟨?_, before⟩⟩
    rw [wanting]
    rfl
  | @keep k k' passed wanted queued result wanting gives _ ih =>
    intro thread rest retained returned
    obtain ⟨⟨ready, later⟩, finished, same⟩ := Option.map_eq_some_iff.mp returned
    cases same
    obtain ⟨ahead, behind, rfl, fits, before⟩ := ih thread rest later finished
    refine ⟨passed :: ahead, behind, rfl, fits, List.forall_mem_cons.mpr ⟨?_, before⟩⟩
    rw [wanting, Option.any_some, gives]
    rfl
  | @serve k given k' served wanted value queued result wanting gave room _ ih =>
    intro thread rest retained returned
    obtain ⟨⟨ready, later⟩, finished, same⟩ := Option.map_eq_some_iff.mp returned
    cases same
    refine ⟨[], queued, rfl, ?_, List.forall_mem_nil _⟩
    rw [wanting, Option.any_some, gave]
    rfl
  | full =>
    intro thread rest retained returned
    cases returned

/-- The pool of which a call frees a block, and the kernel with that block back. -/
def Call.frees (call : Call) : Option (ℕ × VariablePool × Kernel) :=
  match call.op with
  | .freeVariable id address => do
    let pool ← call.before.variablePools.get id
    let size ← pool.allocated.lookup address
    return (id, pool, call.before.releaseRegion id address size)
  | _ => none

/-- Where the block a call frees of a priority pool leaves room for a waiter, it leaves room for one
with a least number. -/
def Call.FitsLeast (call : Call) : Prop :=
  ∀ freed ∈ call.frees, freed.2.1.attributes &&& 1 ≠ 0 →
    (∃ thread ∈ freed.2.1.waiters, freed.2.2.fits freed.1 thread) →
    ∃ thread ∈ freed.2.1.waiters, freed.2.2.fits freed.1 thread ∧
      ∀ other ∈ freed.2.1.waiters, call.before.number thread ≤ call.before.number other

instance : DecidablePred Call.FitsLeast :=
  fun call => inferInstanceAs (Decidable (∀ freed ∈ call.frees, _))

theorem freeVariable_first {id address thread : ℕ} {rest : List ℕ}
    (woken : outcome ((freeVariable id address).run k) = .ok (thread :: rest)) :
    ∃ pool size ahead behind, k.variablePools.get id = some pool ∧
      pool.allocated.lookup address = some size ∧ pool.waiters = ahead ++ thread :: behind ∧
      (k.releaseRegion id address size).fits id thread = true ∧
      ∀ other ∈ ahead, (k.releaseRegion id address size).fits id other = false := by
  cases found : k.variablePools.get id with
  | none =>
    rw [freeVariable_unknown found] at woken
    cases woken
  | some pool =>
    cases used : pool.allocated.lookup address with
    | none =>
      rw [freeVariable_illegal found used] at woken
      cases woken
    | some size =>
      obtain ⟨result, k', rounds, run⟩ := freeVariable_run found used
      rw [run] at woken
      cases result with
      | none => cases woken
      | some served =>
        obtain ⟨ready, retained⟩ := served
        cases woken
        obtain ⟨ahead, behind, waiters, fits, before⟩ := rounds.first thread rest retained rfl
        exact ⟨pool, size, ahead, behind, rfl, used, waiters, fits, before⟩

/-- Freeing a block of an ordered pool serves a waiter with a least number first. -/
theorem freeVariable_serves_least (ordered : k.OrderedQueues) {id address thread : ℕ}
    {rest : List ℕ} {context context' : CpuContext}
    (fits : (Call.of k (.freeVariable id address) context).FitsLeast)
    (woken : (Call.of k (.freeVariable id address) context).result =
      .ok (.threads (thread :: rest), context')) :
    ∃ r, k.record? (.variablePool id) = some r ∧ thread ∈ r.waiters ∧ (r.attributes &&& 1 ≠ 0 →
      ∀ other ∈ r.waiters, k.number thread ≤ k.number other) := by
  have returned : outcome ((freeVariable id address).run k) = .ok (thread :: rest) := by
    change outcome (((fun ready => (Reply.threads ready, context)) <$>
      freeVariable id address).run k) = _ at woken
    rw [outcome_map] at woken
    cases result : outcome ((freeVariable id address).run k) with
    | error e => rw [result] at woken; cases woken
    | ok ready => rw [result] at woken; cases woken; rfl
  obtain ⟨pool, size, ahead, behind, found, used, waiters, room, before⟩ := freeVariable_first returned
  have record : k.record? (.variablePool id) = some (.variablePool pool) := by simp [record?, found]
  have queued : thread ∈ pool.waiters := waiters ▸ List.mem_append_right _ List.mem_cons_self
  refine ⟨_, record, queued, fun priority => ?_⟩
  have freed : (Call.of k (.freeVariable id address) context).frees =
      some (id, pool, k.releaseRegion id address size) := by
    simp [Call.frees, Call.of, found, used]
  obtain ⟨least, member, fitting, smallest⟩ := fits _ freed priority ⟨thread, queued, room⟩
  have sorted := ordered _ _ record priority
  -- No waiter ahead of the thread fits, so the one with a least number is not ahead of it.
  have behindOrSame : least ∈ thread :: behind := by
    dsimp only at member
    rw [waiters, List.mem_append] at member
    refine member.resolve_left fun ahead => ?_
    have refused := before least ahead
    dsimp only at fitting
    rw [fitting] at refused
    cases refused
  change Ordered k.number pool.waiters at sorted
  rw [waiters] at sorted
  have rest := (List.pairwise_append.mp sorted).2.1
  exact fun other among => (Ordered.head_le rest least behindOrSame).trans (smallest other among)

/-! ### Whole runs -/

/-- Whether an operation hands something over to one waiter. -/
def Op.handsOver : Op → Bool
  | .signalSemaphore _ | .sendMessage _ _ | .freeFixed _ _ => true
  | _ => false

/-- What is handed over in a sound kernel goes to the first of the queue. -/
theorem first_of_handedOver (exact_ : k.ExactQueues) {o : Obj} {r : ObjRecord} {reason : WaitReason}
    {handed : List ℕ → Kernel} {idle : EStateM.Result BiosError Kernel (Option ℕ)} {thread : ℕ}
    {value : Option Word} (record : k.record? o = some r)
    (determined : ∀ other : WaitReason, other.object = some o → other = reason)
    (keeps : outcome idle ≠ .ok (some thread))
    (woken : outcome (match k.stillWaiting reason r.waiters with
      | [] => idle
      | first :: rest => (handed rest).handedOver first value) = .ok (some thread)) :
    ∃ r rest, k.record? o = some r ∧ r.waiters = thread :: rest := by
  rw [stillWaiting_of_exact exact_ determined (queue_of_record record)] at woken
  refine ⟨r, r.waiters.tail, record, ?_⟩
  cases waiters : r.waiters with
  | nil =>
    rw [waiters] at woken
    exact absurd woken keeps
  | cons first rest =>
    rw [waiters] at woken
    dsimp only [Kernel.handedOver] at woken
    split at woken
    · cases woken
      rfl
    · cases woken

theorem signalSemaphore_first (exact_ : k.ExactQueues) {id thread : ℕ}
    (woken : outcome ((signalSemaphore id).run k) = .ok (some thread)) :
    ∃ r rest, k.record? (.semaphore id) = some r ∧ r.waiters = thread :: rest := by
  cases found : k.semaphores.get id with
  | none => simp [signalSemaphore, run_bind, orFail, found, outcome] at woken
  | some value =>
    have record : k.record? (.semaphore id) = some (.semaphore value) := by simp [record?, found]
    rw [signalSemaphore_run found] at woken
    refine first_of_handedOver exact_ record (fun other object => ?_) ?_ woken
    · cases other <;> simp_all [WaitReason.object]
    · split <;> exact fun same => by cases same

theorem sendMessage_first (exact_ : k.ExactQueues) {id thread : ℕ} {message : Word}
    (woken : outcome ((sendMessage id message).run k) = .ok (some thread)) :
    ∃ r rest, k.record? (.messageBox id) = some r ∧ r.waiters = thread :: rest := by
  by_cases valid : message = 0 ∨ message &&& 3 ≠ 0
  · simp only [sendMessage, failIf, if_pos valid, run_bind, run_throw] at woken
    cases woken
  cases found : k.messageBoxes.get id with
  | none =>
    simp only [sendMessage, failIf, if_neg valid, run_bind, run_pure, run_get,
      orFail, found, run_okOr_none] at woken
    cases woken
  | some value =>
    have record : k.record? (.messageBox id) = some (.messageBox value) := by simp [record?, found]
    rw [sendMessage_run valid found] at woken
    refine first_of_handedOver exact_ record (fun other object => ?_) (fun same => by cases same) woken
    cases other <;> simp_all [WaitReason.object]

theorem freeFixed_first (exact_ : k.ExactQueues) {id address thread : ℕ}
    (woken : outcome ((freeFixed id address).run k) = .ok (some thread)) :
    ∃ r rest, k.record? (.fixedPool id) = some r ∧ r.waiters = thread :: rest := by
  cases found : k.fixedPools.get id with
  | none => simp [freeFixed, run_bind, orFail, found, outcome] at woken
  | some value =>
    by_cases used : address ∈ value.allocated
    · have record : k.record? (.fixedPool id) = some (.fixedPool value) := by simp [record?, found]
      rw [freeFixed_run found used] at woken
      refine first_of_handedOver exact_ record (fun other object => ?_) (fun same => by cases same) woken
      cases other <;> simp_all [WaitReason.object]
    · simp [freeFixed, run_bind, orFail, found, failIf, used, outcome] at woken

theorem woken_first (exact_ : k.ExactQueues) (hands : op.handsOver = true) {thread : ℕ}
    {context context' : CpuContext}
    (woken : (Call.of k op context).result = .ok (.woken (some thread), context')) :
    ∃ o r rest, op.target = some o ∧ k.record? o = some r ∧ r.waiters = thread :: rest := by
  have returned {m : KernelM (Option ℕ)}
      (woken : outcome (((fun woken => (Reply.woken woken, context)) <$> m).run k) =
        .ok (.woken (some thread), context')) : outcome (m.run k) = .ok (some thread) := by
    rw [outcome_map] at woken
    cases result : outcome (m.run k) with
    | error e => rw [result] at woken; cases woken
    | ok reply => rw [result] at woken; cases woken; rfl
  cases op with
  | signalSemaphore id =>
    obtain ⟨r, rest, found, first⟩ := signalSemaphore_first exact_ (returned woken)
    exact ⟨_, r, rest, rfl, found, first⟩
  | sendMessage id message =>
    obtain ⟨r, rest, found, first⟩ := sendMessage_first exact_ (returned woken)
    exact ⟨_, r, rest, rfl, found, first⟩
  | freeFixed id address =>
    obtain ⟨r, rest, found, first⟩ := freeFixed_first exact_ (returned woken)
    exact ⟨_, r, rest, rfl, found, first⟩
  | _ => cases hands

theorem step_ordered_of_place (agrees : k.Agrees) (ordered : k.OrderedQueues) (op : Op)
    (context : CpuContext) (clean : (Call.of k op context).Clean)
    (place : (Call.of k op context).KeepsPlace) :
    (leaves ((step op context).run k)).OrderedQueues := by
  by_cases reset : op = .reset
  · rw [reset, reset_run]
    exact orderedQueues_new
  by_cases changes : ∃ id priority, op = .changePriority id priority
  · obtain ⟨id, priority, rfl⟩ := changes
    simp only [step, leaves_map]
    exact changePriority_ordered agrees.queues ordered context place
  · push Not at changes
    exact step_ordered agrees ordered reset changes context clean

/-- Two threads that wait on a priority semaphore, the one of the larger number first. -/
def waitInOrder : List Op :=
  [.createThread (sampleThread 20) sampleRange, .createThread (sampleThread 10) sampleRange,
    .startThread 1 0, .createSemaphore ⟨0, 1, 1⟩, .reschedule .hleReturn, .waitSemaphore 1 none,
    .startThread 2 0, .reschedule .hleReturn, .waitSemaphore 1 none]

/-- Two threads that wait for blocks of a priority pool all of which is in use, the one of the larger
number first. -/
def waitForBlocks : List Op :=
  [.createThread (sampleThread 20) sampleRange, .createThread (sampleThread 10) sampleRange,
    .startThread 1 0, .createVariablePool ⟨0x8000, 64, 1⟩ sampleRange, .reschedule .hleReturn,
    .allocateVariable 1 32 none, .allocateVariable 1 32 none, .allocateVariable 1 8 none,
    .startThread 2 0, .reschedule .hleReturn, .allocateVariable 1 16 none]

theorem op_mem_of_history {context : CpuContext} {ops : List Op} {call : Call}
    (member : call ∈ k.history context ops) : call.op ∈ ops := by
  induction ops generalizing k with
  | nil => cases member
  | cons op ops ih =>
    rcases List.mem_cons.mp member with rfl | later
    · exact List.mem_cons_self
    · exact List.mem_cons_of_mem _ (ih later)

theorem run_history_snoc (k : Kernel) (context : CpuContext) (ops : List Op) (op : Op) :
    Run Steps k (k.history context ops ++ [Call.of (k.after context ops) op context])
      ((k.after context ops).after context [op]) :=
  .snoc (run_history k context ops) (steps_of _ op context)

end Upse
