import Upse.Bios.Kernel.HandOver
import Upse.Bios.Kernel.Lifetimes

/-!
# Pools divide the range they were created over

In every run each live pool divides exactly the validated range of the call that created it, and what
a freed block is handed over as is recorded as allocated.
-/

namespace Upse

open ErrorState Kernel

variable {k : Kernel}

/-! ### The parameters a pool was created with -/

/-- The parameters and the range of the fixed pool a call created under an identifier. -/
def Call.createdFixed (call : Call) (id : ℕ) : Option (FixedPoolSpec × GuestRange) :=
  match call.op, call.result with
  | .createFixedPool spec guestRange, .ok (.handle created, _) =>
    if created = id then some (spec, guestRange) else none
  | _, _ => none

/-- The parameters and the range of the variable pool a call created under an identifier. -/
def Call.createdVariable (call : Call) (id : ℕ) : Option (VariablePoolSpec × GuestRange) :=
  match call.op, call.result with
  | .createVariablePool spec guestRange, .ok (.handle created, _) =>
    if created = id then some (spec, guestRange) else none
  | _, _ => none

/-- The last creation of a fixed pool under an identifier. -/
def fixedOrigin (calls : List Call) (id : ℕ) : Option (FixedPoolSpec × GuestRange) :=
  calls.reverse.findSome? (·.createdFixed id)

/-- The last creation of a variable pool under an identifier. -/
def variableOrigin (calls : List Call) (id : ℕ) : Option (VariablePoolSpec × GuestRange) :=
  calls.reverse.findSome? (·.createdVariable id)

theorem fixedOrigin_concat (calls : List Call) (call : Call) (id : ℕ) :
    fixedOrigin (calls ++ [call]) id = (call.createdFixed id).or (fixedOrigin calls id) := by
  simp only [fixedOrigin, List.reverse_append, List.reverse_singleton, List.singleton_append,
    List.findSome?_cons]
  cases call.createdFixed id <;> rfl

theorem variableOrigin_concat (calls : List Call) (call : Call) (id : ℕ) :
    variableOrigin (calls ++ [call]) id = (call.createdVariable id).or (variableOrigin calls id) := by
  simp only [variableOrigin, List.reverse_append, List.reverse_singleton, List.singleton_append,
    List.findSome?_cons]
  cases call.createdVariable id <;> rfl

variable {id : ℕ} {spec : VariablePoolSpec}

theorem createdFixed_of_live (live : k.record? (.fixedPool id) ≠ none) (op : Op)
    (context : CpuContext) : (Call.of k op context).createdFixed id = none := by
  cases op with
  | createFixedPool spec guestRange =>
    have creates : (Op.createFixedPool spec guestRange).creates = true := rfl
    rcases step_creates (k := k) creates context with
      ⟨e, failed⟩ | ⟨id', o, r, k', run, new, adds⟩
    · simp [Call.createdFixed, Call.of, failed, outcome]
    · cases new
      have other : id' ≠ id := by
        rintro rfl
        exact live adds.dead
      simp [Call.createdFixed, Call.of, run, outcome, other]
  | _ => rfl

theorem createdVariable_of_live (live : k.record? (.variablePool id) ≠ none) (op : Op)
    (context : CpuContext) : (Call.of k op context).createdVariable id = none := by
  cases op with
  | createVariablePool spec guestRange =>
    have creates : (Op.createVariablePool spec guestRange).creates = true := rfl
    rcases step_creates (k := k) creates context with
      ⟨e, failed⟩ | ⟨id', o, r, k', run, new, adds⟩
    · simp [Call.createdVariable, Call.of, failed, outcome]
    · cases new
      have other : id' ≠ id := by
        rintro rfl
        exact live adds.dead
      simp [Call.createdVariable, Call.of, run, outcome, other]
  | _ => rfl

/-! ### Fixed pools -/

/-- A live fixed pool divides its range, with the blocks in hand. -/
def Kernel.FixedDivides (k : Kernel) (id : ℕ) (spec : FixedPoolSpec) (held : List ℕ) : Prop :=
  ∀ pool, k.fixedPools.get id = some pool → pool.Divides spec held

theorem Kernel.FixedDivides.of_modify {spec : FixedPoolSpec} {held held' : List ℕ}
    {f : FixedPool → FixedPool} (h : k.FixedDivides id spec held)
    (keeps : ∀ pool, k.fixedPools.get id = some pool → pool.Divides spec held →
      (f pool).Divides spec held') : (k.modifyFixedPool id f).FixedDivides id spec held' := by
  intro pool' found'
  simp only [modifyFixedPool, FixedTable.get_modify, if_true] at found'
  obtain ⟨pool, found, rfl⟩ := Option.map_eq_some_iff.mp found'
  exact keeps pool found (h pool found)

theorem Kernel.FixedDivides.handedOver {id thread : ℕ} {spec : FixedPoolSpec} {held : List ℕ}
    (h : k.FixedDivides id spec held) (value : Option Word) :
    (leaves (k.handedOver thread value)).FixedDivides id spec held := by
  unfold Kernel.handedOver
  split <;> exact h

theorem freeFixed_divides {spec : FixedPoolSpec} (positive : 0 < spec.blockSize)
    (divides : k.FixedDivides id spec []) (address : ℕ) :
    (leaves ((freeFixed id address).run k)).FixedDivides id spec [] := by
  cases found : k.fixedPools.get id with
  | none => simpa [freeFixed, run_bind, orFail, found] using divides
  | some pool =>
    by_cases used : address ∈ pool.allocated
    · have inHand (waiters : List ℕ) : ((k.releaseBlock id address).queueFixedPool id
          waiters).FixedDivides id spec [address] := by
        have released : (k.releaseBlock id address).FixedDivides id spec [address] := by
          apply divides.of_modify
          intro pool' found' h
          rw [found] at found'
          cases found'
          exact h.release used
        exact released.of_modify fun _ _ h => h.withWaiters _
      rw [freeFixed_run found used]
      split
      · exact (inHand []).of_modify fun _ _ h => h.putFree
      next thread rest _ =>
        exact ((inHand rest).of_modify fun _ _ h => h.putAllocated positive).handedOver _
    · simpa [freeFixed, run_bind, orFail, found, failIf, used] using divides

theorem step_fixedDivides (sound : k.RunningSound) {op : Op} {spec : FixedPoolSpec}
    (positive : 0 < spec.blockSize) (named : op.target = some (.fixedPool id))
    (divides : k.FixedDivides id spec []) (context : CpuContext) :
    (leaves ((step op context).run k)).FixedDivides id spec [] := by
  cases op with
  | deleteFixedPool =>
    cases named
    intro pool found
    have deletes : (Op.deleteFixedPool id).deletes = some (.fixedPool id) := rfl
    have kept := step_deletes_dead (k := k) deletes context (by simp [record?, found])
    rw [kept] at found
    exact divides pool found
  | freeFixed id' address =>
    cases named
    have freed := freeFixed_divides positive divides address
    simp only [step, run_map]
    cases run : (freeFixed id address).run k <;> rw [run] at freed <;> exact freed
  | allocateFixed id' timeout =>
    cases named
    have takes : (Op.allocateFixed id timeout).takes = true := rfl
    obtain ⟨thread, running, waits⟩ | ⟨e, failed⟩ | ⟨reply, k', returned, taken⟩ := step_takes takes context
    · obtain ⟨r, waiters, before, after⟩ := step_enqueues_record sound running waits context rfl
      intro pool found
      obtain ⟨pool', found', rfl⟩ := Option.map_eq_some_iff.mp before
      simp only [record?, found, Option.map_some, ObjRecord.withWaiters, Option.some.injEq,
        ObjRecord.fixedPool.injEq] at after
      rw [after]
      exact (divides pool' found').withWaiters _
    · rw [failed]
      exact divides
    · rw [returned]
      cases taken with
      | allocateFixed found head =>
        refine divides.of_modify fun pool found' h => ?_
        rw [found] at found'
        cases found'
        exact (h.take head).putAllocated positive
  | _ => cases named

/-! ### Variable pools -/

/-- A live variable pool divides its range. -/
def Kernel.VariableDivides (k : Kernel) (id : ℕ) (spec : VariablePoolSpec) : Prop :=
  ∀ pool, k.variablePools.get id = some pool → pool.Divides spec

/-- Every thread that waits on the pool waits for a positive multiple of four. -/
def Kernel.SizesAligned (k : Kernel) (id : ℕ) : Prop :=
  ∀ thread size, k.poolWaitOf id thread = some size → 0 < size ∧ size % 4 = 0

theorem Kernel.VariableDivides.of_modify
    {f : VariablePool → VariablePool} (h : k.VariableDivides id spec)
    (keeps : ∀ pool, k.variablePools.get id = some pool → pool.Divides spec →
      (f pool).Divides spec) : (k.modifyVariablePool id f).VariableDivides id spec := by
  intro pool' found'
  simp only [modifyVariablePool, FixedTable.get_modify, if_true] at found'
  obtain ⟨pool, found, rfl⟩ := Option.map_eq_some_iff.mp found'
  exact keeps pool found (h pool found)

/-- A block is recorded as allocated with a size. -/
def Kernel.Allocated (k : Kernel) (id block size : ℕ) : Prop :=
  ∃ pool, k.variablePools.get id = some pool ∧ pool.allocated.lookup block = some size

theorem poolWaitOf_wake {id thread other size : ℕ} {result : ℤ} {value : Option Word}
    (h : (k.wake other result value).poolWaitOf id thread = some size) :
    k.poolWaitOf id thread = some size := by
  rw [poolWaitOf_eq_some, waitReasonOf_wake] at h
  split at h
  · cases h
  · exact poolWaitOf_eq_some.mpr h

theorem giveRegion_spec {id size : ℕ} {value : Word} {given : Kernel}
    (gave : k.giveRegion id size = some (value, given)) (positive : 0 < size)
    (aligned : size % 4 = 0) (divides : k.VariableDivides id spec) :
    given.VariableDivides id spec ∧
      (∃ block, value = BitVec.ofNat 32 block ∧ given.Allocated id block size) ∧
      ∀ block n, k.Allocated id block n → given.Allocated id block n := by
  obtain ⟨pool, found, gave⟩ := Option.bind_eq_some_iff.mp gave
  obtain ⟨⟨block, pool'⟩, taken, gave⟩ := Option.map_eq_some_iff.mp gave
  cases gave
  obtain ⟨divides', recorded, kept, -⟩ := (divides pool found).allocate positive aligned taken
  have found' : (k.modifyVariablePool id fun _ => pool').variablePools.get id = some pool' := by
    simp [modifyVariablePool, FixedTable.get_modify, found]
  refine ⟨divides.of_modify fun _ _ _ => divides', ⟨block, rfl, pool', found', recorded⟩, ?_⟩
  rintro other n ⟨_, held, allocated⟩
  rw [found] at held
  cases held
  exact ⟨pool', found', kept other n allocated⟩

theorem Kernel.VariableDivides.release {id address size : ℕ}
    {pool : VariablePool} (h : k.VariableDivides id spec)
    (found : k.variablePools.get id = some pool) (used : pool.allocated.lookup address = some size) :
    (k.releaseRegion id address size).VariableDivides id spec := by
  apply h.of_modify
  intro pool' found' h
  rw [found] at found'
  cases found'
  exact h.release used []

theorem giveRegion_keeps {id thread wanted : ℕ} {value : Word}
    {given : Kernel} (wants : k.poolWaitOf id thread = some wanted)
    (gave : k.giveRegion id wanted = some (value, given)) (divides : k.VariableDivides id spec)
    (aligned : k.SizesAligned id) :
    (given.wake thread 0 (some value)).VariableDivides id spec ∧
      (given.wake thread 0 (some value)).SizesAligned id := by
  obtain ⟨positive, four⟩ := aligned thread wanted wants
  obtain ⟨touch, -⟩ := (serving_variablePool id).touches _ _ _ _ gave
  have core : given.core = k.core := by cases touch with | touch core _ _ => exact core
  refine ⟨(giveRegion_spec gave positive four divides).1, fun other size waits => ?_⟩
  apply aligned other size
  exact (congrArg (·.poolWaitOf id other) core :).symm.trans (poolWaitOf_wake waits)

theorem Kernel.Serves.pool {k' : Kernel} {queued : List ℕ}
    {result : Option (List ℕ × List ℕ)}
    (h : k.Serves (·.poolWaitOf id ·) (giveRegion id) queued result k')
    (divides : k.VariableDivides id spec) (aligned : k.SizesAligned id) :
    k'.VariableDivides id spec ∧ (∀ block n, k.Allocated id block n → k'.Allocated id block n) ∧
      (∀ thread value, k.Received thread value → k'.Received thread value) ∧
      ∀ r, result = some r → ∀ thread ∈ r.1, ∃ block size, k.poolWaitOf id thread = some size ∧
        k'.Allocated id block size ∧ k'.Received thread (BitVec.ofNat 32 block) := by
  induction h with
  | done => exact ⟨divides, fun _ _ h => h, fun _ _ h => h, by rintro _ ⟨⟩ _ ⟨⟩⟩
  | skip _ _ ih => exact ih divides aligned
  | @keep _ _ _ _ _ result _ _ _ ih =>
    obtain ⟨divides', kept, received, served⟩ := ih divides aligned
    refine ⟨divides', kept, received, fun r returned thread member => ?_⟩
    obtain ⟨r', rfl, rfl⟩ := Option.map_eq_some_iff.mp returned
    exact served r' rfl thread member
  | @serve k given k' thread wanted value queued result wants gave fits _ ih =>
    obtain ⟨positive, four⟩ := aligned thread wanted wants
    obtain ⟨divides₁, ⟨block, rfl, recorded⟩, kept₁⟩ := giveRegion_spec gave positive four divides
    obtain ⟨touch, -⟩ := (serving_variablePool id).touches _ _ _ _ gave
    have core : given.core = k.core := by cases touch with | touch core _ _ => exact core
    have waits (other : ℕ) : given.poolWaitOf id other = k.poolWaitOf id other :=
      (congrArg (·.poolWaitOf id other) core :)
    have waiting : given.waitReasonOf thread = some (.variablePool id wanted) :=
      poolWaitOf_eq_some.mp ((waits thread).trans wants)
    have threads : given.threads = k.threads := (congrArg Kernel.threads core :)
    obtain ⟨divides', kept, received, served⟩ := ih divides₁ fun other size h =>
      aligned other size ((waits other).symm.trans (poolWaitOf_wake h))
    refine ⟨divides', fun b n h => kept b n (kept₁ b n h), fun other v h => ?_,
      fun r returned other member => ?_⟩
    · have h' : given.Received other v := by simpa only [Received, threads] using h
      exact received other v (h'.wake waiting _ _)
    · obtain ⟨r', rfl, rfl⟩ := Option.map_eq_some_iff.mp returned
      rcases List.mem_cons.mp member with rfl | member
      · exact ⟨block, wanted, wants, kept _ _ recorded,
          received _ _ (received_wake waiting _ _)⟩
      · obtain ⟨b, n, was, rest⟩ := served r' rfl other member
        exact ⟨b, n, (waits other).symm.trans (poolWaitOf_wake was), rest⟩
  | @full k given thread wanted value queued wants gave _ =>
    obtain ⟨positive, four⟩ := aligned thread wanted wants
    obtain ⟨divides₁, -, kept₁⟩ := giveRegion_spec gave positive four divides
    obtain ⟨touch, -⟩ := (serving_variablePool id).touches _ _ _ _ gave
    have threads : given.threads = k.threads := by
      cases touch with | touch core _ _ => exact (congrArg Kernel.threads core :)
    refine ⟨divides₁, kept₁, fun other v h => ?_, by rintro _ ⟨⟩⟩
    change given.Received other v
    simpa only [Received, threads] using h

theorem freeVariable_divides
    (divides : k.VariableDivides id spec) (aligned : k.SizesAligned id) (address : ℕ) :
    (leaves ((freeVariable id address).run k)).VariableDivides id spec ∧
      ∀ ready k', (freeVariable id address).run k = .ok ready k' → ∀ thread ∈ ready,
        ∃ block size, k.poolWaitOf id thread = some size ∧ k'.Allocated id block size ∧
          k'.Received thread (BitVec.ofNat 32 block) := by
  cases found : k.variablePools.get id with
  | none =>
    rw [freeVariable_unknown found]
    exact ⟨divides, by rintro _ _ ⟨⟩⟩
  | some pool =>
    cases used : pool.allocated.lookup address with
    | none =>
      rw [freeVariable_illegal found used]
      exact ⟨divides, by rintro _ _ ⟨⟩⟩
    | some size =>
      obtain ⟨result, k', rounds, run⟩ := freeVariable_run found used
      obtain ⟨divides', -, -, served⟩ := rounds.pool (divides.release found used) aligned
      rw [run]
      cases result with
      | none => exact ⟨divides', by rintro _ _ ⟨⟩⟩
      | some r =>
        refine ⟨divides'.of_modify fun _ _ h => h.withWaiters _, ?_⟩
        rintro ready k'' ⟨⟩ thread member
        obtain ⟨block, n, waited, ⟨pool', found', recorded⟩, received⟩ := served r rfl thread member
        refine ⟨block, n, waited, ⟨{ pool' with waiters := r.2 }, ?_, recorded⟩, received⟩
        simp [queueVariablePool, modifyVariablePool, FixedTable.get_modify, found']

theorem step_variableDivides (sound : k.RunningSound) {op : Op}
    (named : op.target = some (.variablePool id)) (divides : k.VariableDivides id spec)
    (aligned : k.SizesAligned id) (context : CpuContext) :
    (leaves ((step op context).run k)).VariableDivides id spec := by
  cases op with
  | deleteVariablePool =>
    cases named
    intro pool found
    have deletes : (Op.deleteVariablePool id).deletes = some (.variablePool id) := rfl
    have kept := step_deletes_dead (k := k) deletes context (by simp [record?, found])
    rw [kept] at found
    exact divides pool found
  | freeVariable id' address =>
    cases named
    have freed := (freeVariable_divides divides aligned address).1
    simp only [step, run_map]
    cases run : (freeVariable id address).run k <;> rw [run] at freed <;> exact freed
  | allocateVariable id' size timeout =>
    cases named
    have takes : (Op.allocateVariable id size timeout).takes = true := rfl
    obtain ⟨thread, running, waits⟩ | ⟨e, failed⟩ | ⟨reply, k', returned, taken⟩ := step_takes takes context
    · obtain ⟨r, waiters, before, after⟩ := step_enqueues_record sound running waits context rfl
      intro pool found
      obtain ⟨pool', found', rfl⟩ := Option.map_eq_some_iff.mp before
      simp only [record?, found, Option.map_some, ObjRecord.withWaiters, Option.some.injEq,
        ObjRecord.variablePool.injEq] at after
      rw [after]
      exact (divides pool' found').withWaiters _
    · rw [failed]
      exact divides
    · rw [returned]
      cases taken with
      | allocateVariable found valid region =>
        obtain ⟨positive, four, -, -⟩ := alignPoolSize_eq_ok valid
        refine divides.of_modify fun pool found' h => ?_
        exact ((divides _ found).allocate positive four region).1
  | _ => cases named

/-! ### Every run -/

/-- What every run establishes: each live pool was created over a validated range and divides it, and
every thread that waits on a variable pool waits for a positive multiple of four. -/
structure Kernel.Partitioned (calls : List Call) (k : Kernel) : Prop where
  sound : k.Sound
  fixedPools : ∀ id, k.record? (.fixedPool id) ≠ none → ∃ spec guestRange,
    fixedOrigin calls id = some (spec, guestRange) ∧ spec.Valid ∧
      guestRange.contains spec.base spec.size = true ∧ k.FixedDivides id spec []
  variablePools : ∀ id, k.record? (.variablePool id) ≠ none → ∃ spec guestRange,
    variableOrigin calls id = some (spec, guestRange) ∧ spec.Valid ∧
      guestRange.contains spec.base spec.size = true ∧ k.VariableDivides id spec
  aligned : ∀ thread reason, k.waitReasonOf thread = some reason → reason.SizeAligned

theorem Kernel.Partitioned.sizesAligned {calls : List Call} (h : k.Partitioned calls) (id : ℕ) :
    k.SizesAligned id := fun thread _ waits => h.aligned thread _ (poolWaitOf_eq_some.mp waits)

theorem Kernel.FixedDivides.thinned {k' : Kernel} {spec : FixedPoolSpec}
    (h : k.FixedDivides id spec []) (thinned : k.Thinned k' (.fixedPool id)) :
    k'.FixedDivides id spec [] := by
  intro pool' found'
  obtain ⟨p, same⟩ := thinned
  simp only [record?, found', Option.map_some, Option.map_map] at same
  obtain ⟨pool, found, same⟩ := Option.map_eq_some_iff.mp same.symm
  cases same
  exact (h pool found).withWaiters _

theorem Kernel.VariableDivides.thinned {k' : Kernel}
    (h : k.VariableDivides id spec) (thinned : k.Thinned k' (.variablePool id)) :
    k'.VariableDivides id spec := by
  intro pool' found'
  obtain ⟨p, same⟩ := thinned
  simp only [record?, found', Option.map_some, Option.map_map] at same
  obtain ⟨pool, found, same⟩ := Option.map_eq_some_iff.mp same.symm
  cases same
  exact (h pool found).withWaiters _

theorem Kernel.Partitioned.step {calls : List Call} (h : k.Partitioned calls) (op : Op)
    (context : CpuContext) :
    (Call.of k op context).after.Partitioned (calls ++ [.of k op context]) where
  sound := h.sound.step op context
  aligned := step_sizeAligned h.sound.running h.aligned op context
  fixedPools id live := by
    rcases step_object h.sound.running op context live with
      ⟨-, before, thinned⟩ | ⟨-, id', r, k', run, new, adds⟩ | ⟨named, before⟩
    · obtain ⟨spec, guestRange, origin, valid, inside, divides⟩ := h.fixedPools id before
      refine ⟨spec, guestRange, ?_, valid, inside, divides.thinned thinned⟩
      rw [fixedOrigin_concat, createdFixed_of_live before, Option.none_or, origin]
    · cases new with
      | @fixedPool spec guestRange _ valid inside =>
        refine ⟨spec, guestRange, ?_, valid, inside, ?_⟩
        · simp [fixedOrigin_concat, Call.createdFixed, Call.of, run, outcome]
        · intro pool found
          have after : (Call.of k (.createFixedPool spec guestRange) context).after = k' := by
            simp [Call.of, run]
          have added := adds.added
          rw [after] at found
          simp only [record?, found, Option.map_some, Option.some.injEq,
            ObjRecord.fixedPool.injEq] at added
          rw [added]
          exact FixedPool.divides_new spec spec.attributes
    · obtain ⟨spec, guestRange, origin, valid, inside, divides⟩ := h.fixedPools id before
      refine ⟨spec, guestRange, ?_, valid, inside,
        step_fixedDivides h.sound.running valid.positive named divides context⟩
      rw [fixedOrigin_concat, createdFixed_of_live before, Option.none_or, origin]
  variablePools id live := by
    rcases step_object h.sound.running op context live with
      ⟨-, before, thinned⟩ | ⟨-, id', r, k', run, new, adds⟩ | ⟨named, before⟩
    · obtain ⟨spec, guestRange, origin, valid, inside, divides⟩ := h.variablePools id before
      refine ⟨spec, guestRange, ?_, valid, inside, divides.thinned thinned⟩
      rw [variableOrigin_concat, createdVariable_of_live before, Option.none_or, origin]
    · cases new with
      | @variablePool spec guestRange _ valid inside =>
        refine ⟨spec, guestRange, ?_, valid, inside, ?_⟩
        · simp [variableOrigin_concat, Call.createdVariable, Call.of, run, outcome]
        · intro pool found
          have after : (Call.of k (.createVariablePool spec guestRange) context).after = k' := by
            simp [Call.of, run]
          have added := adds.added
          rw [after] at found
          simp only [record?, found, Option.map_some, Option.some.injEq,
            ObjRecord.variablePool.injEq] at added
          rw [added]
          exact VariablePool.divides_new spec.attributes valid
    · obtain ⟨spec, guestRange, origin, valid, inside, divides⟩ := h.variablePools id before
      refine ⟨spec, guestRange, ?_, valid, inside,
        step_variableDivides h.sound.running named divides (h.sizesAligned id) context⟩
      rw [variableOrigin_concat, createdVariable_of_live before, Option.none_or, origin]

theorem partitioned_new : Kernel.new.Partitioned [] where
  sound := sound_new
  fixedPools id live := by simp [record?, Kernel.new] at live
  variablePools id live := by simp [record?, Kernel.new] at live
  aligned thread reason waiting := by simp [waitReasonOf, Kernel.new] at waiting

theorem partitioned_of_run {calls : List Call} (run : Run Steps Kernel.new calls k) :
    k.Partitioned calls := by
  refine run.history partitioned_new ?_
  rintro calls a call b h ⟨eq, rfl⟩
  rw [eq]
  exact h.step call.op call.context

theorem freeFixed_handsOver {id address thread : ℕ} {k' : Kernel}
    (run : (freeFixed id address).run k = .ok (some thread) k') :
    k.waitReasonOf thread = some (.fixedPool id) ∧ k'.Received thread (BitVec.ofNat 32 address) ∧
      ∃ pool, k'.fixedPools.get id = some pool ∧ address ∈ pool.allocated := by
  cases found : k.fixedPools.get id with
  | none => simp [freeFixed, run_bind, orFail, found] at run
  | some pool =>
    by_cases used : address ∈ pool.allocated
    · rw [freeFixed_run found used] at run
      split at run
      · cases run
      next next rest still =>
        have waiting := stillWaiting_eq_cons still
        unfold Kernel.handedOver at run
        split at run
        · cases run
          refine ⟨waiting, received_wake waiting _ _, ⟨pool.attributes, pool.blockSize, pool.free,
            (pool.allocated.erase address).insert address, rest⟩, ?_,
            SortedSet.mem_insert.mpr (.inl rfl)⟩
          change (((k.releaseBlock id address).queueFixedPool id rest).assignBlock id
            address).fixedPools.get id = _
          simp only [assignBlock, queueFixedPool, releaseBlock, modifyFixedPool,
            FixedTable.modify_modify, FixedTable.get_modify, if_true, found, Option.map_some]
        · cases run
    · simp [freeFixed, run_bind, orFail, found, failIf, used] at run

/-- In every run each live pool divides exactly the validated range it was created over, and every
block handed to a waiter is recorded as allocated. -/
theorem pools_partition {calls : List Call} (run : Run Steps Kernel.new calls k) :
    (∀ id pool, k.fixedPools.get id = some pool → ∃ spec guestRange,
      fixedOrigin calls id = some (spec, guestRange) ∧ spec.Valid ∧
        guestRange.contains spec.base spec.size = true ∧
        Tiles (pool.addresses.map fun address => ⟨address, pool.blockSize⟩) ⟨spec.base, spec.size⟩ ∧
        pool.blockSize = spec.blockSize ∧ pool.addresses.Nodup ∧ ∀ address,
          address ∈ pool.addresses ↔ ∃ i < spec.blocks, address = spec.base + i * spec.blockSize) ∧
    (∀ id pool, k.variablePools.get id = some pool → ∃ spec guestRange,
      variableOrigin calls id = some (spec, guestRange) ∧ spec.Valid ∧
        guestRange.contains spec.base spec.size = true ∧ pool.Divides spec) ∧
    (∀ id address context thread context' k',
      (step (.freeFixed id address) context).run k = .ok (.woken (some thread), context') k' →
        k.waitReasonOf thread = some (.fixedPool id) ∧
          k'.Received thread (BitVec.ofNat 32 address) ∧
          ∃ pool, k'.fixedPools.get id = some pool ∧ address ∈ pool.allocated) ∧
    ∀ id address context ready context' k',
      (step (.freeVariable id address) context).run k = .ok (.threads ready, context') k' →
        ∀ thread ∈ ready, ∃ block size, k.waitReasonOf thread = some (.variablePool id size) ∧
          0 < size ∧ size % 4 = 0 ∧ k'.Allocated id block size ∧
          k'.Received thread (BitVec.ofNat 32 block) := by
  have partitioned := partitioned_of_run run
  refine ⟨fun id pool found => ?_, fun id pool found => ?_,
    fun id address context thread context' k' run => ?_,
    fun id address context ready context' k' run thread member => ?_⟩
  · obtain ⟨spec, guestRange, origin, valid, inside, divides⟩ :=
      partitioned.fixedPools id (by simp [record?, found])
    have divides := divides pool found
    have same : pool.addresses.Perm spec.addresses := divides.blocks
    refine ⟨spec, guestRange, origin, valid, inside, divides.tiles, divides.blockSize,
      same.nodup_iff.mpr (FixedPoolSpec.nodup_addresses valid.positive), fun address => ?_⟩
    rw [same.mem_iff, FixedPoolSpec.addresses, List.mem_map]
    simp [eq_comm]
  · obtain ⟨spec, guestRange, origin, valid, inside, divides⟩ :=
      partitioned.variablePools id (by simp [record?, found])
    exact ⟨spec, guestRange, origin, valid, inside, divides pool found⟩
  · simp only [step, run_map] at run
    cases freed : (freeFixed id address).run k with
    | error e k₁ => rw [freed] at run; cases run
    | ok woken k₁ =>
      rw [freed] at run
      cases run
      exact freeFixed_handsOver freed
  · simp only [step, run_map] at run
    cases freed : (freeVariable id address).run k with
    | error e k₁ => rw [freed] at run; cases run
    | ok woken k₁ =>
      rw [freed] at run
      cases run
      cases found : k.variablePools.get id with
      | none => simp [freeVariable, run_bind, orFail, found] at freed
      | some pool =>
        obtain ⟨spec, guestRange, -, -, -, divides⟩ :=
          partitioned.variablePools id (by simp [record?, found])
        obtain ⟨block, size, waited, allocated, received⟩ :=
          (freeVariable_divides divides (partitioned.sizesAligned id) address).2 _ _ freed thread member
        obtain ⟨positive, four⟩ := partitioned.sizesAligned id thread size waited
        exact ⟨block, size, poolWaitOf_eq_some.mp waited, positive, four, allocated, received⟩

/-- A pool of 64 bytes from which ten bytes were allocated. -/
def samplePool : List Op :=
  [.createThread (sampleThread 10) sampleRange, .startThread 1 0, .reschedule .hleReturn,
    .createVariablePool ⟨0x8000, 64, 0⟩ sampleRange, .allocateVariable 1 10 none]

/-- The free region and the block of that pool divide the 64 bytes. -/
theorem pools_partition_sample : ∃ pool,
    (Kernel.new.after sampleContext samplePool).variablePools.get 1 = some pool ∧
      pool.free = [⟨0x800c, 52⟩] ∧ pool.Divides ⟨0x8000, 64, 0⟩ := by
  have free : ((Kernel.new.after sampleContext samplePool).variablePools.get 1).map (·.free) =
      some [⟨0x800c, 52⟩] := by decide +kernel
  obtain ⟨pool, found, free⟩ := Option.map_eq_some_iff.mp free
  obtain ⟨spec, guestRange, origin, -, -, divides⟩ :=
    (pools_partition (run_history Kernel.new sampleContext samplePool)).2.1 1 pool found
  have created : variableOrigin (Kernel.new.history sampleContext samplePool) 1 =
      some (⟨0x8000, 64, 0⟩, sampleRange) := by decide +kernel
  rw [created] at origin
  cases origin
  exact ⟨pool, found, free, divides⟩

end Upse
