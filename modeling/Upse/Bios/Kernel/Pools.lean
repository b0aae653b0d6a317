import Upse.Bios.Kernel.Scheduling

/-!
# Memory pools

Fixed pools hand out blocks of one size from a free list; variable pools split and coalesce free
regions, first fit.  A freed block is assigned to queued threads before it becomes free.
-/

namespace Upse

open ErrorState Kernel

/-! ### Fixed pools -/

/-- Creates a fixed-size memory pool over an existing guest range. -/
def createFixedPool (spec : FixedPoolSpec) (guestRange : GuestRange) : KernelM ℕ := do
  check (validateAttributes spec.attributes)
  failIf (spec.blockSize = 0 ∨ spec.blocks = 0 ∨ spec.blockSize % 4 ≠ 0) .illegalMemorySize
  let size ← orFail (checkedMul 32 spec.blockSize spec.blocks) .illegalMemorySize
  check ((guestRange.validate spec.base size 4).mapError fun _ => .illegalMemoryBlock)
  let k ← get
  let (id, fixedPools) ← check (k.fixedPools.insert
    { attributes := spec.attributes
      blockSize := spec.blockSize
      free := (List.range spec.blocks).map fun index => spec.base + index * spec.blockSize
      allocated := .empty
      waiters := [] })
  set { k with fixedPools := fixedPools }
  return id

/-- Deletes an unused fixed pool and releases waiters. -/
def deleteFixedPool (id : ℕ) : KernelM Unit := do
  let pool ← orFail ((← get).fixedPools.get id) .unknownFixedPoolId
  failIf (pool.allocated.toList ≠ []) .memoryInUse
  modify fun k => { k with fixedPools := (k.fixedPools.remove id).2 }
  releaseDeletedWaiters pool.waiters

/-- Allocates a fixed block immediately or blocks the running thread. -/
def allocateFixed (id : ℕ) (timeout : Option Ticks) (context : CpuContext) :
    KernelM ((ℕ ⊕ ScheduleAction) × CpuContext) := do
  let threadId ← orFail (← get).currentThread .cannotWait
  let pool ← orFail ((← get).fixedPools.get id) .unknownFixedPoolId
  match pool.free with
  | address :: free =>
    modify fun k => k.modifyFixedPool id fun pool =>
      { pool with free := free, allocated := pool.allocated.insert address }
    return (.inl address, context)
  | [] =>
    modify fun k => k.modifyFixedPool id fun pool =>
      { pool with waiters := insertWaiter pool.waiters threadId pool.attributes k.threads }
    let deadline ← waitDeadline timeout
    let (action, context) ← blockCurrent context (.fixedPool id) deadline
    return (.inr action, context)

/-- The loop of `freeFixed` over the queued waiters. -/
def freeFixedLoop (id address : ℕ) : List ℕ → KernelM (Option ℕ)
  | [] => do
    let _ ← orFail ((← get).fixedPools.get id) .unknownFixedPoolId
    modify fun k => k.modifyFixedPool id fun pool => { pool with free := pool.free ++ [address] }
    return none
  | threadId :: waiters => do
    modify fun k => k.modifyFixedPool id fun pool => { pool with waiters := waiters }
    if (← get).waitMatches threadId (.fixedPool id) then
      modify fun k => k.modifyFixedPool id fun pool =>
        { pool with allocated := pool.allocated.insert address }
      completeWait threadId 0 (some (BitVec.ofNat 32 address))
      return some threadId
    freeFixedLoop id address waiters

/-- Frees a fixed block, assigning it directly to the first valid waiter. -/
def freeFixed (id address : ℕ) : KernelM (Option ℕ) := do
  let pool ← orFail ((← get).fixedPools.get id) .unknownFixedPoolId
  failIf (address ∉ pool.allocated) .illegalMemoryBlock
  modify fun k => k.modifyFixedPool id fun pool =>
    { pool with allocated := pool.allocated.erase address }
  freeFixedLoop id address pool.waiters

/-! ### Variable pools -/

/-- An allocation size rounded up to a multiple of four. -/
def alignPoolSize (size : ℕ) : Except KernelError ℕ :=
  if size = 0 then .error .illegalMemorySize
  else match checkedAdd 32 size 3 with
    | some value => .ok (value / 4 * 4)
    | none => .error .illegalMemorySize

theorem alignPoolSize_eq_ok {size aligned : ℕ} (h : alignPoolSize size = .ok aligned) :
    0 < aligned ∧ aligned % 4 = 0 ∧ size ≤ aligned ∧ aligned < size + 4 := by
  unfold alignPoolSize at h
  split at h
  · cases h
  · split at h
    next value sum =>
      obtain ⟨-, rfl⟩ := checkedAdd_eq_some.mp sum
      cases h
      omega
    · cases h

/-- Takes a block from the first free region that is large enough. -/
def allocateRegion (pool : VariablePool) (size : ℕ) : Option (ℕ × VariablePool) := do
  let index ← pool.free.findIdx? fun region => size ≤ region.size
  let region ← pool.free[index]?
  let next ← checkedAdd 32 region.address size
  let free := if region.size - size = 0 then pool.free.eraseIdx index
    else pool.free.set index ⟨next, region.size - size⟩
  return (region.address,
    { pool with free := free, allocated := pool.allocated.insert region.address size })

/-- Appends a region to an ascending list, merging it with the last one when they touch. -/
def pushRegion (output : List FreeRegion) (region : FreeRegion) : List FreeRegion :=
  match output.getLast? with
  | some previous =>
    if checkedAdd 32 previous.address previous.size = some region.address then
      output.dropLast ++ [{ previous with size := previous.size + region.size }]
    else output ++ [region]
  | none => output ++ [region]

/-- Sorts the free regions by address and merges the ones that touch. -/
def coalesceRegions (regions : List FreeRegion) : List FreeRegion :=
  (regions.insertionSort fun a b => a.address ≤ b.address).foldl pushRegion []

/-- Creates a variable-size first-fit memory pool. -/
def createVariablePool (spec : VariablePoolSpec) (guestRange : GuestRange) : KernelM ℕ := do
  check (validateAttributes spec.attributes)
  failIf (spec.size = 0 ∨ spec.size % 4 ≠ 0) .illegalMemorySize
  check ((guestRange.validate spec.base spec.size 4).mapError fun _ => .illegalMemoryBlock)
  let k ← get
  let (id, variablePools) ← check (k.variablePools.insert
    { attributes := spec.attributes
      free := [⟨spec.base, spec.size⟩]
      allocated := ∅
      waiters := [] })
  set { k with variablePools := variablePools }
  return id

/-- Deletes an unused variable pool and releases waiters. -/
def deleteVariablePool (id : ℕ) : KernelM Unit := do
  let pool ← orFail ((← get).variablePools.get id) .unknownVariablePoolId
  failIf (pool.allocated.entries ≠ []) .memoryInUse
  modify fun k => { k with variablePools := (k.variablePools.remove id).2 }
  releaseDeletedWaiters pool.waiters

/-- Allocates variable-pool memory immediately or blocks the running thread. -/
def allocateVariable (id size : ℕ) (timeout : Option Ticks) (context : CpuContext) :
    KernelM ((ℕ ⊕ ScheduleAction) × CpuContext) := do
  let size ← check (alignPoolSize size)
  let threadId ← orFail (← get).currentThread .cannotWait
  let pool ← orFail ((← get).variablePools.get id) .unknownVariablePoolId
  match allocateRegion pool size with
  | some (address, pool) =>
    modify fun k => k.modifyVariablePool id fun _ => pool
    return (.inl address, context)
  | none =>
    modify fun k => k.modifyVariablePool id fun pool =>
      { pool with waiters := insertWaiter pool.waiters threadId pool.attributes k.threads }
    let deadline ← waitDeadline timeout
    let (action, context) ← blockCurrent context (.variablePool id size) deadline
    return (.inr action, context)

/-- The size a thread waits for on the variable pool `id`. -/
def Kernel.poolWaitOf (k : Kernel) (id threadId : ℕ) : Option ℕ :=
  match k.waitReasonOf threadId with
  | some (.variablePool waitId size) => if waitId = id then some size else none
  | _ => none

theorem Kernel.poolWaitOf_eq_some {k : Kernel} {id thread size : ℕ} :
    k.poolWaitOf id thread = some size ↔ k.waitReasonOf thread = some (.variablePool id size) := by
  unfold poolWaitOf
  split
  next waitId p h =>
    rw [h]
    constructor
    · intro eq
      split at eq
      next same => cases eq; rw [same]
      next => cases eq
    · intro eq
      cases eq
      simp
  next h => simpa using h id size

/-- The loop of `freeVariable` over the queued waiters: the threads served and those retained. -/
def freeVariableLoop (id : ℕ) : List ℕ → KernelM (List ℕ × List ℕ)
  | [] => return ([], [])
  | threadId :: queued => do
    match (← get).poolWaitOf id threadId with
    | none => freeVariableLoop id queued
    | some requested =>
      let pool ← orFail ((← get).variablePools.get id) .unknownVariablePoolId
      match allocateRegion pool requested with
      | some (block, pool) =>
        modify fun k => k.modifyVariablePool id fun _ => pool
        completeWait threadId 0 (some (BitVec.ofNat 32 block))
        let (ready, retained) ← freeVariableLoop id queued
        return (threadId :: ready, retained)
      | none =>
        let (ready, retained) ← freeVariableLoop id queued
        return (ready, threadId :: retained)

/-- Frees one variable allocation and services satisfiable waiters in order. -/
def freeVariable (id address : ℕ) : KernelM (List ℕ) := do
  let pool ← orFail ((← get).variablePools.get id) .unknownVariablePoolId
  let size ← orFail (pool.allocated.lookup address) .illegalMemoryBlock
  modify fun k => k.modifyVariablePool id fun pool =>
    { pool with
      free := coalesceRegions (pool.free ++ [⟨address, size⟩])
      allocated := pool.allocated.erase address
      waiters := [] }
  let (ready, retained) ← freeVariableLoop id pool.waiters
  let _ ← orFail ((← get).variablePools.get id) .unknownVariablePoolId
  modify fun k => k.modifyVariablePool id fun pool => { pool with waiters := retained }
  return ready

end Upse
