import Upse.Bios.Kernel.Transitions

/-!
# Objects a thread can be queued on

Semaphores, event flags, message boxes and pools live in five tables, and threads wait on them in
the same way.  This module names an object of any kind, with its record and its queue, and says
when an operation leaves an object alone.
-/

namespace Upse

open ErrorState

/-- The name of a synchronization object or pool. -/
inductive Obj where
  | semaphore (id : ℕ)
  | eventFlag (id : ℕ)
  | messageBox (id : ℕ)
  | fixedPool (id : ℕ)
  | variablePool (id : ℕ)
  deriving DecidableEq, Repr

/-- The record of an object. -/
inductive ObjRecord where
  | semaphore (value : Semaphore)
  | eventFlag (value : EventFlag)
  | messageBox (value : MessageBox)
  | fixedPool (value : FixedPool)
  | variablePool (value : VariablePool)

/-- The object a thread waits on, if its reason names one. -/
def WaitReason.object : WaitReason → Option Obj
  | .semaphore id => some (.semaphore id)
  | .eventFlag id _ _ => some (.eventFlag id)
  | .messageBox id => some (.messageBox id)
  | .fixedPool id => some (.fixedPool id)
  | .variablePool id _ => some (.variablePool id)
  | .sleep | .delay | .vblankStart | .vblankEnd | .moduleStart _ => none

namespace ObjRecord

/-- The threads queued on an object. -/
def waiters : ObjRecord → List ℕ
  | .semaphore value => value.waiters
  | .eventFlag value => value.waiters
  | .messageBox value => value.waiters
  | .fixedPool value => value.waiters
  | .variablePool value => value.waiters

/-- The record with another queue. -/
def withWaiters (waiters : List ℕ) : ObjRecord → ObjRecord
  | .semaphore value => .semaphore { value with waiters := waiters }
  | .eventFlag value => .eventFlag { value with waiters := waiters }
  | .messageBox value => .messageBox { value with waiters := waiters }
  | .fixedPool value => .fixedPool { value with waiters := waiters }
  | .variablePool value => .variablePool { value with waiters := waiters }

@[simp] theorem waiters_withWaiters (waiters : List ℕ) (r : ObjRecord) :
    (r.withWaiters waiters).waiters = waiters := by
  cases r <;> rfl

@[simp] theorem withWaiters_withWaiters (waiters waiters' : List ℕ) (r : ObjRecord) :
    (r.withWaiters waiters).withWaiters waiters' = r.withWaiters waiters' := by
  cases r <;> rfl

@[simp] theorem withWaiters_waiters (r : ObjRecord) : r.withWaiters r.waiters = r := by
  cases r <;> rfl

/-- Keeps the queued threads that satisfy `p`. -/
def thin (p : ℕ → Bool) (r : ObjRecord) : ObjRecord := r.withWaiters (r.waiters.filter p)

@[simp] theorem waiters_thin (p : ℕ → Bool) (r : ObjRecord) :
    (r.thin p).waiters = r.waiters.filter p :=
  waiters_withWaiters _ r

@[simp] theorem thin_thin (p q : ℕ → Bool) (r : ObjRecord) :
    (r.thin q).thin p = r.thin fun id => p id && q id := by
  simp [thin, List.filter_filter]

@[simp] theorem thin_true (r : ObjRecord) : r.thin (fun _ => true) = r := by
  simp [thin]

end ObjRecord

namespace Kernel

/-- The record of a live object. -/
def record? (k : Kernel) : Obj → Option ObjRecord
  | .semaphore id => (k.semaphores.get id).map .semaphore
  | .eventFlag id => (k.eventFlags.get id).map .eventFlag
  | .messageBox id => (k.messageBoxes.get id).map .messageBox
  | .fixedPool id => (k.fixedPools.get id).map .fixedPool
  | .variablePool id => (k.variablePools.get id).map .variablePool

/-- The waiter queue of a live object. -/
def queue? (k : Kernel) (o : Obj) : Option (List ℕ) := (k.record? o).map (·.waiters)

/-- The object is the same in `k'` as in `k`, except that its queue may have lost threads. -/
def Thinned (k k' : Kernel) (o : Obj) : Prop := ∃ p, k'.record? o = (k.record? o).map (·.thin p)

/-- The part of the state without the objects. -/
def core (k : Kernel) : Kernel :=
  { k with
    semaphores := .new
    eventFlags := .new
    messageBoxes := .new
    fixedPools := .new
    variablePools := .new }

theorem thinned_of_eq {k k' : Kernel} {o : Obj} (h : k'.record? o = k.record? o) : k.Thinned k' o :=
  ⟨fun _ => true, by simp [h]⟩

theorem Thinned.trans {k k' k'' : Kernel} {o : Obj} (h : k.Thinned k' o) (h' : k'.Thinned k'' o) :
    k.Thinned k'' o := by
  obtain ⟨p, h⟩ := h
  obtain ⟨q, h'⟩ := h'
  exact ⟨fun id => q id && p id, by simp [h', h, Function.comp_def]⟩

@[simp] theorem record?_wake (k : Kernel) (id : ℕ) (result : ℤ) (value : Option Word) (o : Obj) :
    (k.wake id result value).record? o = k.record? o := by
  cases o <;> rfl

@[simp] theorem record?_disarm (k : Kernel) (id : ℕ) (o : Obj) :
    (k.disarm id).record? o = k.record? o := by
  cases o <;> rfl

@[simp] theorem record?_block (k : Kernel) (id : ℕ) (context : CpuContext) (reason : WaitReason)
    (scheduler : Scheduler) (o : Obj) :
    (k.block id context reason scheduler).record? o = k.record? o := by
  cases o <;> rfl

@[simp] theorem record?_dispatchBest (k : Kernel) (o : Obj) :
    k.dispatchBest.record? o = k.record? o := by
  unfold dispatchBest
  split <;> cases o <;> rfl

theorem record?_modifySemaphore (k : Kernel) (id : ℕ) (f : Semaphore → Semaphore) (o : Obj) :
    (k.modifySemaphore id f).record? o =
      if o = .semaphore id then (k.semaphores.get id).map fun value => .semaphore (f value) else k.record? o := by
  cases o <;> simp only [record?, modifySemaphore, reduceCtorEq, if_false, Obj.semaphore.injEq]
  rw [FixedTable.get_modify]
  split
  next => rw [Option.map_map]; rfl
  next => rfl

theorem record?_modifyEventFlag (k : Kernel) (id : ℕ) (f : EventFlag → EventFlag) (o : Obj) :
    (k.modifyEventFlag id f).record? o =
      if o = .eventFlag id then (k.eventFlags.get id).map fun value => .eventFlag (f value) else k.record? o := by
  cases o <;> simp only [record?, modifyEventFlag, reduceCtorEq, if_false, Obj.eventFlag.injEq]
  rw [FixedTable.get_modify]
  split
  next => rw [Option.map_map]; rfl
  next => rfl

theorem record?_modifyMessageBox (k : Kernel) (id : ℕ) (f : MessageBox → MessageBox) (o : Obj) :
    (k.modifyMessageBox id f).record? o =
      if o = .messageBox id then (k.messageBoxes.get id).map fun value => .messageBox (f value) else k.record? o := by
  cases o <;> simp only [record?, modifyMessageBox, reduceCtorEq, if_false, Obj.messageBox.injEq]
  rw [FixedTable.get_modify]
  split
  next => rw [Option.map_map]; rfl
  next => rfl

theorem record?_modifyFixedPool (k : Kernel) (id : ℕ) (f : FixedPool → FixedPool) (o : Obj) :
    (k.modifyFixedPool id f).record? o =
      if o = .fixedPool id then (k.fixedPools.get id).map fun value => .fixedPool (f value) else k.record? o := by
  cases o <;> simp only [record?, modifyFixedPool, reduceCtorEq, if_false, Obj.fixedPool.injEq]
  rw [FixedTable.get_modify]
  split
  next => rw [Option.map_map]; rfl
  next => rfl

theorem record?_modifyVariablePool (k : Kernel) (id : ℕ) (f : VariablePool → VariablePool) (o : Obj) :
    (k.modifyVariablePool id f).record? o =
      if o = .variablePool id then (k.variablePools.get id).map fun value => .variablePool (f value) else k.record? o := by
  cases o <;> simp only [record?, modifyVariablePool, reduceCtorEq, if_false, Obj.variablePool.injEq]
  rw [FixedTable.get_modify]
  split
  next => rw [Option.map_map]; rfl
  next => rfl

variable {id : ℕ} {k : Kernel}

theorem record?_withSemaphores {table : FixedTable Semaphore semaphoreCapacity 1}
    (others : ∀ j, j ≠ id → table.get j = k.semaphores.get j) (o : Obj) (ne : o ≠ .semaphore id) :
    ({ k with semaphores := table } : Kernel).record? o = k.record? o := by
  cases o with
  | semaphore j => exact congrArg (Option.map ObjRecord.semaphore) (others j fun same => ne (congrArg _ same))
  | _ => rfl

theorem record?_withEventFlags {table : FixedTable EventFlag eventFlagCapacity 1}
    (others : ∀ j, j ≠ id → table.get j = k.eventFlags.get j) (o : Obj) (ne : o ≠ .eventFlag id) :
    ({ k with eventFlags := table } : Kernel).record? o = k.record? o := by
  cases o with
  | eventFlag j => exact congrArg (Option.map ObjRecord.eventFlag) (others j fun same => ne (congrArg _ same))
  | _ => rfl

theorem record?_withMessageBoxes {table : FixedTable MessageBox messageBoxCapacity 1}
    (others : ∀ j, j ≠ id → table.get j = k.messageBoxes.get j) (o : Obj) (ne : o ≠ .messageBox id) :
    ({ k with messageBoxes := table } : Kernel).record? o = k.record? o := by
  cases o with
  | messageBox j => exact congrArg (Option.map ObjRecord.messageBox) (others j fun same => ne (congrArg _ same))
  | _ => rfl

theorem record?_withFixedPools {table : FixedTable FixedPool fixedPoolCapacity 1}
    (others : ∀ j, j ≠ id → table.get j = k.fixedPools.get j) (o : Obj) (ne : o ≠ .fixedPool id) :
    ({ k with fixedPools := table } : Kernel).record? o = k.record? o := by
  cases o with
  | fixedPool j => exact congrArg (Option.map ObjRecord.fixedPool) (others j fun same => ne (congrArg _ same))
  | _ => rfl

theorem record?_withVariablePools {table : FixedTable VariablePool variablePoolCapacity 1}
    (others : ∀ j, j ≠ id → table.get j = k.variablePools.get j) (o : Obj) (ne : o ≠ .variablePool id) :
    ({ k with variablePools := table } : Kernel).record? o = k.record? o := by
  cases o with
  | variablePool j => exact congrArg (Option.map ObjRecord.variablePool) (others j fun same => ne (congrArg _ same))
  | _ => rfl

theorem record?_removeWaiter (k : Kernel) (id : ℕ) (reason : WaitReason) (o : Obj) :
    (k.removeWaiter id reason).record? o =
      if reason.object = some o then (k.record? o).map (·.thin (· ≠ id)) else k.record? o := by
  cases reason <;> simp only [removeWaiter, WaitReason.object, reduceCtorEq, if_false,
    record?_modifySemaphore, record?_modifyEventFlag, record?_modifyMessageBox,
    record?_modifyFixedPool, record?_modifyVariablePool, Option.some.injEq, eq_comm (a := o)]
  all_goals
    split
    next same => subst same; simp only [record?, Option.map_map]; rfl
    next => rfl

theorem thinned_removeWaiter (k : Kernel) (id : ℕ) (reason : WaitReason) (o : Obj) :
    k.Thinned (k.removeWaiter id reason) o := by
  by_cases h : reason.object = some o
  · exact ⟨_, by rw [record?_removeWaiter, if_pos h]⟩
  · exact thinned_of_eq (by rw [record?_removeWaiter, if_neg h])

@[simp] theorem core_removeWaiter (k : Kernel) (id : ℕ) (reason : WaitReason) :
    (k.removeWaiter id reason).core = k.core := by
  cases reason <;> rfl

@[simp] theorem waitReasonOf_removeWaiter (k : Kernel) (id : ℕ) (reason : WaitReason) (other : ℕ) :
    (k.removeWaiter id reason).waitReasonOf other = k.waitReasonOf other := by
  cases reason <;> rfl

end Kernel

end Upse
