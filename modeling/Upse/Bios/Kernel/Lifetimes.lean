import Upse.Bios.Kernel.Frames
import Upse.Bios.Kernel.PoolLayout

/-!
# Creating and deleting objects

A creating call either fails without a trace or adds one object with the record its parameters give;
a deleting call fails without a trace or leaves the object dead.  Any other change of a live object
is a change of its queue, unless the call names the object.
-/

namespace Upse

open ErrorState Kernel

variable {k : Kernel}

/-! ### Creation -/

/-- The object a successful creating call adds under an identifier, with its record. -/
inductive Op.Creates : Op → ℕ → Obj → ObjRecord → Prop
  | semaphore {spec : SemaphoreSpec} {id : ℕ} : spec.initial ≤ spec.maximum →
      Creates (.createSemaphore spec) id (.semaphore id)
        (.semaphore ⟨spec.initial, spec.maximum, spec.attributes, []⟩)
  | eventFlag {spec : EventFlagSpec} {id : ℕ} :
      Creates (.createEventFlag spec) id (.eventFlag id) (.eventFlag ⟨spec.bits, spec.attributes, []⟩)
  | messageBox {spec : MessageBoxSpec} {id : ℕ} :
      Creates (.createMessageBox spec) id (.messageBox id) (.messageBox ⟨spec.attributes, [], []⟩)
  | fixedPool {spec : FixedPoolSpec} {guestRange : GuestRange} {id : ℕ} : spec.Valid →
      guestRange.contains spec.base spec.size = true →
      Creates (.createFixedPool spec guestRange) id (.fixedPool id)
        (.fixedPool ⟨spec.attributes, spec.blockSize, spec.addresses, .empty, []⟩)
  | variablePool {spec : VariablePoolSpec} {guestRange : GuestRange} {id : ℕ} : spec.Valid →
      guestRange.contains spec.base spec.size = true →
      Creates (.createVariablePool spec guestRange) id (.variablePool id)
        (.variablePool ⟨spec.attributes, [⟨spec.base, spec.size⟩], ∅, []⟩)

/-- The state after an object was added. -/
structure Kernel.Adds (k k' : Kernel) (o : Obj) (r : ObjRecord) : Prop where
  core : k'.core = k.core
  dead : k.record? o = none
  added : k'.record? o = some r
  others : ∀ o', o' ≠ o → k'.record? o' = k.record? o'

theorem FixedPoolSpec.valid_of_validate {spec : FixedPoolSpec} {guestRange : GuestRange}
    (positive : spec.blockSize ≠ 0) (aligned : spec.blockSize % 4 = 0)
    (valid : guestRange.validate spec.base (spec.blockSize * spec.blocks) 4 = .ok ()) :
    spec.Valid ∧ guestRange.contains spec.base spec.size = true := by
  obtain ⟨-, -, base, fits, low, high⟩ := GuestRange.validate_eq_ok valid
  rw [Nat.mul_comm] at fits high
  refine ⟨⟨Nat.pos_of_ne_zero positive, base, aligned, fits⟩, GuestRange.contains_iff.mpr ?_⟩
  exact ⟨(Nat.le_add_left _ _).trans_lt fits, fits, low, high⟩

/-- The common end of the creating calls: the record is inserted into its table. -/
theorem settles_insert_bind {α T : Type} {P : α → Kernel → Prop} {N firstId : ℕ}
    {table : FixedTable T N firstId} {value : T} {f : ℕ × FixedTable T N firstId → KernelM α}
    (h : ∀ id after, table.get id = none →
      (∀ j, after.get j = if j = id then some value else table.get j) → Settles P k (f (id, after))) :
    Settles P k (check (table.insert value) >>= f) := by
  refine settles_check_bind fun entry inserted => ?_
  obtain ⟨-, free, -, -, get⟩ := FixedTable.insert_eq_ok inserted
  exact h entry.1 entry.2 free get

/-- A creating call fails without a trace or adds the object its parameters give. -/
theorem settles_creates {op : Op} (creates : op.creates = true) (context : CpuContext) :
    Settles (fun result k' => ∃ id o r, result = (.handle id, context) ∧ op.Creates id o r ∧ k.Adds k' o r) k
      (step op context) := by
  cases op with
  | createSemaphore spec =>
    refine .map _ (settles_check_bind fun _ _ => settles_failIf_bind fun size => ?_)
    refine settles_insert_bind fun id after free get => ?_
    refine .inr ⟨id, _, rfl, id, _, _, rfl, .semaphore (not_lt.mp (not_or.mp size).2), rfl,
      by simp [record?, free], by simp [record?, get], ?_⟩
    exact record?_withSemaphores fun j ne => by rw [get, if_neg ne]
  | createEventFlag spec =>
    refine .map _ (settles_failIf_bind fun _ => ?_)
    refine settles_insert_bind fun id after free get => ?_
    refine .inr ⟨id, _, rfl, id, _, _, rfl, .eventFlag, rfl, by simp [record?, free], by simp [record?, get], ?_⟩
    exact record?_withEventFlags fun j ne => by rw [get, if_neg ne]
  | createMessageBox spec =>
    refine .map _ (settles_check_bind fun _ _ => ?_)
    refine settles_insert_bind fun id after free get => ?_
    refine .inr ⟨id, _, rfl, id, _, _, rfl, .messageBox, rfl, by simp [record?, free], by simp [record?, get], ?_⟩
    exact record?_withMessageBoxes fun j ne => by rw [get, if_neg ne]
  | createFixedPool spec guestRange =>
    refine .map _ (settles_check_bind fun _ _ => settles_failIf_bind fun size => ?_)
    refine settles_orFail_bind fun total product => settles_check_bind fun _ range => ?_
    obtain ⟨-, rfl⟩ := checkedMul_eq_some.mp product
    obtain ⟨positive, -, aligned⟩ : spec.blockSize ≠ 0 ∧ spec.blocks ≠ 0 ∧ spec.blockSize % 4 = 0 := by
      simpa [not_or] using size
    obtain ⟨valid, inside⟩ := FixedPoolSpec.valid_of_validate positive aligned (except_mapError_ok.mp range)
    refine settles_insert_bind fun id after free get => ?_
    refine .inr ⟨id, _, rfl, id, _, _, rfl, .fixedPool valid inside, rfl, by simp [record?, free],
      by simp [record?, get, FixedPoolSpec.addresses], ?_⟩
    exact record?_withFixedPools fun j ne => by rw [get, if_neg ne]
  | createVariablePool spec guestRange =>
    refine .map _ (settles_check_bind fun _ _ => settles_failIf_bind fun size => ?_)
    refine settles_check_bind fun _ range => ?_
    obtain ⟨positive, -, base, fits, low, high⟩ := GuestRange.validate_eq_ok (except_mapError_ok.mp range)
    have aligned : spec.size % 4 = 0 := by
      rw [not_or, not_not] at size
      exact size.2
    have inside := GuestRange.contains_iff.mpr ⟨(Nat.le_add_left _ _).trans_lt fits, fits, low, high⟩
    refine settles_insert_bind fun id after free get => ?_
    refine .inr ⟨id, _, rfl, id, _, _, rfl, .variablePool ⟨positive, base, aligned, fits⟩ inside, rfl,
      by simp [record?, free], by simp [record?, get], ?_⟩
    exact record?_withVariablePools fun j ne => by rw [get, if_neg ne]
  | _ => cases creates

theorem step_creates {op : Op} (creates : op.creates = true) (context : CpuContext) :
    (∃ e, (step op context).run k = .error e k) ∨ ∃ id o r k',
      (step op context).run k = .ok (.handle id, context) k' ∧ op.Creates id o r ∧ k.Adds k' o r := by
  obtain failed | ⟨_, k', run, id, o, r, rfl, new, adds⟩ := settles_creates (k := k) creates context
  · exact .inl failed
  · exact .inr ⟨id, o, r, k', run, new, adds⟩

/-! ### Deletion -/

/-- The object an operation deletes. -/
def Op.deletes : Op → Option Obj
  | .deleteSemaphore id => some (.semaphore id)
  | .deleteEventFlag id => some (.eventFlag id)
  | .deleteMessageBox id => some (.messageBox id)
  | .deleteFixedPool id => some (.fixedPool id)
  | .deleteVariablePool id => some (.variablePool id)
  | _ => none

/-- The state without an object. -/
def Kernel.without (k : Kernel) : Obj → Kernel
  | .semaphore id => { k with semaphores := (k.semaphores.remove id).2 }
  | .eventFlag id => { k with eventFlags := (k.eventFlags.remove id).2 }
  | .messageBox id => { k with messageBoxes := (k.messageBoxes.remove id).2 }
  | .fixedPool id => { k with fixedPools := (k.fixedPools.remove id).2 }
  | .variablePool id => { k with variablePools := (k.variablePools.remove id).2 }

theorem Kernel.does_without (k : Kernel) (o : Obj) : k.Does (.touch o) (k.without o) := by
  cases o with
  | semaphore id => exact does_removeSemaphore k id
  | eventFlag id => exact does_removeEventFlag k id
  | messageBox id => exact does_removeMessageBox k id
  | fixedPool id => exact does_removeFixedPool k id
  | variablePool id => exact does_removeVariablePool k id

theorem Kernel.record?_without (k : Kernel) (o : Obj) : (k.without o).record? o = none := by
  cases o <;> simp [without, record?, FixedTable.get_remove]

/-- A deleting call fails without a trace, or removes the object and releases its queue. -/
theorem step_deletes {op : Op} {o : Obj} (deletes : op.deletes = some o) (context : CpuContext) :
    (∃ e, (step op context).run k = .error e k) ∨ ∃ r, k.record? o = some r ∧
      (step op context).run k = ((fun _ => (Reply.done, context)) <$>
        releaseDeletedWaiters r.waiters).run (k.without o) := by
  cases op with
  | deleteSemaphore id =>
    cases deletes
    cases found : k.semaphores.get id with
    | none =>
      simp [step, deleteSemaphore, run_bind, orFail, found, FixedTable.remove_snd_of_none found]
    | some value =>
      refine .inr ⟨.semaphore value, by simp [record?, found], ?_⟩
      simp [step, deleteSemaphore, run_bind, orFail, found, without, ObjRecord.waiters]
  | deleteEventFlag id =>
    cases deletes
    cases found : k.eventFlags.get id with
    | none =>
      simp [step, deleteEventFlag, run_bind, orFail, found, FixedTable.remove_snd_of_none found]
    | some value =>
      refine .inr ⟨.eventFlag value, by simp [record?, found], ?_⟩
      simp [step, deleteEventFlag, run_bind, orFail, found, without, ObjRecord.waiters]
  | deleteMessageBox id =>
    cases deletes
    cases found : k.messageBoxes.get id with
    | none =>
      simp [step, deleteMessageBox, run_bind, orFail, found, FixedTable.remove_snd_of_none found]
    | some value =>
      refine .inr ⟨.messageBox value, by simp [record?, found], ?_⟩
      simp [step, deleteMessageBox, run_bind, orFail, found, without, ObjRecord.waiters]
  | deleteFixedPool id =>
    cases deletes
    cases found : k.fixedPools.get id with
    | none => simp [step, deleteFixedPool, run_bind, orFail, found]
    | some value =>
      by_cases used : value.allocated.toList ≠ []
      · simp [step, deleteFixedPool, run_bind, orFail, found, failIf, used]
      · refine .inr ⟨.fixedPool value, by simp [record?, found], ?_⟩
        simp [step, deleteFixedPool, run_bind, orFail, found, failIf, not_not.mp used, without,
          ObjRecord.waiters]
  | deleteVariablePool id =>
    cases deletes
    cases found : k.variablePools.get id with
    | none => simp [step, deleteVariablePool, run_bind, orFail, found]
    | some value =>
      by_cases used : value.allocated.entries ≠ []
      · simp [step, deleteVariablePool, run_bind, orFail, found, failIf, used]
      · refine .inr ⟨.variablePool value, by simp [record?, found], ?_⟩
        simp [step, deleteVariablePool, run_bind, orFail, found, failIf, not_not.mp used,
          without, ObjRecord.waiters]
  | _ => cases deletes

/-- After a deleting call the object is dead, unless the call failed without a trace. -/
theorem step_deletes_dead {op : Op} {o : Obj} (deletes : op.deletes = some o) (context : CpuContext)
    (live : (leaves ((step op context).run k)).record? o ≠ none) :
    leaves ((step op context).run k) = k := by
  rcases step_deletes (k := k) deletes context with ⟨e, failed⟩ | ⟨r, -, run⟩
  · rw [failed]
    rfl
  · rw [run] at live
    have releases : Leads (Acts (· ≠ .create o)) (k.without o) (releaseDeletedWaiters r.waiters) :=
      acts_releaseDeletedWaiters (by simp) (by simp)
    exact absurd ((releases.map _).dead (by simp) (k.record?_without o)) live

/-! ### What can happen to an object -/

/-- An object that is alive after a call was not named by it and lost at most waiters, or was created
by it, or was named by it. -/
theorem step_object (sound : k.RunningSound) (op : Op) (context : CpuContext) {o : Obj}
    (live : (leaves ((step op context).run k)).record? o ≠ none) :
    (op.target ≠ some o ∧ k.record? o ≠ none ∧ k.Thinned (leaves ((step op context).run k)) o) ∨
    (k.record? o = none ∧ ∃ id r k', (step op context).run k = .ok (.handle id, context) k' ∧
      op.Creates id o r ∧ k.Adds k' o r) ∨
    (op.target = some o ∧ k.record? o ≠ none) := by
  have lives : op ≠ .reset := by
    rintro rfl
    rw [reset_run] at live
    cases o <;> simp [record?, Kernel.new] at live
  by_cases before : k.record? o = none
  · refine .inr (.inl ⟨before, ?_⟩)
    by_cases creates : op.creates = true
    · rcases step_creates (k := k) creates context with ⟨e, failed⟩ | ⟨id, o', r, k', run, new, adds⟩
      · rw [failed] at live
        exact absurd before live
      · by_cases same : o = o'
        · subst same
          exact ⟨id, r, k', run, new, adds⟩
        · rw [run] at live
          exact absurd ((adds.others o same).trans before) live
    · exact absurd (step_dead sound lives context (Bool.not_eq_true _ ▸ creates) before) live
  · by_cases named : op.target = some o
    · exact .inr (.inr ⟨named, before⟩)
    · exact .inl ⟨named, before, step_thinned sound lives context named before⟩

end Upse
