import Upse.Bios.Kernel.Acts

/-!
# Following a kernel operation act by act

The rules for the checks of a kernel operation, and the acts of the functions all operations share:
ending a wait, blocking, selecting, and rewriting one object.
-/

namespace Upse

open ErrorState Relation Kernel

variable {L : Act → Prop} {k : Kernel}

/-! ### The deadline of a wait -/

theorem waitDeadline_none : (waitDeadline none).run k = .ok none k := rfl

theorem waitDeadline_of_lt {ticks : Ticks} (fits : k.now + ticks < 2 ^ 64) :
    (waitDeadline (some ticks)).run k = .ok (some (k.now + ticks)) k := by
  simp [waitDeadline, run_bind, Deadline.checkedAdvance_of_lt fits]

theorem waitDeadline_of_le {ticks : Ticks} (overflow : 2 ^ 64 ≤ k.now + ticks) :
    (waitDeadline (some ticks)).run k = .error (.clock .overflow) k := by
  simp [waitDeadline, run_bind, Deadline.checkedAdvance_of_le overflow]

theorem waitDeadline_run (timeout : Option Ticks) (k : Kernel) :
    (∃ deadline, (waitDeadline timeout).run k = .ok deadline k) ∨
      ∃ e, (waitDeadline timeout).run k = .error e k := by
  cases timeout with
  | none => exact .inl ⟨none, waitDeadline_none⟩
  | some ticks =>
    by_cases fits : k.now + ticks < 2 ^ 64
    · exact .inl ⟨_, waitDeadline_of_lt fits⟩
    · exact .inr ⟨_, waitDeadline_of_le (not_lt.mp fits)⟩

/-! ### Rules for the checks of the kernel -/

section Rules

variable {R : Kernel → Kernel → Prop} {α β : Type}

theorem leads_of_run {m : KernelM α} {r : EStateM.Result BiosError Kernel α} (h : m.run k = r)
    (hr : R k (leaves r)) : Leads R k m := by
  unfold Leads
  rw [h]
  exact hr

variable [Std.Refl R]

theorem leads_check_bind {r : Except KernelError α} {f : α → KernelM β}
    (h : ∀ a, r = .ok a → Leads R k (f a)) : Leads R k (check r >>= f) := by
  cases r with
  | ok a => exact h a rfl
  | error e => exact Std.Refl.refl k

theorem leads_failIf_bind {c : Prop} [Decidable c] {e : KernelError} {f : PUnit → KernelM β}
    (h : ¬ c → Leads R k (f ⟨⟩)) : Leads R k (failIf c e >>= f) := by
  unfold failIf
  split
  · exact Std.Refl.refl k
  next hc => exact h hc

theorem leads_orFail_bind {o : Option α} {e : KernelError} {f : α → KernelM β}
    (h : ∀ a, o = some a → Leads R k (f a)) : Leads R k (orFail o e >>= f) :=
  leads_okOr_bind h

theorem leads_waitDeadline_bind {timeout : Option Ticks} {f : Option Deadline → KernelM β}
    (h : ∀ deadline, Leads R k (f deadline)) : Leads R k (waitDeadline timeout >>= f) := by
  obtain ⟨deadline, computed⟩ | ⟨e, overflow⟩ := waitDeadline_run timeout k
  · exact leads_of_run (run_bind_of_ok computed) (h deadline)
  · exact leads_of_run (run_bind_of_error overflow) (Std.Refl.refl k)

end Rules

/-! ### Operations that fail without a trace -/

/-- The program fails and leaves the state as it was, or returns as `P` says. -/
def Settles {α : Type} (P : α → Kernel → Prop) (k : Kernel) (m : KernelM α) : Prop :=
  (∃ e, m.run k = .error e k) ∨ ∃ a k', m.run k = .ok a k' ∧ P a k'

section Settles

variable {k : Kernel} {α β : Type} {P : β → Kernel → Prop}

theorem settles_get_bind {f : Kernel → KernelM β} (h : Settles P k (f k)) : Settles P k (get >>= f) := h

variable {f : α → KernelM β}

theorem settles_check_bind {r : Except KernelError α}
    (h : ∀ a, r = .ok a → Settles P k (f a)) : Settles P k (check r >>= f) := by
  cases r with
  | error e => exact .inl ⟨_, rfl⟩
  | ok a => exact h a rfl

theorem settles_failIf_bind {c : Prop} [Decidable c] {e : KernelError} {f : Unit → KernelM β}
    (h : ¬c → Settles P k (f ())) : Settles P k (failIf c e >>= f) := by
  unfold failIf
  split
  · exact .inl ⟨_, rfl⟩
  next hc => exact h hc

theorem settles_orFail_bind {o : Option α} {e : KernelError}
    (h : ∀ a, o = some a → Settles P k (f a)) : Settles P k (orFail o e >>= f) := by
  cases o with
  | none => exact .inl ⟨_, rfl⟩
  | some a => exact h a rfl

theorem settles_bind_of_ok {m : KernelM α} {a : α} (ran : m.run k = .ok a k)
    (h : Settles P k (f a)) : Settles P k (m >>= f) := by
  unfold Settles
  rw [run_bind_of_ok ran]
  exact h

theorem Settles.map {m : KernelM α} (f : α → β) (h : Settles (fun a => P (f a)) k m) :
    Settles P k (f <$> m) := by
  obtain ⟨e, failed⟩ | ⟨a, k', run, after⟩ := h
  · exact .inl ⟨e, by rw [run_map, failed]⟩
  · exact .inr ⟨f a, k', by rw [run_map, run], after⟩

end Settles

/-! ### The scheduling functions -/

variable {id : ℕ} {k : Kernel}

theorem acts_completeWait {reason : WaitReason} {result : ℤ} {value : Option Word}
    (waiting : k.waitReasonOf id = some reason) (wakes : L (.wake id reason result value))
    (disarms : L (.disarm id)) : Leads (Acts L) k (completeWait id result value) := by
  by_cases full : k.OrdersExhausted
  · exact leads_of_run (completeWait_of_full full) ((Does.disarm full).acts disarms)
  · exact leads_of_run (completeWait_of_waiting waiting (not_le.mp full))
      ((Does.wake waiting full).acts wakes)

theorem acts_dispatchBest (idle : k.currentThread = none) (dispatches : L .dispatch) :
    Acts L k k.dispatchBest := by
  unfold dispatchBest
  cases best : k.bestReady with
  | none => exact .refl
  | some id =>
    obtain ⟨thread, found, ready, -⟩ := bestReady_eq_some best
    exact (Does.dispatch idle ⟨thread, found, ready⟩).acts dispatches

variable {context : CpuContext}

theorem acts_select_of_none (idle : k.currentThread = none) (dispatches : L .dispatch)
    {previous : Option ℕ} {force : Bool} :
    Leads (Acts L) k (select context previous force) := by
  exact leads_of_run (select_of_none idle context previous force) (acts_dispatchBest idle dispatches)

theorem acts_blockCurrent (sound : k.RunningSound) {reason : WaitReason}
    (blocks : ∀ id, L (.block id reason)) (dispatches : L .dispatch)
    {deadline : Option Deadline} : Leads (Acts L) k (blockCurrent context reason deadline) := by
  cases running : k.currentThread with
  | none => exact leads_of_run (blockCurrent_of_none running context reason deadline) .refl
  | some id =>
    obtain ⟨thread, found, -⟩ := sound.found running
    cases armed : k.arm id deadline with
    | ok scheduler =>
      have run := blockCurrent_of_armed running found armed context reason
      exact leads_of_run run (((Does.block running armed).acts (blocks id)).trans
        (acts_dispatchBest rfl dispatches))
    | error e =>
      refine leads_of_run (blockCurrent_of_unarmed running found armed context reason) ?_
      refine (Does.stall running (.inr ?_)).acts (blocks id)
      cases deadline with
      | none => cases armed
      | some deadline =>
        by_contra fit
        obtain ⟨scheduler, armed'⟩ := Scheduler.schedule_ok (waitEvent id) deadline (not_le.mp fit)
        have armed : k.scheduler.schedule (waitEvent id) deadline = .error e := armed
        rw [armed'] at armed
        cases armed

/-- A selection that does not stay with the running thread switches to another one that is ready. -/
theorem exists_switch {id : ℕ} {thread : Thread} {force : Bool} (found : k.threads.get id = some thread)
    (state : thread.state = .running)
    (moves : ¬ ∀ other thread', k.bestReady = some other → k.threads.get other = some thread' →
      force = false ∧ thread.currentPriority ≤ thread'.currentPriority) :
    ∃ other thread', k.bestReady = some other ∧ k.threads.get other = some thread' ∧
      thread'.state = .ready ∧ other ≠ id ∧
      (force = true ∨ thread'.currentPriority < thread.currentPriority) := by
  push Not at moves
  obtain ⟨other, thread', best, found', switches⟩ := moves
  obtain ⟨_, found'', ready, -⟩ := bestReady_eq_some best
  cases found'.symm.trans found''
  refine ⟨other, thread', best, found', ready, ?_, ?_⟩
  · rintro rfl
    cases found.symm.trans found'
    cases state.symm.trans ready
  · cases force
    · exact .inr (switches rfl)
    · exact .inl rfl

theorem acts_select (sound : k.RunningSound) (preempts : L .preempt) (loses : L .lose)
    (dispatches : L .dispatch) {previous : Option ℕ} {force : Bool} :
    Leads (Acts L) k (select context previous force) := by
  cases running : k.currentThread with
  | none => exact acts_select_of_none running dispatches
  | some id =>
    obtain ⟨thread, found, state⟩ := sound.found running
    by_cases stays : ∀ other thread', k.bestReady = some other →
        k.threads.get other = some thread' →
        force = false ∧ thread.currentPriority ≤ thread'.currentPriority
    · exact leads_of_run (select_of_stays running found stays context previous) .refl
    · obtain ⟨other, thread', best, found', ready, ne, allowed⟩ := exists_switch found state stays
      refine leads_of_run (select_of_switches running found best found' ne allowed context previous) ?_
      split
      next fit =>
        have preempt : k.Does .preempt (k.preempt id context) := .preempt running (not_le.mpr fit)
        refine (preempt.acts preempts).trans ?_
        refine (Does.dispatch rfl ⟨thread', ?_, ready⟩).acts dispatches
        simp [Kernel.preempt, modifyThread, FixedTable.get_modify, ne, found']
      next full => exact (Does.lose (not_lt.mp full)).acts loses

/-! ### Rewriting one object -/

theorem does_modifySemaphore (k : Kernel) (id : ℕ) (f : Semaphore → Semaphore) :
    k.Does (.touch (.semaphore id)) (k.modifySemaphore id f) :=
  .touch rfl (fun dead => by simpa [record?, modifySemaphore, FixedTable.get_modify] using dead)
    (record?_withSemaphores fun j ne => by rw [FixedTable.get_modify, if_neg ne])

theorem does_removeSemaphore (k : Kernel) (id : ℕ) :
    k.Does (.touch (.semaphore id)) { k with semaphores := (k.semaphores.remove id).2 } :=
  .touch rfl (fun _ => by simp [record?, FixedTable.get_remove])
    (record?_withSemaphores fun j ne => by rw [FixedTable.get_remove, if_neg ne])

theorem does_insertSemaphore {value : Semaphore}
    {table : FixedTable Semaphore semaphoreCapacity 1} (inserted : k.semaphores.insert value = .ok (id, table)) :
    k.Does (.create (.semaphore id)) { k with semaphores := table } := by
  obtain ⟨-, free, -, -, get⟩ := FixedTable.insert_eq_ok inserted
  exact .create rfl (by simp [record?, free])
    (record?_withSemaphores fun j ne => by rw [get, if_neg ne])

theorem does_modifyEventFlag (k : Kernel) (id : ℕ) (f : EventFlag → EventFlag) :
    k.Does (.touch (.eventFlag id)) (k.modifyEventFlag id f) :=
  .touch rfl (fun dead => by simpa [record?, modifyEventFlag, FixedTable.get_modify] using dead)
    (record?_withEventFlags fun j ne => by rw [FixedTable.get_modify, if_neg ne])

theorem does_removeEventFlag (k : Kernel) (id : ℕ) :
    k.Does (.touch (.eventFlag id)) { k with eventFlags := (k.eventFlags.remove id).2 } :=
  .touch rfl (fun _ => by simp [record?, FixedTable.get_remove])
    (record?_withEventFlags fun j ne => by rw [FixedTable.get_remove, if_neg ne])

theorem does_insertEventFlag {value : EventFlag}
    {table : FixedTable EventFlag eventFlagCapacity 1} (inserted : k.eventFlags.insert value = .ok (id, table)) :
    k.Does (.create (.eventFlag id)) { k with eventFlags := table } := by
  obtain ⟨-, free, -, -, get⟩ := FixedTable.insert_eq_ok inserted
  exact .create rfl (by simp [record?, free])
    (record?_withEventFlags fun j ne => by rw [get, if_neg ne])

theorem does_modifyMessageBox (k : Kernel) (id : ℕ) (f : MessageBox → MessageBox) :
    k.Does (.touch (.messageBox id)) (k.modifyMessageBox id f) :=
  .touch rfl (fun dead => by simpa [record?, modifyMessageBox, FixedTable.get_modify] using dead)
    (record?_withMessageBoxes fun j ne => by rw [FixedTable.get_modify, if_neg ne])

theorem does_removeMessageBox (k : Kernel) (id : ℕ) :
    k.Does (.touch (.messageBox id)) { k with messageBoxes := (k.messageBoxes.remove id).2 } :=
  .touch rfl (fun _ => by simp [record?, FixedTable.get_remove])
    (record?_withMessageBoxes fun j ne => by rw [FixedTable.get_remove, if_neg ne])

theorem does_insertMessageBox {value : MessageBox}
    {table : FixedTable MessageBox messageBoxCapacity 1} (inserted : k.messageBoxes.insert value = .ok (id, table)) :
    k.Does (.create (.messageBox id)) { k with messageBoxes := table } := by
  obtain ⟨-, free, -, -, get⟩ := FixedTable.insert_eq_ok inserted
  exact .create rfl (by simp [record?, free])
    (record?_withMessageBoxes fun j ne => by rw [get, if_neg ne])

theorem does_modifyFixedPool (k : Kernel) (id : ℕ) (f : FixedPool → FixedPool) :
    k.Does (.touch (.fixedPool id)) (k.modifyFixedPool id f) :=
  .touch rfl (fun dead => by simpa [record?, modifyFixedPool, FixedTable.get_modify] using dead)
    (record?_withFixedPools fun j ne => by rw [FixedTable.get_modify, if_neg ne])

theorem does_removeFixedPool (k : Kernel) (id : ℕ) :
    k.Does (.touch (.fixedPool id)) { k with fixedPools := (k.fixedPools.remove id).2 } :=
  .touch rfl (fun _ => by simp [record?, FixedTable.get_remove])
    (record?_withFixedPools fun j ne => by rw [FixedTable.get_remove, if_neg ne])

theorem does_insertFixedPool {value : FixedPool}
    {table : FixedTable FixedPool fixedPoolCapacity 1} (inserted : k.fixedPools.insert value = .ok (id, table)) :
    k.Does (.create (.fixedPool id)) { k with fixedPools := table } := by
  obtain ⟨-, free, -, -, get⟩ := FixedTable.insert_eq_ok inserted
  exact .create rfl (by simp [record?, free])
    (record?_withFixedPools fun j ne => by rw [get, if_neg ne])

theorem does_modifyVariablePool (k : Kernel) (id : ℕ) (f : VariablePool → VariablePool) :
    k.Does (.touch (.variablePool id)) (k.modifyVariablePool id f) :=
  .touch rfl (fun dead => by simpa [record?, modifyVariablePool, FixedTable.get_modify] using dead)
    (record?_withVariablePools fun j ne => by rw [FixedTable.get_modify, if_neg ne])

theorem does_removeVariablePool (k : Kernel) (id : ℕ) :
    k.Does (.touch (.variablePool id)) { k with variablePools := (k.variablePools.remove id).2 } :=
  .touch rfl (fun _ => by simp [record?, FixedTable.get_remove])
    (record?_withVariablePools fun j ne => by rw [FixedTable.get_remove, if_neg ne])

theorem does_insertVariablePool {value : VariablePool}
    {table : FixedTable VariablePool variablePoolCapacity 1} (inserted : k.variablePools.insert value = .ok (id, table)) :
    k.Does (.create (.variablePool id)) { k with variablePools := table } := by
  obtain ⟨-, free, -, -, get⟩ := FixedTable.insert_eq_ok inserted
  exact .create rfl (by simp [record?, free])
    (record?_withVariablePools fun j ne => by rw [get, if_neg ne])

end Upse
