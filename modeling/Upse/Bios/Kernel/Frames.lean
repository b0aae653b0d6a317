import Upse.Bios.Kernel.Invariants

/-!
# What a call leaves alone

An object an operation does not name keeps its record, except that its queue may lose threads; a
dead object stays dead unless it is created; and a thread waits on an object only if it did before
or the operation blocks on that object.
-/

namespace Upse

open ErrorState

namespace Kernel

variable {L : Act → Prop} {k k' : Kernel} {act : Act}

theorem Does.thinned (h : Does k act k') {o : Obj} (untouched : act ≠ .touch o)
    (live : k.record? o ≠ none) : k.Thinned k' o := by
  cases h with
  | @create _ other _ dead others =>
    refine thinned_of_eq (others o ?_)
    rintro rfl
    exact live dead
  | @touch _ other _ _ others =>
    refine thinned_of_eq (others o ?_)
    rintro rfl
    exact untouched rfl
  | unqueue _ => exact thinned_removeWaiter k _ _ o
  | _ => exact thinned_of_eq (by cases o <;> rfl)

theorem Does.dead (h : Does k act k') {o : Obj} (created : act ≠ .create o)
    (dead : k.record? o = none) : k'.record? o = none := by
  by_cases touched : act = .touch o
  · subst touched
    cases h with
    | touch _ stays _ => exact stays dead
  · cases h with
    | @create _ other _ _ others =>
      rw [others o (by rintro rfl; exact created rfl), dead]
    | @touch _ other _ _ others =>
      rw [others o (by rintro rfl; exact touched rfl), dead]
    | @unqueue id reason _ =>
      obtain ⟨p, same⟩ := thinned_removeWaiter k id reason o
      rw [same, dead]
      rfl
    | _ => exact (by cases o <;> rfl : _ = k.record? o).trans dead

theorem Thinned.live {o : Obj} (h : k.Thinned k' o) (live : k.record? o ≠ none) :
    k'.record? o ≠ none := by
  obtain ⟨p, same⟩ := h
  rw [same]
  simpa using live

theorem Acts.thinned (h : Acts L k k') {o : Obj} (untouched : ¬ L (.touch o))
    (live : k.record? o ≠ none) : k.Thinned k' o := by
  refine (h.preserves (I := fun a => k.Thinned a o) (thinned_of_eq rfl) ?_)
  rintro a b act allowed does thinned
  exact thinned.trans (does.thinned (by rintro rfl; exact untouched allowed) (thinned.live live))

theorem Acts.dead (h : Acts L k k') {o : Obj} (created : ¬ L (.create o))
    (dead : k.record? o = none) : k'.record? o = none :=
  h.preserves (I := fun a => a.record? o = none) dead fun _ _ _ allowed does dead =>
    does.dead (by rintro rfl; exact created allowed) dead

/-- A thread that waits after a change waited before, or the change blocked it. -/
theorem Does.wait_origin (h : Does k act k') {id : ℕ} {reason : WaitReason}
    (waiting : k'.waitReasonOf id = some reason) :
    k.waitReasonOf id = some reason ∨ act = .block id reason := by
  have modified {f : Thread → Thread} {other : ℕ} {a : Kernel}
      (threads : a.threads = (k.modifyThread other f).threads)
      (kept : ∀ thread, k.threads.get other = some thread → (f thread).state.waitReason = none ∨
        (f thread).state = thread.state)
      (waiting : a.waitReasonOf id = some reason) : k.waitReasonOf id = some reason := by
    unfold waitReasonOf at *
    rw [threads, get_modifyThread] at waiting
    split at waiting
    next same =>
      subst same
      cases found : k.threads.get id with
      | none => simp [found] at waiting
      | some thread =>
        rw [found] at waiting
        rcases kept thread found with none | same
        · simp [none] at waiting
        · simpa [same] using waiting
    next => exact waiting
  have blocked {context : CpuContext} {reason' : WaitReason} {scheduler : Scheduler} {other : ℕ}
      (waiting : (k.block other context reason' scheduler).waitReasonOf id = some reason) :
      k.waitReasonOf id = some reason ∨ Act.block other reason' = .block id reason := by
    unfold waitReasonOf at *
    simp only [Kernel.block, get_modifyThread] at waiting
    split at waiting
    next same =>
      subst same
      cases found : k.threads.get id with
      | none => simp [found] at waiting
      | some thread =>
        rw [found] at waiting
        simp [ThreadState.waitReason] at waiting
        exact .inr (by rw [waiting])
    next => exact .inl waiting
  cases h with
  | spawn inserted dormant =>
    obtain ⟨-, free, -, -, get⟩ := FixedTable.insert_eq_ok inserted
    unfold waitReasonOf at *
    simp only [get] at waiting
    split at waiting
    · simp [dormant, ThreadState.waitReason] at waiting
    · exact .inl waiting
  | reap found dormant =>
    unfold waitReasonOf at *
    simp only [FixedTable.get_remove] at waiting
    split at waiting
    · cases waiting
    · exact .inl waiting
  | start _ _ _ => exact .inl (modified rfl (fun _ _ => .inl rfl) waiting)
  | wake _ _ => exact .inl (modified rfl (fun _ _ => .inl rfl) waiting)
  | exit _ => exact .inl (modified rfl (fun _ _ => .inl rfl) waiting)
  | erase _ =>
    unfold waitReasonOf at *
    simp only [Kernel.expunge, FixedTable.get_remove] at waiting
    split at waiting
    · cases waiting
    · exact .inl waiting
  | block _ _ => exact blocked waiting
  | stall _ _ => exact blocked waiting
  | preempt _ _ => exact .inl (modified rfl (fun _ _ => .inl rfl) waiting)
  | dispatch _ _ => exact .inl (modified rfl (fun _ _ => .inl rfl) waiting)
  | @save _ context _ =>
    exact .inl (modified (f := fun thread => { thread with context := context }) rfl
      (fun _ _ => .inr rfl) waiting)
  | adjust keeps => exact .inl (modified rfl (fun thread _ => .inr (keeps thread).1) waiting)
  | create core _ _ => exact .inl ((congrArg (·.waitReasonOf id) core :).symm.trans waiting)
  | touch core _ _ => exact .inl ((congrArg (·.waitReasonOf id) core :).symm.trans waiting)
  | unqueue _ => exact .inl ((waitReasonOf_removeWaiter k _ _ id).symm.trans waiting)
  | _ => exact .inl waiting

theorem Acts.wait_origin (h : Acts L k k') {id : ℕ} {reason : WaitReason}
    (waiting : k'.waitReasonOf id = some reason) :
    k.waitReasonOf id = some reason ∨ L (.block id reason) := by
  revert waiting
  refine h.preserves (I := fun a => a.waitReasonOf id = some reason →
    k.waitReasonOf id = some reason ∨ L (.block id reason)) .inl ?_
  intro a b act allowed does origin waiting
  rcases does.wait_origin waiting with old | rfl
  · exact origin old
  · exact .inr allowed

end Kernel

open Kernel

variable {k : Kernel} {op : Op}

theorem step_thinned (sound : k.RunningSound) (lives : op ≠ .reset) (context : CpuContext) {o : Obj}
    (other : op.target ≠ some o) (live : k.record? o ≠ none) :
    k.Thinned (leaves ((step op context).run k)) o :=
  (step_acts sound lives context).thinned other live

theorem step_dead (sound : k.RunningSound) (lives : op ≠ .reset) (context : CpuContext) {o : Obj}
    (creates : op.creates = false) (dead : k.record? o = none) :
    (leaves ((step op context).run k)).record? o = none :=
  (step_acts sound lives context).dead (by simp [Op.Allows, creates]) dead

theorem step_wait_origin (sound : k.RunningSound) (lives : op ≠ .reset) (context : CpuContext)
    {o : Obj} (other : op.target ≠ some o) {id : ℕ} {reason : WaitReason}
    (object : reason.object = some o)
    (waiting : (leaves ((step op context).run k)).waitReasonOf id = some reason) :
    k.waitReasonOf id = some reason := by
  refine ((step_acts sound lives context).wait_origin waiting).resolve_right fun allowed => ?_
  exact other (allowed.2.1.symm.trans object)

/-- Every thread that waits on a variable pool waits for a positive multiple of four. -/
theorem step_sizeAligned (sound : k.RunningSound)
    (aligned : ∀ id reason, k.waitReasonOf id = some reason → reason.SizeAligned)
    (op : Op) (context : CpuContext) :
    ∀ id reason, (leaves ((step op context).run k)).waitReasonOf id = some reason →
      reason.SizeAligned := by
  intro id reason waiting
  by_cases reset : op = .reset
  · rw [reset, reset_run] at waiting
    simp [waitReasonOf, Kernel.new] at waiting
  · rcases (step_acts sound reset context).wait_origin waiting with old | allowed
    · exact aligned id reason old
    · exact allowed.2.2

end Upse
