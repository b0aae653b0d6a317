import Upse.Bios.Kernel.Decomposition.Objects
import Upse.Bios.Kernel.Decomposition.Threads

/-!
# Every call is a sequence of allowed acts
-/

namespace Upse

open ErrorState Relation Kernel

variable {k : Kernel}

theorem vblankReason_spec {phase : ℕ} {reason : WaitReason} (h : vblankReason phase = .ok reason) :
    reason.object = none ∧ reason.SizeAligned := by
  unfold vblankReason at h
  split at h <;> cases h <;> exact ⟨rfl, trivial⟩

/-- Whether an operation creates threads. -/
def Op.spawns : Op → Bool
  | .createThread _ _ => true
  | _ => false

/-- Whether an operation changes a field of a thread that is not its state. -/
def Op.adjusts : Op → Bool
  | .changePriority _ _ | .sleepCurrent | .wakeupThread _ => true
  | _ => false

/-- The acts a call performs; only some operations create threads or change their fields. -/
def Op.Conducts (op : Op) (k : Kernel) : Act → Prop
  | .spawn => op.spawns
  | .adjust => op.adjusts
  | act => op.Performs k act

theorem Op.Conducts.performs {op : Op} {act : Act} (h : op.Conducts k act) : op.Performs k act := by
  cases act <;> first | exact h | exact trivial

/-- Every call but a reset, successful or failed, conducts only acts of its operation. -/
theorem step_conducts (sound : k.RunningSound) {op : Op} (lives : op ≠ .reset)
    (context : CpuContext) : Leads (Acts (op.Conducts k)) k (step op context) := by
  cases op
  case reset => exact absurd rfl lives
  all_goals refine .map ?_ _
  case createThread => exact acts_createThread rfl
  case startThread => exact acts_startThreadWithContext rfl
  case startThreadWithContext => exact acts_startThreadWithContext rfl
  case waitModuleStart => exact acts_waitModuleStart sound (fun _ => ⟨⟨rfl, rfl, trivial⟩, rfl⟩) rfl
  case completeModuleStart =>
    exact acts_completeModuleStart ⟨⟨rfl, .inr (.inl rfl)⟩, rfl, rfl, rfl, rfl⟩ trivial
  case deleteThread => exact acts_deleteThread trivial
  case exitCurrent => exact acts_exitCurrent sound (fun _ => ⟨trivial, rfl⟩) rfl
  case exitDeleteCurrent => exact acts_exitDeleteCurrent sound (fun _ => ⟨trivial, rfl⟩) rfl
  case changePriority => exact acts_changePriority rfl
  case reschedule => exact acts_reschedule sound rfl rfl rfl rfl
  case sleepCurrent => exact acts_sleepCurrent sound rfl (fun _ => ⟨⟨rfl, rfl, trivial⟩, rfl⟩) rfl
  case wakeupThread =>
    exact acts_wakeupThread ⟨⟨rfl, .inr (.inl rfl)⟩, rfl, rfl, rfl, rfl⟩ trivial rfl
  case delayCurrent =>
    exact acts_delayCurrent sound (fun _ => ⟨⟨rfl, rfl, trivial⟩, rfl⟩) rfl rfl rfl rfl
  case waitVblank =>
    exact acts_waitVblank sound (fun _ _ h => ⟨⟨rfl, vblankReason_spec h⟩, rfl⟩) rfl
  case notifyVblank => exact acts_notifyVblank (fun _ _ h =>
      ⟨⟨rfl, .inr (.inl (vblankReason_spec h).1)⟩, h, rfl, rfl⟩) fun _ => trivial
  case releaseWait => exact acts_releaseWait rfl (fun _ => ⟨⟨rfl, .inl rfl⟩, rfl, rfl, rfl⟩) trivial
  case createSemaphore => exact acts_createSemaphore fun _ => rfl
  case deleteSemaphore => exact acts_deleteSemaphore ⟨rfl, fun waiters queued thread member _ =>
      ⟨⟨rfl, .inl rfl⟩, ⟨_, waiters, rfl, queued, member⟩, rfl, rfl⟩, fun _ => trivial⟩
  case waitSemaphore =>
    exact acts_waitSemaphore sound ⟨rfl, fun _ => ⟨⟨rfl, rfl, trivial⟩, rfl⟩, rfl⟩
  case pollSemaphore => exact acts_pollSemaphore rfl
  case signalSemaphore =>
    exact acts_signalSemaphore rfl (fun _ => ⟨⟨rfl, .inr (.inr rfl)⟩, rfl, rfl, rfl⟩) fun _ => trivial
  case createEventFlag => exact acts_createEventFlag fun _ => rfl
  case deleteEventFlag => exact acts_deleteEventFlag ⟨rfl, fun waiters queued thread member _ =>
      ⟨⟨rfl, .inl rfl⟩, ⟨_, waiters, rfl, queued, member⟩, rfl, rfl⟩, fun _ => trivial⟩
  case waitEventFlag =>
    exact acts_waitEventFlag sound ⟨rfl, fun _ => ⟨⟨rfl, rfl, trivial⟩, rfl⟩, rfl⟩
  case pollEventFlag => exact acts_pollEventFlag rfl
  case setEventFlag => exact acts_setEventFlag rfl (fun _ pattern mode bits holds =>
      ⟨⟨rfl, .inr (.inr rfl)⟩, pattern, mode, bits, rfl, holds, rfl, rfl⟩) fun _ => trivial
  case clearEventFlag => exact acts_clearEventFlag rfl
  case createMessageBox => exact acts_createMessageBox fun _ => rfl
  case deleteMessageBox => exact acts_deleteMessageBox ⟨rfl, fun waiters queued thread member _ =>
      ⟨⟨rfl, .inl rfl⟩, ⟨_, waiters, rfl, queued, member⟩, rfl, rfl⟩, fun _ => trivial⟩
  case sendMessage =>
    exact acts_sendMessage rfl (fun _ => ⟨⟨rfl, .inr (.inr rfl)⟩, rfl, rfl, rfl⟩) fun _ => trivial
  case receiveMessage =>
    exact acts_receiveMessage sound ⟨rfl, fun _ => ⟨⟨rfl, rfl, trivial⟩, rfl⟩, rfl⟩
  case pollMessage => exact acts_pollMessage rfl
  case createFixedPool => exact acts_createFixedPool fun _ => rfl
  case deleteFixedPool => exact acts_deleteFixedPool ⟨rfl, fun waiters queued thread member _ =>
      ⟨⟨rfl, .inl rfl⟩, ⟨_, waiters, rfl, queued, member⟩, rfl, rfl⟩, fun _ => trivial⟩
  case allocateFixed =>
    exact acts_allocateFixed sound ⟨rfl, fun _ => ⟨⟨rfl, rfl, trivial⟩, rfl⟩, rfl⟩
  case freeFixed =>
    exact acts_freeFixed rfl (fun _ => ⟨⟨rfl, .inr (.inr rfl)⟩, rfl, rfl, rfl⟩) fun _ => trivial
  case createVariablePool => exact acts_createVariablePool fun _ => rfl
  case deleteVariablePool =>
    exact acts_deleteVariablePool ⟨rfl, fun waiters queued thread member _ =>
      ⟨⟨rfl, .inl rfl⟩, ⟨_, waiters, rfl, queued, member⟩, rfl, rfl⟩, fun _ => trivial⟩
  case allocateVariable => exact acts_allocateVariable sound fun _ valid =>
      have size := alignPoolSize_eq_ok valid
      ⟨rfl, fun _ => ⟨⟨rfl, rfl, size.1, size.2.1⟩, rfl⟩, rfl⟩
  case freeVariable => exact acts_freeVariable rfl (fun _ size block =>
      ⟨⟨rfl, .inr (.inr rfl)⟩, size, block, rfl, rfl, rfl⟩) fun _ => trivial
  case setAlarm => exact acts_setAlarm trivial
  case cancelAlarm => exact acts_cancelAlarm rfl
  case advanceTo =>
    exact acts_advanceTo rfl rfl rfl (fun _ => rfl) (fun _ _ => ⟨⟨rfl, .inl rfl⟩, rfl, rfl⟩)
      fun _ => trivial
  case enterCallback => exact acts_enterCallback trivial
  case returnFromCallback => exact acts_returnFromCallback trivial

theorem step_performs (sound : k.RunningSound) {op : Op} (lives : op ≠ .reset)
    (context : CpuContext) : Leads (Acts (op.Performs k)) k (step op context) :=
  (step_conducts sound lives context).mono fun _ _ acts => acts.mono fun _ => Op.Conducts.performs

theorem step_acts (sound : k.RunningSound) {op : Op} (lives : op ≠ .reset) (context : CpuContext) :
    Leads (Acts op.Allows) k (step op context) :=
  (step_performs sound lives context).mono fun _ _ acts => acts.mono fun _ => Op.Performs.allows

theorem reset_run (k : Kernel) (context : CpuContext) :
    (step .reset context).run k = .ok (.done, context) Kernel.new := rfl

theorem runningSound_new : Kernel.new.RunningSound := fun _ running => by cases running

theorem Kernel.RunningSound.step (sound : k.RunningSound) (op : Op) (context : CpuContext) :
    (leaves ((step op context).run k)).RunningSound := by
  by_cases reset : op = .reset
  · rw [reset, reset_run]
    exact runningSound_new
  · exact (step_acts sound reset context).runningSound sound

theorem Reachable.runningSound (h : Reachable k) : k.RunningSound :=
  h.invariant runningSound_new fun _ op context sound => sound.step op context

end Upse
