import Upse.Hw.Ps1.Dma
import Upse.Lib.Runs

/-!
# The sound transfer and its event

The scheduler holds the completion event of channel 4 exactly while its transfer is pending, with the
same deadline, after every operation and however it ends.  The deadline is the one the registers asked
for at the last write of channel 4's control or of the priority control; a block count written in
between waits for the next such write.
-/

namespace Upse.Ps1

open ErrorState

/-- One step beside the scheduler: a register write, the service of MDEC input, the earliest due event
handed to the controller, or another component's event. -/
inductive DmaOp where
  | write (address : ℕ) (value : Word) (now : Deadline)
  | serviceMdecIn
  | popDue (now : Deadline)
  | schedule (id : {id : EventId // id ≠ channel4Event}) (deadline : Deadline)
  | cancel (id : {id : EventId // id ≠ channel4Event})

namespace DmaMachine

variable {D E : Type}

/-- Removes the earliest due event and hands it to the controller. -/
def popDue (sound : SoundDmaEndpoint E) (now : Deadline) : DmaM D E Unit := do
  let m ← get
  let (event, scheduler) := m.scheduler.popDue now
  set { m with scheduler := scheduler }
  match event with
  | none => return
  | some event => complete sound event

/-- Schedules an event of another component. -/
def scheduleOther (id : EventId) (deadline : Deadline) : DmaM D E Unit := do
  let m ← get
  let scheduler ← ErrorState.ofExcept
    ((m.scheduler.schedule id deadline).mapError fun _ => .error .scheduler)
  set { m with scheduler := scheduler }

/-- Cancels an event of another component. -/
def cancelOther (id : EventId) : DmaM D E Unit :=
  modify fun m => { m with scheduler := (m.scheduler.cancel id).2 }

end DmaMachine

/-- Runs one step. -/
def DmaOp.perform {D E : Type} (mdec : MdecDmaEndpoint D) (sound : SoundDmaEndpoint E) :
    DmaOp → DmaM D E Unit
  | .write address value now => DmaMachine.write address value now
  | .serviceMdecIn => (fun _ => ()) <$> DmaMachine.serviceMdecIn mdec
  | .popDue now => DmaMachine.popDue sound now
  | .schedule id deadline => DmaMachine.scheduleOther id deadline
  | .cancel id => DmaMachine.cancelOther id

/-- The step writes channel 4's control or the priority control. -/
def DmaOp.Reprograms : DmaOp → Prop
  | .write address _ _ => address = d4Chcr ∨ address = Ps1.dpcr
  | _ => False

/-- The deadline the registers ask for at a time, where they ask for a sound transfer. -/
def DmaController.asked (dma : DmaController) (now : Deadline) : Option Deadline :=
  if dma.dpcr &&& channel4Enable = 0 ∨ dma.chcr &&& chcrStart = 0 then none
  else
    match DmaMachine.activeMode (syncMode dma.chcr) dma.chcr .unsupportedSync,
      transferWords dma.bcr (syncMode dma.chcr) with
    | .ok true, .ok words => some (now + words * cyclesPerWord)
    | _, _ => none

namespace DmaMachine

variable {D E : Type} {mdec : MdecDmaEndpoint D} {sound : SoundDmaEndpoint E} {m m' t : DmaMachine D E}

/-- One step leaves this state, whether it returned or failed. -/
def Next (mdec : MdecDmaEndpoint D) (sound : SoundDmaEndpoint E) (m : DmaMachine D E) (op : DmaOp)
    (m' : DmaMachine D E) : Prop :=
  leaves ((op.perform mdec sound).run m) = m'

/-- The scheduler holds the completion event exactly while a transfer is pending, with its deadline. -/
def Agrees (m : DmaMachine D E) : Prop :=
  (m.scheduler.pending channel4Event).map Prod.fst = m.dma.completionDeadline

/-- Agreement, on the deadline and the word count that the registers ask for at this time. -/
structure Scheduled (now : Deadline) (m : DmaMachine D E) : Prop where
  agrees : m.Agrees
  asked : ∀ p, m.dma.pending = some p → m.dma.asked now = some p.deadline ∧
    transferWords m.dma.bcr (syncMode m.dma.chcr) = .ok p.words

/-! ### Register writes -/

/-- Rescheduling ends in agreement on the deadline asked for, whether or not it succeeds. -/
theorem scheduled_reschedule (now : Deadline) :
    (leaves ((reschedule now).run m)).Scheduled now := by
  have cancelled : Scheduled now { m with
      scheduler := (m.scheduler.cancel channel4Event).2, dma := { m.dma with pending := none } } := by
    refine ⟨?_, fun p none => by cases none⟩
    show ((m.scheduler.cancel channel4Event).2.pending channel4Event).map Prod.fst = none
    rw [Scheduler.pending_cancel, if_pos rfl]
    rfl
  unfold reschedule
  rw [run_modify_bind]
  refine (?_ : Leads (Keeps (Scheduled now)) _ _) cancelled
  refine leads_get_bind (Leads.ite (fun _ => leads_pure _) fun enabled => ?_)
  refine leads_ofExcept_bind fun active mode => Leads.ite (fun _ => leads_pure _) fun works => ?_
  refine leads_ofExcept_bind fun words asked => leads_okOr_bind fun cycles product => ?_
  refine leads_ofExcept_bind fun deadline sum => leads_ofExcept_bind fun scheduler scheduled => ?_
  refine leads_modify fun _ => ?_
  obtain ⟨-, -, pending⟩ := Scheduler.schedule_spec (except_mapError_ok.mp scheduled)
  obtain ⟨-, rfl⟩ := checkedMul_eq_some.mp product
  obtain ⟨-, rfl⟩ := Deadline.checkedAdvance_eq_ok.mp (except_mapError_ok.mp sum)
  refine ⟨?_, fun p same => ?_⟩
  · show (scheduler.pending channel4Event).map Prod.fst = some (now + words * cyclesPerWord)
    rw [pending, if_pos rfl]
    rfl
  · obtain rfl : active = true := by simpa using works
    obtain rfl := Option.some.inj same
    refine ⟨?_, except_mapError_ok.mp asked⟩
    show DmaController.asked _ now = _
    unfold DmaController.asked
    rw [if_neg enabled, except_mapError_ok.mp mode, except_mapError_ok.mp asked]

/-- The steps that leave the transfer and its event alone. -/
def Quiet (m m' : DmaMachine D E) : Prop :=
  m'.scheduler.pending channel4Event = m.scheduler.pending channel4Event ∧
    m'.dma.pending = m.dma.pending

instance : Std.Refl (Quiet (D := D) (E := E)) := ⟨fun _ => ⟨rfl, rfl⟩⟩

instance : IsTrans (DmaMachine D E) Quiet where
  trans _ _ _ first second := ⟨second.1.trans first.1, second.2.trans first.2⟩

theorem channelRegister_d4Chcr : channelRegister d4Chcr = some (4, 2) := by decide

theorem eq_d4Chcr {address : ℕ} (h : channelRegister address = some (4, 2)) : address = d4Chcr := by
  unfold channelRegister at h
  split at h
  next inside =>
    simp only [Option.some.injEq, Prod.mk.injEq, Fin.ext_iff] at h
    have channel : (address - dmaChannelStart) / 0x10 = 4 := h.1
    have register : (address - dmaChannelStart) % 0x10 / 4 = 2 := h.2
    unfold dmaChannelStart d4Chcr at *
    omega
  next => cases h

theorem channelRegister_dpcr : channelRegister Ps1.dpcr = none := by decide

/-- A write reschedules, or it is of another register and leaves the transfer alone. -/
theorem write_cases (address : ℕ) (value : Word) (now : Deadline) :
    (DmaOp.write address value now).Reprograms ∧
        (leaves ((write address value now).run m)).Scheduled now ∨
      ¬ (DmaOp.write address value now).Reprograms ∧ Leads Quiet m (write address value now) := by
  unfold write
  cases selected : channelRegister address with
  | some selection =>
    have other (ne : selection ≠ (4, 2)) : ¬ (DmaOp.write address value now).Reprograms := by
      rintro (rfl | rfl)
      · exact ne (Option.some.inj (selected.symm.trans channelRegister_d4Chcr))
      · rw [channelRegister_dpcr] at selected
        cases selected
    obtain ⟨channel, register⟩ := selection
    by_cases four : channel = 4
    · subst four
      simp only [if_true]
      match register with
      | 0 => exact .inr ⟨other (by decide), leads_modify ⟨rfl, rfl⟩⟩
      | 1 => exact .inr ⟨other (by decide), leads_modify ⟨rfl, rfl⟩⟩
      | 2 => exact .inl ⟨.inl (eq_d4Chcr selected), scheduled_reschedule now⟩
    · simp only [if_neg four]
      have ne : (channel, register) ≠ (4, 2) := fun eq => four (congrArg Prod.fst eq)
      refine .inr ⟨other ne, .either ?_ ?_⟩
      · exact leads_modify ⟨rfl, rfl⟩
      · exact leads_modify ⟨rfl, rfl⟩
  | none =>
    by_cases priority : address = Ps1.dpcr
    · simp only [if_pos priority]
      exact .inl ⟨.inr priority, scheduled_reschedule now⟩
    · simp only [if_neg priority]
      refine .inr ⟨?_, .either (leads_modify ⟨rfl, rfl⟩) (leads_throw _)⟩
      rintro (rfl | rfl)
      · rw [channelRegister_d4Chcr] at selected
        cases selected
      · exact priority rfl

/-! ### Transfers -/

theorem quiet_transferLoop {move : ℕ → DmaM D E Unit} (quiet : ∀ offset m, Leads Quiet m (move offset))
    (base : ℕ) (decrement : Bool) (remaining index : ℕ) :
    Leads Quiet m (transferLoop move base decrement remaining index) := by
  induction remaining generalizing m index with
  | zero => exact leads_pure _
  | succ remaining ih =>
    refine leads_ofExcept_bind fun offset _ => ?_
    exact (quiet offset m).bind fun _ _ _ => ih _

theorem quiet_readRamWord (offset : ℕ) : Leads Quiet m (readRamWord (D := D) (E := E) offset) :=
  leads_get_bind (leads_throwIf_bind fun _ => leads_pure _)

theorem quiet_mdecWrite (value : Word) : Leads Quiet m (mdecWrite (E := E) mdec value) :=
  leads_get_bind (leads_ok_bind (R := Quiet) rfl ⟨rfl, rfl⟩ (leads_ofExcept _))

theorem quiet_soundWord (fromRam : Bool) (offset : ℕ) :
    Leads Quiet m (soundWord (D := D) sound fromRam offset) := by
  cases fromRam with
  | true =>
    refine (quiet_readRamWord offset).bind fun value m' _ => ?_
    exact leads_get_bind (leads_ok_bind (R := Quiet) rfl ⟨rfl, rfl⟩ (leads_ofExcept _))
  | false =>
    have read : Leads Quiet m (soundRead (D := D) sound) :=
      leads_get_bind (leads_ok_bind (R := Quiet) rfl ⟨rfl, rfl⟩ (leads_ofExcept _))
    refine read.bind fun value m' _ => leads_throwIf_bind fun _ => ?_
    exact leads_modify ⟨rfl, rfl⟩

theorem quiet_serviceMdecIn : Leads Quiet m (serviceMdecIn (E := E) mdec) := by
  unfold serviceMdecIn
  refine leads_get_bind (.either (leads_pure _) (leads_throwIf_bind fun _ => ?_))
  refine leads_ofExcept_bind fun active _ => .either (leads_pure _) ?_
  refine leads_ofExcept_bind fun words _ => leads_ofExcept_bind fun _ _ => ?_
  refine (quiet_transferLoop (fun offset m => ?_) _ _ _ _).bind fun _ m' _ => ?_
  · exact (quiet_readRamWord offset).bind fun value m' _ => quiet_mdecWrite value
  · refine leads_ofExcept_bind fun next _ => leads_modify_bind (R := Quiet) ⟨rfl, rfl⟩ ?_
    exact leads_modify_bind (R := Quiet) ⟨rfl, rfl⟩ (leads_pure _)

/-! ### Completions -/

/-- What a completion of the pending transfer runs once it has taken the transfer. -/
def moved (sound : SoundDmaEndpoint E) (before : DmaController) (words : ℕ) : DmaM D E Unit := do
  let decrement := before.chcr &&& chcrDecrement != 0
  let fromRam := before.chcr &&& chcrDirectionFromRam != 0
  ErrorState.ofExcept ((validateRamRange before.madr.toNat words decrement ramSize).mapError .error)
  transferLoop (soundWord sound fromRam) before.madr.toNat decrement words 0
  let next ← ErrorState.ofExcept ((advanceAddress before.madr words decrement).mapError .error)
  modifyDma fun dma =>
    { dma with madr := next, chcr := dma.chcr &&& ~~~(chcrStart ||| chcrTrigger) }
  finishChannel4

theorem quiet_moved (before : DmaController) (words : ℕ) : Leads Quiet m (moved sound before words) := by
  unfold moved
  refine leads_ofExcept_bind fun _ _ => ?_
  refine (quiet_transferLoop (fun offset m => quiet_soundWord _ offset) _ _ _ _).bind fun _ m' _ => ?_
  refine leads_ofExcept_bind fun next _ => leads_modify_bind (R := Quiet) ⟨rfl, rfl⟩ ?_
  exact leads_modify ⟨rfl, rfl⟩

theorem run_complete_of_pending {p : PendingTransfer} (found : m.dma.pending = some p) :
    (complete sound ⟨channel4Event, p.deadline⟩).run m =
      (moved sound m.dma p.words).run { m with dma := { m.dma with pending := none } } := by
  unfold complete
  rw [run_get_bind, run_okOr_bind found, run_throwIf_bind (by simp)]
  rfl

theorem run_complete_of_other {event : DueEvent} (other : event.id ≠ channel4Event) :
    (complete sound event).run m = .error (.error .staleEvent) m := by
  unfold complete
  rw [run_get_bind]
  cases m.dma.pending with
  | none => rfl
  | some p =>
    rw [run_okOr_bind rfl, throwIf, if_pos (.inl other)]
    rfl

/-- No run of the program stops with the fault. -/
def Never {α : Type} (fault : DmaFault) (x : DmaM D E α) : Prop := ∀ m t, x.run m ≠ .error fault t

section Never

variable {α β : Type} {fault : DmaFault}

theorem never_pure (a : α) : Never fault (pure a : DmaM D E α) := by
  rintro m t ⟨⟩

theorem Never.bind {x : DmaM D E α} {f : α → DmaM D E β} (hx : Never fault x)
    (hf : ∀ a, Never fault (f a)) : Never fault (x >>= f) := by
  intro m t failed
  rw [run_bind] at failed
  cases run : x.run m with
  | ok a m' => rw [run] at failed; exact hf a m' t failed
  | error e m' => rw [run] at failed; cases failed; exact hx m t run

theorem never_get_bind {f : DmaMachine D E → DmaM D E β} (hf : ∀ m, Never fault (f m)) :
    Never fault (get >>= f) := fun m t failed => hf m m t failed

theorem never_modify (g : DmaMachine D E → DmaMachine D E) :
    Never fault (modify g : DmaM D E PUnit) := by
  rintro m t ⟨⟩

theorem never_throwIf {c : Prop} [Decidable c] {other : DmaFault} (differs : c → other ≠ fault) :
    Never fault (throwIf c other : DmaM D E Unit) := by
  intro m t failed
  unfold throwIf at failed
  split at failed
  next holds =>
    cases failed
    exact differs holds rfl
  next => cases failed

theorem never_ofExcept {ε : Type} {r : Except ε α} {f : ε → DmaFault}
    (differs : ∀ e, r = .error e → f e ≠ fault) :
    Never fault (ErrorState.ofExcept (r.mapError f) : DmaM D E α) := by
  intro m t failed
  cases r with
  | ok a => cases failed
  | error e => cases failed; exact differs e rfl rfl

end Never

/-- No run of the program answers that the event is stale. -/
def NeverStale {α : Type} (x : DmaM D E α) : Prop := ∀ m t, x.run m ≠ .error (.error .staleEvent) t

theorem neverStale_ofExcept {α : Type} {r : Except DmaError α} (fresh : r ≠ .error .staleEvent) :
    NeverStale (ErrorState.ofExcept (r.mapError .error) : DmaM D E α) :=
  never_ofExcept fun _ failed same => fresh (failed.trans (congrArg _ (DmaFault.error.inj same)))

theorem transferAddress_fresh (base index : ℕ) (decrement : Bool) :
    transferAddress base index decrement ≠ .error .staleEvent := by
  unfold transferAddress
  split
  · nofun
  · split
    · split <;> nofun
    · nofun

theorem validateRamRange_fresh (base words : ℕ) (decrement : Bool) :
    validateRamRange base words decrement ramSize ≠ .error .staleEvent := by
  intro stale
  unfold validateRamRange at stale
  cases address : transferAddress base (words - 1) decrement with
  | error e =>
    rw [address] at stale
    cases stale
    exact transferAddress_fresh _ _ _ address
  | ok last =>
    rw [address] at stale
    change (if _ then _ else _) = _ at stale
    split at stale <;> cases stale

theorem advanceAddress_fresh (madr : Word) (words : ℕ) (decrement : Bool) :
    advanceAddress madr words decrement ≠ .error .staleEvent := by
  unfold advanceAddress
  split
  · split <;> nofun
  · nofun

theorem never_readRamWord {fault : DmaFault} {offset : ℕ}
    (differs : ramSize < offset + 4 → .panic ≠ fault) :
    Never fault (readRamWord (D := D) (E := E) offset) :=
  never_get_bind fun _ => (never_throwIf differs).bind fun _ => never_pure _

theorem never_soundWord {fault : DmaFault} (fromRam : Bool) {offset : ℕ}
    (differs : ramSize < offset + 4 → .panic ≠ fault)
    (endpoint : ∀ e, .error (.endpoint e) ≠ fault) :
    Never fault (soundWord (D := D) sound fromRam offset) := by
  cases fromRam with
  | true =>
    refine (never_readRamWord differs).bind fun value => never_get_bind fun m => ?_
    exact (never_modify fun _ => _).bind fun _ => never_ofExcept fun e _ => endpoint e
  | false =>
    have read : Never fault (soundRead (D := D) sound) := never_get_bind fun m =>
      (never_modify fun _ => _).bind fun _ => never_ofExcept fun e _ => endpoint e
    refine read.bind fun value => (never_throwIf differs).bind fun _ => never_modify _

theorem neverStale_transferLoop (fromRam : Bool) (base : ℕ) (decrement : Bool) (remaining index : ℕ) :
    NeverStale (transferLoop (soundWord (D := D) sound fromRam) base decrement remaining index) := by
  induction remaining generalizing index with
  | zero => exact never_pure _
  | succ remaining ih =>
    have word (offset : ℕ) : NeverStale (soundWord (D := D) sound fromRam offset) :=
      never_soundWord fromRam (fun _ => nofun) fun _ => nofun
    refine Never.bind (neverStale_ofExcept (transferAddress_fresh _ _ _)) fun offset => ?_
    exact Never.bind (word offset) fun _ => ih _

theorem neverStale_moved (before : DmaController) (words : ℕ) :
    NeverStale (moved (D := D) sound before words) := by
  unfold moved
  refine Never.bind (neverStale_ofExcept (validateRamRange_fresh _ _ _)) fun _ => ?_
  refine Never.bind (neverStale_transferLoop _ _ _ _ _) fun _ => ?_
  refine Never.bind (neverStale_ofExcept (advanceAddress_fresh _ _ _)) fun next => ?_
  exact Never.bind (never_modify _) fun _ => never_modify _

/-! ### What each operation does -/

/-- The steps that keep the word count and the deadline of the pending transfer, or drop the transfer. -/
def KeepsTransfer (m m' : DmaMachine D E) : Prop :=
  ∀ p, m'.dma.pending = some p → m.dma.pending = some p

theorem Quiet.keepsTransfer (quiet : Quiet m m') : KeepsTransfer m m' := fun _ found =>
  quiet.2.symm.trans found

theorem Quiet.agrees (quiet : Quiet m m') (agrees : m.Agrees) : m'.Agrees := by
  unfold Agrees DmaController.completionDeadline at agrees ⊢
  rw [quiet.1, quiet.2]
  exact agrees

theorem agrees_popDue (sound : SoundDmaEndpoint E) (agrees : m.Agrees) (now : Deadline) :
    (leaves ((popDue sound now).run m)).Agrees ∧ KeepsTransfer m (leaves ((popDue sound now).run m)) ∧
      ∀ event, (m.scheduler.popDue now).1 = some event → event.id = channel4Event →
        m.dma.completionDeadline = some event.deadline ∧
          ∀ t, (popDue sound now).run m ≠ .error (.error .staleEvent) t := by
  unfold popDue
  rw [run_get_bind]
  cases popped : m.scheduler.popDue now with
  | mk event scheduler =>
    cases event with
    | none =>
      obtain rfl := Scheduler.popDue_none popped
      exact ⟨agrees, fun d => id, fun event (none : none = some event) => nomatch none⟩
    | some event =>
      obtain ⟨e, rest, -, -, rfl, -, -, held, removed⟩ := Scheduler.popDue_some popped
      show (leaves ((complete sound ⟨e.id, e.deadline⟩).run { m with scheduler := scheduler })).Agrees ∧
        KeepsTransfer m (leaves ((complete sound ⟨e.id, e.deadline⟩).run
          { m with scheduler := scheduler })) ∧ ∀ event : DueEvent, some ⟨e.id, e.deadline⟩ = some event →
            event.id = channel4Event → m.dma.completionDeadline = some event.deadline ∧
              ∀ t, (complete sound ⟨e.id, e.deadline⟩).run { m with scheduler := scheduler } ≠
                .error (.error .staleEvent) t
      by_cases own : e.id = channel4Event
      · have due : m.dma.completionDeadline = some e.deadline := by
          rw [← agrees, ← own, held]
          rfl
        obtain ⟨p, found, deadline⟩ := Option.map_eq_some_iff.mp due
        rw [own, ← deadline, run_complete_of_pending (m := { m with scheduler := scheduler }) found]
        have quiet : Leads Quiet { m with
            scheduler := scheduler, dma := { m.dma with pending := none } }
            (moved sound m.dma p.words) := quiet_moved m.dma p.words
        refine ⟨quiet.agrees ?_, fun d kept => ?_, fun event same _ => ⟨?_, neverStale_moved _ _ _⟩⟩
        · show (scheduler.pending channel4Event).map Prod.fst = none
          rw [removed, if_pos own.symm]
          rfl
        · cases quiet.keepsTransfer d kept
        · cases same
          rw [deadline]
          exact due
      · rw [run_complete_of_other own]
        refine ⟨?_, fun d => id, fun event same owned => absurd ?_ own⟩
        · show (scheduler.pending channel4Event).map Prod.fst = m.dma.completionDeadline
          rw [removed, if_neg (Ne.symm own)]
          exact agrees
        · cases same
          exact owned

theorem agrees_perform (mdec : MdecDmaEndpoint D) (sound : SoundDmaEndpoint E) (agrees : m.Agrees) (op : DmaOp) :
    (leaves ((op.perform mdec sound).run m)).Agrees ∧
      (¬ op.Reprograms → KeepsTransfer m (leaves ((op.perform mdec sound).run m))) := by
  cases op with
  | write address value now =>
    rcases write_cases (m := m) address value now with ⟨reprograms, scheduled⟩ | ⟨-, quiet⟩
    · exact ⟨scheduled.agrees, absurd reprograms⟩
    · exact ⟨quiet.agrees agrees, fun _ => quiet.keepsTransfer⟩
  | serviceMdecIn =>
    have quiet : Leads Quiet m ((fun _ => ()) <$> serviceMdecIn (E := E) mdec) :=
      quiet_serviceMdecIn.map _
    exact ⟨quiet.agrees agrees, fun _ => quiet.keepsTransfer⟩
  | popDue now =>
    obtain ⟨kept, deadline, -⟩ := agrees_popDue sound agrees now
    exact ⟨kept, fun _ => deadline⟩
  | schedule id deadline =>
    have quiet : Leads Quiet m (scheduleOther id deadline) := by
      refine leads_get_bind (leads_ofExcept_bind fun scheduler scheduled => leads_set ?_)
      obtain ⟨-, -, pending⟩ := Scheduler.schedule_spec (except_mapError_ok.mp scheduled)
      exact ⟨(pending channel4Event).trans (if_neg (Ne.symm id.2)), rfl⟩
    exact ⟨quiet.agrees agrees, fun _ => quiet.keepsTransfer⟩
  | cancel id =>
    have quiet : Leads Quiet m (cancelOther id) :=
      leads_modify ⟨(Scheduler.pending_cancel _ _ _).trans (if_neg (Ne.symm id.2)), rfl⟩
    exact ⟨quiet.agrees agrees, fun _ => quiet.keepsTransfer⟩

/-- In every state reached, the scheduler holds the completion event exactly while a transfer is
pending, with its deadline; so the event that comes due is never stale, and after a write of channel
4's control or of the priority control a completion comes only at the deadline, and with the word count,
that the registers asked for at that write. -/
theorem completion_event_agrees {memory : Memory} {mdecState : D} {soundState : E} {ops : List DmaOp}
    (run : Run (Next mdec sound) (reset memory mdecState soundState) ops m) :
    m.Agrees ∧
      (∀ now event, (m.scheduler.popDue now).1 = some event → event.id = channel4Event →
        m.dma.completionDeadline = some event.deadline ∧
          ∀ t, (popDue sound now).run m ≠ .error (.error .staleEvent) t) ∧
      ∀ address value now t later u, address = d4Chcr ∨ address = Ps1.dpcr →
        Next mdec sound m (.write address value now) t →
        Run (fun a op b => Next mdec sound a op b ∧ ¬ op.Reprograms) t later u →
        ∀ due event, (u.scheduler.popDue due).1 = some event → event.id = channel4Event →
          t.dma.asked now = some event.deadline ∧ ∃ words,
            transferWords t.dma.bcr (syncMode t.dma.chcr) = .ok words ∧
              u.dma.pending = some ⟨event.deadline, words⟩ := by
  have agrees : m.Agrees := by
    refine run.invariant (I := Agrees) rfl ?_
    rintro before op after agrees rfl
    exact (agrees_perform mdec sound agrees op).1
  refine ⟨agrees, fun now => (agrees_popDue sound agrees now).2.2, ?_⟩
  rintro address value now _ later u control rfl rest due event popped own
  rcases write_cases (m := m) address value now with ⟨-, scheduled⟩ | ⟨other, -⟩
  · have kept : u.Agrees ∧ KeepsTransfer (leaves ((write address value now).run m)) u := by
      refine rest.invariant (I := fun u => u.Agrees ∧
        KeepsTransfer (leaves ((write address value now).run m)) u) ⟨scheduled.agrees, fun d => id⟩ ?_
      rintro before op after ⟨agrees, deadline⟩ ⟨rfl, still⟩
      obtain ⟨agrees', deadline'⟩ := agrees_perform mdec sound agrees op
      exact ⟨agrees', fun d found => deadline d (deadline' still d found)⟩
    have found := ((agrees_popDue sound kept.1 due).2.2 event popped own).1
    obtain ⟨p, pending, deadline⟩ := Option.map_eq_some_iff.mp found
    obtain ⟨asked, words⟩ := scheduled.asked p (kept.2 p pending)
    exact ⟨deadline ▸ asked, p.words, words, deadline ▸ pending⟩
  · exact absurd control other

/-- A sound device that records what it is sent, and an MDEC that takes nothing. -/
def recorder : SoundDmaEndpoint (List Word) where
  writeWord value sent := (.ok (), sent ++ [value])
  readWord sent := (.error ⟨"empty synthetic endpoint"⟩, sent)

def idleMdec : MdecDmaEndpoint Unit where
  writeWord _ state := (.error ⟨"no MDEC"⟩, state)

/-- The state after a list of steps from reset, over zeroed memory. -/
def recorded (ops : List DmaOp) : DmaMachine Unit (List Word) :=
  ops.foldl (fun m op => leaves ((op.perform idleMdec recorder).run m)) (reset (.new .strict) () [])

/-- The guest starts channel 4 at time 0 over two words from address `0x100`. -/
def started : List DmaOp :=
  [.write Ps1.dpcr 0x076d4321 0, .write d4Madr 0x100 0, .write d4Bcr 2 0, .write d4Chcr 0x11000001 0]

theorem completion_event_agrees_sample :
    (recorded started).dma.completionDeadline = some 8 ∧
      (∀ t, (popDue recorder 8).run (recorded started) ≠ .error (.error .staleEvent) t) ∧
      (recorded (started ++ [.write d4Bcr 100 4])).dma.pending = some ⟨8, 2⟩ := by
  have run (ops : List DmaOp) :
      Run (Next idleMdec recorder) (reset (.new .strict) () []) ops (recorded ops) := Run.foldl _ _ _
  have due : ((recorded started).scheduler.popDue 8).1 = some ⟨channel4Event, 8⟩ := by decide +kernel
  have due' : ((recorded (started ++ [.write d4Bcr 100 4])).scheduler.popDue 8).1 =
      some ⟨channel4Event, 8⟩ := by decide +kernel
  obtain ⟨deadline, fresh⟩ := (completion_event_agrees (run started)).2.1 8 _ due rfl
  have rewritten : ¬ (DmaOp.write d4Bcr 100 4).Reprograms := by unfold DmaOp.Reprograms; decide
  obtain ⟨-, words, asked, pending⟩ := (completion_event_agrees (run (started.take 3))).2.2 d4Chcr
    0x11000001 0 (recorded started) _ _ (.inl rfl) rfl (.single ⟨rfl, rewritten⟩) 8 _ due' rfl
  have two : transferWords (recorded started).dma.bcr (syncMode (recorded started).dma.chcr) = .ok 2 := by
    rfl
  rw [two] at asked
  cases asked
  exact ⟨deadline, fresh, pending⟩

/-- A transfer whose block count is written again before its deadline still completes at the deadline,
and with the count, of the old one. -/
theorem rewritten_count_waits :
    let m := recorded (started ++ [.write d4Bcr 100 4])
    m.dma.bcr = 100 ∧ m.dma.asked 0 = some 400 ∧
      (m.scheduler.popDue 8).1 = some ⟨channel4Event, 8⟩ ∧
      (leaves ((popDue recorder 8).run m)).sound = [0, 0] ∧
      (leaves ((popDue recorder 8).run m)).dma.chcr &&& chcrStart = 0 := by
  intro m
  exact ⟨by decide +kernel, by decide +kernel, by decide +kernel, by decide +kernel, by decide +kernel⟩

end DmaMachine

end Upse.Ps1
