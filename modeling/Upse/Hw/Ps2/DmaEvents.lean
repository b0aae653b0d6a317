import Upse.Hw.Ps2.DmaRange

/-!
# Sound transfers and their events

A channel with a pending transfer waits for one event, and the scheduler holds that event until it
is due.  The two agree as long as every transfer goes through: a completion forgets its transfer
only after moving the words, so one that fails keeps a transfer whose event is gone.
-/

namespace Upse

open ErrorState

/-- One step beside the scheduler: a register write, the earliest due event with the completion it
asks for, or another component's event. -/
inductive DmaTurn where
  | writeU32 (address : ℕ) (value : Word) (now : Deadline)
  | writeU16 (address : ℕ) (value : BitVec 16) (now : Deadline)
  | popDue (now : Deadline)
  | schedule (id : {id : EventId // DmaMachine.eventChannel id = none}) (deadline : Deadline)
  | cancel (id : {id : EventId // DmaMachine.eventChannel id = none})

namespace DmaMachine

variable {E : Type} {m m' : DmaMachine E}

/-- Removes the earliest due event, and completes the transfer it belongs to. -/
def popDue (endpoint : Spu2DmaEndpoint E) (now : Deadline) :
    EStateM DmaFault (DmaMachine E) Unit := do
  let m ← get
  let (event, scheduler) := m.scheduler.popDue now
  set { m with scheduler := scheduler }
  match event with
  | none => return
  | some event => if (eventChannel event.id).isSome then complete endpoint event else return

/-- Schedules an event of another component. -/
def scheduleOther (id : EventId) (deadline : Deadline) : EStateM DmaFault (DmaMachine E) Unit := do
  let m ← get
  let scheduler ← ErrorState.ofExcept
    ((m.scheduler.schedule id deadline).mapError fun _ => .error .scheduler)
  set { m with scheduler := scheduler }

/-- Cancels an event of another component. -/
def cancelOther (id : EventId) : EStateM DmaFault (DmaMachine E) Unit :=
  modify fun m => { m with scheduler := (m.scheduler.cancel id).2 }

end DmaMachine

/-- Runs one step. -/
def DmaTurn.perform {E : Type} (endpoint : Spu2DmaEndpoint E) :
    DmaTurn → EStateM DmaFault (DmaMachine E) Unit
  | .writeU32 address value now => DmaMachine.writeU32 address value now
  | .writeU16 address value now => DmaMachine.writeU16 address value now
  | .popDue now => DmaMachine.popDue endpoint now
  | .schedule id deadline => DmaMachine.scheduleOther id deadline
  | .cancel id => DmaMachine.cancelOther id

namespace DmaMachine

variable {E : Type} {m m' : DmaMachine E}

/-- One step leaves this state, whether it returned or failed. -/
def Turns (endpoint : Spu2DmaEndpoint E) (m : DmaMachine E) (turn : DmaTurn) (m' : DmaMachine E) :
    Prop :=
  leaves ((turn.perform endpoint).run m) = m'

/-- The scheduler holds a channel's event exactly while its transfer is pending, with its deadline. -/
def Agrees (m : DmaMachine E) : Prop :=
  ∀ channel : SoundDmaChannel,
    (m.scheduler.pending channel.event).map Prod.fst = (m.dma.pending channel).map (·.deadline)

/-! ### Events -/

theorem event_inj {channel other : SoundDmaChannel} :
    channel.event = other.event ↔ channel = other := by
  cases channel <;> cases other <;> decide

@[simp] theorem eventChannel_event (channel : SoundDmaChannel) :
    eventChannel channel.event = some channel := by
  cases channel <;> rfl

theorem event_of_eventChannel {event : EventId} {channel : SoundDmaChannel}
    (h : eventChannel event = some channel) : event = channel.event := by
  unfold eventChannel at h
  split at h
  next core0 => cases h; exact core0
  next =>
    split at h
    next core1 => cases h; exact core1
    next => cases h

theorem agrees_of_same (scheduler : m'.scheduler = m.scheduler)
    (pending : m'.dma.pending = m.dma.pending) : Keeps Agrees m m' := by
  intro agrees channel
  rw [scheduler, pending]
  exact agrees channel

theorem agrees_of_other {id : EventId} (other : eventChannel id = none)
    (same : ∀ event, event ≠ id → m'.scheduler.pending event = m.scheduler.pending event)
    (pending : m'.dma.pending = m.dma.pending) : Keeps Agrees m m' := by
  intro agrees channel
  have apart : channel.event ≠ id := by
    rintro rfl
    rw [eventChannel_event] at other
    cases other
  rw [same _ apart, pending]
  exact agrees channel

theorem agrees_of_dropped {channel : SoundDmaChannel}
    (scheduler : ∀ event, m'.scheduler.pending event =
      if event = channel.event then none else m.scheduler.pending event)
    (pending : m'.dma.pending = (m.dma.setPending channel none).pending) : Keeps Agrees m m' := by
  intro agrees other
  have pending : m'.dma.pending other = if other = channel then none else m.dma.pending other := by
    rw [pending]
    rfl
  rw [scheduler, pending]
  by_cases same : other = channel
  · rw [if_pos (event_inj.mpr same), if_pos same]
    rfl
  · rw [if_neg (mt event_inj.mp same), if_neg same]
    exact agrees other

/-! ### Register writes -/

theorem agrees_scheduleIfReady (channel : SoundDmaChannel) (now : Deadline) :
    Leads (Keeps Agrees) m (scheduleIfReady channel now) := by
  unfold scheduleIfReady
  refine leads_get_bind (.either (leads_pure _) ?_)
  refine .either (leads_pure _) ?_
  refine leads_okOr_bind fun words _ => leads_throwIf_bind fun _ => ?_
  refine leads_ofExcept_bind fun deadline _ => leads_ofExcept_bind fun scheduler scheduled => ?_
  refine leads_modify fun agrees other => ?_
  obtain ⟨-, -, pending⟩ := Scheduler.schedule_spec (except_mapError_ok.mp scheduled)
  show (scheduler.pending other.event).map Prod.fst =
    (if other = channel then some (_ : PendingTransfer) else m.dma.pending other).map (·.deadline)
  rw [pending]
  by_cases same : other = channel
  · rw [if_pos (event_inj.mpr same), if_pos same]
    rfl
  · rw [if_neg (mt event_inj.mp same), if_neg same]
    exact agrees other

theorem agrees_cancelled {channel : SoundDmaChannel}
    (scheduler : m'.scheduler = (m.scheduler.cancel channel.event).2)
    (pending : m'.dma.pending = (m.dma.setPending channel none).pending) : Keeps Agrees m m' :=
  agrees_of_dropped (fun event => scheduler ▸ Scheduler.pending_cancel _ _ event) pending

theorem agrees_writeU32 (address : ℕ) (value : Word) (now : Deadline) :
    Leads (Keeps Agrees) m (writeU32 address value now) :=
  leads_writeU32 agrees_of_same agrees_cancelled agrees_scheduleIfReady _ _ _

theorem agrees_writeU16 (address : ℕ) (value : BitVec 16) (now : Deadline) :
    Leads (Keeps Agrees) m (writeU16 address value now) :=
  leads_writeU16 agrees_of_same agrees_cancelled agrees_scheduleIfReady _ _ _

/-! ### Which transfers go through -/

end DmaMachine

/-- The endpoint takes these words, one after another. -/
def Spu2DmaEndpoint.accepts {E : Type} (endpoint : Spu2DmaEndpoint E) (channel : SoundDmaChannel) :
    List Word → E → Bool
  | [], _ => true
  | word :: words, state =>
    match endpoint.writeWord channel word state with
    | (.ok _, state) => endpoint.accepts channel words state
    | (.error _, _) => false

/-- The endpoint supplies this many words, one after another. -/
def Spu2DmaEndpoint.supplies {E : Type} (endpoint : Spu2DmaEndpoint E) (channel : SoundDmaChannel) :
    ℕ → E → Bool
  | 0, _ => true
  | words + 1, state =>
    match endpoint.readWord channel state with
    | (.ok _, state) => endpoint.supplies channel words state
    | (.error _, _) => false

namespace PendingTransfer

/-- Where a word of the transfer lies. -/
def wordAddress (p : PendingTransfer) (index : ℕ) : ℕ :=
  if p.decrement then p.address - index * 4 else p.address + index * 4

/-- Every word of the transfer lies in RAM. -/
def InRam (p : PendingTransfer) : Prop :=
  if p.decrement then (p.words - 1) * 4 ≤ p.address ∧ p.address + 4 ≤ ramSize
  else p.address + (p.words - 1) * 4 + 4 ≤ ramSize

instance (p : PendingTransfer) : Decidable p.InRam := by unfold InRam; infer_instance

/-- The endpoint takes or supplies the words of the transfer from `index` on. -/
def served {E : Type} (p : PendingTransfer) (endpoint : Spu2DmaEndpoint E)
    (channel : SoundDmaChannel) (ram : Ram) (state : E) (index remaining : ℕ) : Bool :=
  match p.direction with
  | .fromRam =>
    endpoint.accepts channel ((List.range' index remaining).map (ramWord ram <| p.wordAddress ·)) state
  | .toRam => endpoint.supplies channel remaining state

end PendingTransfer

namespace DmaMachine

variable {E : Type} {m m' : DmaMachine E} {endpoint : Spu2DmaEndpoint E} {channel : SoundDmaChannel}
  {p : PendingTransfer}

/-- A pending transfer lies in RAM, and the endpoint serves all its words. -/
def Transferable (endpoint : Spu2DmaEndpoint E) (m : DmaMachine E) (channel : SoundDmaChannel)
    (p : PendingTransfer) : Prop :=
  p.InRam ∧ p.served endpoint channel m.ram m.endpoint 0 p.words = true

theorem transferAddress_of_inRam (inRam : p.InRam) {index : ℕ} (bound : index < p.words) :
    transferAddress p.address index p.decrement = some (p.wordAddress index) ∧
      p.wordAddress index + 4 ≤ ramSize := by
  unfold PendingTransfer.InRam at inRam
  unfold transferAddress PendingTransfer.wordAddress
  have small : ramSize < 2 ^ 32 := by decide
  cases direction : p.decrement with
  | true =>
    rw [direction, if_pos rfl] at inRam
    rw [if_pos rfl, if_pos rfl, Nat.mod_eq_of_lt (by omega)]
    exact ⟨checkedSub_eq_some.mpr ⟨by omega, rfl⟩, by omega⟩
  | false =>
    rw [direction, if_neg (by decide)] at inRam
    rw [if_neg (by decide), if_neg (by decide), Nat.mod_eq_of_lt (by omega)]
    exact ⟨checkedAdd_eq_some.mpr ⟨by omega, rfl⟩, by omega⟩

theorem run_transferWord_fromRam {offset : ℕ} (fits : offset + 4 ≤ ramSize) :
    (transferWord endpoint channel .fromRam offset).run m =
      match endpoint.writeWord channel (ramWord m.ram offset) m.endpoint with
      | (.ok _, state) => .ok () { m with endpoint := state, touched := m.touched ++ [offset] }
      | (.error e, state) => .error (.error (.endpoint e))
          { m with endpoint := state, touched := m.touched ++ [offset] } := by
  have read : (readRamWord offset).run m =
      .ok (ramWord m.ram offset) { m with touched := m.touched ++ [offset] } := by
    unfold readRamWord ramWord
    rw [run_modify_bind, run_get_bind, dif_pos fits, dif_pos fits]
    rfl
  unfold transferWord
  rw [run_bind_of_ok read, run_get_bind]
  rcases endpoint.writeWord channel (ramWord m.ram offset) m.endpoint with ⟨result | result, state⟩
  · rfl
  · rfl

theorem run_writeRamWord {offset : ℕ} (value : Word) (fits : offset + 4 ≤ ramSize) :
    ∃ ram, (writeRamWord offset value).run m =
      .ok () { m with ram := ram, touched := m.touched ++ [offset] } := by
  unfold writeRamWord
  rw [run_modify_bind, if_pos fits]
  exact ⟨_, rfl⟩

theorem run_transferWord_toRam {offset : ℕ} :
    (transferWord endpoint channel .toRam offset).run m =
      match endpoint.readWord channel m.endpoint with
      | (.ok value, state) => (writeRamWord offset value).run { m with endpoint := state }
      | (.error e, state) => .error (.error (.endpoint e)) { m with endpoint := state } := by
  unfold transferWord
  rw [run_get_bind]
  rcases endpoint.readWord channel m.endpoint with ⟨result | result, state⟩
  · rfl
  · rfl

theorem succeeds_transferLoop (inRam : p.InRam) {index remaining : ℕ}
    (count : index + remaining = p.words) :
    succeeds ((transferLoop endpoint channel p remaining index).run m) =
      p.served endpoint channel m.ram m.endpoint index remaining := by
  induction remaining generalizing m index with
  | zero =>
    unfold PendingTransfer.served
    cases p.direction <;> rfl
  | succ remaining ih =>
    obtain ⟨address, fits⟩ := transferAddress_of_inRam inRam (show index < p.words by omega)
    unfold transferLoop
    rw [run_okOr_bind address]
    cases direction : p.direction with
    | fromRam =>
      have rest {m : DmaMachine E} := @ih m (index + 1) (by omega)
      unfold PendingTransfer.served at rest ⊢
      rw [direction] at rest ⊢
      rw [run_bind, run_transferWord_fromRam fits, List.range'_succ, List.map_cons,
        Spu2DmaEndpoint.accepts]
      rcases endpoint.writeWord channel (ramWord m.ram (p.wordAddress index)) m.endpoint with
        ⟨result | result, state⟩
      · rfl
      · exact rest
    | toRam =>
      have rest {m : DmaMachine E} := @ih m (index + 1) (by omega)
      unfold PendingTransfer.served at rest ⊢
      rw [direction] at rest ⊢
      rw [run_bind, run_transferWord_toRam, Spu2DmaEndpoint.supplies]
      rcases endpoint.readWord channel m.endpoint with ⟨result | value, state⟩
      · rfl
      · obtain ⟨ram, written⟩ := run_writeRamWord (m := { m with endpoint := state }) value fits
        simp only [written]
        exact rest

theorem transferWord_fails {direction : DmaDirection} {offset : ℕ} (outside : ¬ offset + 4 ≤ ramSize) :
    ∃ fault m', (transferWord endpoint channel direction offset).run m = .error fault m' := by
  cases direction with
  | fromRam => exact ⟨_, _, by simp [transferWord, readRamWord, outside]; exact ⟨rfl, rfl⟩⟩
  | toRam =>
    rw [run_transferWord_toRam]
    rcases endpoint.readWord channel m.endpoint with ⟨result | value, state⟩
    · exact ⟨_, _, rfl⟩
    · exact ⟨_, _, by simp [writeRamWord, outside]; exact ⟨rfl, rfl⟩⟩

/-- A transfer goes through exactly when it is transferable. -/
theorem succeeds_transfer (fits : p.Fits) :
    succeeds ((transfer endpoint channel p).run m) = true ↔ m.Transferable endpoint channel p := by
  have small : ramSize < 2 ^ 32 := by decide
  unfold transfer
  by_cases inRam : p.InRam
  · have range : validateRamRange channel.channel p.address p.words p.decrement ramSize = .ok () := by
      rw [validateRamRange_eq_ok fits.base_lt small fits.words_pos]
      unfold PendingTransfer.InRam at inRam
      cases direction : p.decrement with
      | true => rw [direction, if_pos rfl] at inRam; exact inRam.1
      | false => rw [direction, if_neg (by decide)] at inRam; exact inRam
    rw [range, show (Except.mapError DmaFault.error (.ok () : Except DmaError Unit)) = .ok () from rfl,
      run_ofExcept_bind rfl, succeeds_transferLoop inRam (Nat.zero_add _)]
    exact ⟨fun served => ⟨inRam, served⟩, And.right⟩
  · refine ⟨fun moved => absurd ?_ inRam, fun transferable => absurd transferable.1 inRam⟩
    cases range : validateRamRange channel.channel p.address p.words p.decrement ramSize with
    | error e => rw [range] at moved; cases moved
    | ok _ =>
      have valid := (validateRamRange_eq_ok fits.base_lt small fits.words_pos).mp range
      unfold PendingTransfer.InRam
      cases down : p.decrement with
      | false => rw [down, if_neg (by decide)] at valid; exact valid
      | true =>
        rw [down, if_pos rfl] at valid
        by_contra outside
        obtain ⟨fault, m', first⟩ : ∃ fault m', (transferWord endpoint channel p.direction
            p.address).run m = .error fault m' := transferWord_fails fun le => outside ⟨valid, le⟩
        rw [range, show (Except.mapError DmaFault.error (.ok () : Except DmaError Unit)) = .ok ()
          from rfl, run_ofExcept_bind rfl, transferLoop_of_first fits down first] at moved
        cases moved

/-! ### Completions -/

theorem run_complete_of_pending {m : DmaMachine E} (found : m.dma.pending channel = some p) :
    (complete endpoint ⟨channel.event, p.deadline⟩).run m = (do
      transfer endpoint channel p
      modifyDma fun dma => dma.setPending channel none
      throwIf (2 ^ 32 ≤ p.words * 4) (.error .clockOverflow)
      let byteCount : Word := BitVec.ofNat 32 (p.words * 4)
      modifyDma fun dma => dma.setChannel channel.channel fun c =>
        { c with
          madr := (if p.decrement then c.madr - byteCount else c.madr + byteCount) &&&
            ramAddressMask
          chcr := c.chcr &&& ~~~chcrStart }
      modify fun m => { m with events := m.events ++ [.completed channel p.direction p.words] }
      finishChannel channel : EStateM DmaFault (DmaMachine E) Unit).run { m with touched := [] } := by
  unfold complete
  rw [run_modify_bind, run_okOr_bind (eventChannel_event channel), run_get_bind,
    run_okOr_bind (show m.dma.pending channel = some p from found),
    run_throwIf_bind (not_not.mpr rfl)]

theorem agrees_complete {before : DmaMachine E} (fits : p.Fits) (agrees : before.Agrees)
    (found : before.dma.pending channel = some p) (dma : m.dma = before.dma)
    (removed : ∀ event, m.scheduler.pending event =
      if event = channel.event then none else before.scheduler.pending event) :
    (leaves ((complete endpoint ⟨channel.event, p.deadline⟩).run m)).Agrees ↔
      m.Transferable endpoint channel p := by
  have pending : m.dma.pending channel = some p := by rw [dma]; exact found
  rw [run_complete_of_pending pending]
  have transferable : m.Transferable endpoint channel p ↔
      succeeds ((transfer endpoint channel p).run { m with touched := [] }) = true :=
    (succeeds_transfer (m := { m with touched := [] }) fits).symm
  have moves : Leads MovesOnly { m with touched := [] } (transfer endpoint channel p) :=
    moves_transfer endpoint channel p
  unfold Leads at moves
  rw [transferable, run_bind]
  cases moved : (transfer endpoint channel p).run { m with touched := [] } with
  | ok _ t =>
    rw [moved] at moves
    obtain ⟨ram, state, touched, rfl⟩ := moves
    refine iff_of_true ?_ rfl
    have dropped : Agrees { m with
        dma := m.dma.setPending channel none, ram := ram, endpoint := state, touched := touched } :=
      agrees_of_dropped (m := before) removed (by rw [← dma]) agrees
    refine (leads_throwIf_bind fun _ => ?_ : Leads (Keeps Agrees) _ _) dropped
    refine leads_modify_bind (agrees_of_same rfl rfl) (leads_modify_bind (agrees_of_same rfl rfl) ?_)
    exact leads_modifyFlags agrees_of_same fun dma => by cases channel <;> rfl
  | error fault t =>
    rw [moved] at moves
    obtain ⟨ram, state, touched, rfl⟩ := moves
    refine iff_of_false (fun kept => ?_) Bool.false_ne_true
    have kept : (m.scheduler.pending channel.event).map Prod.fst =
      (m.dma.pending channel).map (·.deadline) := kept channel
    rw [removed, if_pos rfl, pending] at kept
    cases kept

/-! ### Agreement over runs -/

/-- A transfer that removing the earliest due event completes can be made. -/
def ServesDue (endpoint : Spu2DmaEndpoint E) (m : DmaMachine E) (now : Deadline) : Prop :=
  ∀ event channel p, (m.scheduler.popDue now).1 = some event →
    eventChannel event.id = some channel → m.dma.pending channel = some p →
    m.Transferable endpoint channel p

/-- The step's completion, where it asks for one, can make its transfer. -/
def Serves (endpoint : Spu2DmaEndpoint E) (m : DmaMachine E) : DmaTurn → Prop
  | .popDue now => m.ServesDue endpoint now
  | _ => True

theorem agrees_popDue (fits : m.PendingFits) (agrees : m.Agrees) (now : Deadline) :
    (leaves ((popDue endpoint now).run m)).Agrees ↔ m.ServesDue endpoint now := by
  unfold popDue ServesDue
  rw [run_get_bind]
  cases popped : m.scheduler.popDue now with
  | mk event scheduler =>
    cases event with
    | none =>
      obtain rfl := Scheduler.popDue_none popped
      exact iff_of_true agrees fun event channel p (none : none = some event) => nomatch none
    | some event =>
      obtain ⟨e, rest, -, -, rfl, -, -, held, removed⟩ := Scheduler.popDue_some popped
      show (leaves ((if (eventChannel e.id).isSome then complete endpoint ⟨e.id, e.deadline⟩
        else pure () : EStateM DmaFault (DmaMachine E) Unit).run
          { m with scheduler := scheduler })).Agrees ↔ _
      cases owner : eventChannel e.id with
      | none =>
        refine iff_of_true ?_ fun event channel p (same : some _ = some event) owned => ?_
        · refine agrees_of_other (m := m) owner (fun event ne => ?_) rfl agrees
          exact (removed event).trans (if_neg ne)
        · cases same
          rw [owner] at owned
          cases owned
      | some channel =>
        have id := event_of_eventChannel owner
        have pending := agrees channel
        rw [← id, held] at pending
        cases found : m.dma.pending channel with
        | none => rw [found] at pending; cases pending
        | some p =>
          rw [found] at pending
          have deadline : e.deadline = p.deadline := Option.some.inj pending
          have completed : (leaves ((complete endpoint ⟨channel.event, p.deadline⟩).run
              { m with scheduler := scheduler })).Agrees ↔
                Transferable endpoint { m with scheduler := scheduler } channel p :=
            agrees_complete (fits channel p found) agrees found rfl (by rw [← id]; exact removed)
          rw [← id, ← deadline] at completed
          refine completed.trans ⟨fun transferable event other q same owned pending => ?_, fun all => ?_⟩
          · cases same
            obtain rfl := Option.some.inj (owner.symm.trans owned)
            obtain rfl := Option.some.inj (found.symm.trans pending)
            exact transferable
          · exact all ⟨e.id, e.deadline⟩ channel p rfl owner found

theorem fits_popDue (now : Deadline) : Leads (Keeps PendingFits) m (popDue endpoint now) := by
  unfold popDue
  refine leads_get_bind ?_
  obtain ⟨event, scheduler⟩ := m.scheduler.popDue now
  refine leads_ok_bind (R := Keeps PendingFits) rfl (keeps_of_pending rfl) ?_
  cases event with
  | none => exact leads_pure _
  | some event => exact .either (keeps_complete endpoint event) (leads_pure _)

theorem fits_perform (turn : DmaTurn) : Leads (Keeps PendingFits) m (turn.perform endpoint) := by
  cases turn with
  | writeU32 address value now => exact keeps_writeU32 address value now
  | writeU16 address value now => exact keeps_writeU16 address value now
  | popDue now => exact fits_popDue now
  | schedule id deadline =>
    refine leads_get_bind (leads_ofExcept_bind fun scheduler _ => ?_)
    exact leads_set (keeps_of_pending rfl)
  | cancel id => exact leads_modify (keeps_of_pending rfl)

theorem agrees_perform (fits : m.PendingFits) (agrees : m.Agrees) (turn : DmaTurn) :
    (leaves ((turn.perform endpoint).run m)).Agrees ↔ m.Serves endpoint turn := by
  cases turn with
  | writeU32 address value now => exact iff_of_true (agrees_writeU32 address value now agrees) trivial
  | writeU16 address value now => exact iff_of_true (agrees_writeU16 address value now agrees) trivial
  | popDue now => exact agrees_popDue fits agrees now
  | schedule id deadline =>
    refine iff_of_true ((?_ : Leads (Keeps Agrees) m (scheduleOther id deadline)) agrees) trivial
    refine leads_get_bind (leads_ofExcept_bind fun scheduler scheduled => leads_set ?_)
    obtain ⟨-, -, pending⟩ := Scheduler.schedule_spec (except_mapError_ok.mp scheduled)
    exact agrees_of_other id.2 (fun event ne => (pending event).trans (if_neg ne)) rfl
  | cancel id =>
    refine iff_of_true ((?_ : Leads (Keeps Agrees) m (cancelOther id)) agrees) trivial
    refine leads_modify (agrees_of_other id.2 (fun event ne => ?_) rfl)
    exact (Scheduler.pending_cancel _ _ _).trans (if_neg ne)

/-- In every run whose completions can make their transfers, the scheduler and the pending transfers
agree in every state; and a step from there breaks the agreement exactly when it asks for a completion
whose transfer cannot be made. -/
theorem agrees_run {ram : Ram} {state : E} {turns : List DmaTurn}
    (run : Run (fun a turn b => Turns endpoint a turn b ∧ a.Serves endpoint turn) (reset ram state)
      turns m) :
    m.Agrees ∧ ∀ turn m', Turns endpoint m turn m' → (m'.Agrees ↔ m.Serves endpoint turn) := by
  have start : (reset ram state).PendingFits ∧ (reset ram state).Agrees :=
    ⟨fun channel p found => (nomatch found), fun channel => rfl⟩
  have step (a : DmaMachine E) (turn : DmaTurn) (b : DmaMachine E)
      (before : a.PendingFits ∧ a.Agrees) (next : Turns endpoint a turn b ∧ a.Serves endpoint turn) :
      b.PendingFits ∧ b.Agrees := by
    obtain ⟨rfl, serves⟩ := next
    exact ⟨fits_perform turn before.1, (agrees_perform before.1 before.2 turn).mpr serves⟩
  obtain ⟨fits, agrees⟩ := run.invariant (I := fun m => m.PendingFits ∧ m.Agrees) start step
  refine ⟨agrees, ?_⟩
  rintro turn _ rfl
  exact agrees_perform fits agrees turn

/-- The guest starts channel 4 in a direction over words from address `0x100` of zeroed RAM. -/
def started (direction : DmaDirection) (words : Word) : List DmaTurn :=
  [.writeU32 Upse.dpcr1 0x076d4321 0, .writeU32 0x1f8010c0 0x100 0, .writeU32 0x1f8010c4 words 0,
    .writeU32 0x1f8010c8 (if direction = .fromRam then 0x01000001 else 0x01000000) 0]

/-- The recorder after a list of steps. -/
def recorded (turns : List DmaTurn) : DmaMachine (List Word) :=
  turns.foldl (fun m turn => leaves ((turn.perform recorder).run m)) (reset (fun _ => 0) [])

theorem turns_recorded (turns : List DmaTurn) (turn : DmaTurn) :
    Turns recorder (recorded turns) turn (recorded (turns ++ [turn])) := by
  unfold Turns recorded
  rw [List.foldl_append]
  rfl

theorem agrees_run_sample :
    (recorded (started .fromRam 4 ++ [.popDue 0])).endpoint = [0, 0, 0, 0] ∧
      (recorded (started .fromRam 4 ++ [.popDue 0])).Agrees := by
  have due : ((recorded (started .fromRam 4)).scheduler.popDue 0).1 = some ⟨channel4Event, 0⟩ := by
    decide +kernel
  have pending : (recorded (started .fromRam 4)).dma.pending .core0 =
      some ⟨0, 0x100, 4, .fromRam, false⟩ := by decide +kernel
  have serves : (recorded (started .fromRam 4)).ServesDue recorder 0 := by
    intro event channel p popped owned found
    obtain rfl := Option.some.inj (due.symm.trans popped)
    obtain rfl : SoundDmaChannel.core0 = channel := Option.some.inj owned
    obtain rfl := Option.some.inj (pending.symm.trans found)
    exact ⟨by decide +kernel, by decide +kernel⟩
  have writes : ∀ turn ∈ started .fromRam 4, ∀ a : DmaMachine (List Word), a.Serves recorder turn := by
    intro turn mem a
    simp only [started, List.mem_cons, List.not_mem_nil, or_false] at mem
    rcases mem with rfl | rfl | rfl | rfl <;> trivial
  have programmed : Run (fun a turn b => Turns recorder a turn b ∧ a.Serves recorder turn)
      (reset (fun _ => 0) []) (started .fromRam 4) (recorded (started .fromRam 4)) :=
    ((Run.foldl _ _ _).restrict writes).mono fun a turn b h => ⟨h.1, h.2 a⟩
  refine ⟨by decide +kernel, ?_⟩
  exact (agrees_run (programmed.snoc ⟨turns_recorded _ (.popDue 0), serves⟩)).1

/-- A read the endpoint cannot supply fails its completion, and the channel waits for an event that is
gone. -/
theorem failed_completion_waits :
    Run (Turns recorder) (reset (fun _ => 0) []) (started .toRam 4 ++ [.popDue 0])
        (recorded (started .toRam 4 ++ [.popDue 0])) ∧
      (recorded (started .toRam 4 ++ [.popDue 0])).dma.pending .core0 =
        some ⟨0, 0x100, 4, .toRam, false⟩ ∧
      (recorded (started .toRam 4 ++ [.popDue 0])).scheduler.pending channel4Event = none ∧
      ¬ (recorded (started .toRam 4 ++ [.popDue 0])).Agrees := by
  have pending : (recorded (started .toRam 4 ++ [.popDue 0])).dma.pending .core0 =
      some ⟨0, 0x100, 4, .toRam, false⟩ := by decide +kernel
  have gone : (recorded (started .toRam 4 ++ [.popDue 0])).scheduler.pending channel4Event = none := by
    decide +kernel
  refine ⟨Run.foldl _ _ _, pending, gone, fun agrees => ?_⟩
  have both := agrees .core0
  rw [pending, show SoundDmaChannel.core0.event = channel4Event from rfl, gone] at both
  cases both

end DmaMachine

end Upse
