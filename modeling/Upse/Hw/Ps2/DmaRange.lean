import Upse.Hw.Ps2.Dma

/-!
# Which RAM a sound transfer touches

A transfer that increments is validated against the length of RAM; one that decrements only
against address zero.  So a completion stays inside RAM unless it decrements from a base past the
last word of RAM and reaches that first word.
-/

namespace Upse

open ErrorState

theorem transferWords_pos {bcr : Word} {sync words : ℕ} (h : transferWords bcr sync = some words) :
    0 < words := by
  have positive (n : ℕ) : 0 < if n = 0 then 0x10000 else n := by
    split <;> omega
  unfold transferWords at h
  split at h
  · cases h
    exact positive _
  · obtain ⟨-, rfl⟩ := checkedMul_eq_some.mp h
    exact Nat.mul_pos (positive _) (positive _)
  · cases h

/-- A transfer has words to move and a 32-bit base. -/
structure PendingTransfer.Fits (p : PendingTransfer) : Prop where
  words_pos : 0 < p.words
  base_lt : p.address < 2 ^ 32

namespace DmaMachine

variable {E α β : Type} {m : DmaMachine E}

/-! ### What a register write keeps -/

section Writes

variable {P : DmaMachine E → Prop}
  (same : ∀ {m m' : DmaMachine E}, m'.scheduler = m.scheduler → m'.dma.pending = m.dma.pending → Keeps P m m')
  (drops : ∀ {m m' : DmaMachine E} {channel : SoundDmaChannel},
    m'.scheduler = (m.scheduler.cancel channel.event).2 →
    m'.dma.pending = (m.dma.setPending channel none).pending → Keeps P m m')
  (schedules : ∀ {m : DmaMachine E} (channel : SoundDmaChannel) (now : Deadline),
    Leads (Keeps P) m (scheduleIfReady channel now))

include same

theorem leads_modifyDma {f : DmaController → DmaController}
    (pending : ∀ dma, (f dma).pending = dma.pending) : Leads (Keeps P) m (modifyDma f) :=
  leads_modify (same rfl (pending _))

theorem leads_modifyFlags {f : DmaController → DmaController}
    (pending : ∀ dma, (f dma).pending = dma.pending) : Leads (Keeps P) m (modifyFlags f) :=
  leads_modify (same rfl (pending _))

include drops schedules

/-- A write keeps what changes of the registers, dropped transfers and scheduled ones keep. -/
theorem leads_writeU32 (address : ℕ) (value : Word) (now : Deadline) :
    Leads (Keeps P) m (writeU32 address value now) := by
  have all {m : DmaMachine E} : Leads (Keeps P) m (scheduleAll now) :=
    (schedules .core0 now).bind fun _ _ _ => schedules .core1 now
  unfold writeU32
  split
  next channel register half _ =>
    refine leads_throwIf_bind fun _ => ?_
    refine leads_modify_bind (same rfl rfl) ?_
    cases soundChannel channel with
    | some sound =>
      exact .either (leads_modify_bind (drops rfl rfl) (schedules sound now)) (schedules sound now)
    | none => exact .either (leads_modifyDma same fun _ => rfl) (leads_pure _)
  next =>
    refine .either (leads_modify_bind (same rfl rfl) all) ?_
    refine .either (leads_modifyFlags same fun _ => rfl) ?_
    refine .either (leads_modifyDma same fun _ => rfl) ?_
    refine .either (leads_modifyDma same fun _ => rfl) ?_
    refine .either (leads_modifyDma same fun _ => rfl) ?_
    refine .either (leads_modify_bind (same rfl rfl) all) ?_
    refine .either (leads_modifyFlags same fun _ => rfl) ?_
    exact .either (leads_modifyDma same fun _ => rfl) (leads_throw _)

theorem leads_writeU16 (address : ℕ) (value : BitVec 16) (now : Deadline) :
    Leads (Keeps P) m (writeU16 address value now) := by
  unfold writeU16
  refine .either (leads_modifyFlags same fun _ => rfl) ?_
  refine .either (leads_modifyFlags same fun _ => rfl) ?_
  exact leads_get_bind (leads_ofExcept_bind fun old _ => leads_writeU32 same drops schedules _ _ now)

end Writes

/-! ### Pending transfers -/

/-- Every pending transfer fits. -/
def PendingFits (m : DmaMachine E) : Prop :=
  ∀ channel p, m.dma.pending channel = some p → p.Fits

theorem keeps_of_pending {m m' : DmaMachine E} (same : m'.dma.pending = m.dma.pending) :
    Keeps PendingFits m m' := by
  intro fits channel p found
  rw [same] at found
  exact fits channel p found

theorem keeps_setPending {m m' : DmaMachine E} {channel : SoundDmaChannel}
    {pending : Option PendingTransfer} (new : ∀ p, pending = some p → p.Fits)
    (same : m'.dma.pending = (m.dma.setPending channel pending).pending) :
    Keeps PendingFits m m' := by
  intro fits other p found
  rw [same] at found
  change (if other = channel then pending else m.dma.pending other) = some p at found
  split at found
  next => exact new p found
  next => exact fits other p found

theorem keeps_scheduleIfReady (channel : SoundDmaChannel) (now : Deadline) :
    Leads (Keeps PendingFits) m (scheduleIfReady channel now) := by
  unfold scheduleIfReady
  refine leads_get_bind (.either (leads_pure _) ?_)
  refine .either (leads_pure _) ?_
  refine leads_okOr_bind fun words asked => leads_throwIf_bind fun _ => ?_
  refine leads_ofExcept_bind fun deadline _ => leads_ofExcept_bind fun scheduler _ => ?_
  refine leads_modify (keeps_setPending (fun p new => ?_) rfl)
  cases new
  exact ⟨transferWords_pos asked, BitVec.isLt _⟩

theorem keeps_dropped {m m' : DmaMachine E} {channel : SoundDmaChannel}
    (dropped : m'.dma.pending = (m.dma.setPending channel none).pending) : Keeps PendingFits m m' :=
  keeps_setPending (fun p (new : none = some p) => nomatch new) dropped

theorem keeps_writeU32 (address : ℕ) (value : Word) (now : Deadline) :
    Leads (Keeps PendingFits) m (writeU32 address value now) :=
  leads_writeU32 (fun _ => keeps_of_pending) (fun _ => keeps_dropped) keeps_scheduleIfReady _ _ _

theorem keeps_writeU16 (address : ℕ) (value : BitVec 16) (now : Deadline) :
    Leads (Keeps PendingFits) m (writeU16 address value now) :=
  leads_writeU16 (fun _ => keeps_of_pending) (fun _ => keeps_dropped) keeps_scheduleIfReady _ _ _

/-! ### Transfers leave the controller alone -/

/-- The steps that change RAM and the endpoint only, beside the addresses touched. -/
def MovesOnly (m m' : DmaMachine E) : Prop :=
  ∃ ram endpoint touched, m' = { m with ram := ram, endpoint := endpoint, touched := touched }

instance : Std.Refl (MovesOnly (E := E)) := ⟨fun m => ⟨m.ram, m.endpoint, m.touched, rfl⟩⟩

instance : IsTrans (DmaMachine E) MovesOnly where
  trans := by
    rintro m _ _ ⟨ram, state, touched, rfl⟩ ⟨ram', state', touched', rfl⟩
    exact ⟨ram', state', touched', rfl⟩

theorem moves_readRamWord (offset : ℕ) : Leads MovesOnly m (readRamWord offset) := by
  unfold readRamWord
  refine leads_modify_bind (R := MovesOnly) ⟨_, _, _, rfl⟩ (leads_get_bind ?_)
  split
  next => exact leads_pure _
  next => exact leads_throw _

theorem moves_writeRamWord (offset : ℕ) (value : Word) :
    Leads MovesOnly m (writeRamWord offset value) := by
  unfold writeRamWord
  refine leads_modify_bind (R := MovesOnly) ⟨_, _, _, rfl⟩ (.either ?_ ?_)
  · exact leads_modify ⟨_, _, _, rfl⟩
  · exact leads_throw _

theorem moves_transferWord (endpoint : Spu2DmaEndpoint E) (channel : SoundDmaChannel)
    (direction : DmaDirection) (offset : ℕ) :
    Leads MovesOnly m (transferWord endpoint channel direction offset) := by
  cases direction with
  | fromRam =>
    refine (moves_readRamWord offset).bind fun value m' _ => leads_get_bind ?_
    exact leads_ok_bind (R := MovesOnly) rfl ⟨_, _, _, rfl⟩ (leads_ofExcept _)
  | toRam =>
    refine leads_get_bind (leads_ok_bind (R := MovesOnly) rfl ⟨_, _, _, rfl⟩ ?_)
    exact leads_ofExcept_bind fun value _ => moves_writeRamWord offset value

theorem moves_transferLoop (endpoint : Spu2DmaEndpoint E) (channel : SoundDmaChannel)
    (pending : PendingTransfer) (remaining index : ℕ) :
    Leads MovesOnly m (transferLoop endpoint channel pending remaining index) := by
  induction remaining generalizing m index with
  | zero => exact leads_pure _
  | succ remaining ih =>
    refine leads_okOr_bind fun offset _ => ?_
    exact (moves_transferWord endpoint channel pending.direction offset).bind fun _ _ _ => ih _

theorem moves_transfer (endpoint : Spu2DmaEndpoint E) (channel : SoundDmaChannel)
    (pending : PendingTransfer) : Leads MovesOnly m (transfer endpoint channel pending) :=
  leads_ofExcept_bind fun _ _ => moves_transferLoop endpoint channel pending _ _

theorem keeps_complete (endpoint : Spu2DmaEndpoint E) (event : DueEvent) :
    Leads (Keeps PendingFits) m (complete endpoint event) := by
  unfold complete
  refine leads_modify_bind (keeps_of_pending rfl) (leads_okOr_bind fun channel _ => ?_)
  refine leads_get_bind (leads_okOr_bind fun pending _ => leads_throwIf_bind fun _ => ?_)
  have transferred {m' : DmaMachine E} :
      Leads (Keeps PendingFits) m' (transfer endpoint channel pending) :=
    (moves_transfer endpoint channel pending).mono fun _ _ ⟨_, _, _, same⟩ =>
      keeps_of_pending (by rw [same])
  refine transferred.bind fun _ m' _ => leads_modify_bind ?_ (leads_throwIf_bind fun _ => ?_)
  · exact keeps_dropped rfl
  · refine leads_modify_bind (keeps_of_pending rfl) (leads_modify_bind (keeps_of_pending rfl) ?_)
    exact leads_modifyFlags (fun _ => keeps_of_pending) fun dma => by cases channel <;> rfl

end DmaMachine

theorem DmaOp.keeps_perform {E : Type} {m : DmaMachine E} (endpoint : Spu2DmaEndpoint E)
    (op : DmaOp) : Leads (Keeps DmaMachine.PendingFits) m (op.perform endpoint) := by
  cases op with
  | writeU32 address value now => exact DmaMachine.keeps_writeU32 address value now
  | writeU16 address value now => exact DmaMachine.keeps_writeU16 address value now
  | complete event => exact DmaMachine.keeps_complete endpoint event

namespace DmaMachine

variable {E α β : Type} {m m' : DmaMachine E}

theorem pendingFits_run {endpoint : Spu2DmaEndpoint E} {ram : Ram} {state : E} {ops : List DmaOp}
    (run : Run (Next endpoint) (reset ram state) ops m) : m.PendingFits := by
  refine run.invariant (I := PendingFits) (fun channel p found => nomatch found) ?_
  rintro before op after fits rfl
  exact op.keeps_perform endpoint fits

/-! ### Staying inside RAM -/

/-- Every address touched is the address of a word of RAM. -/
def InRam (m : DmaMachine E) : Prop := ∀ a ∈ m.touched, a + 4 ≤ ramSize

/-- The program touches only words of RAM, and does not panic. -/
structure Stays (m : DmaMachine E) (x : EStateM DmaFault (DmaMachine E) α) : Prop where
  inRam : (leaves (x.run m)).InRam
  calm : ∀ m', x.run m ≠ .error .panic m'

variable {x : EStateM DmaFault (DmaMachine E) α}

theorem stays_ok {a : α} (inRam : m'.InRam)
    (run : x.run m = .ok a m') : m.Stays x :=
  ⟨by rw [run]; exact inRam, fun _ failed => by rw [run] at failed; cases failed⟩

theorem stays_error {e : DmaError} (inRam : m'.InRam)
    (run : x.run m = .error (.error e) m') : m.Stays x :=
  ⟨by rw [run]; exact inRam, fun _ failed => by rw [run] at failed; cases failed⟩

theorem Stays.bind
    {f : α → EStateM DmaFault (DmaMachine E) β} (h : m.Stays x)
    (hf : ∀ a m', x.run m = .ok a m' → m'.InRam → m'.Stays (f a)) : m.Stays (x >>= f) := by
  obtain ⟨inRam, calm⟩ := h
  cases run : x.run m with
  | ok a m' =>
    rw [run] at inRam
    have rest := hf a m' run inRam
    have whole : (x >>= f).run m = (f a).run m' := by rw [run_bind, run]
    exact ⟨by rw [whole]; exact rest.inRam, by rw [whole]; exact rest.calm⟩
  | error e m' =>
    rw [run] at inRam
    have whole : (x >>= f).run m = .error e m' := by rw [run_bind, run]
    refine ⟨by rw [whole]; exact inRam, fun m'' failed => ?_⟩
    rw [whole] at failed
    cases failed
    exact calm m' run

theorem stays_get_bind {f : DmaMachine E → EStateM DmaFault (DmaMachine E) β} (h : m.Stays (f m)) :
    m.Stays (get >>= f) :=
  ⟨h.inRam, h.calm⟩

theorem stays_set_bind {f : PUnit → EStateM DmaFault (DmaMachine E) β} (h : m'.Stays (f ⟨⟩)) :
    m.Stays (set m' >>= f) :=
  ⟨h.inRam, h.calm⟩

theorem stays_modify {f : DmaMachine E → DmaMachine E} (inRam : (f m).InRam) :
    m.Stays (modify f) :=
  stays_ok inRam rfl

theorem stays_ofExcept {ε : Type} {r : Except ε α} {f : ε → DmaError} (inRam : m.InRam) :
    m.Stays (ErrorState.ofExcept (r.mapError fun e => .error (f e))) := by
  cases r with
  | ok a => exact stays_ok inRam rfl
  | error e => exact stays_error inRam rfl

theorem stays_modify_bind {g : DmaMachine E → DmaMachine E}
    {f : PUnit → EStateM DmaFault (DmaMachine E) β} (h : (g m).Stays (f ⟨⟩)) :
    m.Stays (modify g >>= f) :=
  ⟨h.inRam, h.calm⟩

theorem stays_throwIf_bind {c : Prop} [Decidable c] {e : DmaError}
    {f : Unit → EStateM DmaFault (DmaMachine E) β} (inRam : m.InRam) (hf : ¬ c → m.Stays (f ())) :
    m.Stays (throwIf c (.error e) >>= f) := by
  unfold throwIf
  by_cases h : c
  · rw [if_pos h]
    exact stays_error inRam rfl
  · rw [if_neg h]
    exact hf h

theorem stays_okOr_bind {o : Option α} {e : DmaError}
    {f : α → EStateM DmaFault (DmaMachine E) β} (inRam : m.InRam)
    (hf : ∀ a, o = some a → m.Stays (f a)) : m.Stays (okOr o (.error e) >>= f) := by
  cases o with
  | none => exact stays_error inRam rfl
  | some a => exact hf a rfl

theorem InRam.touch (inRam : m.InRam) {offset : ℕ} (fits : offset + 4 ≤ ramSize)
    (same : m'.touched = m.touched ++ [offset]) : m'.InRam := by
  intro a member
  rw [same] at member
  obtain member | last := List.mem_append.mp member
  · exact inRam a member
  · rw [List.mem_singleton.mp last]
    exact fits

theorem stays_readRamWord {offset : ℕ} (inRam : m.InRam) (fits : offset + 4 ≤ ramSize) :
    m.Stays (readRamWord offset) := by
  unfold readRamWord
  refine (stays_modify (inRam.touch fits rfl)).bind fun _ m' _ inRam' => stays_get_bind ?_
  rw [dif_pos fits]
  exact stays_ok inRam' rfl

theorem stays_writeRamWord {offset : ℕ} (value : Word) (inRam : m.InRam)
    (fits : offset + 4 ≤ ramSize) : m.Stays (writeRamWord offset value) := by
  unfold writeRamWord
  refine (stays_modify (inRam.touch fits rfl)).bind fun _ m' _ inRam' => ?_
  rw [if_pos fits]
  exact stays_modify inRam'

theorem stays_transferWord (endpoint : Spu2DmaEndpoint E) (channel : SoundDmaChannel)
    (direction : DmaDirection) {offset : ℕ} (inRam : m.InRam) (fits : offset + 4 ≤ ramSize) :
    m.Stays (transferWord endpoint channel direction offset) := by
  cases direction with
  | fromRam =>
    refine (stays_readRamWord inRam fits).bind fun value m' _ inRam' => stays_get_bind ?_
    exact stays_set_bind (stays_ofExcept inRam')
  | toRam =>
    have inRam' : InRam { m with endpoint := (endpoint.readWord channel m.endpoint).2 } := inRam
    refine stays_get_bind (stays_set_bind ((stays_ofExcept inRam').bind fun value _ _ inRam'' => ?_))
    exact stays_writeRamWord value inRam'' fits

/-- The words of a transfer from `index` on lie in RAM. -/
def WordsInRam (pending : PendingTransfer) (index : ℕ) : Prop :=
  ∀ i, index ≤ i → i < pending.words →
    ∃ offset, transferAddress pending.address i pending.decrement = some offset ∧
      offset + 4 ≤ ramSize

theorem stays_transferLoop (endpoint : Spu2DmaEndpoint E) (channel : SoundDmaChannel)
    (pending : PendingTransfer) {remaining index : ℕ} (count : index + remaining = pending.words)
    (words : WordsInRam pending index) (inRam : m.InRam) :
    m.Stays (transferLoop endpoint channel pending remaining index) := by
  induction remaining generalizing m index with
  | zero => exact stays_ok inRam rfl
  | succ remaining ih =>
    obtain ⟨offset, address, fits⟩ := words index le_rfl (by omega)
    unfold transferLoop
    rw [address]
    refine (stays_ok inRam rfl).bind fun offset' m' run inRam' => ?_
    cases run
    refine (stays_transferWord endpoint channel _ inRam' fits).bind fun _ m'' _ inRam'' => ?_
    exact ih (by omega) (fun i later bound => words i (by omega) bound) inRam''

/-! ### Which transfers are validated -/

/-- What validation accepts: an increment that ends inside RAM, a decrement that ends above zero. -/
theorem validateRamRange_eq_ok {channel base words ramLen : ℕ} {decrement : Bool}
    (base_lt : base < 2 ^ 32) (ram_lt : ramLen < 2 ^ 32) (positive : 0 < words) :
    validateRamRange channel base words decrement ramLen = .ok () ↔
      if decrement then (words - 1) * 4 ≤ base else base + (words - 1) * 4 + 4 ≤ ramLen := by
  unfold validateRamRange
  rw [if_neg positive.ne', checkedSub_eq_some.mpr ⟨positive, rfl⟩, Option.bind_some]
  by_cases narrow : (words - 1) * 4 < 2 ^ 64
  · rw [checkedMul_eq_some.mpr ⟨narrow, rfl⟩]
    cases decrement with
    | true => by_cases fits : (words - 1) * 4 ≤ base <;> simp [fits]
    | false =>
      cases added : (checkedAdd 64 base ((words - 1) * 4)).bind fun last =>
          checkedAdd 64 last 4 with
      | some stop =>
        obtain ⟨last, first, second⟩ := Option.bind_eq_some_iff.mp added
        obtain ⟨-, rfl⟩ := checkedAdd_eq_some.mp first
        obtain ⟨-, rfl⟩ := checkedAdd_eq_some.mp second
        by_cases fits : base + (words - 1) * 4 + 4 ≤ ramLen <;> simp [added, fits]
      | none =>
        have refused : ¬ base + (words - 1) * 4 + 4 ≤ ramLen := by
          intro fits
          rw [checkedAdd_eq_some.mpr ⟨by omega, rfl⟩, Option.bind_some,
            checkedAdd_eq_some.mpr ⟨by omega, rfl⟩] at added
          cases added
        simp [added, refused]
  · have overflow : checkedMul 64 (words - 1) 4 = none := by
      rw [checkedMul, if_neg narrow]
    rw [overflow]
    cases decrement with
    | true => simp only [reduceCtorEq, if_true, false_iff]; omega
    | false => simp only [reduceCtorEq, Bool.false_eq_true, if_false, false_iff]; omega

theorem wordsInRam {pending : PendingTransfer} (fits : pending.Fits)
    (valid : if pending.decrement then (pending.words - 1) * 4 ≤ pending.address
      else pending.address + (pending.words - 1) * 4 + 4 ≤ ramSize)
    (first : pending.decrement = true → pending.address + 4 ≤ ramSize) :
    WordsInRam pending 0 := by
  intro i _ bound
  have base_lt := fits.base_lt
  have small : ramSize < 2 ^ 32 := by decide
  unfold transferAddress
  cases direction : pending.decrement with
  | true =>
    rw [direction, if_pos rfl] at valid
    have top := first direction
    refine ⟨pending.address - i * 4, ?_, by omega⟩
    rw [if_pos rfl, Nat.mod_eq_of_lt (by omega)]
    exact checkedSub_eq_some.mpr ⟨by omega, rfl⟩
  | false =>
    rw [direction, if_neg (by decide)] at valid
    refine ⟨pending.address + i * 4, ?_, by omega⟩
    rw [if_neg (by decide), Nat.mod_eq_of_lt (by omega)]
    exact checkedAdd_eq_some.mpr ⟨by omega, rfl⟩

/-! ### Completions -/

/-- The completion moves a word past the end of RAM: its transfer is due, decrements from a base
past the last word of RAM, does not pass below address zero, and (for a transfer into RAM) the
endpoint supplies the first word. -/
def Overruns (endpoint : Spu2DmaEndpoint E) (m : DmaMachine E) (event : DueEvent) : Prop :=
  ∃ channel p, eventChannel event.id = some channel ∧ m.dma.pending channel = some p ∧
    p.deadline = event.deadline ∧ p.decrement = true ∧ (p.words - 1) * 4 ≤ p.address ∧
    ramSize < p.address + 4 ∧
    (p.direction = .fromRam ∨ ∃ value, (endpoint.readWord channel m.endpoint).1 = .ok value)

variable {endpoint : Spu2DmaEndpoint E} {channel : SoundDmaChannel} {pending : PendingTransfer}

theorem transferLoop_of_first (fits : pending.Fits) (down : pending.decrement = true)
    {fault : DmaFault} (first : (transferWord endpoint channel pending.direction
      pending.address).run m = .error fault m') :
    (transferLoop endpoint channel pending pending.words 0).run m = .error fault m' := by
  obtain ⟨count, words⟩ : ∃ count, pending.words = count + 1 :=
    ⟨pending.words - 1, (Nat.sub_add_cancel fits.words_pos).symm⟩
  have address : transferAddress pending.address 0 pending.decrement = some pending.address := by
    rw [down]
    exact checkedSub_eq_some.mpr ⟨Nat.zero_le _, rfl⟩
  rw [words, transferLoop, address, run_bind, run_okOr_some]
  show ((transferWord endpoint channel pending.direction pending.address) >>= _).run m = _
  rw [run_bind, first]

theorem stays_transfer (fits : pending.Fits) (inRam : m.InRam)
    (safe : pending.decrement = true → (pending.words - 1) * 4 ≤ pending.address →
      ramSize < pending.address + 4 → pending.direction = .toRam ∧
        ∀ value, (endpoint.readWord channel m.endpoint).1 ≠ .ok value) :
    m.Stays (transfer endpoint channel pending) := by
  unfold transfer
  cases valid : validateRamRange channel.channel pending.address pending.words pending.decrement
      ramSize with
  | error e => exact stays_error inRam rfl
  | ok _ =>
    have small : ramSize < 2 ^ 32 := by decide
    have range := (validateRamRange_eq_ok fits.base_lt small fits.words_pos).mp valid
    by_cases beyond : pending.decrement = true ∧ ramSize < pending.address + 4
    · rw [beyond.1, if_pos rfl] at range
      obtain ⟨direction, refused⟩ := safe beyond.1 range beyond.2
      cases result : (endpoint.readWord channel m.endpoint).1 with
      | ok value => exact absurd result (refused value)
      | error e =>
        have word : (transferWord endpoint channel pending.direction pending.address).run m =
            .error (.error (.endpoint e))
              { m with endpoint := (endpoint.readWord channel m.endpoint).2 } := by
          rw [direction]
          simp [transferWord, result]
          rfl
        have inRam' : InRam { m with endpoint := (endpoint.readWord channel m.endpoint).2 } := inRam
        exact stays_error inRam' (transferLoop_of_first fits beyond.1 word)
    · have first : pending.decrement = true → pending.address + 4 ≤ ramSize := fun down =>
        not_lt.mp fun past => beyond ⟨down, past⟩
      exact stays_transferLoop endpoint channel pending (Nat.zero_add _)
        (wordsInRam fits range first) inRam

theorem stays_complete {event : DueEvent} (fits : m.PendingFits) (safe : ¬ m.Overruns endpoint event) :
    m.Stays (complete endpoint event) := by
  unfold complete
  have inRam : InRam { m with touched := [] } := fun a member => nomatch member
  refine stays_modify_bind (stays_okOr_bind inRam fun channel event_ => stays_get_bind ?_)
  refine stays_okOr_bind inRam fun pending found => stays_throwIf_bind inRam fun due => ?_
  have transferred : Stays { m with touched := [] } (transfer endpoint channel pending) := by
    refine stays_transfer (fits channel pending found) inRam fun down range past => ?_
    by_contra overruns
    refine safe ⟨channel, pending, event_, found, not_not.mp due, down, range, past, ?_⟩
    cases direction : pending.direction with
    | fromRam => exact .inl rfl
    | toRam => exact .inr (not_forall_not.mp fun refused => overruns ⟨direction, refused⟩)
  refine transferred.bind fun _ m' _ inRam' => stays_modify_bind ?_
  refine stays_throwIf_bind inRam' fun _ => stays_modify_bind (stays_modify_bind ?_)
  exact stays_modify inRam'

theorem complete_of_overruns {event : DueEvent} (fits : m.PendingFits)
    (overruns : m.Overruns endpoint event) :
    ∃ m', (complete endpoint event).run m = .error .panic m' := by
  obtain ⟨channel, p, selected, found, due, down, range, past, first⟩ := overruns
  have small : ramSize < 2 ^ 32 := by decide
  have pFits := fits channel p found
  have outside : ¬ p.address + 4 ≤ ramSize := not_le.mpr past
  have valid : validateRamRange channel.channel p.address p.words p.decrement ramSize = .ok () := by
    rw [validateRamRange_eq_ok pFits.base_lt small pFits.words_pos, down, if_pos rfl]
    exact range
  have word : ∃ m', (transferWord endpoint channel p.direction p.address).run
      { m with touched := [] } = .error .panic m' := by
    cases direction : p.direction with
    | fromRam => exact ⟨_, by simp [transferWord, readRamWord, outside]; rfl⟩
    | toRam =>
      obtain ⟨value, supplied⟩ := first.resolve_left (by rw [direction]; decide)
      exact ⟨_, by simp [transferWord, writeRamWord, supplied, outside, Except.mapError]; rfl⟩
  obtain ⟨m', word⟩ := word
  have moved : (transfer endpoint channel p).run { m with touched := [] } = .error .panic m' := by
    rw [transfer, valid]
    exact transferLoop_of_first pFits down word
  refine ⟨m', ?_⟩
  simp [complete, selected, found, due, moved]

/-- Over every run of register writes and completions, a due event's completion touches only words
of RAM and does not panic, exactly when it does not overrun. -/
theorem complete_in_ram_iff {ram : Ram} {state : E} {ops : List DmaOp} {event : DueEvent}
    (run : Run (Next endpoint) (reset ram state) ops m) :
    ((∀ a ∈ (leaves ((complete endpoint event).run m)).touched, a + 4 ≤ ramSize) ∧
      ∀ m', (complete endpoint event).run m ≠ .error .panic m') ↔
      ¬ m.Overruns endpoint event := by
  have fits := pendingFits_run run
  constructor
  · rintro ⟨-, calm⟩ overruns
    obtain ⟨m', panics⟩ := complete_of_overruns fits overruns
    exact calm m' panics
  · intro safe
    have stays := stays_complete fits safe
    exact ⟨stays.inRam, stays.calm⟩

/-- An endpoint that records what it is sent and has nothing to supply. -/
def recorder : Spu2DmaEndpoint (List Word) where
  writeWord _ value sent := (.ok (), sent ++ [value])
  readWord _ sent := (.error ⟨"DMA read underflow"⟩, sent)

/-- The state after a list of steps. -/
def after (endpoint : Spu2DmaEndpoint E) (m : DmaMachine E) (ops : List DmaOp) : DmaMachine E :=
  ops.foldl (fun m op => leaves ((op.perform endpoint).run m)) m

theorem run_after (endpoint : Spu2DmaEndpoint E) (m : DmaMachine E) (ops : List DmaOp) :
    Run (Next endpoint) m ops (after endpoint m ops) :=
  Run.foldl _ m ops

/-- Zeroed RAM and the recorder, after the guest programs channel 4 to send words downwards. -/
def programmed (madr words : Word) : DmaMachine (List Word) :=
  after recorder (reset (fun _ => 0) [])
    [.writeU32 Upse.dpcr1 0x076d4321 0, .writeU32 0x1f8010c0 madr 0, .writeU32 0x1f8010c4 words 0,
      .writeU32 0x1f8010c8 0x01000003 0]

theorem complete_in_ram_iff_sample :
    let m := programmed 0x1f0 4
    (leaves ((complete recorder ⟨channel4Event, 0⟩).run m)).touched = [0x1f0, 0x1ec, 0x1e8, 0x1e4] ∧
      ((∀ a ∈ (leaves ((complete recorder ⟨channel4Event, 0⟩).run m)).touched, a + 4 ≤ ramSize) ∧
        ∀ m', (complete recorder ⟨channel4Event, 0⟩).run m ≠ .error .panic m') := by
  intro m
  have pending : m.dma.pending .core0 = some ⟨0, 0x1f0, 4, .fromRam, true⟩ := by decide +kernel
  refine ⟨by decide +kernel, (complete_in_ram_iff (run_after recorder _ _)).mpr ?_⟩
  rintro ⟨channel, p, selected, found, -, -, -, past, -⟩
  cases selected
  obtain rfl := Option.some.inj (pending.symm.trans found)
  exact absurd past (by decide)

/-- One word sent downwards from the top of the register's range is read past the end of RAM. -/
theorem complete_leaves_ram :
    let m := programmed 0x00fffffc 1
    (leaves ((complete recorder ⟨channel4Event, 0⟩).run m)).touched = [0x00fffffc] ∧
      ¬ 0x00fffffc + 4 ≤ ramSize ∧
      ∃ m', (complete recorder ⟨channel4Event, 0⟩).run m = .error .panic m' := by
  intro m
  have pending : m.dma.pending .core0 = some ⟨0, 0x00fffffc, 1, .fromRam, true⟩ := by decide +kernel
  refine ⟨by decide +kernel, by decide, complete_of_overruns ?_ ?_⟩
  · exact pendingFits_run (run_after recorder _ _)
  · exact ⟨.core0, _, rfl, pending, rfl, rfl, by decide, by decide, .inl rfl⟩

end DmaMachine

end Upse
