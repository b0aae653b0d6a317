import Upse.Hw.Ps1.DmaEvents

/-!
# Which RAM the PS1 transfers touch

A transfer is validated by its first and its last word before the first one is moved.  Both channels
move on in steps of a word in one direction, so the words between are in RAM as well.
-/

namespace Upse.Ps1

open ErrorState

/-- The address of a word of a transfer. -/
def wordAddress (base index : ℕ) (decrement : Bool) : ℕ :=
  if decrement then base - 4 * index else base + 4 * index

/-- The addresses of a transfer's words, in the order they are moved. -/
def wordAddresses (base words : ℕ) (decrement : Bool) : List ℕ :=
  (List.range words).map (wordAddress base · decrement)

/-- The address register after a transfer. -/
def nextAddress (madr : Word) (words : ℕ) (decrement : Bool) : Word :=
  (if decrement then madr - BitVec.ofNat 32 (4 * words) else madr + BitVec.ofNat 32 (4 * words)) &&&
    ramAddressMask

theorem transferWords_bounds {bcr : Word} {sync words : ℕ} (h : transferWords bcr sync = .ok words) :
    1 ≤ words ∧ words ≤ maxRamWords := by
  have positive (n : ℕ) : 1 ≤ if n = 0 then 0x10000 else n := by
    split <;> omega
  have limited {count : ℕ} (some_words : 1 ≤ count)
      (h : (if maxRamWords < count then .error (.transferTooLarge count) else .ok count :
        Except DmaError ℕ) = .ok words) : 1 ≤ words ∧ words ≤ maxRamWords := by
    split at h
    next => cases h
    next small =>
      cases h
      exact ⟨some_words, Nat.not_lt.mp small⟩
  unfold transferWords at h
  dsimp only at h
  split at h
  next => exact limited (positive _) h
  next =>
    split at h
    next product =>
      obtain ⟨-, rfl⟩ := checkedMul_eq_some.mp product
      exact limited (Nat.mul_pos (positive _) (positive _)) h
    next => cases h

theorem transferAddress_eq_ok {base index address : ℕ} {decrement : Bool} (small : index < maxRamWords) :
    transferAddress base index decrement = .ok address ↔
      (if decrement then 4 * index ≤ base else base + 4 * index < 2 ^ 32) ∧
        address = wordAddress base index decrement := by
  have bound : maxRamWords = 524288 := rfl
  have offset : checkedMul 64 index 4 = some (4 * index) :=
    checkedMul_eq_some.mpr ⟨by omega, Nat.mul_comm _ _⟩
  unfold transferAddress wordAddress
  rw [offset]
  simp only
  rw [if_pos (by omega)]
  cases decrement with
  | false =>
    simp only [Bool.false_eq_true, if_false]
    cases sum : checkedAdd 32 base (4 * index) with
    | none => exact ⟨nofun, fun h => absurd h.1 (Nat.not_lt.mpr (checkedAdd_eq_none.mp sum))⟩
    | some value =>
      obtain ⟨fits, rfl⟩ := checkedAdd_eq_some.mp sum
      exact ⟨fun h => by cases h; exact ⟨fits, rfl⟩, fun h => by rw [h.2]⟩
  | true =>
    simp only [if_true]
    by_cases fits : 4 * index ≤ base
    · rw [checkedSub_eq_some.mpr ⟨fits, rfl⟩]
      exact ⟨fun h => by cases h; exact ⟨fits, rfl⟩, fun h => by rw [h.2]⟩
    · have none : checkedSub base (4 * index) = none := if_neg fits
      rw [none]
      simp [fits]

/-- The first and the last word of a transfer are in RAM exactly where all of them are. -/
theorem validateRamRange_eq_ok {base words : ℕ} {decrement : Bool} (some_words : 1 ≤ words)
    (few : words ≤ maxRamWords) :
    validateRamRange base words decrement ramSize = .ok () ↔
      ∀ index < words, transferAddress base index decrement =
        .ok (wordAddress base index decrement) ∧ wordAddress base index decrement + 4 ≤ ramSize := by
  have size : ramSize = 2097152 := rfl
  have bound : maxRamWords = 524288 := rfl
  unfold validateRamRange
  constructor
  · intro valid index index_lt
    obtain ⟨last, found, valid⟩ := except_bind_ok.mp valid
    obtain ⟨reach, rfl⟩ := (transferAddress_eq_ok (by omega)).mp found
    split at valid
    next => cases valid
    next inside =>
      rw [transferAddress_eq_ok (by omega)]
      unfold wordAddress at inside ⊢
      cases decrement with
      | false =>
        simp only [Bool.false_eq_true, if_false] at reach inside ⊢
        exact ⟨⟨by omega, trivial⟩, by omega⟩
      | true =>
        simp only [if_true] at reach inside ⊢
        exact ⟨⟨by omega, trivial⟩, by omega⟩
  · intro all
    obtain ⟨found, last⟩ := all (words - 1) (by omega)
    obtain ⟨-, first⟩ := all 0 (by omega)
    have base_eq : wordAddress base 0 decrement = base := by cases decrement <;> rfl
    rw [base_eq] at first
    refine except_bind_ok.mpr ⟨_, found, if_neg (by omega)⟩

namespace DmaMachine

variable {D E : Type} {mdec : MdecDmaEndpoint D} {sound : SoundDmaEndpoint E} {m m' : DmaMachine D E}

theorem advanceAddress_eq {madr : Word} {words : ℕ} {decrement : Bool} (few : words ≤ maxRamWords) :
    advanceAddress madr words decrement = .ok (nextAddress madr words decrement) := by
  have bound : maxRamWords = 524288 := rfl
  have count : checkedMul 64 words 4 = some (4 * words) :=
    checkedMul_eq_some.mpr ⟨by omega, Nat.mul_comm _ _⟩
  unfold advanceAddress nextAddress
  rw [count]
  simp only
  rw [if_pos (by omega)]

theorem transferLoop_eq {move : ℕ → DmaM D E Unit} {base remaining index : ℕ} {decrement : Bool}
    (found : ∀ i, index ≤ i → i < index + remaining →
      transferAddress base i decrement = .ok (wordAddress base i decrement)) :
    transferLoop move base decrement remaining index =
      ((List.range' index remaining).map (wordAddress base · decrement)).forM move := by
  induction remaining generalizing index with
  | zero => rfl
  | succ remaining ih =>
    have first := found index (Nat.le_refl _) (by omega)
    have rest : transferLoop move base decrement remaining (index + 1) = _ :=
      ih fun i low high => found i (by omega) (by omega)
    rw [List.range'_succ, List.map_cons, transferLoop, first, rest]
    rfl

theorem transferLoop_of_valid {move : ℕ → DmaM D E Unit} {base words : ℕ} {decrement : Bool}
    (some_words : 1 ≤ words) (few : words ≤ maxRamWords)
    (valid : validateRamRange base words decrement ramSize = .ok ()) :
    transferLoop move base decrement words 0 = (wordAddresses base words decrement).forM move ∧
      ∀ address ∈ wordAddresses base words decrement, address + 4 ≤ ramSize := by
  have all := (validateRamRange_eq_ok some_words few).mp valid
  constructor
  · rw [transferLoop_eq fun i _ high => (all i (by omega)).1, ← List.range_eq_range']
    rfl
  · intro address mem
    obtain ⟨i, index_lt, rfl⟩ := List.mem_map.mp mem
    exact (all i (List.mem_range.mp index_lt)).2

/-! ### Pending transfers -/

/-- A pending transfer has words, and no more than RAM has. -/
def PendingFits (m : DmaMachine D E) : Prop :=
  ∀ p, m.dma.pending = some p → 1 ≤ p.words ∧ p.words ≤ maxRamWords

theorem keeps_of_pending (same : m'.dma.pending = m.dma.pending) : Keeps PendingFits m m' := by
  intro fits p found
  rw [same] at found
  exact fits p found

theorem keeps_reschedule (now : Deadline) : Leads (Keeps PendingFits) m (reschedule now) := by
  unfold reschedule
  refine leads_modify_bind (R := Keeps PendingFits) (fun _ p (none : none = some p) => nomatch none) ?_
  refine leads_get_bind (Leads.ite (fun _ => leads_pure _) fun enabled => ?_)
  refine leads_ofExcept_bind fun active mode => Leads.ite (fun _ => leads_pure _) fun works => ?_
  refine leads_ofExcept_bind fun words asked => leads_okOr_bind fun cycles product => ?_
  refine leads_ofExcept_bind fun deadline sum => leads_ofExcept_bind fun scheduler scheduled => ?_
  refine leads_modify fun _ p new => ?_
  cases new
  exact transferWords_bounds (except_mapError_ok.mp asked)

theorem keeps_write (address : ℕ) (value : Word) (now : Deadline) :
    Leads (Keeps PendingFits) m (write address value now) := by
  unfold write
  split
  next channel register selected =>
    refine .either ?_ ?_
    · match register with
      | 0 => exact leads_modify (keeps_of_pending rfl)
      | 1 => exact leads_modify (keeps_of_pending rfl)
      | 2 =>
        refine leads_modify_bind (R := Keeps PendingFits) (keeps_of_pending rfl) ?_
        exact keeps_reschedule now
    · refine .either ?_ ?_
      · exact leads_modify (keeps_of_pending rfl)
      · exact leads_modify (keeps_of_pending rfl)
  next =>
    refine .either ?_ (.either ?_ ?_)
    · exact leads_modify_bind (R := Keeps PendingFits) (keeps_of_pending rfl) (keeps_reschedule now)
    · exact leads_modify (keeps_of_pending rfl)
    · exact leads_throw _

theorem keeps_complete (event : DueEvent) : Leads (Keeps PendingFits) m (complete sound event) := by
  unfold complete
  refine leads_get_bind (leads_okOr_bind fun p _ => leads_throwIf_bind fun _ => ?_)
  refine leads_modify_bind (R := Keeps PendingFits) (fun _ p (none : none = some p) => nomatch none) ?_
  have quiet (before : DmaController) (m : DmaMachine D E) :
      Leads (Keeps PendingFits) m (moved sound before p.words) :=
    (quiet_moved before p.words).mono fun _ _ quiet => keeps_of_pending quiet.2
  exact quiet _ _

theorem keeps_perform (op : DmaOp) : Leads (Keeps PendingFits) m (op.perform mdec sound) := by
  cases op with
  | write address value now => exact keeps_write address value now
  | serviceMdecIn =>
    exact Leads.map (quiet_serviceMdecIn.mono fun _ _ quiet => keeps_of_pending quiet.2) _
  | popDue now =>
    show Leads _ m (popDue sound now)
    unfold popDue
    refine leads_get_bind ?_
    cases m.scheduler.popDue now with
    | mk event scheduler =>
      refine leads_ok_bind (R := Keeps PendingFits) rfl (keeps_of_pending rfl) ?_
      cases event with
      | none => exact leads_pure _
      | some event => exact keeps_complete event
  | schedule id deadline =>
    exact leads_get_bind (leads_ofExcept_bind fun _ _ => leads_set (keeps_of_pending rfl))
  | cancel id => exact leads_modify (keeps_of_pending rfl)

/-! ### What a transfer moves -/

/-- A transfer stops before its first word and leaves memory and the devices as they were, or it runs
`move` over the words asked for, all of them inside RAM, one after the other, and then steps on its
address register. -/
inductive Transfers {α : Type} (m : DmaMachine D E) (move : ℕ → DmaM D E Unit) (madr : Word)
    (asked : Option ℕ) (decrement : Bool) (register : DmaMachine D E → Word) (x : DmaM D E α) : Prop
  | refused (e : DmaError) (t : DmaMachine D E) (run : x.run m = .error (.error e) t)
      (memory : t.memory = m.memory) (mdec : t.mdec = m.mdec) (sound : t.sound = m.sound)
  | moved (start : DmaMachine D E) (words : ℕ) (some_asked : asked = some words)
      (few : words ≤ maxRamWords) (memory : start.memory = m.memory) (mdec : start.mdec = m.mdec)
      (sound : start.sound = m.sound)
      (inside : ∀ address ∈ wordAddresses madr.toNat words decrement, address + 4 ≤ ramSize)
      (failed : ∀ e t, ((wordAddresses madr.toNat words decrement).forM move).run start = .error e t →
        x.run m = .error e t ∧ e ≠ .panic)
      (returned : ∀ t, ((wordAddresses madr.toNat words decrement).forM move).run start = .ok () t →
        ∃ a t', x.run m = .ok a t' ∧ register t' = nextAddress madr words decrement ∧
          t'.memory = t.memory ∧ t'.mdec = t.mdec ∧ t'.sound = t.sound)

theorem never_forM {fault : DmaFault} {move : ℕ → DmaM D E Unit} {addresses : List ℕ}
    (word : ∀ address ∈ addresses, Never fault (move address)) : Never fault (addresses.forM move) := by
  induction addresses with
  | nil => exact never_pure _
  | cons address addresses ih =>
    refine Never.bind (word address List.mem_cons_self) fun _ => ?_
    exact ih fun other mem => word other (List.mem_cons_of_mem _ mem)

theorem transfers {α : Type} {start : DmaMachine D E} {move : ℕ → DmaM D E Unit} {madr : Word}
    {words : ℕ} {decrement : Bool} {register : DmaMachine D E → Word} {x : DmaM D E α}
    {asked : Option ℕ} {finish : Word → DmaM D E α} (some_words : 1 ≤ words)
    (few : words ≤ maxRamWords) (some_asked : asked = some words)
    (memory : start.memory = m.memory) (mdec : start.mdec = m.mdec) (sound : start.sound = m.sound)
    (run : x.run m = (do
      ErrorState.ofExcept ((validateRamRange madr.toNat words decrement ramSize).mapError .error)
      transferLoop move madr.toNat decrement words 0
      let next ← ErrorState.ofExcept ((advanceAddress madr words decrement).mapError .error)
      finish next : DmaM D E α).run start)
    (word : ∀ address, address + 4 ≤ ramSize → Never .panic (move address))
    (finishes : ∀ next t, ∃ a t', (finish next).run t = .ok a t' ∧ register t' = next ∧
      t'.memory = t.memory ∧ t'.mdec = t.mdec ∧ t'.sound = t.sound) :
    Transfers m move madr asked decrement register x := by
  cases valid : validateRamRange madr.toNat words decrement ramSize with
  | error e =>
    rw [valid] at run
    exact .refused e start run memory mdec sound
  | ok _ =>
    obtain ⟨loop, inside⟩ := @transferLoop_of_valid _ _ move _ _ _ some_words few valid
    rw [valid, loop, advanceAddress_eq few] at run
    change x.run m = ((wordAddresses madr.toNat words decrement).forM move >>= fun _ =>
      finish (nextAddress madr words decrement)).run start at run
    refine .moved start words some_asked few memory mdec sound inside (fun e t failed => ⟨?_, ?_⟩)
      fun t moved => ?_
    · rw [run, run_bind, failed]
    · rintro rfl
      exact never_forM (fun address mem => word address (inside address mem)) _ _ failed
    · obtain ⟨a, t', finished, rest⟩ := finishes (nextAddress madr words decrement) t
      exact ⟨a, t', by rw [run, run_bind_of_ok moved, finished], rest⟩

theorem transfers_complete (fits : m.PendingFits) (sound : SoundDmaEndpoint E) (event : DueEvent) :
    Transfers m (soundWord sound (m.dma.chcr &&& chcrDirectionFromRam != 0)) m.dma.madr
      (m.dma.pending.map (·.words)) (m.dma.chcr &&& chcrDecrement != 0) (·.dma.madr)
      (complete sound event) := by
  cases found : m.dma.pending with
  | none =>
    refine .refused .staleEvent m ?_ rfl rfl rfl
    unfold complete
    rw [run_get_bind, found]
    rfl
  | some p =>
    by_cases own : event.id ≠ channel4Event ∨ event.deadline ≠ p.deadline
    · refine .refused .staleEvent m ?_ rfl rfl rfl
      unfold complete
      rw [run_get_bind, run_okOr_bind found, throwIf, if_pos own]
      rfl
    · obtain ⟨id, deadline⟩ := event
      obtain ⟨rfl, rfl⟩ : id = channel4Event ∧ deadline = p.deadline := by simpa using own
      obtain ⟨some_words, few⟩ := fits p found
      have run := @run_complete_of_pending D E sound m p found
      unfold moved at run
      dsimp only at run
      refine transfers some_words few rfl ?_ ?_ ?_ run (fun address inside => ?_)
        fun next t => ?_
      · rfl
      · rfl
      · rfl
      · exact never_soundWord _ (fun outside => absurd inside (Nat.not_le.mpr outside))
          fun _ => by simp
      · exact ⟨(), _, rfl, rfl, rfl, rfl, rfl⟩

theorem run_serviceMdecIn (m : DmaMachine D E) (mdec : MdecDmaEndpoint D) :
    (serviceMdecIn mdec).run m = .ok false m ∨
      (∃ e, (serviceMdecIn mdec).run m = .error (.error e) m) ∨
      ∃ words, transferWords (m.dma.registerOnlyChannels 0 1)
          (syncMode (m.dma.registerOnlyChannels 0 2)) = .ok words ∧ (serviceMdecIn mdec).run m = (do
        let madr := m.dma.registerOnlyChannels 0 0
        let chcr := m.dma.registerOnlyChannels 0 2
        let decrement := chcr &&& chcrDecrement != 0
        ErrorState.ofExcept ((validateRamRange madr.toNat words decrement ramSize).mapError .error)
        transferLoop (fun offset => do mdecWrite mdec (← readRamWord offset)) madr.toNat decrement words
          0
        let next ← ErrorState.ofExcept ((advanceAddress madr words decrement).mapError .error)
        modifyDma fun dma =>
          (dma.setRegister 0 0 next).setRegister 0 2 (chcr &&& ~~~(chcrStart ||| chcrTrigger))
        finishChannel0
        return true : DmaM D E Bool).run m := by
  unfold serviceMdecIn
  rw [run_get_bind]
  dsimp only
  by_cases idle : m.dma.dpcr &&& channel0Enable = 0 ∨
      m.dma.registerOnlyChannels 0 2 &&& chcrStart = 0
  · exact .inl (by rw [if_pos idle]; rfl)
  rw [if_neg idle]
  by_cases output : m.dma.registerOnlyChannels 0 2 &&& chcrDirectionFromRam = 0
  · exact .inr (.inl ⟨_, by rw [throwIf, if_pos output]; rfl⟩)
  rw [run_throwIf_bind output]
  cases mode : activeMode (syncMode (m.dma.registerOnlyChannels 0 2)) (m.dma.registerOnlyChannels 0 2)
      .unsupportedMdecSync with
  | error e => exact .inr (.inl ⟨e, rfl⟩)
  | ok active =>
    rw [run_ofExcept_bind (except_mapError_ok.mpr rfl)]
    cases active with
    | false => exact .inl rfl
    | true =>
      cases asked : transferWords (m.dma.registerOnlyChannels 0 1)
          (syncMode (m.dma.registerOnlyChannels 0 2)) with
      | error e => exact .inr (.inl ⟨e, rfl⟩)
      | ok words => exact .inr (.inr ⟨words, rfl, rfl⟩)

theorem transfers_serviceMdecIn (m : DmaMachine D E) (mdec : MdecDmaEndpoint D) :
    (serviceMdecIn mdec).run m = .ok false m ∨
      Transfers m (fun offset => do mdecWrite mdec (← readRamWord offset))
        (m.dma.registerOnlyChannels 0 0)
        (transferWords (m.dma.registerOnlyChannels 0 1)
          (syncMode (m.dma.registerOnlyChannels 0 2))).toOption
        (m.dma.registerOnlyChannels 0 2 &&& chcrDecrement != 0) (·.dma.registerOnlyChannels 0 0)
        (serviceMdecIn mdec) := by
  rcases run_serviceMdecIn m mdec with idle | ⟨e, refused⟩ | ⟨words, asked, run⟩
  · exact .inl idle
  · exact .inr (.refused e m refused rfl rfl rfl)
  · obtain ⟨some_words, few⟩ := transferWords_bounds asked
    have asked := congrArg Except.toOption asked
    refine .inr (transfers some_words few asked rfl rfl rfl run (fun address inside => ?_)
      fun next t => ?_)
    · refine (never_readRamWord fun outside => absurd inside (Nat.not_le.mpr outside)).bind fun value => ?_
      exact never_get_bind fun m => (never_modify fun _ => _).bind fun _ =>
        never_ofExcept fun _ _ => nofun
    · exact ⟨true, _, rfl, rfl, rfl, rfl, rfl⟩

theorem pendingFits_run {memory : Memory} {mdecState : D} {soundState : E} {ops : List DmaOp}
    (run : Run (Next mdec sound) (reset memory mdecState soundState) ops m) : m.PendingFits := by
  refine run.invariant (I := PendingFits) (fun p (none : none = some p) => nomatch none) ?_
  rintro before op after fits rfl
  exact keeps_perform op fits

/-- In every state reached, whatever was written to the registers and whenever, the completion of
the sound transfer and the service of MDEC input refuse before the first word, or move only words
inside RAM and step on the address register by what they moved; the first and the last word are in
RAM exactly where all of them are. -/
theorem transfers_in_ram {memory : Memory} {mdecState : D} {soundState : E} {ops : List DmaOp}
    (run : Run (Next mdec sound) (reset memory mdecState soundState) ops m) :
    (∀ event, Transfers m (soundWord sound (m.dma.chcr &&& chcrDirectionFromRam != 0)) m.dma.madr
      (m.dma.pending.map (·.words)) (m.dma.chcr &&& chcrDecrement != 0) (·.dma.madr)
      (complete sound event)) ∧
    ((serviceMdecIn mdec).run m = .ok false m ∨
      Transfers m (fun offset => do mdecWrite mdec (← readRamWord offset))
        (m.dma.registerOnlyChannels 0 0)
        (transferWords (m.dma.registerOnlyChannels 0 1)
          (syncMode (m.dma.registerOnlyChannels 0 2))).toOption
        (m.dma.registerOnlyChannels 0 2 &&& chcrDecrement != 0) (·.dma.registerOnlyChannels 0 0)
        (serviceMdecIn mdec)) ∧
    ∀ base words decrement, 1 ≤ words → words ≤ maxRamWords →
      (validateRamRange base words decrement ramSize = .ok () ↔
        ∀ index < words, transferAddress base index decrement =
          .ok (wordAddress base index decrement) ∧
          wordAddress base index decrement + 4 ≤ ramSize) :=
  ⟨transfers_complete (pendingFits_run run) sound, transfers_serviceMdecIn m mdec,
    fun _ _ _ => validateRamRange_eq_ok⟩

/-- The guest moves the address of a pending transfer of two words to the last word of RAM: its
completion is refused, and no word reaches the device. -/
theorem transfers_in_ram_sample :
    let m := recorded (started ++ [.write d4Madr 0x1ffffc 4])
    Transfers m (soundWord recorder (m.dma.chcr &&& chcrDirectionFromRam != 0)) m.dma.madr
        (m.dma.pending.map (·.words)) (m.dma.chcr &&& chcrDecrement != 0) (·.dma.madr)
        (complete recorder ⟨channel4Event, 8⟩) ∧
      m.dma.completionDeadline = some 8 ∧
      (leaves ((complete recorder ⟨channel4Event, 8⟩).run m)).sound = [] := by
  intro m
  have run : Run (Next idleMdec recorder) (reset (.new .strict) () [])
      (started ++ [.write d4Madr 0x1ffffc 4]) m := Run.foldl _ _ _
  exact ⟨(transfers_in_ram run).1 _, by decide +kernel, by decide +kernel⟩

end DmaMachine

end Upse.Ps1
