import Upse.Hw.Ps2.DmaRange

/-!
# When the DMA interrupt is requested

The two interrupt-control banks share one master condition.  Every operation is a change of the banks
between steps that leave them alone, so the interrupt is requested once for each operation that raises
the condition, and the master bit of both registers reads it back.
-/

namespace Upse

open ErrorState

/-! ### The banks bit by bit -/

theorem getLsbD_enabledFlags (control flags : Word) (channels i : ℕ) :
    (enabledFlags control flags channels).getLsbD i = (decide (i < 32) && decide (i < channels) &&
      control.getLsbD (16 + i) && flags.getLsbD (24 + i)) := by
  have mask : ((1 <<< channels - 1 : ℕ) : Word).getLsbD i =
      (decide (i < 32) && decide (i < channels)) := by
    rw [Nat.one_shiftLeft, BitVec.natCast_eq_ofNat, BitVec.getLsbD_ofNat,
      Nat.testBit_two_pow_sub_one]
  unfold enabledFlags
  simp only [BitVec.getLsbD_and, BitVec.getLsbD_ushiftRight, mask]
  cases decide (i < 32) <;> cases decide (i < channels) <;> simp

theorem enabledFlags_ne_zero (control flags : Word) {channels : ℕ} (small : channels ≤ 32) :
    (enabledFlags control flags channels != 0) = true ↔
      ∃ c < channels, control.getLsbD (16 + c) = true ∧ flags.getLsbD (24 + c) = true := by
  rw [bne_iff_ne]
  constructor
  · intro ne
    by_contra none
    refine ne (BitVec.eq_of_getLsbD_eq fun i bound => ?_)
    rw [getLsbD_enabledFlags, show (0 : Word) = 0#32 from rfl, BitVec.getLsbD_zero]
    refine Bool.eq_false_iff.mpr fun bit => none ?_
    simp only [Bool.and_eq_true, decide_eq_true_eq] at bit
    exact ⟨i, bit.1.1.2, bit.1.2, bit.2⟩
  · rintro ⟨c, lt, mask, flag⟩ zero
    have bit := getLsbD_enabledFlags control flags channels c
    rw [zero, mask, flag, decide_eq_true (show c < 32 by omega), decide_eq_true lt] at bit
    simp at bit

theorem and_bit_ne_zero (w : Word) {i : ℕ} (bound : i < 32) :
    (w &&& ((1 <<< i : ℕ) : Word) != 0) = w.getLsbD i := by
  have power : BitVec.twoPow 32 i ≠ 0 := by
    intro zero
    have bit := congrArg (·.getLsbD i) zero
    simp [bound] at bit
  have shifted : ((1 <<< i : ℕ) : Word) = BitVec.twoPow 32 i := by
    apply BitVec.eq_of_toNat_eq
    simp [Nat.one_shiftLeft]
  rw [shifted, BitVec.and_twoPow]
  cases w.getLsbD i with
  | true => simpa using power
  | false => rfl

theorem getLsbD_masked (old value mask full : Word) {i : ℕ}
    (outside : mask.getLsbD i = false ∨ full.getLsbD i = false) :
    (old &&& ~~~(mask &&& full) ||| value &&& (mask &&& full) &&& full).getLsbD i = old.getLsbD i := by
  have unmasked : (mask &&& full).getLsbD i = false := by
    rw [BitVec.getLsbD_and, Bool.and_eq_false_iff]
    exact outside
  generalize mask &&& full = taken at unmasked ⊢
  by_cases bound : i < 32
  · simp only [BitVec.getLsbD_or, BitVec.getLsbD_and, BitVec.getLsbD_not, unmasked, bound,
      decide_true, Bool.not_false, Bool.and_true, Bool.and_false, Bool.false_and, Bool.or_false]
  · rw [BitVec.getLsbD_of_ge _ _ (not_lt.mp bound), BitVec.getLsbD_of_ge _ _ (not_lt.mp bound)]

theorem getLsbD_acknowledged (flags value mask full : Word) (i : ℕ) :
    (flags &&& ~~~(value &&& mask &&& full)).getLsbD i =
      (flags.getLsbD i && !(value.getLsbD i && mask.getLsbD i && full.getLsbD i)) := by
  by_cases bound : i < 32
  · simp [bound]
  · rw [BitVec.getLsbD_of_ge _ _ (not_lt.mp bound), BitVec.getLsbD_of_ge flags _ (not_lt.mp bound)]
    rfl

variable {flags value mask full : Word}

theorem flag_of_acknowledged {i : ℕ}
    (after : (flags &&& ~~~(value &&& mask &&& full)).getLsbD i = true) :
    flags.getLsbD i = true := by
  rw [getLsbD_acknowledged, Bool.and_eq_true] at after
  exact after.1

theorem written_of_acknowledged {i : ℕ}
    (before : flags.getLsbD i = true)
    (after : (flags &&& ~~~(value &&& mask &&& full)).getLsbD i = false) :
    value.getLsbD i = true ∧ mask.getLsbD i = true := by
  rw [getLsbD_acknowledged, before] at after
  simp only [Bool.true_and, Bool.not_eq_false', Bool.and_eq_true] at after
  exact after.1

theorem acknowledged_of_uncovered {i : ℕ}
    (uncovered : mask.getLsbD i = false) :
    (flags &&& ~~~(value &&& mask &&& full)).getLsbD i = flags.getLsbD i := by
  rw [getLsbD_acknowledged, uncovered, Bool.and_false, Bool.false_and, Bool.not_false, Bool.and_true]

theorem getLsbD_bit {n i : ℕ} (h : ((1 <<< n : ℕ) : Word).getLsbD i = true) : i = n := by
  rw [Nat.one_shiftLeft, BitVec.natCast_eq_ofNat, BitVec.getLsbD_ofNat, Nat.testBit_two_pow,
    Bool.and_eq_true] at h
  exact (of_decide_eq_true h.2).symm

namespace DmaController

/-- The aggregate condition: the force bit, or the master enable with an enabled and flagged channel
in either bank. -/
def Asserted (dma : DmaController) : Prop :=
  dma.dicr1Control.getLsbD 15 = true ∨ dma.dicr1Control.getLsbD 23 = true ∧
    ((∃ c < 7, dma.dicr1Control.getLsbD (16 + c) = true ∧ dma.dicr1Flags.getLsbD (24 + c) = true) ∨
      ∃ c < 6, dma.dicr2Control.getLsbD (16 + c) = true ∧ dma.dicr2Flags.getLsbD (24 + c) = true)

theorem masterIrq_iff (dma : DmaController) : dma.masterIrq = true ↔ dma.Asserted := by
  unfold masterIrq Asserted dicrForce dicrMasterEnable
  rw [Bool.or_eq_true, Bool.and_eq_true, Bool.or_eq_true, enabledFlags_ne_zero _ _ (by decide),
    enabledFlags_ne_zero _ _ (by decide), and_bit_ne_zero _ (by decide),
    and_bit_ne_zero _ (by decide)]

/-- Nothing is stored where the master condition is read back. -/
structure MasterClear (dma : DmaController) : Prop where
  control1 : dma.dicr1Control.getLsbD 31 = false
  flags1 : dma.dicr1Flags.getLsbD 31 = false
  control2 : dma.dicr2Control.getLsbD 31 = false
  flags2 : dma.dicr2Flags.getLsbD 31 = false

theorem clear_new : new.MasterClear :=
  ⟨by decide, by decide, by decide, by decide⟩

theorem getLsbD_masterFlag (asserted : Bool) :
    (if asserted then dicrMasterFlag else 0).getLsbD 31 = asserted := by
  cases asserted <;> decide

theorem MasterClear.readback {dma : DmaController} (clear : dma.MasterClear) :
    dma.dicr1.getLsbD 31 = dma.masterIrq ∧ dma.dicr2.getLsbD 31 = dma.masterIrq := by
  unfold dicr1 dicr2
  simp only [BitVec.getLsbD_or, clear.control1, clear.flags1, clear.control2, clear.flags2,
    getLsbD_masterFlag, Bool.false_or, and_self]

end DmaController

namespace DmaMachine

variable {E : Type} {m m' t : DmaMachine E}

/-! ### Steps that leave the banks alone -/

/-- The interrupt state: both banks, and the requests made. -/
def banks (m : DmaMachine E) : Word × Word × Word × Word × List InterruptSource :=
  (m.dma.dicr1Control, m.dma.dicr1Flags, m.dma.dicr2Control, m.dma.dicr2Flags, m.requests)

/-- The steps that leave the interrupt state alone. -/
def Quiet (m m' : DmaMachine E) : Prop := m'.banks = m.banks

instance : Std.Refl (Quiet (E := E)) := ⟨fun _ => rfl⟩

instance : IsTrans (DmaMachine E) Quiet := ⟨fun _ _ _ first second => Eq.trans second first⟩

theorem quiet_scheduleIfReady (channel : SoundDmaChannel) (now : Deadline) :
    Leads Quiet m (scheduleIfReady channel now) := by
  unfold scheduleIfReady
  refine leads_get_bind (.either (leads_pure _) ?_)
  refine .either (leads_pure _) ?_
  refine leads_okOr_bind fun words _ => leads_throwIf_bind fun _ => ?_
  exact leads_ofExcept_bind fun deadline _ => leads_ofExcept_bind fun scheduler _ => leads_modify rfl

theorem quiet_scheduleAll (now : Deadline) : Leads Quiet m (scheduleAll now) :=
  (quiet_scheduleIfReady .core0 now).bind fun _ _ _ => quiet_scheduleIfReady .core1 now

theorem quiet_writeU32 {address : ℕ} (ne1 : address ≠ Upse.dicr1) (ne2 : address ≠ Upse.dicr2)
    (value : Word) (now : Deadline) : Leads Quiet m (writeU32 address value now) := by
  unfold writeU32
  split
  next channel register half _ =>
    refine leads_throwIf_bind fun _ => leads_modify_bind (R := Quiet) rfl ?_
    cases soundChannel channel with
    | some sound =>
      refine .either (leads_modify_bind (R := Quiet) rfl ?_) ?_
      · exact quiet_scheduleIfReady sound now
      · exact quiet_scheduleIfReady sound now
    | none => exact .either (leads_modify rfl) (leads_pure _)
  next =>
    refine .either (leads_modify_bind (R := Quiet) rfl (quiet_scheduleAll now)) ?_
    rw [if_neg ne1]
    refine .either (leads_modify rfl) ?_
    refine .either (leads_modify rfl) ?_
    refine .either (leads_modify rfl) ?_
    refine .either (leads_modify_bind (R := Quiet) rfl (quiet_scheduleAll now)) ?_
    rw [if_neg ne2]
    exact .either (leads_modify rfl) (leads_throw _)

theorem quiet_transfer (endpoint : Spu2DmaEndpoint E) (channel : SoundDmaChannel)
    (p : PendingTransfer) : Leads Quiet m (transfer endpoint channel p) :=
  (moves_transfer endpoint channel p).mono fun _ _ ⟨_, _, _, same⟩ => by rw [same]; rfl

/-! ### What each operation does to the banks -/

theorem writeU32_dicr1 (value : Word) (now : Deadline) :
    (writeU32 Upse.dicr1 value now).run m = (writeDicr1 value 0xffffffff).run m := rfl

theorem writeU32_dicr2 (value : Word) (now : Deadline) :
    (writeU32 Upse.dicr2 value now).run m = (writeDicr2 value 0xffffffff).run m := rfl

end DmaMachine

/-- The register an operation writes, with the value and the mask of the bits it covers. -/
def DmaOp.write : DmaOp → Option (ℕ × Word × Word)
  | .writeU32 address value _ => some (address, value, 0xffffffff)
  | .writeU16 address value _ =>
    some (address - address % 4,
      if address % 4 < 2 then value.setWidth 32 else value.setWidth 32 <<< 16,
      if address % 4 < 2 then 0x0000ffff else 0xffff0000)
  | .complete _ => none

namespace DmaMachine

variable {E : Type} {m m' t : DmaMachine E}

/-- The program finishes the channel after steps that leave the banks alone, or leaves them alone. -/
def Finishes (channel : SoundDmaChannel) (m : DmaMachine E)
    (x : EStateM DmaFault (DmaMachine E) Unit) : Prop :=
  (∃ t, Quiet m t ∧ x.run m = (finishChannel channel).run t) ∨ Leads Quiet m x

variable {channel : SoundDmaChannel}

theorem finishes_bind {α : Type} {x : EStateM DmaFault (DmaMachine E) α}
    {f : α → EStateM DmaFault (DmaMachine E) Unit} (quiet : Leads Quiet m x)
    (rest : ∀ a t, x.run m = .ok a t → Finishes channel t (f a)) : Finishes channel m (x >>= f) := by
  cases run : x.run m with
  | error e t =>
    refine .inr (quiet.bind fun a t' ok => ?_)
    rw [run] at ok
    cases ok
  | ok a t =>
    have first : Quiet m t := quiet.of_ok run
    rcases rest a t run with ⟨u, second, finished⟩ | second
    · exact .inl ⟨u, Eq.trans second first, (run_bind_of_ok run).trans finished⟩
    · refine .inr (quiet.bind fun a' t' ok => ?_)
      rw [run] at ok
      cases ok
      exact second

theorem finishes_complete {endpoint : Spu2DmaEndpoint E} {event : DueEvent}
    (owner : eventChannel event.id = some channel) :
    Finishes channel m (complete endpoint event) := by
  unfold complete
  refine finishes_bind (leads_modify rfl) fun _ m _ => ?_
  rw [owner]
  refine finishes_bind (leads_pure _) fun selected _ run => ?_
  cases run
  refine finishes_bind leads_get fun _ m _ => finishes_bind (leads_okOr _ _) fun pending m _ => ?_
  refine finishes_bind (.either (leads_throw _) (leads_pure _)) fun _ m _ => ?_
  refine finishes_bind (quiet_transfer endpoint channel pending) fun _ m _ => ?_
  refine finishes_bind (leads_modify rfl) fun _ m _ => ?_
  refine finishes_bind (.either (leads_throw _) (leads_pure _)) fun _ m _ => ?_
  refine finishes_bind (leads_modify rfl) fun _ m _ => finishes_bind (leads_modify rfl) fun _ m _ => ?_
  exact .inl ⟨m, rfl, rfl⟩

/-- What an operation does to the banks: it writes one of them, finishes a channel, or leaves them
alone. -/
theorem perform_cases (endpoint : Spu2DmaEndpoint E) (m : DmaMachine E) (op : DmaOp) :
    (∃ value mask, op.write = some (Upse.dicr1, value, mask) ∧
      (op.perform endpoint).run m = (writeDicr1 value mask).run m) ∨
    (∃ value mask, op.write = some (Upse.dicr2, value, mask) ∧
      (op.perform endpoint).run m = (writeDicr2 value mask).run m) ∨
    (∃ event channel t, op = .complete event ∧ eventChannel event.id = some channel ∧ Quiet m t ∧
      (op.perform endpoint).run m = (finishChannel channel).run t) ∨
    Leads Quiet m (op.perform endpoint) := by
  cases op with
  | writeU32 address value now =>
    by_cases eq1 : address = Upse.dicr1
    · subst eq1
      exact .inl ⟨value, _, rfl, writeU32_dicr1 value now⟩
    by_cases eq2 : address = Upse.dicr2
    · subst eq2
      exact .inr (.inl ⟨value, _, rfl, writeU32_dicr2 value now⟩)
    exact .inr (.inr (.inr (quiet_writeU32 eq1 eq2 value now)))
  | writeU16 address value now =>
    obtain ⟨shifted, mask, write, run⟩ : ∃ shifted mask,
        (DmaOp.writeU16 address value now).write = some (address - address % 4, shifted, mask) ∧
        (writeU16 address value now).run m =
          (if address - address % 4 = Upse.dicr1 then writeDicr1 shifted mask
          else if address - address % 4 = Upse.dicr2 then writeDicr2 shifted mask
          else do
            let m ← get
            let old ← ErrorState.ofExcept ((m.dma.readU32 (address - address % 4)).mapError .error)
            writeU32 (address - address % 4) (old &&& ~~~mask ||| shifted) now).run m :=
      ⟨_, _, rfl, rfl⟩
    by_cases eq1 : address - address % 4 = Upse.dicr1
    · rw [if_pos eq1] at run
      exact .inl ⟨shifted, mask, by rw [write, eq1], run⟩
    rw [if_neg eq1] at run
    by_cases eq2 : address - address % 4 = Upse.dicr2
    · rw [if_pos eq2] at run
      exact .inr (.inl ⟨shifted, mask, by rw [write, eq2], run⟩)
    rw [if_neg eq2] at run
    refine .inr (.inr (.inr ?_))
    show Quiet m (leaves ((writeU16 address value now).run m))
    rw [run]
    exact leads_ofExcept_bind (R := Quiet) (s := m) fun old _ => quiet_writeU32 eq1 eq2 _ now
  | complete event =>
    cases owner : eventChannel event.id with
    | some channel =>
      have finishes : Finishes channel m (complete endpoint event) := finishes_complete owner
      rcases finishes with ⟨t, quiet, run⟩ | quiet
      · exact .inr (.inr (.inl ⟨event, channel, t, rfl, owner, quiet, run⟩))
      · exact .inr (.inr (.inr quiet))
    | none =>
      refine .inr (.inr (.inr ?_))
      show Leads Quiet m (complete endpoint event)
      unfold complete
      rw [owner]
      exact leads_modify_bind (R := Quiet) rfl (leads_throw _)

/-! ### The law of one operation -/

/-- What one operation may do to the banks and the interrupt line. -/
structure InterruptLaw (endpoint : Spu2DmaEndpoint E) (m : DmaMachine E) (op : DmaOp)
    (m' : DmaMachine E) : Prop where
  /-- The interrupt is requested, once, exactly when the condition rises. -/
  raised : ¬ m.dma.Asserted ∧ m'.dma.Asserted → m'.requests = m.requests ++ [.dma]
  calm : ¬ (¬ m.dma.Asserted ∧ m'.dma.Asserted) → m'.requests = m.requests
  /-- A flag is set by the completion of its channel, and by nothing else. -/
  set1 : ∀ i, m.dma.dicr1Flags.getLsbD i = false → m'.dma.dicr1Flags.getLsbD i = true →
    i = 24 + SoundDmaChannel.core0.channel ∧ ∃ event, op = .complete event ∧
      eventChannel event.id = some .core0 ∧ (complete endpoint event).run m = .ok () m'
  set2 : ∀ i, m.dma.dicr2Flags.getLsbD i = false → m'.dma.dicr2Flags.getLsbD i = true →
    i = 24 + (SoundDmaChannel.core1.channel - 7) ∧ ∃ event, op = .complete event ∧
      eventChannel event.id = some .core1 ∧ (complete endpoint event).run m = .ok () m'
  /-- A flag is cleared by a write of one to it, and by nothing else. -/
  cleared1 : ∀ i, m.dma.dicr1Flags.getLsbD i = true → m'.dma.dicr1Flags.getLsbD i = false →
    ∃ value mask, op.write = some (Upse.dicr1, value, mask) ∧ value.getLsbD i = true ∧
      mask.getLsbD i = true
  cleared2 : ∀ i, m.dma.dicr2Flags.getLsbD i = true → m'.dma.dicr2Flags.getLsbD i = false →
    ∃ value mask, op.write = some (Upse.dicr2, value, mask) ∧ value.getLsbD i = true ∧
      mask.getLsbD i = true
  /-- A write reaches only the bits it covers of the register it names. -/
  kept1 : ∀ register value mask i, op.write = some (register, value, mask) →
    register ≠ Upse.dicr1 ∨ mask.getLsbD i = false →
    m'.dma.dicr1Control.getLsbD i = m.dma.dicr1Control.getLsbD i ∧
      m'.dma.dicr1Flags.getLsbD i = m.dma.dicr1Flags.getLsbD i
  kept2 : ∀ register value mask i, op.write = some (register, value, mask) →
    register ≠ Upse.dicr2 ∨ mask.getLsbD i = false →
    m'.dma.dicr2Control.getLsbD i = m.dma.dicr2Control.getLsbD i ∧
      m'.dma.dicr2Flags.getLsbD i = m.dma.dicr2Flags.getLsbD i

theorem quiet_iff : Quiet m m' ↔ m'.dma.dicr1Control = m.dma.dicr1Control ∧
    m'.dma.dicr1Flags = m.dma.dicr1Flags ∧ m'.dma.dicr2Control = m.dma.dicr2Control ∧
    m'.dma.dicr2Flags = m.dma.dicr2Flags ∧ m'.requests = m.requests := by
  simp only [Quiet, banks, Prod.mk.injEq]

theorem Quiet.masterIrq (quiet : Quiet m m') : m'.dma.masterIrq = m.dma.masterIrq := by
  obtain ⟨control1, flags1, control2, flags2, -⟩ := quiet_iff.mp quiet
  unfold DmaController.masterIrq
  rw [control1, flags1, control2, flags2]

/-- The interrupt is requested when the condition rises. -/
def Edge (m m' : DmaMachine E) : Prop :=
  m'.requests = if !m.dma.masterIrq && m'.dma.masterIrq then m.requests ++ [.dma] else m.requests

theorem Quiet.edge (quiet : Quiet m m') : Edge m m' := by
  unfold Edge
  rw [quiet.masterIrq, Bool.not_and_self]
  exact (quiet_iff.mp quiet).2.2.2.2

theorem Quiet.then_edge (quiet : Quiet m t) (edge : Edge t m') : Edge m m' := by
  unfold Edge at edge ⊢
  rw [edge, quiet.masterIrq, (quiet_iff.mp quiet).2.2.2.2]

theorem Edge.raised (edge : Edge m m') (rises : ¬ m.dma.Asserted ∧ m'.dma.Asserted) :
    m'.requests = m.requests ++ [.dma] := by
  rw [← DmaController.masterIrq_iff, ← DmaController.masterIrq_iff, Bool.not_eq_true] at rises
  rw [edge, rises.1, rises.2]
  rfl

theorem Edge.calm (edge : Edge m m') (steady : ¬ (¬ m.dma.Asserted ∧ m'.dma.Asserted)) :
    m'.requests = m.requests := by
  rw [← DmaController.masterIrq_iff, ← DmaController.masterIrq_iff, Bool.not_eq_true] at steady
  rw [edge]
  apply if_neg
  simpa using steady

theorem edge_modifyFlags (f : DmaController → DmaController) :
    Edge m (leaves ((modifyFlags f).run m)) := rfl

variable {endpoint : Spu2DmaEndpoint E} {op : DmaOp} {value mask : Word}

theorem law_of_quiet (quiet : Quiet m m') : InterruptLaw endpoint m op m' := by
  obtain ⟨control1, flags1, control2, flags2, -⟩ := quiet_iff.mp quiet
  refine ⟨quiet.edge.raised, quiet.edge.calm, ?_, ?_, ?_, ?_, ?_, ?_⟩
  · intro i before after
    rw [flags1, before] at after
    cases after
  · intro i before after
    rw [flags2, before] at after
    cases after
  · intro i before after
    rw [flags1, before] at after
    cases after
  · intro i before after
    rw [flags2, before] at after
    cases after
  · intro register value mask i _ _
    rw [control1, flags1]
    exact ⟨rfl, rfl⟩
  · intro register value mask i _ _
    rw [control2, flags2]
    exact ⟨rfl, rfl⟩

theorem absurd_bit {b : Bool} {P : Prop} (no : b = false) (yes : b = true) : P := by
  rw [no] at yes
  cases yes

theorem law_writeDicr1 (write : op.write = some (Upse.dicr1, value, mask)) :
    InterruptLaw endpoint m op (leaves ((writeDicr1 value mask).run m)) where
  raised := (edge_modifyFlags _).raised
  calm := (edge_modifyFlags _).calm
  set1 _ before after := absurd_bit before (flag_of_acknowledged after)
  set2 _ before after := absurd_bit before after
  cleared1 _ before after := ⟨value, mask, write, written_of_acknowledged before after⟩
  cleared2 _ before after := absurd_bit after before
  kept1 register value' mask' i same outside := by
    rw [write] at same
    cases same
    have uncovered := outside.resolve_left fun ne => ne rfl
    exact ⟨getLsbD_masked _ _ _ _ (.inl uncovered), acknowledged_of_uncovered uncovered⟩
  kept2 _ _ _ _ _ _ := ⟨rfl, rfl⟩

theorem law_writeDicr2 (write : op.write = some (Upse.dicr2, value, mask)) :
    InterruptLaw endpoint m op (leaves ((writeDicr2 value mask).run m)) where
  raised := (edge_modifyFlags _).raised
  calm := (edge_modifyFlags _).calm
  set1 _ before after := absurd_bit before after
  set2 _ before after := absurd_bit before (flag_of_acknowledged after)
  cleared1 _ before after := absurd_bit after before
  cleared2 _ before after := ⟨value, mask, write, written_of_acknowledged before after⟩
  kept1 _ _ _ _ _ _ := ⟨rfl, rfl⟩
  kept2 register value' mask' i same outside := by
    rw [write] at same
    cases same
    have uncovered := outside.resolve_left fun ne => ne rfl
    exact ⟨getLsbD_masked _ _ _ _ (.inl uncovered), acknowledged_of_uncovered uncovered⟩

theorem law_finishChannel {event : DueEvent} (quiet : Quiet m t)
    (owner : eventChannel event.id = some channel)
    (run : (complete endpoint event).run m = (finishChannel channel).run t) :
    InterruptLaw endpoint m (.complete event) (leaves ((finishChannel channel).run t)) := by
  obtain ⟨control1, flags1, control2, flags2, -⟩ := quiet_iff.mp quiet
  have edge : Edge m (leaves ((finishChannel channel).run t)) := quiet.then_edge (edge_modifyFlags _)
  cases channel with
  | core0 =>
    refine ⟨edge.raised, edge.calm, ?_, ?_, ?_, ?_, nofun, nofun⟩
    · intro i before after
      change (t.dma.dicr1Flags ||| 1 <<< (24 + 4)).getLsbD i = true at after
      rw [flags1, BitVec.getLsbD_or, before, Bool.false_or] at after
      exact ⟨getLsbD_bit after, event, rfl, owner, run⟩
    · intro i before after
      change t.dma.dicr2Flags.getLsbD i = true at after
      rw [flags2] at after
      exact absurd_bit before after
    · intro i before after
      change (t.dma.dicr1Flags ||| 1 <<< (24 + 4)).getLsbD i = false at after
      rw [flags1, BitVec.getLsbD_or, before] at after
      cases after
    · intro i before after
      change t.dma.dicr2Flags.getLsbD i = false at after
      rw [flags2] at after
      exact absurd_bit after before
  | core1 =>
    refine ⟨edge.raised, edge.calm, ?_, ?_, ?_, ?_, nofun, nofun⟩
    · intro i before after
      change t.dma.dicr1Flags.getLsbD i = true at after
      rw [flags1] at after
      exact absurd_bit before after
    · intro i before after
      change (t.dma.dicr2Flags ||| 1 <<< 24).getLsbD i = true at after
      rw [flags2, BitVec.getLsbD_or, before, Bool.false_or] at after
      exact ⟨getLsbD_bit after, event, rfl, owner, run⟩
    · intro i before after
      change t.dma.dicr1Flags.getLsbD i = false at after
      rw [flags1] at after
      exact absurd_bit after before
    · intro i before after
      change (t.dma.dicr2Flags ||| 1 <<< 24).getLsbD i = false at after
      rw [flags2, BitVec.getLsbD_or, before] at after
      cases after

/-- Every operation obeys the law, from every state. -/
theorem law_perform (endpoint : Spu2DmaEndpoint E) (m : DmaMachine E) (op : DmaOp) :
    InterruptLaw endpoint m op (leaves ((op.perform endpoint).run m)) := by
  rcases perform_cases endpoint m op with ⟨value, mask, write, run⟩ | ⟨value, mask, write, run⟩ |
    ⟨event, channel, t, rfl, owner, quiet, run⟩ | quiet
  · rw [run]
    exact law_writeDicr1 write
  · rw [run]
    exact law_writeDicr2 write
  · rw [run]
    exact law_finishChannel quiet owner run
  · exact law_of_quiet quiet

theorem clear_of_quiet (quiet : Quiet m m') (clear : m.dma.MasterClear) : m'.dma.MasterClear := by
  obtain ⟨control1, flags1, control2, flags2, -⟩ := quiet_iff.mp quiet
  constructor
  · rw [control1]; exact clear.control1
  · rw [flags1]; exact clear.flags1
  · rw [control2]; exact clear.control2
  · rw [flags2]; exact clear.flags2

/-- No operation stores anything where the master condition is read back. -/
theorem clear_perform (endpoint : Spu2DmaEndpoint E) (op : DmaOp) (clear : m.dma.MasterClear) :
    (leaves ((op.perform endpoint).run m)).dma.MasterClear := by
  rcases perform_cases endpoint m op with ⟨value, mask, write, run⟩ | ⟨value, mask, write, run⟩ |
    ⟨event, channel, t, rfl, owner, quiet, run⟩ | quiet
  · rw [run]
    exact ⟨(getLsbD_masked _ _ _ _ (.inr (by decide))).trans clear.control1,
      (getLsbD_acknowledged _ _ _ _ _).trans (by rw [clear.flags1, Bool.false_and]), clear.control2,
      clear.flags2⟩
  · rw [run]
    exact ⟨clear.control1, clear.flags1,
      (getLsbD_masked _ _ _ _ (.inr (by decide))).trans clear.control2,
      (getLsbD_acknowledged _ _ _ _ _).trans (by rw [clear.flags2, Bool.false_and])⟩
  · rw [run]
    have clear := clear_of_quiet quiet clear
    cases channel with
    | core0 =>
      refine ⟨clear.control1, ?_, clear.control2, clear.flags2⟩
      show (t.dma.dicr1Flags ||| 1 <<< (24 + 4)).getLsbD 31 = false
      rw [BitVec.getLsbD_or, clear.flags1]
      decide
    | core1 =>
      refine ⟨clear.control1, clear.flags1, clear.control2, ?_⟩
      show (t.dma.dicr2Flags ||| 1 <<< 24).getLsbD 31 = false
      rw [BitVec.getLsbD_or, clear.flags2]
      decide
  · exact clear_of_quiet quiet clear

theorem uncovered_of_half {address i : ℕ} (bound : i < 32)
    (other : ¬ (i < 16 ↔ address % 4 < 2)) :
    (if address % 4 < 2 then (0x0000ffff : Word) else 0xffff0000).getLsbD i = false := by
  have low : ∀ i : Fin 32, (0x0000ffff : Word).getLsbD i = decide (i.val < 16) := by decide
  have high : ∀ i : Fin 32, (0xffff0000 : Word).getLsbD i = !decide (i.val < 16) := by decide
  by_cases half : address % 4 < 2
  · rw [if_pos half, low ⟨i, bound⟩]
    simpa [half] using other
  · rw [if_neg half, high ⟨i, bound⟩]
    simpa [half] using other

/-- In every state reached, both interrupt registers read the aggregate condition back in bit 31, and
every operation from there requests the interrupt exactly when it raises the condition, sets a flag
only by completing its channel, clears one only by a write of one to it, and leaves what a halfword
write does not address. -/
theorem interrupts_run {endpoint : Spu2DmaEndpoint E} {ram : Ram} {state : E} {ops : List DmaOp}
    (run : Run (Next endpoint) (reset ram state) ops m) :
    (∃ word1 word2, m.dma.readU32 Upse.dicr1 = .ok word1 ∧ m.dma.readU32 Upse.dicr2 = .ok word2 ∧
      (word1.getLsbD 31 = true ↔ m.dma.Asserted) ∧ (word2.getLsbD 31 = true ↔ m.dma.Asserted)) ∧
    (∀ op m', Next endpoint m op m' → InterruptLaw endpoint m op m') ∧
    ∀ address value now m', Next endpoint m (.writeU16 address value now) m' → ∀ i < 32,
      (¬ (address - address % 4 = Upse.dicr1 ∧ (i < 16 ↔ address % 4 < 2)) →
        m'.dma.dicr1Control.getLsbD i = m.dma.dicr1Control.getLsbD i ∧
          m'.dma.dicr1Flags.getLsbD i = m.dma.dicr1Flags.getLsbD i) ∧
      (¬ (address - address % 4 = Upse.dicr2 ∧ (i < 16 ↔ address % 4 < 2)) →
        m'.dma.dicr2Control.getLsbD i = m.dma.dicr2Control.getLsbD i ∧
          m'.dma.dicr2Flags.getLsbD i = m.dma.dicr2Flags.getLsbD i) := by
  have clear : m.dma.MasterClear := by
    refine run.invariant (I := fun m => m.dma.MasterClear) DmaController.clear_new ?_
    rintro before op after clear rfl
    exact clear_perform endpoint op clear
  refine ⟨⟨_, _, rfl, rfl, ?_, ?_⟩, ?_, ?_⟩
  · rw [clear.readback.1, DmaController.masterIrq_iff]
  · rw [clear.readback.2, DmaController.masterIrq_iff]
  · rintro op _ rfl
    exact law_perform endpoint m op
  · rintro address value now _ rfl i bound
    have law := law_perform endpoint m (.writeU16 address value now)
    refine ⟨fun apart => law.kept1 _ _ _ i rfl ?_, fun apart => law.kept2 _ _ _ i rfl ?_⟩
    · exact (not_and_or.mp apart).imp id (uncovered_of_half bound)
    · exact (not_and_or.mp apart).imp id (uncovered_of_half bound)

theorem next_after (endpoint : Spu2DmaEndpoint E) (m : DmaMachine E) (op : DmaOp) :
    Next endpoint m op (after endpoint m [op]) := rfl

/-- The guest enables the interrupt of channel 4 and starts a transfer of four words. -/
def armed : DmaMachine (List Word) :=
  after recorder (programmed 0x1f0 4) [.writeU32 Upse.dicr1 0x00900000 0]

/-- The completion of the transfer sets the flag of its channel and requests the interrupt; writing one to
the flag clears it and requests nothing. -/
theorem interrupts_run_sample :
    let done := after recorder armed [.complete ⟨channel4Event, 0⟩]
    let acknowledged := after recorder done [.writeU32 Upse.dicr1 0x10900000 1]
    done.dma.dicr1Flags = 0x10000000 ∧ done.requests = [.dma] ∧
      acknowledged.dma.dicr1Flags = 0 ∧ acknowledged.requests = [.dma] := by
  intro done acknowledged
  have run : Run (Next recorder) (reset (fun _ => 0) []) _ armed :=
    (run_after recorder _ _).append (run_after recorder _ _)
  have low : ¬ armed.dma.Asserted := by
    rw [← DmaController.masterIrq_iff]
    decide +kernel
  have high : done.dma.Asserted := by
    rw [← DmaController.masterIrq_iff]
    decide +kernel
  have quiet : armed.requests = [] := by decide +kernel
  have completes := (interrupts_run run).2.1 _ _ (next_after recorder armed (.complete ⟨channel4Event, 0⟩))
  have requested : done.requests = [.dma] := (completes.raised ⟨low, high⟩).trans (congrArg (· ++ [_]) quiet)
  have answers := (interrupts_run (run.append (run_after recorder armed [.complete ⟨channel4Event, 0⟩]))).2.1 _ _
    (next_after recorder done (.writeU32 Upse.dicr1 0x10900000 1))
  exact ⟨by decide +kernel, requested, by decide +kernel,
    (answers.calm fun rises => rises.1 high).trans requested⟩

end DmaMachine

end Upse
