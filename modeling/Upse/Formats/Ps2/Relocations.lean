import Mathlib.Data.Int.ModEq
import Upse.Formats.Ps2.IrxLoader
import Upse.Lib.ErrorState

/-!
# What relocation does to an image

Where no word is the target of two relocations, each of them finds the words it reads as the parsed image
has them: those before it have other targets, and the low half of a pair comes after the high half.
-/

namespace Upse.Irx

open Link Panics

/-! ### Targets -/

/-- Size of the field that a relocation replaces, from the first byte of its word. -/
def RelocationKind.fieldSize : RelocationKind → ℕ
  | .word | .jump => 4
  | _ => 2

/-- The words that a relocation by `delta` patches: its own, or those of the chain it starts. -/
def Relocation.Targets (image : Bytes) (delta : Word) (relocation : Relocation) (word : ℕ) : Prop :=
  match relocation.kind with
  | .sonyHigh addend =>
    Reaches (sonyLink image) (immediateLink image.length (upperHalf delta addend)) [] relocation.offset word
  | _ => word = relocation.offset

/-- The bytes that a relocation replaces. -/
def Relocation.Field (image : Bytes) (delta : Word) (relocation : Relocation) (offset : ℕ) : Prop :=
  ∃ word, relocation.Targets image delta word ∧ word ≤ offset ∧
    offset < word + relocation.kind.fieldSize

/-- No word is the target of two relocations. -/
def Apart (image : Bytes) (delta : Word) (relocations : List Relocation) : Prop :=
  relocations.Pairwise fun a b => ∀ word, a.Targets image delta word → ¬ b.Targets image delta word

/-- A high half is followed by the low half of its pair. -/
def Paired : List Relocation → Prop
  | [] => True
  | relocation :: rest =>
    (∀ lowOffset, relocation.kind = .high lowOffset →
      ∃ low, rest.head? = some low ∧ low.kind = .low ∧ low.offset = lowOffset ∧ lowOffset % 4 = 0) ∧
    Paired rest

section Targets

variable {image : Bytes} {delta : Word} {relocation : Relocation} {word : ℕ}

theorem aligned_of_reaches {immediate : Word} {seen : List ℕ} {size start : ℕ}
    (reaches : Reaches (sonyLink image) (immediateLink size immediate) seen start word)
    (aligned : start % 4 = 0) : word % 4 = 0 := by
  induction reaches with
  | here => exact aligned
  | next leads _ ih =>
    refine ih ?_
    unfold relink at leads
    split at leads
    next => exact (stepLink_eq_next leads).1
    next => exact (sonyLink_eq_next leads).1

theorem Relocation.Targets.aligned (targets : relocation.Targets image delta word)
    (aligned : relocation.offset % 4 = 0) : word % 4 = 0 := by
  unfold Relocation.Targets at targets
  split at targets
  next => exact aligned_of_reaches targets aligned
  next => exact targets ▸ aligned

theorem Relocation.targets_self : relocation.Targets image delta relocation.offset := by
  unfold Relocation.Targets
  split
  next => exact .here
  next => rfl

theorem RelocationKind.fieldSize_le (kind : RelocationKind) : kind.fieldSize ≤ 4 := by
  cases kind <;> simp [RelocationKind.fieldSize]

end Targets

/-! ### Words of an image -/

theorem patchLow_half (word value : Word) : patchLow word value = patchLow word (value &&& 0xffff) := by
  unfold patchLow
  rw [BitVec.and_assoc, BitVec.and_self]

theorem half_small (value : Word) : (value &&& 0xffff).toNat < 65536 := by
  rw [BitVec.toNat_and]
  exact Nat.lt_of_le_of_lt Nat.and_le_right (by decide)

theorem ofLeBytes_leBytes_word (value : Word) : BitVec.ofNat 32 (ofLeBytes (leBytes 4 value.toNat)) = value := by
  apply BitVec.eq_of_toNat_eq
  rw [ofLeBytes_leBytes, BitVec.toNat_ofNat]
  have := value.isLt
  omega

section Words

variable {image : Bytes} {position other : ℕ} {value word : Word}

theorem readU32_writeU32_self (fits : position + 4 ≤ image.length) :
    readU32 (writeU32 image position value) position = some value := by
  have byte := getElem?_writeU32 fits value
  have four : ∃ b₀ b₁ b₂ b₃, leBytes 4 value.toNat = [b₀, b₁, b₂, b₃] := ⟨_, _, _, _, rfl⟩
  obtain ⟨b₀, b₁, b₂, b₃, bytes⟩ := four
  rw [readU32_eq_some]
  refine ⟨b₀, b₁, b₂, b₃, ?_, ?_, ?_, ?_, ?_⟩
  · rw [byte, if_pos (by omega), bytes, Nat.sub_self]; rfl
  · rw [byte, if_pos (by omega), bytes, Nat.add_sub_cancel_left]; rfl
  · rw [byte, if_pos (by omega), bytes, Nat.add_sub_cancel_left]; rfl
  · rw [byte, if_pos (by omega), bytes, Nat.add_sub_cancel_left]; rfl
  · rw [← bytes, ofLeBytes_leBytes_word]

theorem readU32_writeU32_other (fits : position + 4 ≤ image.length) (aligned : position % 4 = 0)
    (other_aligned : other % 4 = 0) (differs : other ≠ position) :
    readU32 (writeU32 image position value) other = readU32 image other := by
  refine readU32_congr fun i i_lt => ?_
  rw [getElem?_writeU32 fits, if_neg (by omega)]

theorem getElem?_writeU32_patchLow (aligned : position % 4 = 0) (read : readU32 image position = some word)
    {offset : ℕ} (outside : offset < position ∨ position + 2 ≤ offset) :
    (writeU32 image position (patchLow word value))[offset]? = image[offset]? := by
  rw [patchLow_half]
  have patched := (Patched.nil image (value &&& 0xffff)).write (half_small value)
    (List.forall_mem_singleton.mpr aligned) read
  refine patched.rest offset fun other member => ?_
  obtain rfl := List.mem_singleton.mp member
  omega

end Words

/-! ### One relocation after another -/

/-- The relocation is made in the image, from the words that the parsed image has. -/
def Relocation.MadeIn (parsed : Bytes) (delta : Word) (relocation : Relocation) (image : Bytes) : Prop :=
  (∀ addend, relocation.kind ≠ .sonyHigh addend) →
    ∃ word patched, readU32 parsed relocation.offset = some word ∧
      patchedWord parsed 0 delta relocation.kind word = .ok patched ∧
      readU32 image relocation.offset = some patched

/-- The relocations `done` are made, and nothing else is changed. -/
structure Progress (parsed : Bytes) (delta : Word) (done : List Relocation) (image : Bytes) : Prop where
  length : image.length = parsed.length
  rest : ∀ offset, (∀ relocation ∈ done, ¬ relocation.Field parsed delta offset) →
    image[offset]? = parsed[offset]?
  made : ∀ relocation ∈ done, relocation.MadeIn parsed delta image

theorem Progress.nil (parsed : Bytes) (delta : Word) : Progress parsed delta [] parsed :=
  ⟨rfl, fun _ _ => rfl, nofun⟩

section Progress

variable {parsed image after : Bytes} {delta : Word} {done rest : List Relocation}
  {relocation : Relocation} {origin : String}

theorem Progress.untouched (progress : Progress parsed delta done image)
    (done_aligned : ∀ relocation ∈ done, relocation.offset % 4 = 0) {word : ℕ} (aligned : word % 4 = 0)
    (fresh : ∀ relocation ∈ done, ¬ relocation.Targets parsed delta word) :
    readU32 image word = readU32 parsed word := by
  refine readU32_congr fun i i_lt => progress.rest _ fun relocation member => ?_
  rintro ⟨other, targets, start, stop⟩
  have other_aligned := targets.aligned (done_aligned relocation member)
  have size := relocation.kind.fieldSize_le
  obtain rfl : other = word := by omega
  exact fresh relocation member targets

/-- The bytes that are written are those of the relocation's field, and the other words stay. -/
theorem Progress.step (progress : Progress parsed delta done image)
    (length : after.length = image.length)
    (frame : ∀ offset, ¬ relocation.Field parsed delta offset → after[offset]? = image[offset]?)
    (words : ∀ word, word % 4 = 0 → ¬ relocation.Targets parsed delta word →
      readU32 after word = readU32 image word)
    (done_aligned : ∀ relocation ∈ done, relocation.offset % 4 = 0)
    (apart : ∀ other ∈ done, ∀ word, other.Targets parsed delta word →
      ¬ relocation.Targets parsed delta word)
    (made : relocation.MadeIn parsed delta after) : Progress parsed delta (done ++ [relocation]) after := by
  refine ⟨length.trans progress.length, fun offset outside => ?_, fun other member => ?_⟩
  · rw [frame offset (outside relocation (List.mem_append_right _ List.mem_cons_self))]
    exact progress.rest offset fun other member => outside other (List.mem_append_left _ member)
  · rcases List.mem_append.mp member with before | last
    · intro plain
      obtain ⟨word, patched, read, computed, written⟩ := progress.made other before plain
      refine ⟨word, patched, read, computed, ?_⟩
      rw [words _ (done_aligned other before) (apart other before _ Relocation.targets_self), written]
    · exact List.mem_singleton.mp last ▸ made

theorem okOrAt_eq_ok {α : Type} {o : Option α} {offset : ℕ} {kind : IrxErrorKind} {a : α} :
    okOrAt origin o offset kind = .ok a ↔ o = some a := by
  unfold okOrAt
  cases o with
  | none => exact ⟨nofun, nofun⟩
  | some b => exact ⟨fun h => congrArg some (Except.ok.inj h), fun h => congrArg _ (Option.some.inj h)⟩

theorem imageOffset_zero {address size position : ℕ} :
    imageOffset address 0 size = some position ↔ position = address ∧ address < size := by
  unfold imageOffset checkedSub
  rw [if_pos (Nat.zero_le _), Option.filter_eq_some_iff]
  simp only [Nat.sub_zero, Option.some.injEq, decide_eq_true_eq]
  constructor
  · rintro ⟨rfl, lt⟩
    exact ⟨rfl, lt⟩
  · rintro ⟨rfl, lt⟩
    exact ⟨rfl, lt⟩

section Applied

variable (progress : Progress parsed delta done image)
  (done_aligned : ∀ relocation ∈ done, relocation.offset % 4 = 0)
  (apart : ∀ other ∈ done, ∀ word, other.Targets parsed delta word →
    ¬ relocation.Targets parsed delta word)
  (aligned : relocation.offset % 4 = 0)

include progress done_aligned apart aligned

theorem Progress.patch (plain : ∀ addend, relocation.kind ≠ .sonyHigh addend)
    (low_fresh : ∀ lowOffset, relocation.kind = .high lowOffset → lowOffset % 4 = 0 ∧
      ∀ other ∈ done, ¬ other.Targets parsed delta lowOffset)
    {word patched : Word} (read : readU32 image relocation.offset = some word)
    (computed : patchedWord image 0 delta relocation.kind word = .ok patched) :
    Progress parsed delta (done ++ [relocation]) (writeU32 image relocation.offset patched) := by
  have fits := readU32_fits read
  have targets (other : ℕ) : relocation.Targets parsed delta other ↔ other = relocation.offset := by
    unfold Relocation.Targets
    split
    next addend kind => exact absurd kind (plain addend)
    next => exact Iff.rfl
  have original : readU32 parsed relocation.offset = some word := by
    rw [← progress.untouched done_aligned aligned fun other member targeted =>
      apart other member _ targeted Relocation.targets_self, read]
  have same : patchedWord parsed 0 delta relocation.kind word = .ok patched := by
    rw [← computed]
    unfold patchedWord
    split
    next => rfl
    next => rfl
    next => rfl
    next lowOffset kind =>
      obtain ⟨low_aligned, fresh⟩ := low_fresh lowOffset kind
      have low (offset : ℕ) (found : imageOffset lowOffset 0 parsed.length = some offset) :
          readU32 image offset = readU32 parsed offset := by
        obtain ⟨sub, -⟩ := Option.filter_eq_some_iff.mp found
        obtain rfl : lowOffset = offset := by
          unfold checkedSub at sub
          rw [if_pos (Nat.zero_le _)] at sub
          exact Option.some.inj sub
        exact progress.untouched done_aligned low_aligned fresh
      rw [progress.length]
      cases found : imageOffset lowOffset 0 parsed.length with
      | none => rfl
      | some offset =>
        rw [Option.bind_some, Option.bind_some, low offset found]
    next => rfl
    next => rfl
  refine progress.step (length_writeU32 fits patched) (fun offset outside => ?_)
    (fun other other_aligned differs => ?_) done_aligned apart fun _ => ?_
  · have field_apart : offset < relocation.offset ∨ relocation.offset + relocation.kind.fieldSize ≤ offset := by
      by_contra inside
      exact outside ⟨relocation.offset, Relocation.targets_self, by omega, by omega⟩
    have whole (wide : relocation.kind.fieldSize = 4) :
        (writeU32 image relocation.offset patched)[offset]? = image[offset]? := by
      rw [getElem?_writeU32 fits, if_neg (by omega)]
    have lower {value : Word} (narrow : relocation.kind.fieldSize = 2) (low : patched = patchLow word value) :
        (writeU32 image relocation.offset patched)[offset]? = image[offset]? := by
      rw [low]
      exact getElem?_writeU32_patchLow aligned read (by omega)
    cases kind : relocation.kind with
    | word => exact whole (by rw [kind]; rfl)
    | jump => exact whole (by rw [kind]; rfl)
    | sonyHigh addend => exact absurd kind (plain addend)
    | half =>
      rw [kind] at computed
      unfold patchedWord at computed
      dsimp only at computed
      split at computed
      next => exact lower (by rw [kind]; rfl) (Except.ok.inj computed).symm
      next => cases computed
    | low =>
      rw [kind] at computed
      exact lower (by rw [kind]; rfl) (Except.ok.inj computed).symm
    | high lowOffset =>
      rw [kind] at computed
      unfold patchedWord at computed
      dsimp only at computed
      split at computed
      next => cases computed
      next =>
        split at computed
        next => exact lower (by rw [kind]; rfl) (Except.ok.inj computed).symm
        next => cases computed
  · exact readU32_writeU32_other fits aligned other_aligned fun same => differs ((targets other).mpr same)
  · exact ⟨word, patched, original, same, readU32_writeU32_self fits⟩

theorem Progress.chain {addend : Word} (kind : relocation.kind = .sonyHigh addend)
    (applied : applySonyHigh origin image relocation.offset delta addend relocation.sourceOffset =
      .ok after) : Progress parsed delta (done ++ [relocation]) after := by
  have targets (word : ℕ) : relocation.Targets parsed delta word ↔
      Reaches (sonyLink parsed) (immediateLink parsed.length (upperHalf delta addend)) []
        relocation.offset word := by
    unfold Relocation.Targets
    rw [kind]
  by_cases fits : delta.toNat + addend.toNat < 2 ^ 32
  · rw [applySonyHigh_of_fits fits] at applied
    obtain ⟨trail, walk, -, result⟩ := followChain_eq_ok (.nil image _) (upperHalf_small _ _)
      (List.forall_mem_singleton.mpr aligned) nofun applied
    rw [progress.length] at walk
    -- The loop reads the links of the parsed image, since no word it comes to was a target before.
    have reached : ∀ word ∈ trail, relocation.Targets parsed delta word := by
      intro word member
      refine (targets word).mpr (walk.reaches (fun other reaches => ?_) word member)
      have read := progress.untouched done_aligned (aligned_of_reaches reaches aligned)
        fun before member targeted => apart before member other targeted ((targets other).mpr reaches)
      unfold sonyLink
      rw [read, progress.length]
    have outside_trail {word : ℕ} (not_target : ¬ relocation.Targets parsed delta word) :
        word ∉ trail.reverse ++ [] := by
      rw [List.append_nil, List.mem_reverse]
      exact fun member => not_target (reached word member)
    refine progress.step result.length (fun offset outside => result.rest offset fun word member => ?_)
      (fun other other_aligned differs => readU32_congr fun i i_lt => result.rest _ fun word member => ?_)
      done_aligned apart fun plain => absurd kind (plain addend)
    · rw [List.append_nil, List.mem_reverse] at member
      have targeted := reached word member
      have size : relocation.kind.fieldSize = 2 := by rw [kind]; rfl
      constructor
      · rintro rfl
        exact outside ⟨offset, targeted, le_refl _, by omega⟩
      · rintro rfl
        exact outside ⟨word, targeted, by omega, by omega⟩
    · have different : word ≠ other := fun same => outside_trail differs (same ▸ member)
      rw [List.append_nil, List.mem_reverse] at member
      have word_aligned := (reached word member).aligned aligned
      omega
  · rw [applySonyHigh_of_overflow fits] at applied
    cases applied

theorem Progress.apply
    (low_fresh : ∀ lowOffset, relocation.kind = .high lowOffset → lowOffset % 4 = 0 ∧
      ∀ other ∈ done, ¬ other.Targets parsed delta lowOffset)
    (applied : applyRelocation origin 0 delta image relocation = .ok after) :
    Progress parsed delta (done ++ [relocation]) after := by
  unfold applyRelocation at applied
  obtain ⟨position, found, applied⟩ := ErrorState.except_bind_ok.mp applied
  obtain ⟨word, read, applied⟩ := ErrorState.except_bind_ok.mp applied
  obtain ⟨rfl, -⟩ := imageOffset_zero.mp (okOrAt_eq_ok.mp found)
  have read := okOrAt_eq_ok.mp read
  split at applied
  next addend kind =>
    exact progress.chain done_aligned apart aligned kind (ErrorState.except_mapError_ok.mp applied)
  next plain =>
    obtain ⟨patched, computed, written⟩ := ErrorState.except_bind_ok.mp applied
    have computed := ErrorState.except_mapError_ok.mp computed
    rw [if_pos (readU32_fits read)] at written
    cases written
    exact progress.patch done_aligned apart aligned plain low_fresh read
      computed

end Applied

theorem Progress.apply_all {todo : List Relocation} (progress : Progress parsed delta done image)
    (aligned : ∀ relocation ∈ done ++ todo, relocation.offset % 4 = 0) (paired : Paired todo)
    (apart : Apart parsed delta (done ++ todo))
    (applied : todo.foldlM (applyRelocation origin 0 delta) image = .ok after) :
    Progress parsed delta (done ++ todo) after := by
  induction todo generalizing done image with
  | nil =>
    cases applied
    exact (List.append_nil done).symm ▸ progress
  | cons relocation todo ih =>
    rw [List.foldlM_cons] at applied
    obtain ⟨next, first, applied⟩ := ErrorState.except_bind_ok.mp applied
    have before := (List.pairwise_append.mp apart).2.2
    have advanced := progress.apply (fun other member => aligned other (List.mem_append_left _ member))
      (fun other member => before other member relocation List.mem_cons_self)
      (aligned relocation (List.mem_append_right _ List.mem_cons_self)) ?_ first
    · rw [List.append_cons] at aligned apart ⊢
      exact ih advanced aligned paired.2 apart applied
    · intro lowOffset kind
      obtain ⟨low, follows, low_kind, rfl, low_aligned⟩ := paired.1 lowOffset kind
      refine ⟨low_aligned, fun other member targeted => ?_⟩
      exact before other member low (List.mem_cons_of_mem _ (List.mem_of_head? follows)) _ targeted
        Relocation.targets_self

end Progress

end Upse.Irx
