import Upse.Formats.Ps2.Relocations

/-!
# Relocation tables and loads

The parser takes a high half only where the record after it is its low half, so the relocations of a
parsed module are paired; and a load shifts the addresses in the words they target.
-/

namespace Upse.Irx

open Link Panics

/-! ### What a successful check says -/

theorem usize_eq_ok {n m : ℕ} : usize n = .ok m ↔ n < 2 ^ 64 ∧ m = n := by
  unfold usize
  rw [expect_eq_ok, checkedAdd_eq_some, Nat.add_zero]

theorem getRange_eq_some {input part : Bytes} {start stop : ℕ} :
    getRange input start stop = some part ↔
      (start ≤ stop ∧ stop ≤ input.length) ∧ part = slice input start stop := by
  unfold getRange
  split
  next inside => exact ⟨fun h => ⟨inside, (Option.some.inj h).symm⟩, fun h => congrArg some h.2.symm⟩
  next outside => exact ⟨nofun, fun h => absurd h.1 outside⟩

theorem readU32_slice {input : Bytes} {start stop offset : ℕ} (inside : stop ≤ input.length)
    (fits : start + offset + 4 ≤ stop) :
    readU32 (slice input start stop) offset = readU32 input (start + offset) := by
  have length : (slice input start stop).length = stop - start := by
    unfold slice
    rw [List.length_take, List.length_drop]
    omega
  unfold readU32
  rw [if_pos (by omega), if_pos (by omega)]
  unfold wordAt slice
  rw [List.drop_take, List.take_take, List.drop_drop, Nat.min_eq_left (by omega)]

namespace Parser

variable {parser : Parser}

theorem okOr_eq_ok {α : Type} {o : Option α} {offset : ℕ} {kind : IrxErrorKind} {a : α} :
    parser.okOr o offset kind = .ok a ↔ o = some a := by
  unfold okOr
  cases o with
  | none => exact ⟨nofun, nofun⟩
  | some b => exact ⟨fun h => congrArg some (Except.ok.inj h), fun h => congrArg _ (Option.some.inj h)⟩

theorem reject_eq_ok {c : Prop} [Decidable c] {offset : ℕ} {kind : IrxErrorKind} {u : Unit} :
    parser.reject c offset kind = .ok u ↔ ¬ c := by
  unfold reject
  split
  next h => exact ⟨nofun, fun h' => absurd h h'⟩
  next h => exact ⟨fun _ => h, fun _ => rfl⟩

theorem slice_eq_ok {offset size : ℕ} {part : Bytes} (h : parser.slice offset size = .ok part) :
    offset + size ≤ parser.input.length ∧ part = Upse.slice parser.input offset (offset + size) := by
  unfold Parser.slice at h
  obtain ⟨stop, sum, found⟩ := ErrorState.except_bind_ok.mp h
  obtain ⟨-, rfl⟩ := checkedAdd_eq_some.mp (okOr_eq_ok.mp sum)
  obtain ⟨⟨-, inside⟩, rfl⟩ := getRange_eq_some.mp (okOr_eq_ok.mp found)
  exact ⟨inside, rfl⟩

/-! ### Pairs -/

theorem wordOffset_zero {address size position : ℕ} (h : wordOffset address 0 size = some position) :
    address % 4 = 0 := by
  obtain ⟨found, checks⟩ := Option.filter_eq_some_iff.mp h
  obtain ⟨rfl, -⟩ := imageOffset_zero.mp found
  rw [Bool.and_eq_true, decide_eq_true_eq] at checks
  exact checks.2

/-- The record at an index is the low half of a pair. -/
def LowRecord (data : Bytes) (index lowOffset : ℕ) : Prop :=
  ∃ offset info : Word, readU32 data (index * relSize) = some offset ∧ offset.toNat = lowOffset ∧
    readU32 data (index * relSize + 4) = some info ∧ info.toNat = 6

variable {size position sourceOffset kind records index : ℕ} {data : Bytes} {found : RelocationKind}

theorem relocationKind_high {lowOffset : ℕ}
    (h : parser.relocationKind size 0 data (index * relSize) sourceOffset kind =
      .ok (.high lowOffset, records)) :
    records = 1 ∧ lowOffset % 4 = 0 ∧ (index + 2) * relSize ≤ data.length ∧
      LowRecord data (index + 1) lowOffset := by
  unfold relocationKind at h
  split at h
  next => cases h
  next => cases h
  next => cases h
  next =>
    simp only [ErrorState.except_bind_ok, usize_eq_ok, expect_eq_ok, okOr_eq_ok, reject_eq_ok,
      getRange_eq_some] at h
    obtain ⟨_, ⟨-, rfl⟩, _, ⟨-, rfl⟩, next, ⟨⟨-, inside⟩, rfl⟩, info, info_read, _, low, offset, offset_read,
      _, -, _, in_image, result⟩ := h
    cases result
    have width : (8 : ℕ) = relSize := rfl
    have at_next : index * relSize + relSize = (index + 1) * relSize := by rw [Nat.succ_mul]
    have at_stop : index * relSize + 2 * relSize = (index + 2) * relSize := by rw [Nat.add_mul]
    rw [at_stop] at inside
    rw [readU32_slice (by omega) (by omega), at_next] at info_read offset_read
    refine ⟨rfl, wordOffset_zero in_image, inside, offset, info, offset_read, rfl, info_read, ?_⟩
    rw [not_or, not_not, not_not] at low
    omega
  next => cases h
  next =>
    simp only [ErrorState.except_bind_ok] at h
    obtain ⟨_, -, _, -, _, -, _, -, _, -, _, -, result⟩ := h
    cases result
  next => cases h
  next =>
    obtain ⟨_, -, failed⟩ := ErrorState.except_bind_ok.mp h
    cases failed

variable {sections : List SectionHeader} {header : SectionHeader} {entry : Option Relocation}

/-- A kept entry is aligned, and the high half of a pair is followed by its low half. -/
theorem relocationEntry_kept {relocation : Relocation}
    (h : parser.relocationEntry sections header size 0 data index = .ok (some relocation, records)) :
    relocation.offset % 4 = 0 ∧ ∀ lowOffset, relocation.kind = .high lowOffset →
      records = 1 ∧ lowOffset % 4 = 0 ∧ (index + 2) * relSize ≤ data.length ∧
        LowRecord data (index + 1) lowOffset := by
  unfold relocationEntry at h
  simp only [ErrorState.except_bind_ok, usize_eq_ok, expect_eq_ok] at h
  obtain ⟨_, ⟨-, rfl⟩, offset, -, _, ⟨-, rfl⟩, info, -, _, ⟨-, rfl⟩, h⟩ := h
  split at h
  next =>
    obtain ⟨_, -, h⟩ := ErrorState.except_bind_ok.mp h
    obtain ⟨_, -, failed⟩ := ErrorState.except_bind_ok.mp h
    cases failed
  next =>
    split at h
    next => cases h
    next =>
      obtain ⟨_, in_image, h⟩ := ErrorState.except_bind_ok.mp h
      obtain ⟨⟨kind, taken⟩, found, result⟩ := ErrorState.except_bind_ok.mp h
      cases result
      refine ⟨wordOffset_zero (okOr_eq_ok.mp in_image), fun lowOffset high => ?_⟩
      obtain rfl : kind = .high lowOffset := high
      exact relocationKind_high found

theorem relocationEntry_low {lowOffset : ℕ}
    (h : parser.relocationEntry sections header size 0 data index = .ok (entry, records))
    (low : LowRecord data index lowOffset) :
    ∃ relocation, entry = some relocation ∧ relocation.kind = .low ∧ relocation.offset = lowOffset := by
  obtain ⟨offset, info, offset_read, rfl, info_read, six⟩ := low
  unfold relocationEntry at h
  simp only [ErrorState.except_bind_ok, usize_eq_ok, expect_eq_ok] at h
  obtain ⟨_, ⟨-, rfl⟩, _, read, _, ⟨-, rfl⟩, _, read', _, ⟨-, rfl⟩, h⟩ := h
  rw [offset_read] at read
  rw [info_read] at read'
  cases read
  cases read'
  rw [six, if_neg (by decide), if_neg (by decide)] at h
  obtain ⟨_, -, h⟩ := ErrorState.except_bind_ok.mp h
  obtain ⟨⟨kind, taken⟩, found, result⟩ := ErrorState.except_bind_ok.mp h
  cases found
  cases result
  exact ⟨_, rfl, rfl, rfl⟩

end Parser

theorem Paired.append {a b : List Relocation} (ha : Paired a) (hb : Paired b) : Paired (a ++ b) := by
  induction a with
  | nil => exact hb
  | cons relocation rest ih =>
    refine ⟨fun lowOffset kind => ?_, ih ha.2⟩
    obtain ⟨low, follows, facts⟩ := ha.1 lowOffset kind
    refine ⟨low, ?_, facts⟩
    show (rest ++ b).head? = _
    rw [List.head?_append, follows]
    rfl

/-- The relocations of a module: they are paired, and their words are aligned. -/
structure Table (relocations : List Relocation) : Prop where
  paired : Paired relocations
  aligned : ∀ relocation ∈ relocations, relocation.offset % 4 = 0

theorem Table.append {a b : List Relocation} (ha : Table a) (hb : Table b) : Table (a ++ b) :=
  ⟨ha.paired.append hb.paired,
    fun _ member => (List.mem_append.mp member).elim (ha.aligned _) (hb.aligned _)⟩

namespace Parser

variable {parser : Parser} {sections : List SectionHeader} {header : SectionHeader} {size : ℕ}

theorem table_relocationEntries {data : Bytes} {count rounds index : ℕ} {output all : List Relocation}
    (records : data.length = count * relSize)
    (h : parser.relocationEntries sections header size 0 data count rounds index output = .ok all) :
    ∃ tail, all = output ++ tail ∧ Table tail ∧
      ∀ lowOffset, index < count → LowRecord data index lowOffset →
        ∃ low, tail.head? = some low ∧ low.kind = .low ∧ low.offset = lowOffset := by
  have no_more (index : ℕ) (output : List Relocation) (stopped : ¬ index < count) :
      ∃ tail, output = output ++ tail ∧ Table tail ∧
        ∀ lowOffset, index < count → LowRecord data index lowOffset →
          ∃ low, tail.head? = some low ∧ low.kind = .low ∧ low.offset = lowOffset :=
    ⟨[], (List.append_nil _).symm, ⟨trivial, nofun⟩, fun _ more => absurd more stopped⟩
  induction rounds generalizing index output with
  | zero =>
    unfold relocationEntries at h
    split at h
    next => cases h
    next stopped =>
      cases h
      exact no_more index _ stopped
  | succ rounds ih =>
    unfold relocationEntries at h
    split at h
    next more =>
      obtain ⟨⟨entry, taken⟩, found, h⟩ := ErrorState.except_bind_ok.mp h
      obtain ⟨_, sum, h⟩ := ErrorState.except_bind_ok.mp h
      obtain ⟨-, rfl⟩ := usize_eq_ok.mp sum
      obtain ⟨tail, rfl, table, low_first⟩ := ih h
      refine ⟨entry.toList ++ tail, List.append_assoc _ _ _, ?_, fun lowOffset _ low => ?_⟩
      · cases entry with
        | none => exact table
        | some relocation =>
          obtain ⟨aligned, pair⟩ := relocationEntry_kept found
          refine ⟨⟨fun lowOffset high => ?_, table.paired⟩, List.forall_mem_cons.mpr ⟨aligned, table.aligned⟩⟩
          obtain ⟨rfl, aligned, inside, low⟩ := pair lowOffset high
          have next_inside : index + 2 ≤ count := by
            rw [records] at inside
            exact Nat.le_of_mul_le_mul_right inside (by decide)
          obtain ⟨next, first, kind, offset⟩ := low_first lowOffset (by omega) low
          exact ⟨next, first, kind, offset, aligned⟩
      · obtain ⟨relocation, rfl, kind, offset⟩ := relocationEntry_low found low
        exact ⟨relocation, rfl, kind, offset⟩
    next stopped =>
      cases h
      exact no_more index _ stopped

theorem table_sectionRelocations {variant : IrxVariant} {output all : List Relocation} (before : Table output)
    (h : parser.sectionRelocations sections variant size 0 output header = .ok all) : Table all := by
  unfold sectionRelocations at h
  split at h
  next =>
    cases h
    exact before
  next =>
    simp only [ErrorState.except_bind_ok, usize_eq_ok] at h
    obtain ⟨_, -, _, -, _, -, available, -, _, ⟨-, rfl⟩, data, read, h⟩ := h
    obtain ⟨inside, rfl⟩ := slice_eq_ok read
    obtain ⟨tail, rfl, table, -⟩ := table_relocationEntries (by
      unfold Upse.slice
      rw [List.length_take, List.length_drop]
      omega) h
    exact before.append table

theorem table_relocations {variant : IrxVariant} {all : List Relocation}
    (h : parser.relocations sections variant size 0 = .ok all) : Table all := by
  have step (headers : List SectionHeader) : ∀ output, Table output →
      headers.foldlM (parser.sectionRelocations sections variant size 0) output = .ok all → Table all := by
    induction headers with
    | nil =>
      intro output table result
      cases result
      exact table
    | cons header headers ih =>
      intro output table result
      rw [List.foldlM_cons] at result
      obtain ⟨next, first, result⟩ := ErrorState.except_bind_ok.mp result
      exact ih next (table_sectionRelocations table first) result
  exact step sections [] ⟨trivial, nofun⟩ h

theorem moduleMetadata_variant {image : Bytes} {preferredAddress elfEntry : ℕ} {variant : IrxVariant}
    {header : ProgramHeader} {raw : RawMetadata} {description : ModuleDescription}
    (h : parser.moduleMetadata header image preferredAddress variant elfEntry = .ok (raw, description)) :
    description.variant = variant := by
  unfold moduleMetadata at h
  simp only [ErrorState.except_bind_ok] at h
  obtain ⟨_, -, _, -, _, -, _, -, _, -, _, -, _, -, _, -, _, -, _, -, _, -, _, -, _, -, _, -, _, -, _, -, _, -,
    _, -, _, -, _, -, result⟩ := h
  cases result
  rfl

theorem parse_relocatable {irx : IrxModule} (h : parser.parse = .ok irx)
    (relocatable : irx.description.variant.isRelocatable = true) :
    irx.preferredAddress = 0 ∧ Table irx.relocations := by
  unfold parse at h
  simp only [ErrorState.except_bind_ok] at h
  obtain ⟨elf, -, headers, -, _, -, _, -, ⟨preferred, size, image⟩, loaded, _, -, _, -, ⟨raw, description⟩,
    described, sections, -, _, -, relocations, tables, result⟩ := h
  cases result
  dsimp only at relocatable ⊢
  rw [moduleMetadata_variant described] at relocatable
  have linked : preferred = 0 := by
    unfold loadImage at loaded
    simp only [ErrorState.except_bind_ok] at loaded
    obtain ⟨_, -, _, linked, _, -, _, -, _, -, _, -, _, -, result⟩ := loaded
    cases result
    by_contra nonzero
    exact reject_eq_ok.mp linked ⟨relocatable, nonzero⟩
  subst linked
  exact ⟨rfl, table_relocations tables⟩

end Parser

/-! ### Shifted words -/

theorem toNat_patchLow (word value : Word) :
    (patchLow word value).toNat = word.toNat / 65536 * 65536 + value.toNat % 65536 := by
  rw [patchLow_eq, BitVec.toNat_append, ← Nat.shiftLeft_add_eq_or_of_lt (BitVec.isLt _),
    Nat.shiftLeft_eq, BitVec.extractLsb'_toNat, BitVec.toNat_setWidth, Nat.shiftRight_eq_div_pow]
  have := word.isLt
  omega

theorem lowHalf_eq (word : Word) :
    lowHalf word = if word.toNat % 65536 < 32768 then (word.toNat % 65536 : ℤ)
      else word.toNat % 65536 - 65536 := by
  unfold lowHalf
  rw [BitVec.toInt_eq_toNat_cond, BitVec.toNat_setWidth]
  split <;> split <;> omega

theorem and_low (word : Word) (bits : ℕ) (mask : Word) (is_mask : mask.toNat = 2 ^ bits - 1) :
    (word &&& mask).toNat = word.toNat % 2 ^ bits := by
  rw [BitVec.toNat_and, is_mask, Nat.and_two_pow_sub_one_eq_mod]

section Shifted

variable {image : Bytes} {delta word patched : Word}

theorem patchedWord_word (h : patchedWord image 0 delta .word word = .ok patched) :
    word.toNat + delta.toNat < 2 ^ 32 ∧ patched.toNat = word.toNat + delta.toNat := by
  unfold patchedWord at h
  dsimp only at h
  split at h
  next value sum =>
    obtain ⟨fits, rfl⟩ := checkedAdd_eq_some.mp sum
    cases h
    exact ⟨fits, by rw [BitVec.toNat_ofNat, Nat.mod_eq_of_lt fits]⟩
  next => cases h

theorem toNat_patchJump (word target : Word) :
    (patchJump word target).toNat = word.toNat / 2 ^ 26 * 2 ^ 26 + target.toNat % 2 ^ 26 := by
  have upper : ∀ i < 32, (0xfc000000 : Word).getLsbD i = decide (26 ≤ i) := by decide
  have lower : ∀ i < 32, (0x03ffffff : Word).getLsbD i = decide (i < 26) := by decide
  have split_field : patchJump word target = word.extractLsb' 26 6 ++ target.setWidth 26 := by
    unfold patchJump
    apply BitVec.eq_of_getLsbD_eq
    intro i i_lt
    rw [BitVec.getLsbD_or, BitVec.getLsbD_and, BitVec.getLsbD_and, upper i i_lt, lower i i_lt,
      BitVec.getLsbD_append]
    by_cases low : i < 26
    · simp [low, Nat.not_le.mpr low]
    · have at_upper : 26 + (i - 26) = i := by omega
      have inside : i - 26 < 6 := by omega
      simp [low, Nat.not_lt.mp low, at_upper, inside]
  rw [split_field, BitVec.toNat_append, ← Nat.shiftLeft_add_eq_or_of_lt (BitVec.isLt _),
    Nat.shiftLeft_eq, BitVec.extractLsb'_toNat, BitVec.toNat_setWidth, Nat.shiftRight_eq_div_pow]
  have := word.isLt
  omega

theorem patchedWord_jump (h : patchedWord image 0 delta .jump word = .ok patched) :
    word.toNat % 2 ^ 26 * 4 + delta.toNat < 2 ^ 32 ∧
      patched.toNat % 2 ^ 26 = (word.toNat % 2 ^ 26 * 4 + delta.toNat) / 4 % 2 ^ 26 ∧
      patched.toNat / 2 ^ 26 = word.toNat / 2 ^ 26 := by
  have addend : ((word &&& 0x03ffffff) <<< 2).toNat = word.toNat % 2 ^ 26 * 4 := by
    rw [BitVec.toNat_shiftLeft, and_low word 26 _ rfl, Nat.shiftLeft_eq]
    omega
  unfold patchedWord at h
  dsimp only at h
  rw [addend] at h
  split at h
  next => cases h
  next target sum =>
    obtain ⟨fits, rfl⟩ := checkedAdd_eq_some.mp sum
    split at h
    next => cases h
    next =>
      cases h
      rw [toNat_patchJump, BitVec.toNat_ushiftRight, BitVec.toNat_ofNat, Nat.mod_eq_of_lt fits,
        Nat.shiftRight_eq_div_pow]
      omega

/-- The halves of a pair are rounded so that the signed low half makes up for it. -/
theorem patchedWord_pair {lowOffset : ℕ} {low patched_low : Word}
    (high : patchedWord image 0 delta (.high lowOffset) word = .ok patched)
    (read : readU32 image lowOffset = some low)
    (second : patchedWord image 0 delta .low low = .ok patched_low) :
    Int.ModEq (2 ^ 32) (patched.toNat * 2 ^ 16 + lowHalf patched_low)
      (word.toNat * 2 ^ 16 + lowHalf low + delta.toNat) := by
  have addend : ((word &&& 0xffff) <<< 16).toNat = word.toNat % 65536 * 65536 := by
    rw [BitVec.toNat_shiftLeft, and_low word 16 _ rfl, Nat.shiftLeft_eq]
    omega
  have found : (imageOffset lowOffset 0 image.length).bind (readU32 image) = some low := by
    have fits := readU32_fits read
    rw [imageOffset_zero.mpr ⟨rfl, by omega⟩]
    exact read
  unfold patchedWord at high
  dsimp only at high
  rw [found, addend] at high
  dsimp only at high
  split at high
  next bounds =>
    have made : patched = patchLow word ((BitVec.ofInt 32 (delta.toNat +
        ((word.toNat % 65536 * 65536 : ℕ) + lowHalf low)) + 0x8000) >>> 16) :=
      (Except.ok.inj high).symm
    have made_low : patched_low = patchLow low (low + delta) := (Except.ok.inj second).symm
    obtain ⟨value, is_value⟩ := Int.eq_ofNat_of_zero_le bounds.1
    rw [is_value] at made bounds
    have high_half : patched.toNat % 65536 = (value + 32768) % 4294967296 / 65536 := by
      rw [made, toNat_patchLow, BitVec.toNat_ushiftRight, BitVec.toNat_add, Nat.shiftRight_eq_div_pow]
      rw [show BitVec.ofInt 32 (value : ℤ) = BitVec.ofNat 32 value from BitVec.ofInt_natCast 32 value,
        BitVec.toNat_ofNat, show (0x8000 : Word).toNat = 32768 from rfl]
      omega
    have low_half : patched_low.toNat % 65536 = (low.toNat + delta.toNat) % 65536 := by
      rw [made_low, toNat_patchLow, BitVec.toNat_add]
      omega
    rw [lowHalf_eq] at is_value
    rw [lowHalf_eq, lowHalf_eq, low_half]
    unfold Int.ModEq
    split at is_value <;> split <;> omega
  next => cases high

end Shifted

/-! ### Loads -/

theorem Paired.next {relocations : List Relocation} (paired : Paired relocations) {high : Relocation}
    (member : high ∈ relocations) {lowOffset : ℕ} (kind : high.kind = .high lowOffset) :
    ∃ before low after, relocations = before ++ high :: low :: after ∧ low.kind = .low ∧
      low.offset = lowOffset := by
  induction relocations with
  | nil => cases member
  | cons relocation rest ih =>
    rcases List.mem_cons.mp member with rfl | later
    · obtain ⟨low, follows, low_kind, offset, -⟩ := paired.1 lowOffset kind
      obtain ⟨after, rfl⟩ := List.head?_eq_some_iff.mp follows
      exact ⟨[], low, after, rfl, low_kind, offset⟩
    · obtain ⟨before, low, after, rfl, facts⟩ := ih paired.2 later
      exact ⟨relocation :: before, low, after, rfl, facts⟩

theorem loadInto_eq_ok {T : Type} {memory : TargetMemory T} {irx : IrxModule} {address : Word}
    {target after : T} {loaded : LoadedModule} (h : irx.loadInto memory address target = (.ok loaded, after)) :
    ∃ image, irx.relocated address = .ok image ∧
      memory.writeImage target address.toNat image = (.ok (), after) := by
  unfold IrxModule.loadInto at h
  split at h
  next => cases h
  next image staged stage =>
    split at h
    next => cases h
    next written =>
      cases h
      unfold IrxModule.stage at stage
      simp only [ErrorState.except_bind_ok] at stage
      obtain ⟨_, -, _, -, _, -, relocated, made, _, -, _, -, _, -, _, -, rest⟩ := stage
      have same : relocated = image := by
        split at rest
        next =>
          simp only [ErrorState.except_bind_ok] at rest
          obtain ⟨_, -, _, -, _, -, result⟩ := rest
          cases result
          rfl
        next =>
          simp only [ErrorState.except_bind_ok] at rest
          obtain ⟨_, -, _, -, result⟩ := rest
          cases result
          rfl
      exact ⟨image, same ▸ made, written⟩

/-- A load shifts exactly the addresses in the words that its relocations target: whole words without a
wrap, the halves of a pair together, and the fields of jumps; the other bytes are those of the parsed
image. -/
theorem relocation_exact {T : Type} (memory : TargetMemory T) (origin : String) (input : Bytes)
    (limits : IrxLimits) (irx : IrxModule) (address : Word) (target after : T) (loaded : LoadedModule)
    (parsed : IrxModule.parseWithLimits origin input limits = .ok irx)
    (relocatable : irx.description.variant.isRelocatable = true)
    (apart : Apart irx.image address irx.relocations)
    (ran : irx.loadInto memory address target = (.ok loaded, after)) :
    ∃ image, memory.writeImage target address.toNat image = (.ok (), after) ∧
      image.length = irx.image.length ∧
      (∀ relocation ∈ irx.relocations, relocation.kind = .word →
        ∃ word shifted, readU32 irx.image relocation.offset = some word ∧
          readU32 image relocation.offset = some shifted ∧ word.toNat + address.toNat < 2 ^ 32 ∧
          shifted.toNat = word.toNat + address.toNat) ∧
      (∀ high ∈ irx.relocations, ∀ lowOffset, high.kind = .high lowOffset →
        (∃ before low rest, irx.relocations = before ++ high :: low :: rest ∧ low.kind = .low ∧
          low.offset = lowOffset) ∧
        ∃ upper lower upper' lower', readU32 irx.image high.offset = some upper ∧
          readU32 irx.image lowOffset = some lower ∧ readU32 image high.offset = some upper' ∧
          readU32 image lowOffset = some lower' ∧
          Int.ModEq (2 ^ 32) (upper'.toNat * 2 ^ 16 + lowHalf lower')
            (upper.toNat * 2 ^ 16 + lowHalf lower + address.toNat)) ∧
      (∀ relocation ∈ irx.relocations, relocation.kind = .jump →
        ∃ word shifted, readU32 irx.image relocation.offset = some word ∧
          readU32 image relocation.offset = some shifted ∧
          word.toNat % 2 ^ 26 * 4 + address.toNat < 2 ^ 32 ∧
          shifted.toNat % 2 ^ 26 = (word.toNat % 2 ^ 26 * 4 + address.toNat) / 4 % 2 ^ 26 ∧
          shifted.toNat / 2 ^ 26 = word.toNat / 2 ^ 26) ∧
      ∀ offset, (∀ relocation ∈ irx.relocations, ¬ relocation.Field irx.image address offset) →
        image[offset]? = irx.image[offset]? := by
  obtain ⟨linked, table⟩ := Parser.parse_relocatable parsed relocatable
  obtain ⟨image, relocated, written⟩ := loadInto_eq_ok ran
  have delta : irx.delta address = address := if_pos relocatable
  unfold IrxModule.relocated at relocated
  rw [linked, delta] at relocated
  have progress : Progress irx.image address irx.relocations image :=
    (Progress.nil irx.image address).apply_all table.aligned table.paired apart relocated
  refine ⟨image, written, progress.length, fun relocation member kind => ?_,
    fun high member lowOffset kind => ⟨table.paired.next member kind, ?_⟩,
    fun relocation member kind => ?_, progress.rest⟩
  · obtain ⟨word, shifted, read, made, found⟩ := progress.made relocation member (by rw [kind]; nofun)
    rw [kind] at made
    obtain ⟨fits, sum⟩ := patchedWord_word made
    exact ⟨word, shifted, read, found, fits, sum⟩
  · obtain ⟨before, low, rest, split, low_kind, rfl⟩ := table.paired.next member kind
    have low_member : low ∈ irx.relocations := by
      rw [split]
      exact List.mem_append_right _ (List.mem_cons_of_mem _ List.mem_cons_self)
    obtain ⟨upper, upper', read, made, found⟩ := progress.made high member (by rw [kind]; nofun)
    obtain ⟨lower, lower', low_read, low_made, low_found⟩ :=
      progress.made low low_member (by rw [low_kind]; nofun)
    rw [kind] at made
    rw [low_kind] at low_made
    exact ⟨upper, lower, upper', lower', read, low_read, found, low_found,
      patchedWord_pair made low_read low_made⟩
  · obtain ⟨word, shifted, read, made, found⟩ := progress.made relocation member (by rw [kind]; nofun)
    rw [kind] at made
    obtain ⟨fits, field, upper⟩ := patchedWord_jump made
    exact ⟨word, shifted, read, found, fits, field, upper⟩

theorem ok_of_toOption {ε α : Type} {x : Except ε α} {a : α} (h : x.toOption = some a) : x = .ok a := by
  cases x with
  | error e => cases h
  | ok b => exact congrArg _ (Option.some.inj h)

/-- A module of four words, and a relocation for each of them. -/
def sampleInput : Bytes :=
  [0x7f, 69, 76, 70, 1, 1, 1] ++ List.replicate 9 0 ++ leBytes 2 0xff80 ++ leBytes 2 8 ++ leBytes 4 1 ++
    leBytes 4 0 ++ leBytes 4 52 ++ leBytes 4 160 ++ leBytes 4 0 ++ leBytes 2 52 ++ leBytes 2 32 ++
    leBytes 2 2 ++ leBytes 2 40 ++ leBytes 2 1 ++ leBytes 2 0 ++
    [0x70000080, 116, 0, 0, 28, 28, 0, 0, 1, 144, 0, 0, 16, 16, 0, 4].flatMap (leBytes 4) ++
    leBytes 4 0xffffffff ++ List.replicate 20 0 ++ leBytes 2 0x101 ++ ascii "m" ++ [0] ++
    [0x10, 0x3c020001, 0x24428000, 0x0c000001].flatMap (leBytes 4) ++
    [0, 9, 0, 0, 200, 32, 0, 0, 0, 8].flatMap (leBytes 4) ++
    [0, 2, 4, 5, 8, 6, 12, 4].flatMap (leBytes 4)

def sampleModule : IrxModule where
  origin := "sample.irx"
  limits := .default
  description := ⟨ascii "m", 0x101, .relocatableV1, 0, 0, 0, 0, 0⟩
  rawMetadata := ⟨none, 0, 0⟩
  ranges := [⟨144, 0, 16, 16, 0, 4⟩]
  preferredAddress := 0
  alignment := 4
  image := [0x10, 0x3c020001, 0x24428000, 0x0c000001].flatMap (leBytes 4)
  relocations := [⟨0, .word, 200⟩, ⟨4, .high 8, 208⟩, ⟨8, .low, 216⟩, ⟨12, .jump, 224⟩]

/-- A target that keeps the image it is written. -/
def sampleTarget : TargetMemory Bytes where
  range _ := ⟨0, 0x200000⟩
  writeImage _ _ image := (.ok (), image)

/-- At `0x10000` the pair of `0x8000` becomes the pair of `0x18000`. -/
theorem relocation_exact_sample :
    ∃ image : Bytes, image.length = 16 ∧
      (∃ word shifted, readU32 sampleModule.image 0 = some word ∧ readU32 image 0 = some shifted ∧
        word.toNat + 0x10000 < 2 ^ 32 ∧ shifted.toNat = word.toNat + 0x10000) ∧
      ∃ upper lower upper' lower', readU32 sampleModule.image 4 = some upper ∧
        readU32 sampleModule.image 8 = some lower ∧ readU32 image 4 = some upper' ∧
        readU32 image 8 = some lower' ∧ Int.ModEq (2 ^ 32) (upper'.toNat * 2 ^ 16 + lowHalf lower')
          (upper.toNat * 2 ^ 16 + lowHalf lower + 0x10000) := by
  have parsed : (IrxModule.parseWithLimits "sample.irx" sampleInput .default).toOption =
      some sampleModule := by decide +kernel
  have loads : (sampleModule.loadInto sampleTarget 0x10000 []).1.toOption.isSome = true := by
    decide +kernel
  have apart : Apart sampleModule.image 0x10000 sampleModule.relocations := by
    simp [Apart, sampleModule, Relocation.Targets]
  obtain ⟨loaded, found⟩ := Option.isSome_iff_exists.mp loads
  obtain ⟨image, -, length, words, pairs, -⟩ := relocation_exact sampleTarget "sample.irx" sampleInput
    .default sampleModule 0x10000 [] _ loaded (ok_of_toOption parsed) rfl apart
    (Prod.ext (ok_of_toOption found) rfl)
  obtain ⟨-, pair⟩ := pairs ⟨4, .high 8, 208⟩ (by decide) 8 rfl
  exact ⟨image, length, words ⟨0, .word, 200⟩ (by decide) rfl, pair⟩

end Upse.Irx
