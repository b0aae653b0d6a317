import Upse.Formats.Ps2.IrxRelocations

/-!
# Modules of any kind are rejected or loaded

Parsing and loading never panic, whatever the bytes are: each unchecked step is inside what an earlier
check has established.
-/

namespace Upse.Irx

open Link Panics

/-! ### What the checks establish -/

section Rules

variable {α β : Type} {Q : β → Prop} {f : α → Checked β}

theorem safe_usize_bind {n : ℕ} {f : ℕ → Checked β} (fits : n < 2 ^ 64) (next : Safe Q (f n)) :
    Safe Q (usize n >>= f) := by
  rw [usize_eq_ok.mpr ⟨fits, rfl⟩]
  exact next

theorem safe_okOrAt_bind {origin : String} {o : Option α} {offset : ℕ} {kind : IrxErrorKind}
    (next : ∀ a, o = some a → Safe Q (f a)) : Safe Q (okOrAt origin o offset kind >>= f) := by
  cases o with
  | none => trivial
  | some a => exact next a rfl

theorem safe_rejectAt_bind {origin : String} {c : Prop} [Decidable c] {offset : ℕ} {kind : IrxErrorKind}
    {f : Unit → Checked β} (next : ¬ c → Safe Q (f ())) : Safe Q (rejectAt origin c offset kind >>= f) := by
  unfold rejectAt
  by_cases h : c
  · rw [if_pos h]
    trivial
  · rw [if_neg h]
    exact next h

end Rules

variable {input : Bytes}

theorem readU32_isSome {offset : ℕ} (fits : offset + 4 ≤ input.length) :
    ∃ word, readU32 input offset = some word := ⟨_, if_pos fits⟩

theorem getRange_of_le {start stop : ℕ} (ordered : start ≤ stop)
    (inside : stop ≤ input.length) : getRange input start stop = some (slice input start stop) :=
  if_pos ⟨ordered, inside⟩

theorem length_slice (start : ℕ) {stop : ℕ} (inside : stop ≤ input.length) :
    (slice input start stop).length = stop - start := by
  unfold slice
  rw [List.length_take, List.length_drop]
  omega

theorem readU16_isSome {offset : ℕ} (fits : offset + 2 ≤ input.length) :
    ∃ value, readU16 input offset = some value := by
  unfold readU16
  rw [getRange_of_le (Nat.le_add_right _ _) fits]
  exact ⟨_, rfl⟩

theorem readU16_lt {offset value : ℕ} (read : readU16 input offset = some value) :
    value < 65536 := by
  obtain ⟨part, found, rfl⟩ := Option.map_eq_some_iff.mp read
  obtain ⟨⟨-, inside⟩, rfl⟩ := getRange_eq_some.mp found
  have bound := ofLeBytes_lt (slice input offset (offset + 2))
  rwa [length_slice _ inside, Nat.add_sub_cancel_left] at bound

theorem imageOffset_lt {address preferred size offset : ℕ}
    (h : imageOffset address preferred size = some offset) : offset < size :=
  of_decide_eq_true (Option.filter_eq_some_iff.mp h).2

namespace Parser

section Rules

variable {α β : Type} {parser : Parser} {Q : β → Prop} {offset : ℕ} {kind : IrxErrorKind}

theorem safe_okOr_bind {o : Option α} {f : α → Checked β} (next : ∀ a, o = some a → Safe Q (f a)) :
    Safe Q (parser.okOr o offset kind >>= f) := by
  cases o with
  | none => trivial
  | some a => exact next a rfl

theorem safe_reject_bind {c : Prop} [Decidable c] {f : Unit → Checked β} (next : ¬ c → Safe Q (f ())) :
    Safe Q (parser.reject c offset kind >>= f) := by
  unfold reject
  by_cases h : c
  · rw [if_pos h]
    trivial
  · rw [if_neg h]
    exact next h

theorem safe_reject {c : Prop} [Decidable c] {P : Unit → Prop} (next : ¬ c → P ()) :
    Safe P (parser.reject c offset kind) := by
  unfold reject
  by_cases h : c
  · rw [if_pos h]
    trivial
  · rw [if_neg h]
    exact next h

end Rules

variable (parser : Parser)

theorem safe_slice (offset size : ℕ) :
    Safe (fun part => part.length = size ∧ offset + size ≤ parser.input.length)
      (parser.slice offset size) := by
  unfold Parser.slice
  refine safe_okOr_bind fun stop sum => ?_
  obtain ⟨-, rfl⟩ := checkedAdd_eq_some.mp sum
  unfold okOr
  split
  next part found =>
    obtain ⟨⟨-, inside⟩, rfl⟩ := getRange_eq_some.mp found
    exact ⟨by rw [length_slice _ inside, Nat.add_sub_cancel_left], inside⟩
  next => trivial

theorem safe_u16 (offset : ℕ) : Safe (· < 65536) (parser.u16 offset) := by
  unfold u16 okOr
  split
  next value read => exact readU16_lt read
  next => trivial

theorem safe_u32 (offset : ℕ) : Safe (· < 2 ^ 32) (parser.u32 offset) := by
  unfold u32 okOr
  split
  next value read =>
    obtain ⟨word, -, rfl⟩ := Option.map_eq_some_iff.mp read
    exact word.isLt
  next => trivial

theorem safe_table (offset count size : ℕ) : Safe (fun _ => True) (parser.table offset count size) := by
  unfold table
  refine safe_okOr_bind fun bytes _ => ?_
  exact (parser.safe_slice offset bytes).bind fun _ _ => trivial

theorem safe_programHeaders {offset count : ℕ} (offset_lt : offset < 2 ^ 32) (count_lt : count < 65536) :
    Safe (fun headers => ∀ header ∈ headers, header.offset < 2 ^ 32)
      (parser.programHeaders offset count) := by
  refine (safe_mapM (Q := fun header : ProgramHeader => header.offset < 2 ^ 32) ?_).mono fun _ h => h.2
  intro index member
  have index_lt := List.mem_range.mp member
  have position_lt : offset + index * programHeaderSize < 2 ^ 33 := by
    unfold programHeaderSize
    omega
  refine safe_usize_bind (by omega) ((parser.safe_u32 _).bind fun kind _ => ?_)
  refine safe_usize_bind (by omega) ((parser.safe_u32 _).bind fun start start_lt => ?_)
  refine safe_usize_bind (by omega) ((parser.safe_u32 _).bind fun virtualAddress _ => ?_)
  refine safe_usize_bind (by omega) ((parser.safe_u32 _).bind fun fileSize _ => ?_)
  refine safe_usize_bind (by omega) ((parser.safe_u32 _).bind fun memorySize _ => ?_)
  refine safe_usize_bind (by omega) ((parser.safe_u32 _).bind fun flags _ => ?_)
  refine safe_usize_bind (by omega) ((parser.safe_u32 _).bind fun alignment _ => ?_)
  exact start_lt

/-- What is checked of a loadable range. -/
structure Loadable (header : ProgramHeader) : Prop where
  file : header.fileSize ≤ header.memorySize
  stop : header.virtualAddress + header.memorySize < 2 ^ 32

theorem safe_validateLoad (variant : IrxVariant) (priorEnd : Option ℕ) (header : ProgramHeader) :
    Safe (fun _ => Loadable header) (parser.validateLoad variant priorEnd header) := by
  unfold validateLoad
  refine safe_reject_bind fun file => (parser.safe_slice _ _).bind fun _ _ => ?_
  refine safe_okOr_bind fun stop sum => safe_reject_bind fun _ => safe_reject_bind fun _ => ?_
  refine safe_reject_bind fun _ => ?_
  exact ⟨Nat.not_lt.mp file, (checkedAdd_eq_some.mp sum).1⟩

theorem safe_validateLoads (loads : List ProgramHeader) (variant : IrxVariant) :
    Safe (fun _ => ∀ header ∈ loads, Loadable header) (parser.validateLoads loads variant) := by
  have each (rest : List ProgramHeader) : ∀ prior : Option ℕ,
      Safe (fun _ => ∀ header ∈ rest, Loadable header) (rest.foldlM (parser.validateLoad variant) prior) := by
    induction rest with
    | nil => exact fun _ => nofun
    | cons header rest ih =>
      intro prior
      rw [List.foldlM_cons]
      refine (parser.safe_validateLoad variant prior header).bind fun next loadable => ?_
      exact (ih next).mono fun _ all => List.forall_mem_cons.mpr ⟨loadable, all⟩
  exact (each loads none).bind fun _ all => all

variable {header : ProgramHeader} {variant : IrxVariant}

theorem safe_copyLoad {preferredAddress : ℕ} {image : Bytes}
    (above : preferredAddress ≤ header.virtualAddress)
    (inside : header.virtualAddress - preferredAddress + header.fileSize ≤ image.length) :
    Safe (fun copied => copied.length = image.length)
      (parser.copyLoad preferredAddress image header) := by
  unfold copyLoad
  refine safe_expect_bind (if_pos above) ?_
  refine (parser.safe_slice _ _).bind fun bytes ⟨length, _⟩ => ?_
  have fits : header.virtualAddress - preferredAddress + bytes.length ≤ image.length := length ▸ inside
  unfold copyInto
  rw [if_pos fits]
  show (_ ++ (_ ++ _) : Bytes).length = _
  rw [List.length_append, List.length_append, List.length_take, List.length_drop]
  omega

/-- The image is as long as its parts reach. -/
theorem safe_loadImage {phoff : ℕ} {loads : List ProgramHeader} (some_load : loads ≠ [])
    (sorted : loads.Pairwise fun a b => a.virtualAddress ≤ b.virtualAddress)
    (loadable : ∀ header ∈ loads, Loadable header) :
    Safe (fun loaded => loaded.2.1 = loaded.2.2.length ∧ loaded.2.2.length < 2 ^ 32 ∧
        (variant.isRelocatable = true → loaded.1 = 0)) (parser.loadImage phoff loads variant) := by
  obtain ⟨first, rest, rfl⟩ := List.exists_cons_of_ne_nil some_load
  unfold loadImage
  refine safe_expect_bind rfl (safe_reject_bind fun linked => ?_)
  have ends (headers : List ProgramHeader) (each : ∀ header ∈ headers, Loadable header) :
      (headers.mapM fun header => expect (checkedAdd 32 header.virtualAddress header.memorySize) :
        Checked (List ℕ)) = .ok (headers.map fun header => header.virtualAddress + header.memorySize) := by
    induction headers with
    | nil => rfl
    | cons header headers ih =>
      rw [List.mapM_cons, checkedAdd_eq_some.mpr ⟨(each header List.mem_cons_self).stop, rfl⟩,
        ih fun other member => each other (List.mem_cons_of_mem _ member)]
      rfl
  rw [ends _ loadable]
  have nonempty : ((first :: rest).map fun header => header.virtualAddress + header.memorySize) ≠ [] :=
    List.cons_ne_nil _ _
  obtain ⟨imageEnd, is_end⟩ := Option.ne_none_iff_exists'.mp (mt List.max?_eq_none_iff.mp nonempty)
  obtain ⟨end_mem, end_max⟩ := List.max?_eq_some_iff.mp is_end
  have end_lt : imageEnd < 2 ^ 32 := by
    obtain ⟨header, member, rfl⟩ := List.mem_map.mp end_mem
    exact (loadable header member).stop
  refine Safe.bind (P := fun ends => ends = (first :: rest).map fun header =>
    header.virtualAddress + header.memorySize) rfl fun _ same => ?_
  subst same
  refine safe_expect_bind is_end (safe_okOr_bind fun imageSize difference => safe_reject_bind fun _ => ?_)
  have size : imageSize = imageEnd - first.virtualAddress := by
    unfold checkedSub at difference
    split at difference
    next => exact (Option.some.inj difference).symm
    next => cases difference
  refine Safe.bind (P := fun image => image.length = imageSize) ?_ fun image length => ?_
  · refine safe_foldlM (fun header member image length => ?_) (List.length_replicate ..)
    have above : first.virtualAddress ≤ header.virtualAddress := by
      rcases List.mem_cons.mp member with rfl | later
      · exact le_refl _
      · exact (List.pairwise_cons.mp sorted).1 header later
    have below := end_max _ (List.mem_map_of_mem member)
    have file := (loadable header member).file
    refine (parser.safe_copyLoad above ?_).mono fun copied same => same.trans length
    rw [length, size]
    omega
  · refine ⟨length.symm, ?_, fun relocatable => ?_⟩
    · show image.length < _
      omega
    · by_contra nonzero
      exact linked ⟨relocatable, nonzero⟩

theorem safe_moduleIdentity {image : Bytes}
    {preferredAddress moduleIdRaw headerVersion : ℕ} {headerName : Option Str}
    (offset_lt : header.offset < 2 ^ 32) (length_lt : image.length < 2 ^ 32) :
    Safe (fun _ => True) (parser.moduleIdentity header image preferredAddress moduleIdRaw headerVersion
      headerName) := by
  unfold moduleIdentity
  refine Safe.ite (fun _ => ?_) fun _ => ?_
  · refine safe_usize_bind (by omega) (safe_okOr_bind fun _ _ => trivial)
  · refine safe_okOr_bind fun moduleOffset found => ?_
    have module_lt := imageOffset_lt found
    refine safe_okOr_bind fun namePointer _ => safe_usize_bind (by omega) ?_
    refine safe_okOr_bind fun idVersion _ => safe_okOr_bind fun nameOffset name_found => ?_
    have name_lt := imageOffset_lt name_found
    refine safe_expect_bind (getRange_of_le (by omega) (le_refl _)) ?_
    refine safe_mapError_bind fun _ _ => safe_okOr_bind fun _ _ => ?_
    exact safe_usize_bind (by omega) (safe_reject_bind fun _ => trivial)

theorem safe_moduleMetadata {image : Bytes} {preferredAddress elfEntry : ℕ}
    (offset_lt : header.offset < 2 ^ 32) (length_lt : image.length < 2 ^ 32) :
    Safe (fun found => found.2.variant = variant)
      (parser.moduleMetadata header image preferredAddress variant elfEntry) := by
  unfold moduleMetadata
  refine safe_reject_bind fun enough => (parser.safe_slice _ _).bind fun bytes ⟨length, _⟩ => ?_
  have word (offset : ℕ) (fits : offset + 4 ≤ 26) : ∃ word, readU32 bytes offset = some word :=
    readU32_isSome (by omega)
  obtain ⟨_, moduleIdRaw⟩ := word 0 (by omega)
  obtain ⟨_, entry⟩ := word 4 (by omega)
  obtain ⟨_, globalPointer⟩ := word 8 (by omega)
  obtain ⟨_, textSize⟩ := word 12 (by omega)
  obtain ⟨_, dataSize⟩ := word 16 (by omega)
  obtain ⟨_, bssSize⟩ := word 20 (by omega)
  obtain ⟨_, headerVersion⟩ : ∃ version, readU16 bytes 24 = some version := readU16_isSome (by omega)
  refine safe_expect_bind moduleIdRaw (safe_expect_bind entry (safe_expect_bind globalPointer ?_))
  refine safe_expect_bind textSize (safe_expect_bind dataSize (safe_expect_bind bssSize ?_))
  refine safe_expect_bind headerVersion (safe_usize_bind (by omega) (safe_reject_bind fun _ => ?_))
  refine safe_usize_bind (by omega) (safe_reject_bind fun _ => safe_usize_bind (by omega) ?_)
  refine safe_okOr_bind fun _ _ => safe_usize_bind (by omega) (safe_reject_bind fun _ => ?_)
  refine safe_usize_bind (by omega) (safe_mapError_bind fun _ _ => ?_)
  exact (parser.safe_moduleIdentity offset_lt length_lt).bind fun _ _ => rfl

/-- Offsets and sizes of a section are words. -/
structure Sized (header : SectionHeader) : Prop where
  offset : header.offset < 2 ^ 32
  size : header.size < 2 ^ 32

theorem safe_sectionHeader {position : ℕ} (position_lt : position < 2 ^ 33) :
    Safe Sized (parser.sectionHeader position) := by
  unfold sectionHeader
  refine safe_usize_bind (by omega) ((parser.safe_u32 _).bind fun kind _ => ?_)
  refine safe_usize_bind (by omega) ((parser.safe_u32 _).bind fun offset offset_lt => ?_)
  refine safe_usize_bind (by omega) ((parser.safe_u32 _).bind fun size size_lt => ?_)
  refine safe_usize_bind (by omega) ((parser.safe_u32 _).bind fun link _ => ?_)
  refine safe_usize_bind (by omega) ((parser.safe_u32 _).bind fun info _ => ?_)
  refine safe_usize_bind (by omega) ((parser.safe_u32 _).bind fun alignment _ => ?_)
  refine safe_usize_bind (by omega) ((parser.safe_u32 _).bind fun entrySize _ => ?_)
  have rest : Safe Sized (usize (position + 32) >>= fun position' =>
      parser.reject (alignment ≠ 0 ∧ isPowerOfTwo alignment = false) position' .invalidSection >>= fun _ =>
        pure ⟨kind, offset, size, link, info, alignment, entrySize⟩) :=
    safe_usize_bind (by omega) (safe_reject_bind fun _ => ⟨offset_lt, size_lt⟩)
  split
  next => exact rest
  next => exact (parser.safe_slice _ _).bind fun _ _ => rest

theorem safe_sectionHeaders {offset count : ℕ} (offset_lt : offset < 2 ^ 32) (count_lt : count < 65536) :
    Safe (fun sections => sections.length < 65536 ∧ ∀ header ∈ sections, Sized header)
      (parser.sectionHeaders offset count) := by
  refine (safe_mapM (Q := Sized) ?_).mono fun sections all => ⟨?_, all.2⟩
  · intro index member
    have index_lt := List.mem_range.mp member
    have position_lt : offset + index * sectionHeaderSize < 2 ^ 33 := by
      unfold sectionHeaderSize
      omega
    exact safe_usize_bind (by omega) (parser.safe_sectionHeader position_lt)
  · rw [all.1, List.length_range]
    exact count_lt

theorem safe_validateSymbol (sections : List SectionHeader) (header : SectionHeader) (strings : Bytes)
    {symbol : Bytes} (length : symbol.length = symbolSize) :
    Safe (fun _ => True) (parser.validateSymbol sections header strings symbol) := by
  have size : symbol.length = 16 := length
  obtain ⟨_, name⟩ : ∃ word, readU32 symbol 0 = some word := readU32_isSome (by omega)
  obtain ⟨_, index⟩ : ∃ value, readU16 symbol 14 = some value := readU16_isSome (by omega)
  unfold validateSymbol
  exact safe_expect_bind name (safe_expect_bind index (safe_reject fun _ => trivial))

theorem length_of_mem_chunksExact {size : ℕ} {bytes chunk : Bytes} (member : chunk ∈ chunksExact size bytes) :
    chunk.length = size := by
  obtain ⟨index, index_mem, rfl⟩ := List.mem_map.mp member
  have index_lt := List.mem_range.mp index_mem
  have inside : (index + 1) * size ≤ bytes.length :=
    (Nat.mul_le_mul_right size index_lt).trans (Nat.div_mul_le_self _ _)
  rw [length_slice _ inside, Nat.succ_mul, Nat.add_sub_cancel_left]

theorem safe_validateSymtab {sections : List SectionHeader} {index : ℕ} (index_lt : index < 65536)
    (header : SectionHeader) : Safe (fun _ => True) (parser.validateSymtab sections index header) := by
  have offset_lt : index * sectionHeaderSize < 2 ^ 64 := by
    unfold sectionHeaderSize
    omega
  unfold validateSymtab
  refine safe_usize_bind offset_lt (safe_reject_bind fun _ => safe_usize_bind offset_lt ?_)
  refine safe_okOr_bind fun strings _ => ?_
  refine Safe.ite (fun _ => ?_) fun _ => trivial
  refine (parser.safe_slice _ _).bind fun symbols _ => (parser.safe_slice _ _).bind fun strings _ => ?_
  exact safe_forM fun symbol member =>
    parser.safe_validateSymbol sections header strings (length_of_mem_chunksExact member)

theorem safe_validateSymbols {sections : List SectionHeader} (few : sections.length < 65536) :
    Safe (fun _ => True) (parser.validateSymbols sections) := by
  refine safe_forM fun (header, index) member => ?_
  have index_lt := (List.mem_zipIdx member).2.1
  dsimp only
  refine Safe.ite (fun _ => parser.safe_validateSymtab ?_ header) fun _ => trivial
  omega

/-! ### Relocation tables -/

theorem safe_validateRelocationSymbol (sections : List SectionHeader) (header : SectionHeader)
    (symbol : ℕ) : Safe (fun _ => True) (parser.validateRelocationSymbol sections header symbol) := by
  unfold validateRelocationSymbol
  exact safe_okOr_bind fun _ _ => safe_reject fun _ => trivial

theorem safe_relocationKind {size preferredAddress position sourceOffset : ℕ} {data : Bytes}
    (position_lt : position < 2 ^ 33) (source_lt : sourceOffset < 2 ^ 34) (kind : ℕ) :
    Safe (fun found => 0 < found.2 ∧ found.2 ≤ 2)
      (parser.relocationKind size preferredAddress data position sourceOffset kind) := by
  have width : relSize = 8 := rfl
  have one : 0 < 1 ∧ 1 ≤ 2 := by decide
  have two : 0 < 2 ∧ 2 ≤ 2 := by decide
  have words {next : Bytes} (found : getRange data (position + relSize) (position + 2 * relSize) = some next) :
      (∃ word, readU32 next 4 = some word) ∧ ∃ word, readU32 next 0 = some word := by
    obtain ⟨⟨-, inside⟩, rfl⟩ := getRange_eq_some.mp found
    have length := length_slice (position + relSize) inside
    exact ⟨readU32_isSome (by omega), readU32_isSome (by omega)⟩
  unfold relocationKind
  split
  next => exact one
  next => exact one
  next => exact one
  next =>
    refine safe_usize_bind (by omega) (safe_usize_bind (by omega) (safe_okOr_bind fun next found => ?_))
    obtain ⟨⟨_, info⟩, ⟨_, low⟩⟩ := words found
    refine safe_expect_bind info (safe_reject_bind fun _ => safe_expect_bind low ?_)
    exact safe_usize_bind (by omega) (safe_okOr_bind fun _ _ => one)
  next => exact one
  next =>
    refine safe_usize_bind (by omega) (safe_usize_bind (by omega) (safe_okOr_bind fun next found => ?_))
    obtain ⟨⟨_, info⟩, ⟨_, addend⟩⟩ := words found
    exact safe_expect_bind info (safe_reject_bind fun _ => safe_expect_bind addend two)
  next => trivial
  next => exact safe_usize_bind (by omega) trivial

theorem wordOffset_eq_some {address preferred size position : ℕ}
    (h : wordOffset address preferred size = some position) :
    imageOffset address preferred size = some position ∧ position + 4 ≤ size ∧ position % 4 = 0 := by
  obtain ⟨found, checks⟩ := Option.filter_eq_some_iff.mp h
  rw [Bool.and_eq_true, decide_eq_true_eq, Option.any_eq_true] at checks
  obtain ⟨⟨stop, sum, inside⟩, aligned⟩ := checks
  obtain ⟨-, rfl⟩ := checkedAdd_eq_some.mp sum
  exact ⟨found, of_decide_eq_true inside, aligned⟩

/-- The word of a relocation is a word of an image of this size. -/
def InImage (size preferredAddress : ℕ) (relocation : Relocation) : Prop :=
  ∃ position, imageOffset relocation.offset preferredAddress size = some position ∧
    position + 4 ≤ size ∧ position % 4 = 0

variable {sections : List SectionHeader} {header : SectionHeader} {size preferredAddress : ℕ}

theorem safe_relocationEntry {data : Bytes} {index count : ℕ} (sized : Sized header)
    (index_lt : index < count) (length : data.length = count * relSize) (few : count ≤ header.size / relSize) :
    Safe (fun found => (0 < found.2 ∧ found.2 ≤ 2) ∧
        ∀ relocation ∈ found.1, InImage size preferredAddress relocation)
      (parser.relocationEntry sections header size preferredAddress data index) := by
  have offset_lt := sized.offset
  have size_lt := sized.size
  have record : index * relSize + 8 ≤ count * relSize ∧ count * relSize ≤ header.size := by
    unfold relSize at few ⊢
    omega
  obtain ⟨_, offset⟩ : ∃ word, readU32 data (index * relSize) = some word := readU32_isSome (by omega)
  obtain ⟨_, info⟩ : ∃ word, readU32 data (index * relSize + 4) = some word := readU32_isSome (by omega)
  unfold relocationEntry
  refine safe_usize_bind (by omega) (safe_expect_bind offset (safe_usize_bind (by omega) ?_))
  refine safe_expect_bind info (safe_usize_bind (by omega) ?_)
  refine Safe.ite (fun _ => ?_) fun _ => Safe.ite (fun _ => ⟨⟨by decide, by decide⟩, nofun⟩) fun _ => ?_
  · refine (parser.safe_validateRelocationSymbol _ _ _).bind fun _ _ => ?_
    exact safe_usize_bind (by omega) trivial
  · refine safe_okOr_bind fun position found => ?_
    refine (parser.safe_relocationKind (by omega) (by omega) _).bind fun kind some_records => ?_
    refine ⟨some_records, fun relocation member => ?_⟩
    obtain rfl := Option.some.inj member
    exact ⟨position, wordOffset_eq_some found⟩

theorem safe_relocationEntries {data : Bytes} {count rounds index : ℕ} {output : List Relocation}
    (sized : Sized header) (length : data.length = count * relSize) (few : count ≤ header.size / relSize)
    (enough : count ≤ index + rounds) (before : ∀ relocation ∈ output, InImage size preferredAddress relocation) :
    Safe (fun all => ∀ relocation ∈ all, InImage size preferredAddress relocation)
      (parser.relocationEntries sections header size preferredAddress data count rounds index output) := by
  induction rounds generalizing index output with
  | zero =>
    unfold relocationEntries
    rw [if_neg (by omega)]
    exact before
  | succ rounds ih =>
    unfold relocationEntries
    refine Safe.ite (fun more => ?_) fun _ => before
    refine (parser.safe_relocationEntry sized more length few).bind fun found fits => ?_
    obtain ⟨some_records, inside⟩ := fits
    have size_lt := sized.size
    have count_lt : count < 2 ^ 32 := by
      unfold relSize at few
      omega
    refine safe_usize_bind (by omega) (ih (by omega) fun relocation member => ?_)
    rcases List.mem_append.mp member with earlier | this
    · exact before relocation earlier
    · exact inside relocation (Option.mem_toList.mp this)

theorem safe_sectionRelocations {output : List Relocation} (sized : Sized header)
    (before : ∀ relocation ∈ output, variant.isRelocatable = true ∧ InImage size preferredAddress relocation) :
    Safe (fun all => ∀ relocation ∈ all, variant.isRelocatable = true ∧
        InImage size preferredAddress relocation)
      (parser.sectionRelocations sections variant size preferredAddress output header) := by
  have size_lt := sized.size
  unfold sectionRelocations
  refine Safe.ite (fun _ => before) fun _ => ?_
  refine safe_reject_bind fun relocatable => safe_reject_bind fun _ => safe_reject_bind fun _ => ?_
  rw [Bool.not_eq_false] at relocatable
  refine safe_okOr_bind fun available _ => ?_
  have few : min available header.size / relSize ≤ header.size / relSize :=
    Nat.div_le_div_right (Nat.min_le_right _ _)
  have bytes_lt : min available header.size / relSize * relSize < 2 ^ 64 := by
    unfold relSize at *
    omega
  refine safe_usize_bind bytes_lt ((parser.safe_slice _ _).bind fun data ⟨length, _⟩ => ?_)
  refine (parser.safe_relocationEntries sized length few (by omega)
    fun relocation member => (before relocation member).2).mono ?_
  exact fun all inside relocation member => ⟨relocatable, inside relocation member⟩

theorem safe_relocations (sized : ∀ header ∈ sections, Sized header) :
    Safe (fun all => ∀ relocation ∈ all, variant.isRelocatable = true ∧
        InImage size preferredAddress relocation)
      (parser.relocations sections variant size preferredAddress) :=
  safe_foldlM (fun header member _ before => parser.safe_sectionRelocations (sized header member) before)
    nofun

/-! ### Whole modules -/

theorem safe_elfVariant (kind : ℕ) : Safe (fun _ => True) (parser.elfVariant kind) := by
  unfold elfVariant
  split <;> trivial

theorem safe_elfHeader :
    Safe (fun elf => elf.phoff < 2 ^ 32 ∧ elf.phnum < 65536 ∧ elf.shoff < 2 ^ 32 ∧ elf.shnum < 65536)
      parser.elfHeader := by
  unfold elfHeader
  refine safe_reject_bind fun _ => safe_okOr_bind fun ident found => ?_
  obtain ⟨⟨-, inside⟩, rfl⟩ := getRange_eq_some.mp found
  have length := length_slice 0 inside
  refine safe_expect_bind (getRange_of_le (by omega) (by omega)) ?_
  refine safe_reject_bind fun _ => safe_reject_bind fun _ => (parser.safe_u16 _).bind fun kind _ => ?_
  refine (parser.safe_elfVariant kind).bind fun variant _ => ?_
  refine (parser.safe_u16 _).bind fun machine _ => safe_reject_bind fun _ => ?_
  refine (parser.safe_u32 _).bind fun version _ => safe_reject_bind fun _ => ?_
  refine (parser.safe_u16 _).bind fun headerSize _ => safe_reject_bind fun _ => ?_
  refine (parser.safe_u32 _).bind fun entry _ => (parser.safe_u32 _).bind fun phoff phoff_lt => ?_
  refine (parser.safe_u32 _).bind fun shoff shoff_lt => (parser.safe_u16 _).bind fun phentsize _ => ?_
  refine (parser.safe_u16 _).bind fun phnum phnum_lt => (parser.safe_u16 _).bind fun shentsize _ => ?_
  refine (parser.safe_u16 _).bind fun shnum shnum_lt => safe_reject_bind fun _ => safe_reject_bind fun _ => ?_
  refine (parser.safe_table _ _ _).bind fun _ _ => safe_reject_bind fun _ => ?_
  refine Safe.ite (fun _ => safe_reject_bind fun _ => ?_) fun _ => safe_reject_bind fun _ => ?_
  · exact ⟨phoff_lt, phnum_lt, shoff_lt, shnum_lt⟩
  · exact (parser.safe_table _ _ _).bind fun _ _ => ⟨phoff_lt, phnum_lt, shoff_lt, shnum_lt⟩

end Parser

/-- What loading a parsed module needs of it. -/
structure Sane (irx : IrxModule) : Prop where
  alignment : irx.alignment ≠ 0
  length : irx.image.length < 2 ^ 32
  relocations : ∀ relocation ∈ irx.relocations, irx.description.variant.isRelocatable = true ∧
    Parser.InImage irx.image.length irx.preferredAddress relocation

theorem Parser.safe_parse (parser : Parser) : Safe Sane parser.parse := by
  unfold parse
  refine parser.safe_elfHeader.bind fun elf ⟨phoff_lt, phnum_lt, shoff_lt, shnum_lt⟩ => ?_
  refine (parser.safe_programHeaders phoff_lt phnum_lt).bind fun headers headers_lt => ?_
  refine safe_reject_bind fun layout => ?_
  rw [not_or, not_not] at layout
  obtain ⟨one_metadata, some_load⟩ := layout
  have perm := List.perm_insertionSort (fun a b : ProgramHeader => a.virtualAddress ≤ b.virtualAddress)
    (headers.filter (·.kind = ptLoad))
  have sorted := List.pairwise_insertionSort (fun a b : ProgramHeader => a.virtualAddress ≤ b.virtualAddress)
    (headers.filter (·.kind = ptLoad))
  have nonempty : (headers.filter (·.kind = ptLoad)).insertionSort
      (fun a b => a.virtualAddress ≤ b.virtualAddress) ≠ [] :=
    fun none => some_load (List.nil_perm.mp (none ▸ perm))
  generalize (headers.filter (·.kind = ptLoad)).insertionSort
    (fun a b => a.virtualAddress ≤ b.virtualAddress) = loads at sorted nonempty
  refine (parser.safe_validateLoads loads elf.variant).bind fun _ loadable => ?_
  refine (parser.safe_loadImage nonempty sorted loadable).bind fun (preferred, size, image) built => ?_
  obtain ⟨is_size, length_lt, -⟩ := built
  dsimp only at is_size length_lt ⊢
  subst is_size
  have alignments : (loads.map fun header => max header.alignment 1) ≠ [] :=
    fun none => nonempty (List.map_eq_nil_iff.mp none)
  obtain ⟨alignment, is_max⟩ := Option.ne_none_iff_exists'.mp (mt List.max?_eq_none_iff.mp alignments)
  have positive : alignment ≠ 0 := by
    obtain ⟨header, -, rfl⟩ := List.mem_map.mp (List.max?_eq_some_iff.mp is_max).1
    exact (Nat.lt_of_lt_of_le Nat.one_pos (Nat.le_max_right _ _)).ne'
  obtain ⟨metadataHeader, metadata_only⟩ := List.length_eq_one_iff.mp one_metadata
  have metadata_mem : metadataHeader ∈ headers :=
    List.mem_of_mem_filter (metadata_only ▸ List.mem_cons_self)
  refine safe_expect_bind is_max ?_
  rw [metadata_only]
  refine safe_expect_bind rfl ?_
  refine (parser.safe_moduleMetadata (headers_lt metadataHeader metadata_mem) length_lt).bind
    fun (raw, description) is_variant => ?_
  refine (parser.safe_sectionHeaders shoff_lt shnum_lt).bind fun sections ⟨few, sized⟩ => ?_
  refine (parser.safe_validateSymbols few).bind fun _ _ => ?_
  refine (parser.safe_relocations sized).bind fun relocations inside => ?_
  refine ⟨positive, length_lt, fun relocation member => ?_⟩
  have is_variant : description.variant = elf.variant := is_variant
  show description.variant.isRelocatable = true ∧ _
  rw [is_variant]
  exact inside relocation member

/-! ### Relocating -/

section Relocating

variable {origin : String} {image after : Bytes} {delta : Word} {preferredAddress : ℕ}
  {relocation : Relocation}

theorem length_followChain {malformed : IrxError} {immediate : Word} {remaining position : ℕ}
    (h : followChain malformed immediate remaining image position = .ok after) :
    after.length = image.length := by
  induction remaining generalizing image position with
  | zero => cases h
  | succ remaining ih =>
    unfold followChain at h
    split at h
    next => cases h
    next word read =>
      have kept := length_writeU32 (readU32_fits read) (patchLow word immediate)
      dsimp only at h
      split at h
      next => exact (Except.ok.inj h) ▸ kept
      next =>
        split at h
        next => cases h
        next => exact (ih h).trans kept

theorem length_applySonyHigh {position sourceOffset : ℕ} {addend : Word}
    (h : applySonyHigh origin image position delta addend sourceOffset = .ok after) :
    after.length = image.length := by
  unfold applySonyHigh at h
  split at h
  next => cases h
  next => exact length_followChain h

theorem safe_applyRelocation :
    Safe (fun patched => patched.length = image.length)
      (applyRelocation origin preferredAddress delta image relocation) := by
  unfold applyRelocation
  refine safe_okOrAt_bind fun position _ => safe_okOrAt_bind fun word read => ?_
  have fits := readU32_fits read
  split
  next addend _ =>
    cases applied : applySonyHigh origin image position delta addend relocation.sourceOffset with
    | error e => trivial
    | ok patched => exact length_applySonyHigh applied
  next =>
    refine safe_mapError_bind fun patched _ => ?_
    rw [if_pos fits]
    exact length_writeU32 fits patched

theorem Parser.InImage.targets (inside : Parser.InImage image.length 0 relocation) {word : ℕ}
    (targets : relocation.Targets image delta word) : word + 4 ≤ image.length := by
  obtain ⟨position, found, start_inside, -⟩ := inside
  obtain ⟨rfl, -⟩ := imageOffset_zero.mp found
  unfold Relocation.Targets at targets
  split at targets
  next =>
    clear found
    generalize ([] : List ℕ) = seen at targets
    generalize relocation.offset = start at targets start_inside
    induction targets with
    | here => exact start_inside
    | next leads _ ih =>
      refine ih ?_
      unfold relink at leads
      split at leads
      next => exact (stepLink_eq_next leads).2
      next => exact (sonyLink_eq_next leads).2
  next =>
    subst targets
    exact start_inside

end Relocating

/-! ### Link tables -/

/-- The address range of a part of the loaded image. -/
def Loaded (image : Bytes) (address start size : ℕ) : Prop :=
  address ≤ start ∧ start + size ≤ address + image.length

/-- Stubs and functions lie inside the loaded image. -/
structure LinksInside (image : Bytes) (address : ℕ) (imports : List ImportLibrary)
    (exports : List ExportLibrary) : Prop where
  stubs : ∀ library ∈ imports, ∀ stub ∈ library.stubs, Loaded image address stub.address 8
  functions : ∀ library ∈ exports, ∀ function ∈ library.functions, Loaded image address function 4

section LinkTables

variable {origin : String} {image : Bytes} {address : ℕ} {limits : IrxLimits}

theorem safe_countEntry (cursor entries : ℕ) :
    Safe (fun _ => True) (countEntry origin limits cursor entries) := by
  unfold countEntry
  exact safe_okOrAt_bind fun _ _ => safe_rejectAt_bind fun _ => trivial

theorem safe_importStubs (length_lt : image.length < 2 ^ 32) {rounds cursor entries : ℕ}
    {stubs : List ImportStub} (enough : image.length < cursor + rounds) (inside : cursor ≤ image.length)
    (before : ∀ stub ∈ stubs, Loaded image address stub.address 8) :
    Safe (fun found => ∀ stub ∈ found.1, Loaded image address stub.address 8)
      (importStubs origin image address limits rounds cursor entries stubs) := by
  induction rounds generalizing cursor entries stubs with
  | zero => omega
  | succ rounds ih =>
    unfold importStubs
    refine safe_usize_bind (by omega) (safe_okOrAt_bind fun stub found => ?_)
    obtain ⟨⟨-, stub_inside⟩, rfl⟩ := getRange_eq_some.mp found
    have length := length_slice cursor stub_inside
    obtain ⟨_, jump⟩ : ∃ word, readU32 (slice image cursor (cursor + 8)) 0 = some word :=
      readU32_isSome (by omega)
    obtain ⟨_, ordinal⟩ : ∃ word, readU32 (slice image cursor (cursor + 8)) 4 = some word :=
      readU32_isSome (by omega)
    refine safe_expect_bind jump (safe_expect_bind ordinal (Safe.ite (fun _ => before) fun _ => ?_))
    refine safe_rejectAt_bind fun _ => (safe_countEntry _ _).bind fun entries _ => ?_
    refine safe_okOrAt_bind fun stubAddress sum => safe_usize_bind (by omega) ?_
    obtain ⟨-, rfl⟩ := checkedAdd_eq_some.mp sum
    refine ih (by omega) stub_inside fun stub member => ?_
    rcases List.mem_append.mp member with earlier | this
    · exact before stub earlier
    · obtain rfl := List.mem_singleton.mp this
      have same : cursor % 2 ^ 32 = cursor := Nat.mod_eq_of_lt (by omega)
      unfold Loaded
      dsimp only
      rw [same]
      omega

theorem safe_exportFunctions (length_lt : image.length < 2 ^ 32) {rounds cursor entries : ℕ}
    {functions : List ℕ} (enough : image.length < cursor + rounds) (inside : cursor ≤ image.length)
    (before : ∀ function ∈ functions, Loaded image address function 4) :
    Safe (fun found => ∀ function ∈ found.1, Loaded image address function 4)
      (exportFunctions origin image address limits (address + image.length) rounds cursor entries
        functions) := by
  induction rounds generalizing cursor entries functions with
  | zero => omega
  | succ rounds ih =>
    unfold exportFunctions
    refine safe_okOrAt_bind fun function read => Safe.ite (fun _ => before) fun _ => ?_
    have fits := readU32_fits read
    refine safe_rejectAt_bind fun contained => (safe_countEntry _ _).bind fun entries _ => ?_
    refine safe_usize_bind (by omega) (ih (by omega) fits fun other member => ?_)
    rcases List.mem_append.mp member with earlier | this
    · exact before other earlier
    · obtain rfl := List.mem_singleton.mp this
      rw [Bool.not_eq_false] at contained
      unfold MemoryRange.contains at contained
      rw [Option.any_eq_true] at contained
      obtain ⟨stop, found, bounds⟩ := contained
      obtain ⟨size, small, sum⟩ := Option.bind_eq_some_iff.mp found
      obtain ⟨-, rfl⟩ := checkedAdd_eq_some.mp small
      obtain ⟨-, rfl⟩ := checkedAdd_eq_some.mp sum
      rw [Bool.and_eq_true, decide_eq_true_eq, decide_eq_true_eq] at bounds
      exact bounds

theorem safe_linkTable (length_lt : image.length < 2 ^ 32) {tables : LinkTables} {position : ℕ}
    (inside : position + 4 ≤ image.length)
    (before : LinksInside image address tables.imports tables.exports) :
    Safe (fun found => LinksInside image address found.imports found.exports)
      (linkTable origin image address limits (address + image.length) tables position) := by
  obtain ⟨magic, read⟩ := readU32_isSome inside
  unfold linkTable
  refine safe_expect_bind read (Safe.ite (fun _ => before) fun _ => safe_rejectAt_bind fun _ => ?_)
  refine safe_usize_bind (by omega) (safe_okOrAt_bind fun header found => ?_)
  obtain ⟨⟨-, header_inside⟩, rfl⟩ := getRange_eq_some.mp found
  have length := length_slice position header_inside
  obtain ⟨_, version⟩ : ∃ value, readU16 (slice image position (position + 20)) 8 = some value :=
    readU16_isSome (by omega)
  obtain ⟨_, mode⟩ : ∃ value, readU16 (slice image position (position + 20)) 10 = some value :=
    readU16_isSome (by omega)
  refine safe_usize_bind (by omega) (safe_rejectAt_bind fun _ => safe_expect_bind version ?_)
  refine safe_expect_bind mode (safe_expect_bind (getRange_of_le (by omega) (by omega)) ?_)
  refine safe_usize_bind (by omega) (safe_okOrAt_bind fun name _ => safe_okOrAt_bind fun tableAddress _ => ?_)
  refine safe_usize_bind (by omega) (Safe.ite (fun _ => ?_) fun _ => ?_)
  · refine (safe_importStubs length_lt (by omega) header_inside (List.forall_mem_nil _)).bind fun found stubs => ?_
    refine ⟨fun library member => ?_, before.functions⟩
    rcases List.mem_append.mp member with earlier | this
    · exact before.stubs library earlier
    · obtain rfl := List.mem_singleton.mp this
      exact stubs
  · refine (safe_exportFunctions length_lt (by omega) header_inside (List.forall_mem_nil _)).bind fun found functions => ?_
    refine ⟨before.stubs, fun library member => ?_⟩
    rcases List.mem_append.mp member with earlier | this
    · exact before.functions library earlier
    · obtain rfl := List.mem_singleton.mp this
      exact functions

theorem safe_parseLinkTables (length_lt : image.length < 2 ^ 32) :
    Safe (fun found => LinksInside image address found.1 found.2)
      (parseLinkTables origin image address limits) := by
  unfold parseLinkTables
  refine safe_okOrAt_bind fun imageSize size => safe_okOrAt_bind fun imageEnd sum => ?_
  obtain ⟨-, rfl⟩ := checkedAdd_eq_some.mp size
  obtain ⟨-, rfl⟩ := checkedAdd_eq_some.mp sum
  refine Safe.bind (safe_foldlM (I := fun tables : LinkTables =>
    LinksInside image address tables.imports tables.exports) (fun position member tables before => ?_)
      ⟨nofun, nofun⟩) fun tables inside => inside
  obtain ⟨index, listed, rfl⟩ := List.mem_map.mp member
  have index_lt := List.mem_range.mp listed
  exact safe_linkTable length_lt (by omega) before

end LinkTables

/-! ### Loading -/

theorem safe_stage {irx : IrxModule} (sane : Sane irx) (range : MemoryRange) (address : Word) :
    Safe (fun staged => staged.1.length = irx.image.length ∧
        LinksInside staged.1 address.toNat staged.2.imports staged.2.exports)
      (irx.stage range address) := by
  unfold IrxModule.stage
  refine safe_expect_bind (if_neg sane.alignment) (safe_rejectAt_bind fun _ => safe_rejectAt_bind fun _ => ?_)
  have relocated : Safe (fun image => image.length = irx.image.length) (irx.relocated address) :=
    safe_foldlM (fun _ _ _ length => safe_applyRelocation.mono fun _ same => same.trans length) rfl
  refine relocated.bind fun image length => safe_okOrAt_bind fun entry _ => ?_
  refine safe_okOrAt_bind fun globalPointer _ => safe_okOrAt_bind fun stop _ => ?_
  refine safe_rejectAt_bind fun _ => ?_
  have rest (moduleId : Option ℕ) := (@safe_parseLinkTables irx.origin image address.toNat irx.limits
    (length ▸ sane.length)).bind
      (f := fun found => (pure (image, {
        description := irx.description
        entry := entry
        globalPointer := globalPointer
        moduleId := moduleId
        allocation := ⟨address.toNat, irx.allocationSize, irx.alignment⟩
        imports := found.1
        exports := found.2
        residentState := .unstarted }) : Checked (Bytes × LoadedModule)))
      (Q := fun staged => staged.1.length = irx.image.length ∧
        LinksInside staged.1 address.toNat staged.2.imports staged.2.exports)
      fun found inside => ⟨length, inside⟩
  split
  next => exact safe_okOrAt_bind fun value _ => rest (some value)
  next => exact rest none

/-- Parsing never panics, nor does loading what was parsed, at any address and into any target; a
relocation patches words inside the image, and the stubs and functions that are reported lie inside the
image that is written. -/
theorem irx_total (origin : String) (input : Bytes) (limits : IrxLimits) :
    IrxModule.parseWithLimits origin input limits ≠ .error .panic ∧
    ∀ irx, IrxModule.parseWithLimits origin input limits = .ok irx →
      ∀ (T : Type) (memory : TargetMemory T) (address : Word) (target : T),
        (irx.loadInto memory address target).1 ≠ .error .panic ∧
        (∀ relocation ∈ irx.relocations, ∀ staged patched : Bytes, staged.length = irx.image.length →
          applyRelocation irx.origin irx.preferredAddress (irx.delta address) staged relocation =
            .ok patched →
          patched.length = staged.length ∧
            ∀ offset : ℕ, patched[offset]? ≠ staged[offset]? →
              ∃ word, relocation.Targets staged (irx.delta address) word ∧ word ≤ offset ∧
                offset < word + 4 ∧ word + 4 ≤ staged.length) ∧
        ∀ loaded after, irx.loadInto memory address target = (.ok loaded, after) →
          ∃ image : Bytes, memory.writeImage target address.toNat image = (.ok (), after) ∧
            image.length = irx.image.length ∧
            LinksInside image address.toNat loaded.imports loaded.exports := by
  have parses := (Parser.mk origin input limits).safe_parse
  refine ⟨parses.ne_panic, fun irx parsed T memory address target => ?_⟩
  have sane : Sane irx := parses.of_ok parsed
  have staged := safe_stage sane (memory.range target) address
  refine ⟨?_, fun relocation member current patched length applied => ?_, fun loaded after ran => ?_⟩
  · unfold IrxModule.loadInto
    split
    next stop failed =>
      rintro ⟨⟩
      exact staged.ne_panic failed
    next => split <;> exact nofun
  · obtain ⟨relocatable, inside⟩ := sane.relocations relocation member
    obtain ⟨linked, table⟩ := Parser.parse_relocatable parsed relocatable
    rw [linked] at inside applied
    rw [← length] at inside
    have aligned := table.aligned
    have progress : Progress current (irx.delta address) [relocation] patched := by
      refine (Progress.nil current (irx.delta address)).apply nofun nofun (aligned relocation member)
        (fun lowOffset high => ⟨?_, nofun⟩) applied
      obtain ⟨before, low, rest, split, -, rfl⟩ := table.paired.next member high
      refine aligned low ?_
      rw [split]
      exact List.mem_append_right _ (List.mem_cons_of_mem _ List.mem_cons_self)
    refine ⟨progress.length, fun offset changed => ?_⟩
    by_contra outside
    refine changed (progress.rest offset fun other same => ?_)
    obtain rfl := List.mem_singleton.mp same
    rintro ⟨word, targets, start, stop⟩
    have size := other.kind.fieldSize_le
    exact outside ⟨word, targets, start, by omega, inside.targets targets⟩
  · unfold IrxModule.loadInto at ran
    split at ran
    next => cases ran
    next image loaded' stage =>
      obtain ⟨same_length, links⟩ := staged.of_ok stage
      split at ran
      next => cases ran
      next written =>
        cases ran
        exact ⟨image, written, same_length, links⟩

end Upse.Irx
