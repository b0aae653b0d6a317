import Upse.Formats.Ps2.Vfs
import Upse.Lib.Recorded

/-!
# What parsing a PSF2 filesystem may cost

The parser with a record of the tables it enters, the entries, files and blocks it works on, and the
ranges of the input it reads.  Its requirements are the conditions under which the unchecked arithmetic
and the slices of the source do not panic.
-/

namespace Upse.Vfs

open ErrorState Psf Recorded

/-- What a parse does beside its result. -/
inductive Event where
  /-- A table is entered, below those at the ancestors' offsets, the nearest first. -/
  | directory (ancestors : List ℕ) (offset : ℕ)
  | entry
  /-- A file of this declared size is decompressed. -/
  | file (size : ℕ)
  | block
  /-- Bytes of a section of this size are read. -/
  | access (size start stop : ℕ)
  deriving DecidableEq

/-- Programs that parse a layer, with their record. -/
abbrev RecordedM := RecordM VfsError Parsing Event

section Parse

variable (codecs : Codecs) (origin : Str) (input : Bytes)

/-- The blocks of a file from one on, recorded. -/
def recordedBlocks (offset size blockSize : ℕ) (path : Str) : ℕ → ℕ → ℕ → Bytes → RecordedM Bytes
  | 0, _, _, output => return output
  | remaining + 1, block, compressedOffset, output => do
    let sizeOffset := offset + block * 4
    require (sizeOffset < 2 ^ 64)
    let compressedSize ← lift (okOr (readU32 input sizeOffset) (.layer origin sizeOffset path .truncated))
    emit (.access input.length sizeOffset (sizeOffset + 4))
    let compressedEnd ← lift (okOr (checkedAdd 64 compressedOffset compressedSize)
      (.layer origin compressedOffset path .offsetOverflow))
    lift (throwIf (input.length < compressedEnd) (.layer origin input.length path .truncated))
    emit (.access input.length compressedOffset compressedEnd)
    emit .block
    let compressed := slice input compressedOffset compressedEnd
    require (output.length ≤ size)
    let expected := min blockSize (size - output.length)
    let decoded ← lift (ErrorState.ofExcept
      (decompressBlock codecs origin compressedOffset path compressed expected))
    recordedBlocks offset size blockSize path remaining (block + 1) compressedEnd (output ++ decoded)

/-- The checks and charges of a file: the number of its blocks, and where they begin. -/
def chargeFile (offset size blockSize : ℕ) (path : Str) : ParseM (ℕ × ℕ) := do
  let limits := (← get).builder.limits
  throwIf (limits.maxFileBytes < size) (.layer origin offset path (.limitExceeded "file bytes"))
  throwIf (limits.maxBlockBytes < blockSize)
    (.layer origin offset path (.limitExceeded "block bytes"))
  let aggregateBytes ← okOr (checkedAdd 64 (← get).builder.aggregateBytes size)
    (.layer origin offset path .offsetOverflow)
  modifyBuilder fun builder => { builder with aggregateBytes := aggregateBytes }
  throwIf (limits.maxAggregateBytes < aggregateBytes)
    (.layer origin offset path (.limitExceeded "aggregate file bytes"))
  let blockCount := (size + blockSize - 1) / blockSize
  let blocks ← okOr (checkedAdd 64 (← get).builder.blocks blockCount)
    (.layer origin offset path .offsetOverflow)
  modifyBuilder fun builder => { builder with blocks := blocks }
  throwIf (limits.maxBlocks < blocks) (.layer origin offset path (.limitExceeded "block count"))
  let tableBytes ← okOr (checkedMul 64 blockCount 4) (.layer origin offset path .offsetOverflow)
  let compressedOffset ← okOr (checkedAdd 64 offset tableBytes)
    (.layer origin offset path .offsetOverflow)
  throwIf (input.length < compressedOffset) (.layer origin input.length path .truncated)
  return (blockCount, compressedOffset)

def recordedFile (offset size blockSize : ℕ) (path : Str) : RecordedM Bytes := do
  -- The block count divides by the block size.
  require (blockSize ≠ 0)
  let (blockCount, compressedOffset) ← lift (chargeFile origin input offset size blockSize path)
  emit (.file size)
  recordedBlocks codecs origin input offset size blockSize path blockCount 0 compressedOffset []

/-- The path of the entry at an offset of a table. -/
def entryPath (parent : Str) (entryOffset : ℕ) : ParseM Str := do
  let name ← ErrorState.ofExcept ((parseName (slice input entryOffset (entryOffset + nameBytes))).mapError
    (.layer origin entryOffset parent))
  let path := joinPath parent name
  let limits := (← get).builder.limits
  throwIf (min limits.maxPathBytes specMaxPathBytes < path.length)
    (.layer origin entryOffset path (.limitExceeded "path bytes"))
  return path

def recordedEntry (descend : ℕ → Str → RecordedM Unit) (parent : Str) (entryOffset : ℕ) :
    RecordedM Unit := do
  require (entryOffset + entryBytes ≤ input.length)
  emit .entry
  emit (.access input.length entryOffset (entryOffset + entryBytes))
  let path ← lift (entryPath origin input parent entryOffset)
  let childOffset := wordAt input (entryOffset + 36)
  let size := wordAt input (entryOffset + 40)
  let blockSize := wordAt input (entryOffset + 44)
  if childOffset = 0 ∧ size = 0 ∧ blockSize = 0 then lift (modifyLayer (·.insertFile path []))
  else if size = 0 ∧ blockSize = 0 then
    lift (throwIf (childOffset ≤ entryOffset) (.layer origin (entryOffset + 36) path .offsetOrder))
    lift (modifyLayer (·.insertDirectory path))
    descend childOffset path
  else if childOffset ≠ 0 ∧ size ≠ 0 ∧ blockSize ≠ 0 then
    lift (throwIf (childOffset ≤ entryOffset) (.layer origin (entryOffset + 36) path .offsetOrder))
    let data ← recordedFile codecs origin input childOffset size blockSize path
    lift (modifyLayer (·.insertFile path data))
  else lift (throw (.layer origin (entryOffset + 36) path .invalidEntry))

/-- The count of a table's entries and where they begin, once the table is charged and entered. -/
def enterTable (offset : ℕ) (parent : Str) : ParseM (ℕ × ℕ) := do
  let count ← okOr (readU32 input offset) (.layer origin offset parent .truncated)
  chargeEntries origin offset parent count
  let tableStart ← okOr (checkedAdd 64 offset 4) (.layer origin offset parent .offsetOverflow)
  let tableBytes ← okOr (checkedMul 64 count entryBytes)
    (.layer origin offset parent .offsetOverflow)
  let tableEnd ← okOr (checkedAdd 64 tableStart tableBytes)
    (.layer origin offset parent .offsetOverflow)
  throwIf (input.length < tableEnd) (.layer origin input.length parent .truncated)
  modifyLayer fun layer => { layer with directories := layer.directories.insert parent }
  return (count, tableStart)

/-- A directory table and everything below it, recorded; its depth is the number of its ancestors. -/
def recordedDirectory : ℕ → List ℕ → ℕ → Str → RecordedM Unit
  | 0, ancestors, offset, parent => do
    emit (.directory ancestors offset)
    lift (throw (.layer origin offset parent (.limitExceeded "directory depth")))
  | levels + 1, ancestors, offset, parent => do
    emit (.directory ancestors offset)
    let (count, tableStart) ← lift (enterTable origin input offset parent)
    emit (.access input.length offset (offset + 4))
    (List.range count).forM fun index => do
      require (tableStart + index * entryBytes < 2 ^ 64)
      -- The depth of a table below.
      require (ancestors.length + 1 < 2 ^ 64)
      recordedEntry codecs origin input (recordedDirectory levels (offset :: ancestors)) parent
        (tableStart + index * entryBytes)

end Parse

/-- Parses one layer of a plan and lays it over the earlier ones, recorded. -/
def recordedLayer (codecs : Codecs) (layer : PlanLayer) (builder : Builder) :
    RecordM VfsError Unit Event Builder := fun (_, events) =>
  if layer.container.version ≠ .psf2 then
    .error (.error (.layer layer.origin 0 [] .wrongVersion)) ((), events)
  else
    match (recordedDirectory codecs layer.origin layer.container.reserved
      (builder.limits.maxDepth + 1) [] 0 []).run (⟨builder, .empty⟩, events) with
    | .error e (_, events) => .error e ((), events)
    | .ok _ (parsed, events) =>
      .ok { parsed.builder with toLayer := parsed.builder.apply parsed.layer } ((), events)

/-- Builds the filesystem of a plan, recorded. -/
def recordedPlan {M : Type} (codecs : Codecs) (plan : Psf2LoadPlan M) (limits : VfsLimits) :
    RecordM VfsError Unit Event Psf2Vfs := do
  let builder ← plan.layers.foldlM (fun builder layer => recordedLayer codecs layer builder)
    (Builder.new limits)
  return ⟨builder.toLayer⟩

/-! ### The parser in parts -/

section Parts

variable {codecs : Codecs} {origin : Str} {input : Bytes}

theorem parseBlocks_succ (offset size blockSize : ℕ) (path : Str) (remaining block compressedOffset : ℕ)
    (output : Bytes) :
    (ErrorState.ofExcept (parseBlocks codecs origin input offset size blockSize path (remaining + 1)
      block compressedOffset output) : ParseM Bytes) = (do
      let compressedSize ← okOr (readU32 input (offset + block * 4))
        (.layer origin (offset + block * 4) path .truncated)
      let compressedEnd ← okOr (checkedAdd 64 compressedOffset compressedSize)
        (.layer origin compressedOffset path .offsetOverflow)
      throwIf (input.length < compressedEnd) (.layer origin input.length path .truncated)
      let decoded ← ErrorState.ofExcept (decompressBlock codecs origin compressedOffset path
        (slice input compressedOffset compressedEnd) (min blockSize (size - output.length)))
      ErrorState.ofExcept (parseBlocks codecs origin input offset size blockSize path remaining
        (block + 1) compressedEnd (output ++ decoded))) := by
  rw [parseBlocks]
  dsimp only
  cases readU32 input (offset + block * 4) with
  | none => rfl
  | some compressedSize =>
    dsimp only
    change _ = okOr (checkedAdd 64 compressedOffset compressedSize)
      (VfsError.layer origin compressedOffset path .offsetOverflow) >>= _
    cases checkedAdd 64 compressedOffset compressedSize with
    | none => rfl
    | some compressedEnd =>
      dsimp only
      change _ = throwIf (input.length < compressedEnd)
        (VfsError.layer origin input.length path .truncated) >>= _
      unfold throwIf
      by_cases outside : input.length < compressedEnd
      · rw [if_pos outside, if_pos outside]
        rfl
      · rw [if_neg outside, if_neg outside]
        change _ = ErrorState.ofExcept (decompressBlock codecs origin compressedOffset path
          (slice input compressedOffset compressedEnd) (min blockSize (size - output.length))) >>= _
        cases decompressBlock codecs origin compressedOffset path
            (slice input compressedOffset compressedEnd) (min blockSize (size - output.length)) with
        | error e => rfl
        | ok decoded => rfl

theorem parseFile_eq (offset size blockSize : ℕ) (path : Str) :
    parseFile codecs origin input offset size blockSize path = (do
      let (blockCount, compressedOffset) ← chargeFile origin input offset size blockSize path
      ErrorState.ofExcept (parseBlocks codecs origin input offset size blockSize path blockCount 0
        compressedOffset [])) := by
  unfold parseFile chargeFile
  simp only [bind_assoc, pure_bind]

theorem parseEntry_eq (descend : ℕ → Str → ParseM Unit) (parent : Str) (entryOffset : ℕ) :
    parseEntry codecs origin input descend parent entryOffset = (do
      let path ← entryPath origin input parent entryOffset
      let childOffset := wordAt input (entryOffset + 36)
      let size := wordAt input (entryOffset + 40)
      let blockSize := wordAt input (entryOffset + 44)
      if childOffset = 0 ∧ size = 0 ∧ blockSize = 0 then modifyLayer (·.insertFile path [])
      else if size = 0 ∧ blockSize = 0 then
        throwIf (childOffset ≤ entryOffset) (.layer origin (entryOffset + 36) path .offsetOrder)
        modifyLayer (·.insertDirectory path)
        descend childOffset path
      else if childOffset ≠ 0 ∧ size ≠ 0 ∧ blockSize ≠ 0 then
        throwIf (childOffset ≤ entryOffset) (.layer origin (entryOffset + 36) path .offsetOrder)
        let data ← parseFile codecs origin input childOffset size blockSize path
        modifyLayer (·.insertFile path data)
      else throw (.layer origin (entryOffset + 36) path .invalidEntry)) := by
  unfold parseEntry entryPath
  simp only [bind_assoc, pure_bind]

theorem parseDirectory_succ (levels offset : ℕ) (parent : Str) :
    parseDirectory codecs origin input (levels + 1) offset parent = (do
      let (count, tableStart) ← enterTable origin input offset parent
      (List.range count).forM fun index =>
        parseEntry codecs origin input (parseDirectory codecs origin input levels) parent
          (tableStart + index * entryBytes)) := by
  rw [parseDirectory]
  unfold enterTable
  simp only [bind_assoc, pure_bind]

end Parts

/-! ### What is recorded -/

/-- The entries worked on. -/
def entriesIn (events : List Event) : ℕ := events.count .entry

/-- The blocks worked on. -/
def blocksIn (events : List Event) : ℕ := events.count .block

/-- The declared bytes of the files worked on. -/
def bytesIn (events : List Event) : ℕ :=
  (events.map fun
    | .file size => size
    | _ => 0).sum

@[simp] theorem entriesIn_append (a b : List Event) :
    entriesIn (a ++ b) = entriesIn a + entriesIn b := List.count_append

@[simp] theorem blocksIn_append (a b : List Event) : blocksIn (a ++ b) = blocksIn a + blocksIn b :=
  List.count_append

@[simp] theorem bytesIn_append (a b : List Event) : bytesIn (a ++ b) = bytesIn a + bytesIn b := by
  unfold bytesIn
  rw [List.map_append, List.sum_append]

/-- The offsets of nested tables increase, a table is no deeper than one more than the limit, and what is
read is in the input. -/
def Event.Fine (maxDepth : ℕ) : Event → Prop
  | .directory ancestors offset =>
    (offset :: ancestors).Pairwise (· > ·) ∧ ancestors.length ≤ maxDepth + 1
  | .access size start stop => start ≤ stop ∧ stop ≤ size
  | _ => True

/-- The charges are within the limits. -/
structure Builder.Within (builder : Builder) : Prop where
  entries : builder.entries ≤ builder.limits.maxEntries
  bytes : builder.aggregateBytes ≤ builder.limits.maxAggregateBytes
  blocks : builder.blocks ≤ builder.limits.maxBlocks

/-- What was worked on since a builder was charged for, a number of entries apart that were charged
before. -/
structure Spent (before : Builder) (credit : ℕ) (events : List Event) (after : Builder) : Prop where
  limits : after.limits = before.limits
  within : after.Within
  fine : ∀ event ∈ events, event.Fine before.limits.maxDepth
  entries : entriesIn events + before.entries ≤ after.entries + credit
  bytes : bytesIn events + before.aggregateBytes ≤ after.aggregateBytes
  blocks : blocksIn events + before.blocks ≤ after.blocks

/-- What was worked on since a builder stays within the limits. -/
structure Capped (before : Builder) (credit : ℕ) (events : List Event) : Prop where
  fine : ∀ event ∈ events, event.Fine before.limits.maxDepth
  entries : entriesIn events + before.entries ≤ before.limits.maxEntries + credit
  bytes : bytesIn events + before.aggregateBytes ≤ before.limits.maxAggregateBytes
  blocks : blocksIn events + before.blocks ≤ before.limits.maxBlocks

section Spent

variable {before after last : Builder} {credit more : ℕ} {events later : List Event}

theorem Builder.Within.spent (within : before.Within) : Spent before 0 [] before :=
  ⟨rfl, within, nofun, by simp [entriesIn], by simp [bytesIn], by simp [blocksIn]⟩

theorem Spent.capped (spent : Spent before credit events after) : Capped before credit events := by
  have within := spent.within
  have limits := spent.limits
  refine ⟨spent.fine, spent.entries.trans ?_, spent.bytes.trans ?_, spent.blocks.trans ?_⟩
  · rw [← limits]
    have := within.entries
    omega
  · rw [← limits]
    exact within.bytes
  · rw [← limits]
    exact within.blocks

theorem Spent.trans (first : Spent before credit events after)
    (second : Spent after more later last) : Spent before (credit + more) (events ++ later) last := by
  have fine := second.fine
  rw [first.limits] at fine
  refine ⟨second.limits.trans first.limits, second.within,
    fun event member => (List.mem_append.mp member).elim (first.fine event) (fine event), ?_, ?_, ?_⟩
  · have := first.entries
    have := second.entries
    rw [entriesIn_append]
    omega
  · have := first.bytes
    have := second.bytes
    rw [bytesIn_append]
    omega
  · have := first.blocks
    have := second.blocks
    rw [blocksIn_append]
    omega

theorem Spent.then_capped (first : Spent before credit events after)
    (second : Capped after more later) : Capped before (credit + more) (events ++ later) := by
  have fine := second.fine
  have limits := first.limits
  rw [limits] at fine
  refine ⟨fun event member => (List.mem_append.mp member).elim (first.fine event) (fine event),
    ?_, ?_, ?_⟩
  · have := first.entries
    have := second.entries
    rw [limits] at this
    rw [entriesIn_append]
    omega
  · have := first.bytes
    have := second.bytes
    rw [limits] at this
    rw [bytesIn_append]
    omega
  · have := first.blocks
    have := second.blocks
    rw [limits] at this
    rw [blocksIn_append]
    omega

end Spent

/-! ### The parts of the parser -/

section Bounds

variable {α : Type} {codecs : Codecs} {origin : Str} {input : Bytes} {s t : Parsing}

theorem ends_of_readU32 {offset count : ℕ} (read : readU32 input offset = some count) :
    offset + 4 ≤ input.length := by
  unfold readU32 at read
  split at read
  next fits => exact fits
  next => cases read

theorem length_decompressBlock {offset expected : ℕ} {path : Str} {compressed block : Bytes}
    (decompressed : decompressBlock codecs origin offset path compressed expected = .ok block) :
    block.length = expected := by
  unfold decompressBlock at decompressed
  dsimp only at decompressed
  split at decompressed
  next => cases decompressed
  next =>
    split at decompressed
    next => cases decompressed
    next =>
      split at decompressed
      next => cases decompressed
      next =>
        split at decompressed
        next => cases decompressed
        next length =>
          cases decompressed
          exact not_not.mp length

/-- Only blocks are worked on, and not more than these. -/
structure BlocksOnly (maxDepth count : ℕ) (events : List Event) : Prop where
  fine : ∀ event ∈ events, event.Fine maxDepth
  entries : entriesIn events = 0
  bytes : bytesIn events = 0
  blocks : blocksIn events ≤ count

theorem BlocksOnly.access {maxDepth count size start stop : ℕ} {events : List Event}
    (h : BlocksOnly maxDepth count events) (ordered : start ≤ stop) (inside : stop ≤ size) :
    BlocksOnly maxDepth count (.access size start stop :: events) :=
  ⟨List.forall_mem_cons.mpr ⟨⟨ordered, inside⟩, h.fine⟩, h.entries, by
    show 0 + bytesIn events = 0
    rw [h.bytes], h.blocks⟩

theorem BlocksOnly.block {maxDepth count : ℕ} {events : List Event}
    (h : BlocksOnly maxDepth count events) : BlocksOnly maxDepth (count + 1) (.block :: events) :=
  ⟨List.forall_mem_cons.mpr ⟨trivial, h.fine⟩, h.entries, by
    show 0 + bytesIn events = 0
    rw [h.bytes], by
    show List.count .block (.block :: events) ≤ _
    rw [List.count_cons_self]
    exact Nat.succ_le_succ h.blocks⟩

/-- A file's blocks: the table of their sizes ends where the first of them begins. -/
theorem records_blocks (maxDepth offset size blockSize : ℕ) (path : Str) {remaining block : ℕ}
    {compressedOffset : ℕ} {output : Bytes} (table : offset + (block + remaining) * 4 ≤ compressedOffset)
    (inside : compressedOffset ≤ input.length) (fits : compressedOffset < 2 ^ 64)
    (short : output.length ≤ size) :
    Records (recordedBlocks codecs origin input offset size blockSize path remaining block
        compressedOffset output)
      (ErrorState.ofExcept (parseBlocks codecs origin input offset size blockSize path remaining block
        compressedOffset output)) s
      (fun events _ t => t = s ∧ BlocksOnly maxDepth remaining events)
      (BlocksOnly maxDepth remaining) := by
  have none (n : ℕ) : BlocksOnly maxDepth n [] := ⟨nofun, rfl, rfl, Nat.zero_le _⟩
  induction remaining generalizing block compressedOffset output with
  | zero => exact records_pure ⟨rfl, none 0⟩
  | succ remaining ih =>
    rw [parseBlocks_succ, recordedBlocks]
    refine records_require_bind (by omega) (records_okOr_bind (fun compressedSize read => ?_) (none _))
    have table_inside := ends_of_readU32 read
    have first := (none (remaining + 1)).access (Nat.le_add_right _ 4) table_inside
    refine records_emit_bind (records_okOr_bind (fun compressedEnd sum => ?_) first)
    obtain ⟨end_fits, rfl⟩ := checkedAdd_eq_some.mp sum
    refine records_throwIf_bind (fun end_inside => ?_) first
    have range : compressedOffset ≤ compressedOffset + compressedSize := Nat.le_add_right _ _
    have wrap {events : List Event} (h : BlocksOnly maxDepth remaining events) :
        BlocksOnly maxDepth (remaining + 1) (.access input.length (offset + block * 4)
          (offset + block * 4 + 4) :: .access input.length compressedOffset
            (compressedOffset + compressedSize) :: .block :: events) :=
      (h.block.access range (Nat.not_lt.mp end_inside)).access (Nat.le_add_right _ 4) table_inside
    refine records_emit_bind (records_emit_bind (records_require_bind short ?_))
    refine records_ofExcept_bind (fun decoded decompressed => ?_) (wrap (none _))
    have length := length_decompressBlock decompressed
    refine (ih ?_ (Nat.not_lt.mp end_inside) end_fits ?_).mono (fun events _ u h => ⟨h.1, wrap h.2⟩)
      fun events => wrap
    · omega
    · rw [List.length_append, length]
      omega

/-- What a successful charge of a file leaves. -/
structure FileCharged (s : Parsing) (offset size : ℕ) (input : Bytes) (file : ℕ × ℕ) (t : Parsing) :
    Prop where
  limits : t.builder.limits = s.builder.limits
  entries : t.builder.entries = s.builder.entries
  bytes : t.builder.aggregateBytes = s.builder.aggregateBytes + size
  blocks : t.builder.blocks = s.builder.blocks + file.1
  bytes_within : t.builder.aggregateBytes ≤ s.builder.limits.maxAggregateBytes
  blocks_within : t.builder.blocks ≤ s.builder.limits.maxBlocks
  table : offset + file.1 * 4 = file.2
  inside : file.2 ≤ input.length
  fits : file.2 < 2 ^ 64

theorem returns_chargeFile (offset size blockSize : ℕ) (path : Str) :
    Returns (FileCharged s offset size input) s
      (chargeFile origin input offset size blockSize path) := by
  unfold chargeFile
  apply returns_get_bind
  apply returns_throwIf_bind
  intro _
  apply returns_throwIf_bind
  intro _
  apply returns_get_bind
  apply returns_okOr_bind
  intro aggregateBytes aggregate
  obtain ⟨-, rfl⟩ := checkedAdd_eq_some.mp aggregate
  apply returns_modify_bind
  apply returns_throwIf_bind
  intro bytes_within
  apply returns_get_bind
  apply returns_okOr_bind
  intro blocks sum
  obtain ⟨-, rfl⟩ := checkedAdd_eq_some.mp sum
  apply returns_modify_bind
  apply returns_throwIf_bind
  intro blocks_within
  apply returns_okOr_bind
  intro tableBytes product
  obtain ⟨-, rfl⟩ := checkedMul_eq_some.mp product
  apply returns_okOr_bind
  intro compressedOffset start
  obtain ⟨fits, rfl⟩ := checkedAdd_eq_some.mp start
  apply returns_throwIf_bind
  intro inside
  exact returns_pure ⟨rfl, rfl, rfl, rfl, Nat.not_lt.mp bytes_within, Nat.not_lt.mp blocks_within, rfl,
    Nat.not_lt.mp inside, fits⟩

/-- What entering a table leaves: its entries are charged, and it is inside the input. -/
structure TableEntered (s : Parsing) (offset : ℕ) (input : Bytes) (table : ℕ × ℕ) (t : Parsing) :
    Prop where
  limits : t.builder.limits = s.builder.limits
  entries : t.builder.entries = s.builder.entries + table.1
  bytes : t.builder.aggregateBytes = s.builder.aggregateBytes
  blocks : t.builder.blocks = s.builder.blocks
  within : t.builder.entries ≤ s.builder.limits.maxEntries
  start : table.2 = offset + 4
  inside : table.2 + table.1 * entryBytes ≤ input.length
  fits : table.2 + table.1 * entryBytes < 2 ^ 64

theorem returns_enterTable (offset : ℕ) (parent : Str) :
    Returns (TableEntered s offset input) s (enterTable origin input offset parent) := by
  unfold enterTable chargeEntries
  apply returns_okOr_bind
  intro count read
  simp only [bind_assoc]
  apply returns_get_bind
  apply returns_okOr_bind
  intro entries sum
  obtain ⟨-, rfl⟩ := checkedAdd_eq_some.mp sum
  apply returns_modify_bind
  apply returns_throwIf_bind
  intro within
  apply returns_okOr_bind
  intro tableStart start
  obtain ⟨-, rfl⟩ := checkedAdd_eq_some.mp start
  apply returns_okOr_bind
  intro tableBytes product
  obtain ⟨-, rfl⟩ := checkedMul_eq_some.mp product
  apply returns_okOr_bind
  intro tableEnd stop
  obtain ⟨fits, rfl⟩ := checkedAdd_eq_some.mp stop
  apply returns_throwIf_bind
  intro inside
  apply returns_modify_bind
  exact returns_pure ⟨rfl, rfl, rfl, rfl, Nat.not_lt.mp within, rfl, Nat.not_lt.mp inside, fits⟩

theorem returns_entryPath (parent : Str) (entryOffset : ℕ) :
    Returns (fun _ t => t = s) s (entryPath origin input parent entryOffset) := by
  unfold entryPath
  apply returns_ofExcept_bind
  intro name _
  apply returns_get_bind
  apply returns_throwIf_bind
  intro _
  exact returns_pure rfl

/-- The recorded program does what the parser does, and what it works on is charged. -/
def Bounded (credit : ℕ) (x : RecordedM α) (y : ParseM α) (s : Parsing) : Prop :=
  Records x y s (fun events _ t => Spent s.builder credit events t.builder)
    (Capped s.builder credit)

theorem bounded_file (within : s.builder.Within) {offset size blockSize : ℕ} (path : Str)
    (some_block : blockSize ≠ 0) :
    Bounded 0 (recordedFile codecs origin input offset size blockSize path)
      (parseFile codecs origin input offset size blockSize path) s := by
  rw [parseFile_eq]
  unfold recordedFile
  refine records_require_bind some_block (records_lift_bind (fun file t run => ?_) within.spent.capped)
  have charged := returns_chargeFile offset size blockSize path file t run
  have spent {events : List Event} (h : BlocksOnly s.builder.limits.maxDepth file.1 events) :
      Spent s.builder 0 (.file size :: events) t.builder := by
    refine ⟨charged.limits, ⟨?_, ?_, ?_⟩, List.forall_mem_cons.mpr ⟨trivial, h.fine⟩, ?_, ?_, ?_⟩
    · rw [charged.entries, charged.limits]
      exact within.entries
    · rw [charged.limits]
      exact charged.bytes_within
    · rw [charged.limits]
      exact charged.blocks_within
    · have none : entriesIn (.file size :: events) = 0 := h.entries
      rw [none, charged.entries]
      omega
    · have only : bytesIn (.file size :: events) = size + bytesIn events := rfl
      rw [only, h.bytes, charged.bytes]
      omega
    · have few : blocksIn (.file size :: events) ≤ file.1 := h.blocks
      rw [charged.blocks]
      omega
  refine records_emit_bind ((records_blocks s.builder.limits.maxDepth offset size blockSize path
    (by rw [Nat.zero_add]; exact charged.table.le) charged.inside charged.fits (Nat.zero_le _)).mono ?_ ?_)
  · rintro events data u ⟨rfl, h⟩
    exact spent h
  · exact fun events h => (spent h).capped

theorem Bounded.after {credit more : ℕ} {before : Builder} {events : List Event} {x : RecordedM α}
    {y : ParseM α} (spent : Spent before credit events s.builder) (h : Bounded more x y s) :
    Records x y s (fun later _ t => Spent before (credit + more) (events ++ later) t.builder)
      fun later => Capped before (credit + more) (events ++ later) :=
  h.mono (fun _ _ _ => spent.trans) fun _ => spent.then_capped

theorem bounded_lift {y : ParseM α} (within : s.builder.Within)
    (same : Returns (fun _ t => t.builder = s.builder) s y) : Bounded 0 (lift y) y s :=
  records_lift (fun a t run => by rw [same a t run]; exact within.spent) within.spent.capped

theorem returns_modifyLayer (f : Layer → Layer) :
    Returns (fun _ t => t.builder = s.builder) s (modifyLayer f) := returns_modify rfl

/-- An entry works on itself, and on what is below it, which lies behind it. -/
theorem bounded_entry (within : s.builder.Within) {descend : ℕ → Str → RecordedM Unit}
    {descend' : ℕ → Str → ParseM Unit} (parent : Str) {entryOffset : ℕ}
    (inside : entryOffset + entryBytes ≤ input.length)
    (below : ∀ offset path t, entryOffset < offset → offset < 2 ^ 32 → t.builder = s.builder →
      Bounded 0 (descend offset path) (descend' offset path) t) :
    Bounded 1 (recordedEntry codecs origin input descend parent entryOffset)
      (parseEntry codecs origin input descend' parent entryOffset) s := by
  have first : Spent s.builder 1
      [.entry, .access input.length entryOffset (entryOffset + entryBytes)] s.builder := by
    have ordered : entryOffset ≤ entryOffset + entryBytes := Nat.le_add_right _ _
    refine ⟨rfl, within, List.forall_mem_cons.mpr ⟨trivial,
      List.forall_mem_singleton.mpr ⟨ordered, inside⟩⟩, ?_, ?_, ?_⟩
    · exact (Nat.add_comm _ _).le
    · exact (Nat.zero_add _).le
    · exact (Nat.zero_add _).le
  rw [parseEntry_eq]
  unfold recordedEntry
  refine records_require_bind inside (records_emit_bind (records_emit_bind ?_))
  refine records_lift_bind (fun path t run => ?_) first.capped
  obtain rfl := returns_entryPath parent entryOffset path t run
  -- What follows is worked on after the entry itself.
  refine Records.ite (fun _ => ?_) fun _ => Records.ite (fun _ => ?_) fun _ => Records.ite (fun some => ?_)
    fun _ => ?_
  · exact (bounded_lift within (returns_modifyLayer _)).after first
  · refine records_throwIf_bind (fun ordered => ?_) first.capped
    refine records_lift_bind (fun _ u run => ?_) first.capped
    have same := returns_modifyLayer _ _ u run
    have later := first
    rw [← same] at later
    have descended := (below _ path u (Nat.not_le.mp ordered) (wordAt_lt _ _) same).after later
    rwa [same] at descended
  · refine records_throwIf_bind (fun ordered => ?_) first.capped
    refine ((bounded_file within path some.2.2).after first).bind (fun _ => id) ?_
    intro events data u spent
    refine records_lift (fun _ v run => ?_) ?_
    · rw [returns_modifyLayer _ _ v run, List.append_nil]
      exact spent
    · rw [List.append_nil]
      exact spent.capped
  · exact records_lift nofun first.capped

/-- The offset of a table, below those at the ancestors' offsets. -/
structure TablePath (ancestors : List ℕ) (offset : ℕ) : Prop where
  increasing : (offset :: ancestors).Pairwise (· > ·)
  deep : ancestors.length ≤ offset
  small : offset < 2 ^ 32

theorem TablePath.below {ancestors : List ℕ} {offset child : ℕ} (path : TablePath ancestors offset)
    (behind : offset < child) (small : child < 2 ^ 32) : TablePath (offset :: ancestors) child := by
  refine ⟨List.pairwise_cons.mpr ⟨fun ancestor member => ?_, path.increasing⟩, ?_, small⟩
  · rcases List.mem_cons.mp member with rfl | higher
    · exact behind
    · exact ((List.pairwise_cons.mp path.increasing).1 ancestor higher).trans behind
  · have := path.deep
    rw [List.length_cons]
    omega

/-- Coming to a table is recorded before anything is charged for it. -/
theorem TablePath.spent {builder : Builder} {ancestors : List ℕ} {offset : ℕ}
    (path : TablePath ancestors offset) (within : builder.Within)
    (shallow : ancestors.length ≤ builder.limits.maxDepth + 1) :
    Spent builder 0 [.directory ancestors offset] builder := by
  refine ⟨rfl, within, List.forall_mem_singleton.mpr ⟨path.increasing, shallow⟩, ?_, ?_, ?_⟩
  · exact (Nat.zero_add _).le
  · exact (Nat.zero_add _).le
  · exact (Nat.zero_add _).le

section Charged

variable {table : ℕ × ℕ} {ancestors : List ℕ} {offset : ℕ} {events : List Event}
  (charged : TableEntered s offset input table t)

include charged

theorem TableEntered.builder_within (within : s.builder.Within) : t.builder.Within := by
  refine ⟨charged.within.trans (by rw [charged.limits]), ?_, ?_⟩
  · rw [charged.bytes, charged.limits]
    exact within.bytes
  · rw [charged.blocks, charged.limits]
    exact within.blocks

theorem TableEntered.header_fine (path : TablePath ancestors offset)
    (shallow : ancestors.length ≤ s.builder.limits.maxDepth + 1)
    (fine : ∀ event ∈ events, event.Fine t.builder.limits.maxDepth) :
    ∀ event ∈ .directory ancestors offset :: .access input.length offset (offset + 4) :: events,
      event.Fine s.builder.limits.maxDepth := by
  have start := charged.start
  have inside := charged.inside
  rw [charged.limits] at fine
  exact List.forall_mem_cons.mpr ⟨⟨path.increasing, shallow⟩,
    List.forall_mem_cons.mpr ⟨⟨Nat.le_add_right _ _, by omega⟩, fine⟩⟩

/-- The entries of a table were charged before they were worked on. -/
theorem TableEntered.spent {after : Builder} (path : TablePath ancestors offset)
    (shallow : ancestors.length ≤ s.builder.limits.maxDepth + 1)
    (spent : Spent t.builder table.1 events after) :
    Spent s.builder 0 (.directory ancestors offset :: .access input.length offset (offset + 4) :: events)
      after := by
  have paid := charged.entries
  have entries := spent.entries
  have bytes := spent.bytes
  have blocks := spent.blocks
  rw [charged.bytes] at bytes
  rw [charged.blocks] at blocks
  refine ⟨spent.limits.trans charged.limits, spent.within, charged.header_fine path shallow spent.fine,
    ?_, ?_, ?_⟩
  · show entriesIn events + s.builder.entries ≤ after.entries + 0
    omega
  · show 0 + (0 + bytesIn events) + s.builder.aggregateBytes ≤ after.aggregateBytes
    omega
  · show blocksIn events + s.builder.blocks ≤ after.blocks
    omega

theorem TableEntered.capped (path : TablePath ancestors offset)
    (shallow : ancestors.length ≤ s.builder.limits.maxDepth + 1)
    (capped : Capped t.builder table.1 events) :
    Capped s.builder 0
      (.directory ancestors offset :: .access input.length offset (offset + 4) :: events) := by
  have paid := charged.entries
  have entries := capped.entries
  have bytes := capped.bytes
  have blocks := capped.blocks
  rw [charged.limits] at entries bytes blocks
  rw [charged.bytes] at bytes
  rw [charged.blocks] at blocks
  refine ⟨charged.header_fine path shallow capped.fine, ?_, ?_, ?_⟩
  · show entriesIn events + s.builder.entries ≤ s.builder.limits.maxEntries + 0
    omega
  · show 0 + (0 + bytesIn events) + s.builder.aggregateBytes ≤ s.builder.limits.maxAggregateBytes
    omega
  · show blocksIn events + s.builder.blocks ≤ s.builder.limits.maxBlocks
    omega

end Charged

/-- A table works on what it is charged for, and so do the tables below it, whatever tables they are:
each is charged again wherever it is entered again. -/
theorem bounded_directory (within : s.builder.Within) {levels : ℕ} {ancestors : List ℕ} {offset : ℕ}
    (parent : Str) (path : TablePath ancestors offset)
    (depth : ancestors.length + levels = s.builder.limits.maxDepth + 1) :
    Bounded 0 (recordedDirectory codecs origin input levels ancestors offset parent)
      (parseDirectory codecs origin input levels offset parent) s := by
  induction levels generalizing s ancestors offset parent with
  | zero => exact records_emit_bind (records_lift nofun (path.spent within (by omega)).capped)
  | succ levels ih =>
    have shallow : ancestors.length ≤ s.builder.limits.maxDepth + 1 := by omega
    rw [parseDirectory_succ, recordedDirectory]
    refine records_emit_bind (records_lift_bind (fun table t run => ?_) (path.spent within shallow).capped)
    have charged := returns_enterTable offset parent table t run
    obtain ⟨count, tableStart⟩ := table
    obtain rfl : tableStart = offset + 4 := charged.start
    have table_inside : offset + 4 + count * entryBytes ≤ input.length := charged.inside
    have table_fits : offset + 4 + count * entryBytes < 2 ^ 64 := charged.fits
    -- After `k` rounds, `k` of the entries charged are worked on.
    have round : ∀ index ∈ List.range count, ∀ k < 0 + (List.range count).length, ∀ events u,
        Spent t.builder k events u.builder →
        Records (do
            require (offset + 4 + index * entryBytes < 2 ^ 64)
            require (ancestors.length + 1 < 2 ^ 64)
            recordedEntry codecs origin input (recordedDirectory codecs origin input levels
              (offset :: ancestors)) parent (offset + 4 + index * entryBytes))
          (parseEntry codecs origin input (parseDirectory codecs origin input levels) parent
            (offset + 4 + index * entryBytes)) u
          (fun new _ v => Spent t.builder (k + 1) (events ++ new) v.builder)
          fun new => Capped t.builder count (events ++ new) := by
      intro index member k k_lt events u spent
      rw [List.length_range, Nat.zero_add] at k_lt
      have index_lt := List.mem_range.mp member
      have row : offset + 4 + index * entryBytes + entryBytes ≤ offset + 4 + count * entryBytes := by
        unfold entryBytes
        omega
      have deep := path.deep
      have small := path.small
      refine records_require_bind (by unfold entryBytes at *; omega)
        (records_require_bind (by omega) ?_)
      refine ((bounded_entry spent.within parent (row.trans table_inside) ?_).after spent).mono
        (fun _ _ _ => id) fun new capped => ?_
      · intro child name v behind child_small same
        rw [← same] at spent
        have limits : v.builder.limits = s.builder.limits := spent.limits.trans charged.limits
        have nested : (offset :: ancestors).length + levels = v.builder.limits.maxDepth + 1 := by
          rw [limits, List.length_cons]
          omega
        exact ih spent.within name (path.below (by omega) child_small) nested
      · have entries := capped.entries
        exact ⟨capped.fine, by omega, capped.bytes, capped.blocks⟩
    have rounds := records_forM (I := fun k events (u : Parsing) => Spent t.builder k events u.builder)
      (charged.builder_within within).spent round
    rw [List.length_range, Nat.zero_add] at rounds
    refine records_emit_bind (rounds.mono (fun events _ u spent => ?_) fun events capped => ?_)
    · exact charged.spent path shallow spent
    · exact charged.capped path shallow capped

end Bounds

/-! ### Plans -/

theorem tablePath_root : TablePath [] 0 := ⟨List.pairwise_singleton _ _, Nat.le_refl _, by omega⟩

theorem records_layer {codecs : Codecs} {layer : PlanLayer} {builder : Builder}
    (within : builder.Within) :
    Records (recordedLayer codecs layer builder) (ErrorState.ofExcept (addLayer codecs layer builder)) ()
      (fun events after _ => Spent builder 0 events after) (Capped builder 0) := by
  intro record
  unfold addLayer recordedLayer
  by_cases version : layer.container.version ≠ .psf2
  · rw [if_pos version]
    exact ⟨[], by simp [EStateM.run, version], within.spent.capped⟩
  · have parsed := @bounded_directory codecs layer.origin layer.container.reserved ⟨builder, .empty⟩
      within (builder.limits.maxDepth + 1) [] 0 [] tablePath_root (Nat.zero_add _) record
    rw [if_neg version]
    dsimp only [EStateM.run] at parsed ⊢
    cases run : parseDirectory codecs layer.origin layer.container.reserved
        (builder.limits.maxDepth + 1) 0 [] ⟨builder, .empty⟩ with
    | ok a t =>
      rw [run] at parsed
      obtain ⟨events, recorded, spent⟩ := parsed
      refine ⟨events, by rw [if_neg version, recorded], ?_⟩
      have kept := spent.within
      exact ⟨spent.limits, ⟨kept.entries, kept.bytes, kept.blocks⟩, spent.fine, spent.entries,
        spent.bytes, spent.blocks⟩
    | error e t =>
      rw [run] at parsed
      obtain ⟨events, recorded, capped⟩ := parsed
      exact ⟨events, by rw [if_neg version, recorded], capped⟩

/-- Parsing a plan ends, with the result of the parser and without a panic.  Over all its layers the
entries, the declared bytes and the blocks worked on stay within their limits, the offsets of nested tables
increase, no table is deeper than one more than the limit, and nothing outside a section is read. -/
theorem parse_bounded {M : Type} (codecs : Codecs) (plan : Psf2LoadPlan M) (limits : VfsLimits) :
    ∃ events, (recordedPlan codecs plan limits).run ((), []) =
        (match fromLoadPlan codecs plan limits with
        | .ok vfs => .ok vfs ((), events)
        | .error e => .error (.error e) ((), events)) ∧
      entriesIn events ≤ limits.maxEntries ∧ bytesIn events ≤ limits.maxAggregateBytes ∧
      blocksIn events ≤ limits.maxBlocks ∧ ∀ event ∈ events, event.Fine limits.maxDepth := by
  have fresh : (Builder.new limits).Within := ⟨Nat.zero_le _, Nat.zero_le _, Nat.zero_le _⟩
  have round : ∀ layer ∈ plan.layers, ∀ events builder (t : Unit), Spent (Builder.new limits) 0 events builder →
      Records (recordedLayer codecs layer builder) (ErrorState.ofExcept (addLayer codecs layer builder)) t
        (fun new after _ => Spent (Builder.new limits) 0 (events ++ new) after)
        fun new => Capped (Builder.new limits) 0 (events ++ new) := by
    intro layer _ events builder _ spent
    exact (records_layer spent.within).mono (fun _ _ _ => spent.trans) fun _ => spent.then_capped
  have layers := records_foldlM (s := ()) (E := Capped (Builder.new limits) 0) fresh.spent round
  have plan_records : Records (recordedPlan codecs plan limits)
      (ErrorState.ofExcept (fromLoadPlan codecs plan limits)) ()
      (fun events _ _ => Capped (Builder.new limits) 0 events) (Capped (Builder.new limits) 0) := by
    unfold recordedPlan fromLoadPlan
    rw [ofExcept_bind, ofExcept_foldlM]
    refine layers.bind (fun _ => id) fun events builder _ spent => records_pure ?_
    rw [List.append_nil]
    exact spent.capped
  have run := plan_records []
  cases built : fromLoadPlan codecs plan limits with
  | ok vfs =>
    rw [built] at run
    obtain ⟨events, recorded, capped⟩ := run
    exact ⟨events, recorded, capped.entries, capped.bytes, capped.blocks, capped.fine⟩
  | error e =>
    rw [built] at run
    obtain ⟨events, recorded, capped⟩ := run
    exact ⟨events, recorded, capped.entries, capped.bytes, capped.blocks, capped.fine⟩

end Upse.Vfs
