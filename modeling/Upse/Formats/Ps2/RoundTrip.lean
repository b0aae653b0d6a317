import Upse.Formats.Ps2.Lookup
import Upse.Formats.Psf.Builder

/-!
# Reading back a written filesystem

Parsing the image of a directory tree succeeds within the limits and gives the files and directories
of the tree.
-/

namespace Upse.Vfs

open ErrorState Psf

/-! ### Blocks -/

section Blocks

variable {blockSize n : ℕ} {data : Bytes}

theorem slice_blocks (blockSize block : ℕ) (data : Bytes) :
    data.take (block * blockSize) ++ slice data (block * blockSize) ((block + 1) * blockSize) =
      data.take ((block + 1) * blockSize) := by
  unfold slice
  rw [Nat.succ_mul, Nat.add_sub_cancel_left, ← List.take_add]

theorem flatten_blocks (blockSize n : ℕ) (data : Bytes) :
    ((List.range n).map fun block => slice data (block * blockSize) ((block + 1) * blockSize)).flatten =
      data.take (n * blockSize) := by
  induction n with
  | zero => simp
  | succ n ih =>
    rw [List.range_succ, List.map_append, List.flatten_append, ih, List.map_singleton,
      List.flatten_singleton, slice_blocks]

theorem length_chunks : (chunks blockSize data).length = blockCount blockSize data := by
  unfold chunks
  rw [List.length_map, List.length_range]
  rfl

theorem lt_blockCount (positive : 1 ≤ blockSize) {block : ℕ} :
    block < blockCount blockSize data ↔ block * blockSize < data.length := by
  unfold blockCount
  rw [Nat.lt_iff_add_one_le, Nat.le_div_iff_mul_le positive, Nat.succ_mul]
  omega

variable {before after : List Bytes}

theorem chunks_split (h : chunks blockSize data = before ++ after) :
    before.flatten = data.take (before.length * blockSize) := by
  have front : before = (chunks blockSize data).take before.length := by
    rw [h, List.take_left' rfl]
  have fits : before.length ≤ blockCount blockSize data := by
    rw [← length_chunks, h, List.length_append]
    omega
  unfold blockCount at fits
  unfold chunks at front
  rw [← List.map_take, List.take_range, Nat.min_eq_left fits] at front
  exact (congrArg List.flatten front).trans (flatten_blocks blockSize before.length data)

theorem flatten_chunks (positive : 1 ≤ blockSize) : (chunks blockSize data).flatten = data := by
  have whole : chunks blockSize data = chunks blockSize data ++ [] := (List.append_nil _).symm
  have all := chunks_split whole
  rw [all, length_chunks]
  apply List.take_of_length_le
  by_contra short
  exact absurd ((lt_blockCount positive).mpr (not_le.mp short)) (lt_irrefl _)

theorem length_block (positive : 1 ≤ blockSize) {block : Bytes}
    (h : chunks blockSize data = before ++ block :: after) :
    block.length = min blockSize (data.length - before.flatten.length) := by
  have more : chunks blockSize data = (before ++ [block]) ++ after := by
    rw [h, List.append_assoc]
    rfl
  have last := congrArg List.length (chunks_split more)
  have first := congrArg List.length (chunks_split h)
  have within : before.length * blockSize < data.length := by
    rw [← lt_blockCount positive, ← length_chunks, h, List.length_append, List.length_cons]
    omega
  rw [List.flatten_append, List.flatten_singleton, List.length_append, List.length_append,
    List.length_singleton, Nat.succ_mul, List.length_take] at last
  rw [List.length_take] at first
  omega

variable {codecs : Codecs} {deflate : Bytes → Bytes} {origin input path : Str}

theorem fillBlock_flatten {expected : ℕ} {block : Bytes} {reads : List Bytes}
    (fits : block.length + reads.flatten.length ≤ expected) :
    fillBlock expected block reads = .ok (block ++ reads.flatten) := by
  induction reads generalizing block with
  | nil => simp [fillBlock]
  | cons read reads ih =>
    rw [List.flatten_cons, List.length_append] at fits
    rw [fillBlock, if_neg (by omega), ih (by rw [List.length_append]; omega), List.flatten_cons,
      List.append_assoc]

theorem decompressBlock_deflate {offset : ℕ} {block : Bytes} (inverts : Inverts codecs deflate block) :
    decompressBlock codecs origin offset path (deflate block) block.length = .ok block := by
  unfold decompressBlock
  dsimp only
  rw [fillBlock_flatten (by rw [inverts.blocks]; simp), inverts.blocks, inverts.consumed]
  dsimp only
  rw [if_neg (by simp), if_neg (by simp)]
  rfl

/-- The table of block sizes. -/
def sizeTable (deflate : Bytes → Bytes) (blocks : List Bytes) : Bytes :=
  blocks.flatMap fun block => leBytes 4 (deflate block).length

theorem length_sizeTable (blocks : List Bytes) :
    (sizeTable deflate blocks).length = blocks.length * 4 := by
  induction blocks with
  | nil => rfl
  | cons block blocks ih =>
    unfold sizeTable at ih ⊢
    rw [List.flatMap_cons, List.length_append, length_leBytes, ih, List.length_cons]
    omega

theorem encodeFile_eq : encodeFile deflate data blockSize =
    sizeTable deflate (chunks blockSize data) ++ ((chunks blockSize data).map deflate).flatten := by
  unfold encodeFile sizeTable
  dsimp only
  rw [List.flatMap_map]

variable (origin path) in
theorem parseBlocks_chunks {offset : ℕ} (positive : 1 ≤ blockSize)
    (small : input.length < 2 ^ 32) (holds : HoldsAt input offset (encodeFile deflate data blockSize))
    (inverts : ∀ block ∈ chunks blockSize data, Inverts codecs deflate block)
    (h : chunks blockSize data = before ++ after) :
    parseBlocks codecs origin input offset data.length blockSize path after.length before.length
        (offset + blockCount blockSize data * 4 + (before.map deflate).flatten.length)
        before.flatten = .ok data := by
  induction after generalizing before with
  | nil =>
    have all : before.flatten = data := by
      have whole : (chunks blockSize data).flatten = data := flatten_chunks positive
      rw [h, List.append_nil] at whole
      exact whole
    rw [all]
    rfl
  | cons block after ih =>
    rw [encodeFile_eq] at holds
    have table := holds.left
    have blobs := holds.right
    rw [length_sizeTable, length_chunks] at blobs
    rw [h] at table blobs
    have front : sizeTable deflate (before ++ block :: after) =
        sizeTable deflate before ++ (leBytes 4 (deflate block).length ++ sizeTable deflate after) := by
      unfold sizeTable
      rw [List.flatMap_append, List.flatMap_cons]
    rw [front] at table
    have word := table.right.left
    rw [length_sizeTable] at word
    rw [List.map_append, List.flatten_append, List.map_cons, List.flatten_cons] at blobs
    have stream := blobs.right.left
    have inside := stream.length_le
    have read : readU32 input (offset + before.length * 4) = some (deflate block).length := by
      unfold readU32
      have := word.length_le
      rw [length_leBytes] at this
      rw [if_pos this, word.wordAt_eq (by omega)]
    have size := length_block positive h
    rw [List.length_cons, parseBlocks]
    dsimp only
    rw [read]
    dsimp only
    rw [checkedAdd_eq_some.mpr ⟨by omega, rfl⟩]
    dsimp only
    rw [if_neg (by omega), stream.slice_eq, ← size,
      decompressBlock_deflate (inverts block (by rw [h]; simp))]
    have next : chunks blockSize data = (before ++ [block]) ++ after := by
      rw [h, List.append_assoc]
      rfl
    have rest := ih next
    rw [List.length_append, List.map_append, List.flatten_append, List.flatten_append,
      List.length_append] at rest
    simp only [List.length_singleton, List.map_singleton, List.flatten_singleton, ← Nat.add_assoc]
      at rest
    exact rest

end Blocks

/-! ### Rows -/

/-- A name as a table can hold it. -/
structure TableName (name : Str) : Prop where
  nonempty : name ≠ []
  short : name.length ≤ nameBytes
  printable : ∀ byte ∈ name, 32 ≤ byte ∧ byte ≤ 126
  plain : ∀ byte ∈ name, byte ≠ slash ∧ byte ≠ backslash ∧ byte ≠ colon

section Rows

variable {name input : Bytes} {rowOffset offset size blockSize : ℕ}

theorem parseName_padded (h : TableName name) (padding : ℕ) :
    parseName (name ++ List.replicate padding 0) = .ok (lowercase name) := by
  have nonzero : ∀ byte ∈ name, (byte != 0) = true := by
    intro byte mem
    apply bne_iff_ne.mpr
    rintro rfl
    exact absurd (h.printable 0 mem).1 (by decide)
  have read : (name ++ List.replicate padding 0).takeWhile (· != 0) = name := by
    rw [List.takeWhile_append_of_pos nonzero]
    cases padding with
    | zero => exact List.append_nil name
    | succ padding =>
      rw [List.replicate_succ, List.takeWhile_cons_of_neg (by decide), List.append_nil]
  have zeros : (List.replicate padding (0 : Byte)).any (· != 0) = false := by
    rw [List.any_eq_false]
    intro byte mem
    rw [List.eq_of_mem_replicate mem]
    decide
  have plain : (name.any fun byte => !(32 ≤ byte && byte ≤ 126) || byte == slash ||
      byte == backslash || byte == colon) = false := by
    rw [List.any_eq_false]
    intro byte mem
    have printable := h.printable byte mem
    simp [h.plain byte mem]
    exact printable
  unfold parseName
  rw [read]
  dsimp only
  rw [List.drop_left' rfl, zeros, Bool.or_false, List.isEmpty_eq_false_iff.mpr h.nonempty, plain]
  rfl

theorem length_encodeRow (short : name.length ≤ nameBytes) :
    (encodeRow name offset size blockSize).length = entryBytes := by
  unfold encodeRow
  simp only [List.length_append, List.length_replicate, length_leBytes]
  unfold nameBytes at short ⊢
  unfold entryBytes
  omega

/-- What is read from a row. -/
structure Row (input : Bytes) (rowOffset : ℕ) (name : Str) (offset size blockSize : ℕ) : Prop where
  name : parseName (slice input rowOffset (rowOffset + nameBytes)) = .ok (lowercase name)
  offset : wordAt input (rowOffset + 36) = offset
  size : wordAt input (rowOffset + 40) = size
  blockSize : wordAt input (rowOffset + 44) = blockSize

theorem row_of_holdsAt (holds : HoldsAt input rowOffset (encodeRow name offset size blockSize))
    (h : TableName name) (offsetFits : offset < 2 ^ 32) (sizeFits : size < 2 ^ 32)
    (blockFits : blockSize < 2 ^ 32) : Row input rowOffset name offset size blockSize := by
  have short := h.short
  have padded : (name ++ List.replicate (nameBytes - name.length) (0 : Byte)).length = nameBytes := by
    rw [List.length_append, List.length_replicate]
    omega
  unfold encodeRow at holds
  have first := holds.left.left.right
  have second := holds.left.right
  have third := holds.right
  have names := holds.left.left.left.slice_eq
  have width : name.length + (nameBytes - name.length) = 36 := Nat.add_sub_cancel' short
  simp only [List.length_append, length_leBytes, List.length_replicate, width] at first second third
  rw [padded] at names
  exact ⟨names ▸ parseName_padded h _, first.wordAt_eq offsetFits, second.wordAt_eq sizeFits,
    third.wordAt_eq blockFits⟩

end Rows

/-! ### Trees -/

namespace Entries

/-- A file within the limits, and with fields of 32 bits. -/
structure FileFits (limits : VfsLimits) (data : Bytes) (blockSize : ℕ) : Prop where
  positive : 1 ≤ blockSize
  block32 : blockSize < 2 ^ 32
  size32 : data.length < 2 ^ 32
  fileBytes : data.length ≤ limits.maxFileBytes
  blockBytes : blockSize ≤ limits.maxBlockBytes

/-- A path within the limits. -/
def PathFits (limits : VfsLimits) (path : Str) : Prop :=
  path.length ≤ min limits.maxPathBytes specMaxPathBytes

instance (limits : VfsLimits) (path : Str) : Decidable (PathFits limits path) :=
  inferInstanceAs (Decidable (_ ≤ _))

/-- A directory whose names are distinct, and everything below it, within the limits. -/
def Fits (limits : VfsLimits) : Str → Entries → Prop
  | _, nil => True
  | parent, file name data blockSize rest =>
    TableName name ∧ lowercase name ∉ rest.names ∧ PathFits limits (joinPath parent (lowercase name)) ∧
      FileFits limits data blockSize ∧ rest.Fits limits parent
  | parent, directory name children rest =>
    TableName name ∧ lowercase name ∉ rest.names ∧ PathFits limits (joinPath parent (lowercase name)) ∧
      children.Fits limits (joinPath parent (lowercase name)) ∧ rest.Fits limits parent

/-- The charges of a tree leave a builder within its limits. -/
structure Within (tree : Entries) (builder : Builder) : Prop where
  entries : builder.entries + tree.nested ≤ builder.limits.maxEntries
  bytes : builder.aggregateBytes + tree.bytes ≤ builder.limits.maxAggregateBytes
  blocks : builder.blocks + tree.blocks.length ≤ builder.limits.maxBlocks

end Entries

/-- Limits of 64 bits, as a host of that width has them. -/
structure VfsLimits.Wide (limits : VfsLimits) : Prop where
  entries : limits.maxEntries < 2 ^ 64
  blocks : limits.maxBlocks < 2 ^ 64
  aggregate : limits.maxAggregateBytes < 2 ^ 64

/-- A builder after the charges of a tree. -/
def Builder.charge (builder : Builder) (tree : Entries) : Builder :=
  { builder with
    entries := builder.entries + tree.nested
    aggregateBytes := builder.aggregateBytes + tree.bytes
    blocks := builder.blocks + tree.blocks.length }

/-- A directory is entered where it is listed, and once more where its table is read. -/
def Layer.openDirectory (path : Str) (layer : Layer) : Layer :=
  let opened := layer.insertDirectory path
  { opened with directories := opened.directories.insert path }

/-- A layer after entering a tree under a directory. -/
def Entries.enter : Entries → Str → Layer → Layer
  | .nil, _, layer => layer
  | .file name data _ rest, parent, layer =>
    rest.enter parent (layer.insertFile (joinPath parent (lowercase name)) data)
  | .directory name children rest, parent, layer =>
    let path := joinPath parent (lowercase name)
    rest.enter parent (children.enter path (layer.openDirectory path))

/-! ### Parsing the image -/

section Image

variable {codecs : Codecs} {deflate : Bytes → Bytes} {origin input path : Str} {s : Parsing}
  {data : Bytes} {blockSize offset : ℕ}

theorem run_chargeEntries {count : ℕ} (wide : s.builder.limits.Wide)
    (within : s.builder.entries + count ≤ s.builder.limits.maxEntries) :
    (chargeEntries origin offset path count).run s =
      .ok () { s with builder := { s.builder with entries := s.builder.entries + count } } := by
  have bound := wide.entries
  unfold chargeEntries
  rw [run_get_bind]
  dsimp only
  rw [run_okOr_bind (checkedAdd_eq_some.mpr ⟨by omega, rfl⟩)]
  unfold modifyBuilder
  rw [run_modify_bind, throwIf, if_neg (by omega)]
  rfl

variable (origin path) in
theorem run_parseFile (wide : s.builder.limits.Wide)
    (fits : Entries.FileFits s.builder.limits data blockSize)
    (bytes : s.builder.aggregateBytes + data.length ≤ s.builder.limits.maxAggregateBytes)
    (blocks : s.builder.blocks + (chunks blockSize data).length ≤ s.builder.limits.maxBlocks)
    (small : input.length < 2 ^ 32) (holds : HoldsAt input offset (encodeFile deflate data blockSize))
    (inverts : ∀ block ∈ chunks blockSize data, Inverts codecs deflate block) :
    (parseFile codecs origin input offset data.length blockSize path).run s =
      .ok data { s with builder := { s.builder with
        aggregateBytes := s.builder.aggregateBytes + data.length
        blocks := s.builder.blocks + (chunks blockSize data).length } } := by
  have maxBlocks := wide.blocks
  have maxAggregate := wide.aggregate
  have table := holds
  rw [encodeFile_eq] at table
  have table := table.left.length_le
  rw [length_sizeTable, length_chunks] at table
  rw [length_chunks] at blocks ⊢
  have read := parseBlocks_chunks origin path fits.positive small holds inverts
    (List.nil_append _).symm
  rw [length_chunks] at read
  have count : (data.length + blockSize - 1) / blockSize = blockCount blockSize data := rfl
  unfold parseFile modifyBuilder
  rw [run_get_bind]
  dsimp only
  rw [count, run_throwIf_bind (not_lt.mpr fits.fileBytes),
    run_throwIf_bind (not_lt.mpr fits.blockBytes), run_get_bind,
    run_okOr_bind (checkedAdd_eq_some.mpr ⟨by omega, rfl⟩), run_modify_bind,
    run_throwIf_bind (by omega), run_get_bind,
    run_okOr_bind (checkedAdd_eq_some.mpr ⟨lt_of_le_of_lt blocks maxBlocks, rfl⟩), run_modify_bind,
    run_throwIf_bind (not_lt.mpr blocks), run_okOr_bind (checkedMul_eq_some.mpr ⟨by omega, rfl⟩),
    run_okOr_bind (checkedAdd_eq_some.mpr ⟨by omega, rfl⟩), run_throwIf_bind (not_lt.mpr table)]
  have read : parseBlocks codecs origin input offset data.length blockSize path
      (blockCount blockSize data) 0 (offset + blockCount blockSize data * 4) [] = .ok data := read
  rw [read]
  rfl

theorem encodeEntries_empty (name : Str) (rest : Entries) :
    encodeEntries deflate (.file name [] blockSize rest) offset =
      (encodeRow name 0 0 0 ++ (encodeEntries deflate rest offset).1,
        (encodeEntries deflate rest offset).2) := rfl

theorem encodeEntries_file (name : Str) (rest : Entries) (h : data ≠ []) :
    encodeEntries deflate (.file name data blockSize rest) offset =
      (encodeRow name offset data.length blockSize ++
          (encodeEntries deflate rest (offset + (encodeFile deflate data blockSize).length)).1,
        encodeFile deflate data blockSize ++
          (encodeEntries deflate rest (offset + (encodeFile deflate data blockSize).length)).2) := by
  rw [encodeEntries, List.isEmpty_eq_false_iff.mpr h]
  rfl

theorem encodeEntries_directory (name : Str) (children rest : Entries) :
    encodeEntries deflate (.directory name children rest) offset =
      (encodeRow name offset 0 0 ++
          (encodeEntries deflate rest (offset + (encodeDirectory deflate children offset).length)).1,
        encodeDirectory deflate children offset ++
          (encodeEntries deflate rest (offset + (encodeDirectory deflate children offset).length)).2) :=
  rfl

theorem length_rows {limits : VfsLimits} {tree : Entries} {parent : Str}
    (fits : tree.Fits limits parent) :
    (encodeEntries deflate tree offset).1.length = tree.count * entryBytes := by
  induction tree generalizing offset with
  | nil => exact (Nat.zero_mul _).symm
  | file name data blockSize rest ih =>
    have short := fits.1.short
    by_cases empty : data = []
    · subst empty
      rw [encodeEntries_empty, List.length_append, length_encodeRow short, ih fits.2.2.2.2,
        Entries.count, Nat.succ_mul, Nat.add_comm]
    · rw [encodeEntries_file name rest empty, List.length_append, length_encodeRow short,
        ih fits.2.2.2.2, Entries.count, Nat.succ_mul, Nat.add_comm]
  | directory name children rest _ ih =>
    rw [encodeEntries_directory, List.length_append, length_encodeRow fits.1.short, ih fits.2.2.2.2,
      Entries.count, Nat.succ_mul, Nat.add_comm]

/-- A table is read where it was written, before its entries. -/
theorem run_parseDirectory {levels : ℕ} {tree : Entries} {limits : VfsLimits} {t : Parsing}
    (wide : s.builder.limits.Wide) (small : input.length < 2 ^ 32)
    (holds : HoldsAt input offset (encodeDirectory deflate tree offset))
    (fits : tree.Fits limits path)
    (within : s.builder.entries + tree.count ≤ s.builder.limits.maxEntries)
    (entries : ((List.range tree.count).forM fun index =>
        parseEntry codecs origin input (parseDirectory codecs origin input levels) path
          (offset + 4 + index * entryBytes)).run
      ⟨{ s.builder with entries := s.builder.entries + tree.count },
        { s.layer with directories := s.layer.directories.insert path }⟩ = .ok ⟨⟩ t) :
    (parseDirectory codecs origin input (levels + 1) offset path).run s = .ok ⟨⟩ t := by
  unfold encodeDirectory encodeTable at holds
  have header := holds.left.left
  have headerEnd := header.length_le
  have tableEnd := holds.left.length_le
  rw [List.length_append, length_leBytes, length_rows fits] at tableEnd
  rw [length_leBytes] at headerEnd
  have count32 : tree.count < 2 ^ 32 := by
    unfold entryBytes at tableEnd
    omega
  have read : readU32 input offset = some tree.count := by
    unfold readU32
    rw [if_pos headerEnd, header.wordAt_eq count32]
  unfold parseDirectory
  rw [run_okOr_bind read, run_bind_of_ok (run_chargeEntries wide within),
    run_okOr_bind (checkedAdd_eq_some.mpr ⟨by omega, rfl⟩),
    run_okOr_bind (checkedMul_eq_some.mpr ⟨by omega, rfl⟩),
    run_okOr_bind (checkedAdd_eq_some.mpr ⟨by omega, rfl⟩), run_throwIf_bind (by omega)]
  exact entries

variable {name parent : Str}

theorem run_parseEntry_empty {rowOffset : ℕ} (descend : ℕ → Str → ParseM Unit)
    (row : Row input rowOffset name 0 0 0)
    (short : Entries.PathFits s.builder.limits (joinPath parent (lowercase name))) :
    (parseEntry codecs origin input descend parent rowOffset).run s =
      .ok ⟨⟩ { s with layer := s.layer.insertFile (joinPath parent (lowercase name)) [] } := by
  unfold parseEntry
  rw [row.name, Except.mapError, run_ofExcept_bind rfl, run_get_bind]
  dsimp only
  rw [run_throwIf_bind (not_lt.mpr short), row.offset, row.size, row.blockSize,
    if_pos ⟨rfl, rfl, rfl⟩]
  rfl

theorem run_parseEntry_file {rowOffset : ℕ} {t : Parsing}
    (descend : ℕ → Str → ParseM Unit) (nonempty : data ≠ []) (positive : 1 ≤ blockSize)
    (row : Row input rowOffset name offset data.length blockSize) (later : rowOffset < offset)
    (short : Entries.PathFits s.builder.limits (joinPath parent (lowercase name)))
    (file : (parseFile codecs origin input offset data.length blockSize
      (joinPath parent (lowercase name))).run s = .ok data t) :
    (parseEntry codecs origin input descend parent rowOffset).run s =
      .ok ⟨⟩ { t with layer := t.layer.insertFile (joinPath parent (lowercase name)) data } := by
  have some : data.length ≠ 0 := fun empty => nonempty (List.length_eq_zero_iff.mp empty)
  unfold parseEntry
  rw [row.name, Except.mapError, run_ofExcept_bind rfl, run_get_bind]
  dsimp only
  rw [run_throwIf_bind (not_lt.mpr short), row.offset, row.size, row.blockSize,
    if_neg (by omega), if_neg (by omega), if_pos (by omega), run_throwIf_bind (by omega),
    run_bind_of_ok file]
  rfl

theorem run_parseEntry_directory {rowOffset : ℕ} {t : Parsing}
    (descend : ℕ → Str → ParseM Unit) (row : Row input rowOffset name offset 0 0)
    (later : rowOffset < offset)
    (short : Entries.PathFits s.builder.limits (joinPath parent (lowercase name)))
    (table : (descend offset (joinPath parent (lowercase name))).run
      { s with layer := s.layer.insertDirectory (joinPath parent (lowercase name)) } = .ok ⟨⟩ t) :
    (parseEntry codecs origin input descend parent rowOffset).run s = .ok ⟨⟩ t := by
  unfold parseEntry
  rw [row.name, Except.mapError, run_ofExcept_bind rfl, run_get_bind]
  dsimp only
  rw [run_throwIf_bind (not_lt.mpr short), row.offset, row.size, row.blockSize,
    if_neg (by omega), if_pos ⟨rfl, rfl⟩, run_throwIf_bind (by omega)]
  exact table

theorem forM_rows {ε σ : Type} {f : ℕ → EStateM ε σ PUnit} {offset n : ℕ} :
    (List.range (n + 1)).forM (fun index => f (offset + index * entryBytes)) =
      f offset >>= fun _ => (List.range n).forM fun index => f (offset + entryBytes + index * entryBytes) := by
  have next (index : ℕ) : offset + (index + 1) * entryBytes = offset + entryBytes + index * entryBytes := by
    rw [Nat.succ_mul]
    omega
  rw [forM_range_succ, Nat.zero_mul, Nat.add_zero]
  simp only [next]

variable (codecs origin) in
/-- The entries of a directory are read where they were written, each with what it refers to. -/
theorem run_entries {tree : Entries} {levels rowOffset : ℕ} {parent : Str}
    (deep : tree.height ≤ levels) (fits : tree.Fits s.builder.limits parent)
    (within : tree.Within s.builder) (wide : s.builder.limits.Wide) (small : input.length < 2 ^ 32)
    (rows : HoldsAt input rowOffset (encodeEntries deflate tree offset).1)
    (blobs : HoldsAt input offset (encodeEntries deflate tree offset).2)
    (order : rowOffset + tree.count * entryBytes ≤ offset)
    (inverts : ∀ block ∈ tree.blocks, Inverts codecs deflate block) :
    ((List.range tree.count).forM fun index =>
        parseEntry codecs origin input (parseDirectory codecs origin input levels) parent
          (rowOffset + index * entryBytes)).run s =
      .ok ⟨⟩ ⟨s.builder.charge tree, tree.enter parent s.layer⟩ := by
  have below := blobs.length_le
  induction tree generalizing levels rowOffset offset parent s with
  | nil => rfl
  | file name data blockSize rest ih =>
    obtain ⟨named, -, short, file, restFits⟩ := fits
    obtain ⟨entries, bytes, blocks⟩ := within
    unfold Entries.nested at entries
    unfold Entries.bytes at bytes
    unfold Entries.blocks at blocks inverts
    unfold Entries.count at order ⊢
    rw [List.length_append] at blocks
    have restInverts (block : Bytes) (mem : block ∈ rest.blocks) : Inverts codecs deflate block :=
      inverts block (List.mem_append_right _ mem)
    rw [Nat.succ_mul] at order
    rw [forM_rows]
    by_cases empty : data = []
    · subst empty
      rw [encodeEntries_empty] at rows blobs
      have row := row_of_holdsAt rows.left named (by decide) (by decide) (by decide)
      have restRows := rows.right
      rw [length_encodeRow named.short] at restRows
      rw [run_bind_of_ok (run_parseEntry_empty _ row short)]
      have noBlocks : chunks blockSize [] = [] := by
        rw [← List.length_eq_zero_iff, length_chunks]
        unfold blockCount
        have := file.positive
        rw [List.length_nil]
        exact Nat.div_eq_of_lt (by omega)
      refine (ih (s := ⟨s.builder, s.layer.insertFile (joinPath parent (lowercase name)) []⟩) deep
        restFits ⟨entries, ?_, ?_⟩ wide restRows blobs (by omega) restInverts blobs.length_le).trans ?_
      · rw [List.length_nil, Nat.zero_add] at bytes
        exact bytes
      · rw [noBlocks, List.length_nil, Nat.zero_add] at blocks
        exact blocks
      · unfold Builder.charge
        simp only [Entries.nested, Entries.bytes, Entries.blocks, Entries.enter, noBlocks,
          List.nil_append, List.length_nil, Nat.zero_add]
    · rw [encodeEntries_file name rest empty] at rows blobs
      have beyond := blobs.length_le
      have row := row_of_holdsAt rows.left named (by omega) file.size32 file.block32
      have restRows := rows.right
      rw [length_encodeRow named.short] at restRows
      have charged := run_parseFile origin (joinPath parent (lowercase name)) wide
        file (by omega) (by omega) small blobs.left fun block mem =>
          inverts block (List.mem_append_left _ mem)
      rw [run_bind_of_ok (run_parseEntry_file _ empty file.positive row (by
        unfold entryBytes at order
        omega) short charged)]
      refine (ih (s := ⟨{ s.builder with
          aggregateBytes := s.builder.aggregateBytes + data.length
          blocks := s.builder.blocks + (chunks blockSize data).length },
        s.layer.insertFile (joinPath parent (lowercase name)) data⟩) deep restFits
        ⟨entries, ?_, ?_⟩ wide restRows blobs.right (by omega) restInverts
        blobs.right.length_le).trans ?_
      · dsimp only
        omega
      · dsimp only
        omega
      · unfold Builder.charge
        simp only [Entries.nested, Entries.bytes, Entries.blocks, Entries.enter, List.length_append,
          Nat.add_assoc]
  | directory name children rest ihChildren ih =>
    obtain ⟨named, -, short, childrenFit, restFits⟩ := fits
    obtain ⟨entries, bytes, blocks⟩ := within
    unfold Entries.nested at entries
    unfold Entries.bytes at bytes
    unfold Entries.blocks at blocks inverts
    unfold Entries.count at order ⊢
    unfold Entries.height at deep
    rw [List.length_append] at blocks
    rw [Nat.succ_mul] at order
    rw [forM_rows]
    rw [encodeEntries_directory] at rows blobs
    have beyond := blobs.length_le
    have row := row_of_holdsAt rows.left named (by omega) (by decide) (by decide)
    have restRows := rows.right
    rw [length_encodeRow named.short] at restRows
    obtain ⟨lower, rfl⟩ : ∃ lower, levels = lower + 1 := Nat.exists_eq_succ_of_ne_zero (by omega)
    have table := blobs.left
    have tables := table
    unfold encodeDirectory encodeTable at tables
    have childRows := tables.left.right
    have childBlobs := tables.right
    rw [List.length_append, length_leBytes, length_rows childrenFit] at childBlobs
    rw [length_leBytes] at childRows
    have lower_deep : children.height ≤ lower := by omega
    have opened := ihChildren
      (s := ⟨{ s.builder with entries := s.builder.entries + children.count },
        s.layer.openDirectory (joinPath parent (lowercase name))⟩)
      lower_deep childrenFit ⟨by dsimp only; omega, by dsimp only; omega,
        by dsimp only; omega⟩ wide childRows childBlobs (by omega)
      (fun block mem => inverts block (List.mem_append_left _ mem)) childBlobs.length_le
    have read := run_parseDirectory
      (s := ⟨s.builder, s.layer.insertDirectory (joinPath parent (lowercase name))⟩) wide small table
      childrenFit (by dsimp only; omega) opened
    rw [run_bind_of_ok (run_parseEntry_directory _ row (by
      unfold entryBytes at order
      omega) short read)]
    refine (ih (s := ⟨Builder.charge { s.builder with entries := s.builder.entries + children.count }
      children, children.enter (joinPath parent (lowercase name))
        (s.layer.openDirectory (joinPath parent (lowercase name)))⟩) (le_trans (le_max_right _ _) deep) restFits
      ⟨?_, ?_, ?_⟩ wide restRows blobs.right (by omega)
      (fun block mem => inverts block (List.mem_append_right _ mem)) blobs.right.length_le).trans ?_
    · unfold Builder.charge
      dsimp only
      omega
    · unfold Builder.charge
      dsimp only
      omega
    · unfold Builder.charge
      dsimp only
      omega
    · unfold Builder.charge
      simp only [Entries.nested, Entries.bytes, Entries.blocks, Entries.enter, List.length_append,
        Nat.add_assoc]

end Image

/-! ### What a tree comes to -/

/-- The files and directories of a tree by their paths. -/
def Entries.nodes : Str → Entries → List (Str × Node)
  | _, .nil => []
  | parent, .file name data _ rest =>
    (joinPath parent (lowercase name), .file data) :: rest.nodes parent
  | parent, .directory name children rest =>
    (joinPath parent (lowercase name), .directory) ::
      (children.nodes (joinPath parent (lowercase name)) ++ rest.nodes parent)

section Nodes

variable {limits : VfsLimits} {tree : Entries} {parent p q a b : Str} {layer : Layer} {data : Bytes}

/-- A path lies below another or is it. -/
def Under (q p : Str) : Prop := components q <+: components p

theorem under_iff : Under q p ↔ p = q ∨ Below q p := by
  constructor
  · intro h
    by_cases same : q = p
    · exact .inl same.symm
    · exact .inr ⟨h, same⟩
  · rintro (rfl | h)
    · exact List.prefix_rfl
    · exact h.1

theorem Under.trans {r : Str} (h : Under q p) (h' : Under p r) : Under q r :=
  List.IsPrefix.trans h h'

theorem under_joinPath (named : Name a) : Under parent (joinPath parent a) :=
  under_iff.mpr (.inr ((below_joinPath named parent).mpr (.inl rfl)))

theorem under_unique (first : Name a) (second : Name b) (h : Under (joinPath parent a) p)
    (h' : Under (joinPath parent b) p) : a = b := by
  unfold Under at h h'
  rw [components_joinPath first] at h
  rw [components_joinPath second] at h'
  have same := (List.prefix_of_prefix_length_le h h' (by simp)).eq_of_length (by simp)
  exact List.singleton_inj.mp (List.append_cancel_left same)

theorem TableName.lowercase {name : Str} (h : TableName name) : Name (lowercase name) := by
  have short : (name ++ List.replicate 0 (0 : Byte)).length ≤ nameBytes := by simpa using h.short
  have valid := validName_of_parseName short (parseName_padded h 0)
  exact valid.name

theorem Entries.Fits.names (fits : tree.Fits limits parent) : ∀ name ∈ tree.names, Name name := by
  induction tree generalizing parent with
  | nil => exact nofun
  | file name data blockSize rest ih =>
    intro other mem
    rcases List.mem_cons.mp mem with rfl | mem
    · exact fits.1.lowercase
    · exact ih fits.2.2.2.2 other mem
  | directory name children rest _ ih =>
    intro other mem
    rcases List.mem_cons.mp mem with rfl | mem
    · exact fits.1.lowercase
    · exact ih fits.2.2.2.2 other mem

theorem under_of_mem_nodes (fits : tree.Fits limits parent) {entry : Str × Node}
    (mem : entry ∈ tree.nodes parent) : ∃ name ∈ tree.names, Under (joinPath parent name) entry.1 := by
  induction tree generalizing parent with
  | nil => exact nomatch mem
  | file name data blockSize rest ih =>
    rcases List.mem_cons.mp mem with rfl | mem
    · exact ⟨_, List.mem_cons_self, List.prefix_rfl⟩
    · obtain ⟨other, listed, under⟩ := ih fits.2.2.2.2 mem
      exact ⟨other, List.mem_cons_of_mem _ listed, under⟩
  | directory name children rest ihChildren ih =>
    rcases List.mem_cons.mp mem with rfl | mem
    · exact ⟨_, List.mem_cons_self, List.prefix_rfl⟩
    · rcases List.mem_append.mp mem with mem | mem
      · obtain ⟨other, listed, under⟩ := ihChildren fits.2.2.2.1 mem
        exact ⟨_, List.mem_cons_self,
          (under_joinPath (fits.2.2.2.1.names other listed)).trans under⟩
      · obtain ⟨other, listed, under⟩ := ih fits.2.2.2.2 mem
        exact ⟨other, List.mem_cons_of_mem _ listed, under⟩

variable (data) in
theorem node_insertFile_fresh (nonempty : q ≠ []) (fresh : ∀ p, Under q p → layer.node p = none) :
    (layer.insertFile q data).node q = some (.file data) ∧
      ∀ p, p ≠ q → (layer.insertFile q data).node p = layer.node p := by
  refine ⟨(Layer.node_insertFile layer data nonempty).1 rfl, fun p other => ?_⟩
  obtain ⟨-, below, apart⟩ := Layer.node_insertFile layer data (p := p) nonempty
  by_cases under : Below q p
  · rw [below under, fresh p (under_iff.mpr (.inr under))]
  · exact apart other under

variable (layer) in
theorem node_openDirectory :
    (layer.openDirectory q).node q = some .directory ∧
      ∀ p, p ≠ q → (layer.openDirectory q).node p = layer.node p := by
  have opened : layer.openDirectory q = layer.insertDirectory q := by
    unfold Layer.openDirectory
    dsimp only
    rw [SortedSet.insert_of_mem ((Layer.mem_insertDirectory layer).mpr (.inl rfl))]
  rw [opened]
  exact ⟨(Layer.node_insertDirectory layer).1 rfl, fun p other =>
    (Layer.node_insertDirectory layer).2 other⟩

variable (layer) in
theorem node_enter (fits : tree.Fits limits parent)
    (fresh : ∀ name ∈ tree.names, ∀ p, Under (joinPath parent name) p → layer.node p = none) :
    (∀ entry ∈ tree.nodes parent, (tree.enter parent layer).node entry.1 = some entry.2) ∧
      ∀ p, (∀ entry ∈ tree.nodes parent, p ≠ entry.1) →
        (tree.enter parent layer).node p = layer.node p := by
  induction tree generalizing parent layer with
  | nil => exact ⟨by exact nofun, fun _ _ => rfl⟩
  | file name data blockSize rest ih =>
    obtain ⟨named, distinct, -, -, restFits⟩ := fits
    have lower := named.lowercase
    obtain ⟨here, elsewhere⟩ := node_insertFile_fresh data (joinPath_ne_nil lower parent)
      fun p under => fresh _ List.mem_cons_self p under
    -- What lies under a later entry does not lie under this one.
    have apart (other : Str) (mem : other ∈ rest.names) (p : Str)
        (under : Under (joinPath parent other) p) : p ≠ joinPath parent (lowercase name) := by
      rintro rfl
      have same := under_unique (restFits.names other mem) lower under List.prefix_rfl
      exact distinct (same ▸ mem)
    obtain ⟨listed, unlisted⟩ := ih _ restFits fun other mem p under =>
      (elsewhere p (apart other mem p under)).trans
        (fresh other (List.mem_cons_of_mem _ mem) p under)
    unfold Entries.nodes Entries.enter
    constructor
    · intro entry mem
      rcases List.mem_cons.mp mem with rfl | mem
      · refine (unlisted _ fun other mem => ?_).trans here
        obtain ⟨otherName, otherMem, under⟩ := under_of_mem_nodes restFits mem
        exact (apart otherName otherMem other.1 under).symm
      · exact listed entry mem
    · intro p absent
      rw [unlisted p fun entry mem => absent entry (List.mem_cons_of_mem _ mem)]
      exact elsewhere p (absent _ List.mem_cons_self)
  | directory name children rest ihChildren ih =>
    obtain ⟨named, distinct, -, childrenFit, restFits⟩ := fits
    have lower := named.lowercase
    obtain ⟨here, elsewhere⟩ :=
      node_openDirectory layer (q := joinPath parent (lowercase name))
    have apart (other : Str) (mem : other ∈ rest.names) (p : Str)
        (under : Under (joinPath parent other) p) : ¬ Under (joinPath parent (lowercase name)) p := by
      intro inside
      have same := under_unique (restFits.names other mem) lower under inside
      exact distinct (same ▸ mem)
    have inside (other : Str) (mem : other ∈ children.names) (p : Str)
        (under : Under (joinPath (joinPath parent (lowercase name)) other) p) :
        Below (joinPath parent (lowercase name)) p := by
      have child := childrenFit.names other mem
      rcases under_iff.mp under with rfl | below
      · exact (below_joinPath child _).mpr (.inl rfl)
      · exact ((below_joinPath child _).mpr (.inl rfl)).trans below
    obtain ⟨childListed, childUnlisted⟩ := ihChildren
      (layer.openDirectory (joinPath parent (lowercase name))) childrenFit
      fun other mem p under => by
        have below := inside other mem p under
        rw [elsewhere p below.2.symm]
        exact fresh _ List.mem_cons_self p (under_iff.mpr (.inr below))
    have notChild (p : Str) (outside : ¬ Below (joinPath parent (lowercase name)) p)
        (entry : Str × Node) (mem : entry ∈ children.nodes (joinPath parent (lowercase name))) :
        p ≠ entry.1 := by
      rintro rfl
      obtain ⟨other, otherMem, under⟩ := under_of_mem_nodes childrenFit mem
      exact outside (inside other otherMem _ under)
    have later (p : Str) (outside : ¬ Under (joinPath parent (lowercase name)) p) :
        (children.enter (joinPath parent (lowercase name))
          (layer.openDirectory (joinPath parent (lowercase name)))).node p = layer.node p := by
      rw [under_iff, not_or] at outside
      rw [childUnlisted p (notChild p outside.2)]
      exact elsewhere p outside.1
    obtain ⟨listed, unlisted⟩ := ih _ restFits fun other mem p under =>
      (later p (apart other mem p under)).trans (fresh other (List.mem_cons_of_mem _ mem) p under)
    have notRest (p : Str) (under : Under (joinPath parent (lowercase name)) p) (entry : Str × Node)
        (mem : entry ∈ rest.nodes parent) : p ≠ entry.1 := by
      rintro rfl
      obtain ⟨other, otherMem, under'⟩ := under_of_mem_nodes restFits mem
      exact apart other otherMem _ under' under
    unfold Entries.nodes Entries.enter
    constructor
    · intro entry mem
      rcases List.mem_cons.mp mem with rfl | mem
      · rw [unlisted _ (notRest _ List.prefix_rfl), childUnlisted _ (notChild _ not_below_self)]
        exact here
      · rcases List.mem_append.mp mem with mem | mem
        · obtain ⟨other, otherMem, under⟩ := under_of_mem_nodes childrenFit mem
          rw [unlisted _ (notRest _ (under_iff.mpr (.inr (inside other otherMem _ under))))]
          exact childListed entry mem
        · exact listed entry mem
    · intro p absent
      rw [unlisted p fun entry mem =>
          absent entry (List.mem_cons_of_mem _ (List.mem_append_right _ mem)),
        childUnlisted p fun entry mem =>
          absent entry (List.mem_cons_of_mem _ (List.mem_append_left _ mem))]
      exact elsewhere p (absent _ List.mem_cons_self)

end Nodes

/-! ### The round trip -/

section RoundTrip

variable {codecs : Codecs} {deflate : Bytes → Bytes} {limits : VfsLimits} {tree : Entries}

theorem rootLayer_node {p : Str} (other : p ≠ []) : rootLayer.node p = none :=
  (Layer.node_insertDirectory Layer.empty (q := [])).2 other

theorem node_apply_root {layer : Layer} (wf : layer.WellFormed) (known : [] ∈ layer.directories)
    (p : Str) : (rootLayer.apply layer).node p = layer.node p := by
  have root : rootLayer.node [] = some .directory :=
    Layer.sound_root.wellFormed.node_of_directory Layer.sound_root.parent
  obtain ⟨decided, undecided⟩ := Layer.node_apply (p := p) wf root known
  cases found : layer.node p with
  | some node =>
    cases node with
    | file data => exact decided _ (.file data (Layer.node_eq_file.mp found))
    | directory => exact decided _ (.directory (Layer.mem_of_node_directory found))
  | none =>
    by_cases decides : ∃ node, layer.Decides p node
    · obtain ⟨node, decides⟩ := decides
      rw [decided node decides]
      cases decides with
      | file data file =>
        rw [Layer.node_of_file file] at found
        cases found
      | directory mem =>
        rw [wf.node_of_directory mem] at found
        cases found
      | absent q data file below => rfl
    · rw [undecided fun node decides' => decides ⟨node, decides'⟩]
      have other : p ≠ [] := by
        rintro rfl
        rw [wf.node_of_directory known] at found
        cases found
      exact rootLayer_node other

/-- A tree that fits the limits, and whose image fits 32 bits. -/
structure Entries.Encodes (tree : Entries) (deflate : Bytes → Bytes) (limits : VfsLimits) : Prop where
  wide : limits.Wide
  image : (encodeDirectory deflate tree 0).length < 2 ^ 32
  depth : tree.height ≤ limits.maxDepth
  fits : tree.Fits limits []
  entries : tree.count + tree.nested ≤ limits.maxEntries
  bytes : tree.bytes ≤ limits.maxAggregateBytes
  blocks : tree.blocks.length ≤ limits.maxBlocks

theorem run_image (origin : Str) (encodes : tree.Encodes deflate limits)
    (inverts : ∀ block ∈ tree.blocks, Inverts codecs deflate block) :
    ∃ after, (parseDirectory codecs origin (encodeDirectory deflate tree 0) (limits.maxDepth + 1) 0
      []).run ⟨Builder.new limits, .empty⟩ = .ok () ⟨after, tree.enter [] rootLayer⟩ := by
  have holds : HoldsAt (encodeDirectory deflate tree 0) 0 (encodeDirectory deflate tree 0) :=
    ⟨[], [], rfl, by simp⟩
  have parts := holds
  unfold encodeDirectory encodeTable at parts
  have rows := parts.left.right
  have blobs := parts.right
  rw [List.length_append, length_leBytes, length_rows encodes.fits] at blobs
  rw [length_leBytes] at rows
  have counted : tree.count ≤ limits.maxEntries := le_trans (Nat.le_add_right _ _) encodes.entries
  have entries := run_entries codecs origin
    (s := ⟨{ Builder.new limits with entries := 0 + tree.count }, rootLayer⟩) encodes.depth encodes.fits
    ⟨by simpa [Builder.new] using encodes.entries, by simpa [Builder.new] using encodes.bytes,
      by simpa [Builder.new] using encodes.blocks⟩ encodes.wide encodes.image rows blobs
    (by simp) inverts
  exact ⟨_, run_parseDirectory (s := ⟨Builder.new limits, .empty⟩) encodes.wide encodes.image holds
    encodes.fits (by simpa [Builder.new] using counted) entries⟩

theorem node_enter_root (fits : tree.Fits limits []) (p : Str) (node : Node) :
    (tree.enter [] rootLayer).node p = some node ↔
      p = [] ∧ node = .directory ∨ (p, node) ∈ tree.nodes [] := by
  have named (name : Str) (mem : name ∈ tree.names) (p : Str) (under : Under (joinPath [] name) p) :
      p ≠ [] := by
    rintro rfl
    rcases under_iff.mp under with empty | below
    · exact joinPath_ne_nil (fits.names name mem) [] empty.symm
    · exact not_below_root below
  obtain ⟨listed, unlisted⟩ := node_enter rootLayer fits fun name mem p under =>
    rootLayer_node (named name mem p under)
  have root : rootLayer.node [] = some .directory :=
    Layer.sound_root.wellFormed.node_of_directory Layer.sound_root.parent
  by_cases found : ∃ entry ∈ tree.nodes [], p = entry.1
  · obtain ⟨⟨q, other⟩, mem, rfl⟩ := found
    obtain ⟨name, nameMem, under⟩ := under_of_mem_nodes fits mem
    rw [listed _ mem]
    constructor
    · intro same
      exact .inr (Option.some.inj same ▸ mem)
    · rintro (⟨empty, -⟩ | mem')
      · exact absurd empty (named name nameMem _ under)
      · exact (listed _ mem).symm.trans (listed _ mem')
  · have absent (entry : Str × Node) (mem : entry ∈ tree.nodes []) : p ≠ entry.1 :=
      fun same => found ⟨entry, mem, same⟩
    rw [unlisted p absent]
    constructor
    · intro node_root
      by_cases other : p = []
      · rw [other, root] at node_root
        exact .inl ⟨other, (Option.some.inj node_root).symm⟩
      · rw [rootLayer_node other] at node_root
        cases node_root
    · rintro (⟨rfl, rfl⟩ | mem)
      · exact root
      · exact absurd rfl (absent _ mem)

theorem addLayer_of_run {source : PlanLayer} (builder : Builder) {after : Parsing}
    (version : source.container.version = .psf2)
    (run : (parseDirectory codecs source.origin source.container.reserved
      (builder.limits.maxDepth + 1) 0 []).run ⟨builder, .empty⟩ = .ok () after) :
    addLayer codecs source builder =
      .ok { after.builder with toLayer := after.builder.apply after.layer } := by
  unfold addLayer
  rw [if_neg (not_not.mpr version)]
  dsimp only
  rw [run]
  rfl

/-- Parsing the image of a tree within the limits gives exactly the files and directories of the
tree. -/
theorem decode_encode {M : Type} (codecs : Codecs) (deflate : Bytes → Bytes) (limits : VfsLimits)
    (plan : Psf2LoadPlan M) (source : PlanLayer) (tree : Entries) (single : plan.layers = [source])
    (version : source.container.version = .psf2)
    (image : source.container.reserved = encodeDirectory deflate tree 0)
    (encodes : tree.Encodes deflate limits)
    (inverts : ∀ block ∈ tree.blocks, Inverts codecs deflate block) :
    ∃ vfs, fromLoadPlan codecs plan limits = .ok vfs ∧
      (∀ p data, vfs.files.get? p = some data ↔ (p, .file data) ∈ tree.nodes []) ∧
      ∀ p, p ∈ vfs.directories ↔ p = [] ∨ (p, .directory) ∈ tree.nodes [] := by
  obtain ⟨after, run⟩ := run_image source.origin encodes inverts
  rw [← image] at run
  have entered := entered_parsed run
  have sound : Layer.Sound _ [] (tree.enter [] rootLayer) := entered.sound
  have base : after.toLayer = rootLayer :=
    (Prod.ext_iff.mp entered.fixed).2
  have loaded : fromLoadPlan codecs plan limits =
      .ok ⟨rootLayer.apply (tree.enter [] rootLayer)⟩ := by
    unfold fromLoadPlan
    rw [single, List.foldlM_cons, addLayer_of_run (Builder.new limits) version run, base]
    rfl
  have wf := sound.wellFormed.apply Layer.sound_root.wellFormed sound.parent Layer.sound_root.parent
  have nodes (p : Str) (node : Node) :=
    (node_apply_root sound.wellFormed sound.parent p) ▸ node_enter_root encodes.fits p node
  refine ⟨_, loaded, fun p data => ?_, fun p => ?_⟩
  · rw [← Layer.node_eq_file, nodes]
    simp
  · have node : p ∈ (rootLayer.apply (tree.enter [] rootLayer)).directories ↔
        (rootLayer.apply (tree.enter [] rootLayer)).node p = some .directory :=
      ⟨wf.node_of_directory, Layer.mem_of_node_directory⟩
    rw [node, nodes]
    simp

/-- A directory with a file of one byte, and an empty file. -/
def smallTree : Entries :=
  .directory (ascii "Lib") (.file (ascii "A") [1] 16 .nil) (.file (ascii "b") [] 1 .nil)

theorem smallTree_encodes : smallTree.Encodes (fun _ => oneStream) .default := by
  refine ⟨⟨by decide, by decide, by decide⟩, by decide +kernel, by decide, ?_, by decide, by decide,
    by decide⟩
  have name (text : String) (h : ascii text ≠ [] ∧ (ascii text).length ≤ nameBytes ∧
      ∀ byte ∈ ascii text, (32 ≤ byte ∧ byte ≤ 126) ∧
        byte ≠ slash ∧ byte ≠ backslash ∧ byte ≠ colon) : TableName (ascii text) :=
    ⟨h.1, h.2.1, fun byte mem => (h.2.2 byte mem).1, fun byte mem => (h.2.2 byte mem).2⟩
  refine ⟨name "Lib" (by decide), by decide, by decide, ⟨name "A" (by decide), by decide, by decide,
    ⟨by decide, by decide, by decide, by decide, by decide⟩, trivial⟩, name "b" (by decide), by decide,
    by decide, ⟨by decide, by decide, by decide, by decide, by decide⟩, trivial⟩

theorem decode_encode_sample :
    ∃ vfs, fromLoadPlan oneCodecs (imagePlan (encodeDirectory (fun _ => oneStream) smallTree 0))
        .default = .ok vfs ∧
      vfs.files.get? (ascii "lib/a") = some [1] ∧ vfs.files.get? (ascii "b") = some [] ∧
      ascii "lib" ∈ vfs.directories := by
  obtain ⟨vfs, loaded, files, directories⟩ := decode_encode oneCodecs (fun _ => oneStream) .default
    (imagePlan (encodeDirectory (fun _ => oneStream) smallTree 0)) _ smallTree rfl rfl rfl
    smallTree_encodes (by
      intro block mem
      obtain rfl : block = [1] := by
        rw [show smallTree.blocks = [[1]] by decide] at mem
        exact List.mem_singleton.mp mem
      exact ⟨by decide, by decide, rfl⟩)
  have nodes : smallTree.nodes [] = [(ascii "lib", .directory), (ascii "lib/a", .file [1]),
      (ascii "b", .file [])] := by decide
  rw [nodes] at files directories
  exact ⟨vfs, loaded, (files _ _).mpr (by decide), (files _ _).mpr (by decide),
    (directories _).mpr (by decide)⟩

end RoundTrip

end Upse.Vfs
