import Upse.Formats.Ps2.Overlay

/-!
# Writing PSF2 filesystems

The image of a directory tree as the tests of the filesystem lay it out: a table of the entries, and
then, entry by entry, the table of a directory below or the compressed blocks of a file.
-/

namespace Upse.Vfs

/-- The entries of a directory, in order. -/
inductive Entries where
  | nil
  | file (name : Str) (data : Bytes) (blockSize : ℕ) (rest : Entries)
  | directory (name : Str) (children rest : Entries)

namespace Entries

/-- The number of entries in the directory itself. -/
def count : Entries → ℕ
  | nil => 0
  | file _ _ _ rest => rest.count + 1
  | directory _ _ rest => rest.count + 1

/-- The levels of directories below. -/
def height : Entries → ℕ
  | nil => 0
  | file _ _ _ rest => rest.height
  | directory _ children rest => max (children.height + 1) rest.height

/-- The number of entries in the directories below. -/
def nested : Entries → ℕ
  | nil => 0
  | file _ _ _ rest => rest.nested
  | directory _ children rest => children.count + children.nested + rest.nested

/-- The bytes of all files. -/
def bytes : Entries → ℕ
  | nil => 0
  | file _ data _ rest => data.length + rest.bytes
  | directory _ children rest => children.bytes + rest.bytes

/-- The names as the filesystem has them. -/
def names : Entries → List Str
  | nil => []
  | file name _ _ rest => lowercase name :: rest.names
  | directory name _ rest => lowercase name :: rest.names

end Entries

/-- The name of an entry, padded, and its three fields. -/
def encodeRow (name : Str) (offset size blockSize : ℕ) : Bytes :=
  name ++ List.replicate (nameBytes - name.length) 0 ++ leBytes 4 offset ++ leBytes 4 size ++
    leBytes 4 blockSize

/-- The blocks of a file: all of `blockSize` bytes but the last. -/
def chunks (blockSize : ℕ) (data : Bytes) : List Bytes :=
  (List.range ((data.length + blockSize - 1) / blockSize)).map fun block =>
    slice data (block * blockSize) ((block + 1) * blockSize)

/-- The number of blocks of a file. -/
def blockCount (blockSize : ℕ) (data : Bytes) : ℕ := (data.length + blockSize - 1) / blockSize

/-- The blocks of all files. -/
def Entries.blocks : Entries → List Bytes
  | .nil => []
  | .file _ data blockSize rest => chunks blockSize data ++ rest.blocks
  | .directory _ children rest => children.blocks ++ rest.blocks

section Encode

variable (deflate : Bytes → Bytes)

/-- The sizes of the compressed blocks of a file, and the blocks. -/
def encodeFile (data : Bytes) (blockSize : ℕ) : Bytes :=
  let blocks := (chunks blockSize data).map deflate
  blocks.flatMap (leBytes 4 ·.length) ++ blocks.flatten

/-- A table before what its entries refer to. -/
def encodeTable (count : ℕ) (rows blobs : Bytes) : Bytes := leBytes 4 count ++ rows ++ blobs

/-- The rows of entries, and what they refer to from an offset on. -/
def encodeEntries : Entries → ℕ → Bytes × Bytes
  | .nil, _ => ([], [])
  | .file name data blockSize rest, offset =>
    if data.isEmpty then
      let (rows, blobs) := encodeEntries rest offset
      (encodeRow name 0 0 0 ++ rows, blobs)
    else
      let blob := encodeFile deflate data blockSize
      let (rows, blobs) := encodeEntries rest (offset + blob.length)
      (encodeRow name offset data.length blockSize ++ rows, blob ++ blobs)
  | .directory name children rest, offset =>
    let (rows, blobs) := encodeEntries children (offset + (4 + children.count * entryBytes))
    let table := encodeTable children.count rows blobs
    let (rows, blobs) := encodeEntries rest (offset + table.length)
    (encodeRow name offset 0 0 ++ rows, table ++ blobs)

/-- The image of a directory at an offset. -/
def encodeDirectory (entries : Entries) (offset : ℕ) : Bytes :=
  let (rows, blobs) := encodeEntries deflate entries (offset + (4 + entries.count * entryBytes))
  encodeTable entries.count rows blobs

end Encode

end Upse.Vfs

/-!
## The layer a directory table describes

Parsing a layer enters the nodes its tables list, one after the other, and what it leaves is well
formed and has only valid paths.
-/

namespace Upse.Vfs

open ErrorState Psf

/-! ### Listed entries -/

/-- A node a table lists. -/
structure TableEntry where
  path : Str
  kind : NodeKind
  deriving DecidableEq, Repr

/-- What is at each path. -/
abbrev Shape := Str → Option NodeKind

open Classical in
/-- Enters a node: a file drops everything below it. -/
noncomputable def place (shape : Shape) (entry : TableEntry) : Shape := fun p =>
  if p = entry.path then some entry.kind
  else if entry.kind = .file ∧ Below entry.path p then none
  else shape p

/-- The name in the entry at an offset. -/
def entryName (input : Bytes) (entryOffset : ℕ) : Str :=
  match parseName (slice input entryOffset (entryOffset + nameBytes)) with
  | .ok name => name
  | .error _ => []

/-- A directory is an entry with a table but neither size nor block size. -/
def isTable (input : Bytes) (entryOffset : ℕ) : Bool :=
  wordAt input (entryOffset + 36) ≠ 0 ∧ wordAt input (entryOffset + 40) = 0 ∧
    wordAt input (entryOffset + 44) = 0

/-- The nodes that the table at an offset lists, and the tables below it, in the order they are
parsed. -/
def listing (input : Bytes) : ℕ → ℕ → Str → List TableEntry
  | 0, _, _ => []
  | levels + 1, offset, parent =>
    (List.range (wordAt input offset)).flatMap fun index =>
      let entryOffset := offset + 4 + index * entryBytes
      let path := joinPath parent (entryName input entryOffset)
      if isTable input entryOffset then
        ⟨path, .directory⟩ :: listing input levels (wordAt input (entryOffset + 36)) path
      else [⟨path, .file⟩]

/-- What the tables of an input leave, from the empty root on. -/
noncomputable def listed (input : Bytes) (levels : ℕ) : Shape :=
  (⟨[], .directory⟩ :: listing input levels 0 []).foldl place fun _ => none

/-! ### Valid names -/

/-- A byte that stands in a name. -/
structure NameByte (byte : Byte) : Prop where
  printable : 32 ≤ byte ∧ byte ≤ 126
  plain : byte ≠ slash ∧ byte ≠ backslash ∧ byte ≠ colon
  lower : asciiLower byte = byte

instance : DecidablePred NameByte := fun _ =>
  decidable_of_iff (_ ∧ _ ∧ _) ⟨fun ⟨h, h', h''⟩ => ⟨h, h', h''⟩, fun h => ⟨h.1, h.2, h.3⟩⟩

/-- A normalized name of a table. -/
structure ValidName (name : Str) : Prop where
  nonempty : name ≠ []
  short : name.length ≤ nameBytes
  bytes : ∀ byte ∈ name, NameByte byte

/-- A path of valid names. -/
structure ValidPath (path : Str) : Prop where
  short : path.length ≤ specMaxPathBytes
  names : ∀ name ∈ components path, ValidName name

theorem ValidName.name {name : Str} (h : ValidName name) : Name name :=
  ⟨h.nonempty, fun mem => (h.bytes slash mem).plain.1 rfl⟩

theorem nameByte_asciiLower (byte : Byte) :
    (!(32 ≤ byte && byte ≤ 126) || byte == slash || byte == backslash || byte == colon) = false →
      NameByte (asciiLower byte) := by
  revert byte
  decide +kernel

theorem validName_of_parseName {raw : Bytes} {name : Str} (short : raw.length ≤ nameBytes)
    (h : parseName raw = .ok name) : ValidName name := by
  unfold parseName at h
  dsimp only at h
  split at h
  next => cases h
  next nonempty =>
    split at h
    next => cases h
    next plain =>
      cases h
      rw [Bool.or_eq_true, not_or] at nonempty
      have prefixed : raw.takeWhile (· != 0) <+: raw := List.takeWhile_prefix _
      refine ⟨fun empty => nonempty.1 ?_, ?_, fun byte mem => ?_⟩
      · rw [lowercase, List.map_eq_nil_iff] at empty
        rw [empty]
        rfl
      · rw [length_lowercase]
        exact prefixed.length_le.trans short
      · obtain ⟨original, origin, rfl⟩ := List.mem_map.mp mem
        exact nameByte_asciiLower original
          (Bool.eq_false_iff.mpr fun bad => plain (List.any_eq_true.mpr ⟨_, origin, bad⟩))

theorem ValidPath.joinPath {parent name : Str} (h : ValidPath parent) (valid : ValidName name)
    (short : (joinPath parent name).length ≤ specMaxPathBytes) :
    ValidPath (joinPath parent name) := by
  refine ⟨short, ?_⟩
  rw [components_joinPath valid.name]
  intro part mem
  rcases List.mem_append.mp mem with mem | mem
  · exact h.names part mem
  · rw [List.mem_singleton.mp mem]
    exact valid

theorem validPath_root : ValidPath [] := ⟨by decide, by exact nofun⟩

/-! ### Entering nodes -/

/-- The kind of a node. -/
def Node.kind : Node → NodeKind
  | .file _ => .file
  | .directory => .directory

namespace Layer

variable {layer : Layer} {parent name p q : Str} {data : Bytes}

/-- What is at each path of a layer. -/
def shape (layer : Layer) : Shape := fun p => (layer.node p).map Node.kind

theorem shape_eq_file : layer.shape p = some .file ↔ ∃ data, layer.files.get? p = some data := by
  unfold shape
  rw [Option.map_eq_some_iff]
  constructor
  · rintro ⟨node, found, kind⟩
    cases node with
    | file data => exact ⟨data, node_eq_file.mp found⟩
    | directory => cases kind
  · rintro ⟨data, found⟩
    exact ⟨_, node_of_file found, rfl⟩

theorem WellFormed.shape_eq_directory (wf : layer.WellFormed) :
    layer.shape p = some .directory ↔ p ∈ layer.directories := by
  unfold shape
  rw [Option.map_eq_some_iff]
  constructor
  · rintro ⟨node, found, kind⟩
    cases node with
    | file data => cases kind
    | directory => exact mem_of_node_directory found
  · intro mem
    exact ⟨_, wf.node_of_directory mem, rfl⟩

variable (layer data) in
theorem shape_insertFile (h : q ≠ []) :
    (layer.insertFile q data).shape = place layer.shape ⟨q, .file⟩ := by
  funext p
  obtain ⟨here, under, elsewhere⟩ := node_insertFile layer data (p := p) h
  unfold place shape
  by_cases same : p = q
  · rw [if_pos same, here same]
    rfl
  · rw [if_neg same]
    by_cases below : Below q p
    · rw [if_pos ⟨rfl, below⟩, under below]
      rfl
    · rw [if_neg fun both => below both.2, elsewhere same below]

variable (layer) in
theorem shape_insertDirectory :
    (layer.insertDirectory q).shape = place layer.shape ⟨q, .directory⟩ := by
  funext p
  obtain ⟨here, elsewhere⟩ := node_insertDirectory layer (p := p) (q := q)
  unfold place shape
  by_cases same : p = q
  · rw [if_pos same, here same]
    rfl
  · rw [if_neg same, if_neg (by simp), elsewhere same]

theorem WellFormed.insertFile (wf : layer.WellFormed) (named : Name name)
    (mem : parent ∈ layer.directories) :
    (layer.insertFile (joinPath parent name) data).WellFormed := by
  have nonempty := joinPath_ne_nil named parent
  have parent_node : layer.node parent ≠ none := by
    rw [wf.node_of_directory mem]
    simp
  refine ⟨wf.disjoint.insertFile nonempty, ?_⟩
  · intro p found above below
    obtain ⟨here, under, elsewhere⟩ :=
      node_insertFile layer data (p := p) nonempty
    by_cases same : p = joinPath parent name
    · rw [same] at below
      refine (directories_insertFile layer data nonempty).mpr ⟨?_, below.2, fun loop => ?_⟩
      · rcases (below_joinPath named parent).mp below with rfl | higher
        · exact mem
        · exact wf.closed parent parent_node above higher
      · exact (loop.trans below).2 rfl
    · by_cases gone : Below (joinPath parent name) p
      · exact absurd (under gone) found
      · rw [elsewhere same gone] at found
        refine (directories_insertFile layer data nonempty).mpr ⟨wf.closed p found above below, ?_, fun loop => ?_⟩
        · rintro rfl
          exact gone below
        · exact gone (loop.trans below)

theorem WellFormed.insertDirectory (wf : layer.WellFormed) (named : Name name)
    (mem : parent ∈ layer.directories) :
    (layer.insertDirectory (joinPath parent name)).WellFormed := by
  have parent_node : layer.node parent ≠ none := by
    rw [wf.node_of_directory mem]
    simp
  refine ⟨wf.disjoint.insertDirectory, ?_⟩
  · intro p found above below
    refine (mem_insertDirectory layer).mpr (.inr ?_)
    by_cases same : p = joinPath parent name
    · rw [same] at below
      rcases (below_joinPath named parent).mp below with rfl | higher
      · exact mem
      · exact wf.closed parent parent_node above higher
    · rw [(node_insertDirectory layer).2 same] at found
      exact wf.closed p found above below

/-- A layer under construction: it is well formed, all its paths are valid, and it has the nodes that
were entered. -/
structure Sound (shape : Shape) (parent : Str) (layer : Layer) : Prop where
  wellFormed : layer.WellFormed
  parent : parent ∈ layer.directories
  paths : ∀ p, layer.shape p ≠ none → ValidPath p
  shape : layer.shape = shape

variable (layer) in
theorem paths_of_place {shape : Shape} {entry : TableEntry}
    (paths : ∀ p, layer.shape p ≠ none → ValidPath p) (valid : ValidPath entry.path)
    (placed : shape = place layer.shape entry) : ∀ p, shape p ≠ none → ValidPath p := by
  intro p found
  rw [placed] at found
  unfold place at found
  split at found
  next same =>
    rw [same]
    exact valid
  next =>
    split at found
    next => exact absurd rfl found
    next => exact paths p found

theorem Sound.insertFile {shape : Shape} (h : Sound shape parent layer) (named : Name name)
    (valid : ValidPath (joinPath parent name)) :
    Sound (place shape ⟨joinPath parent name, .file⟩) parent
      (layer.insertFile (joinPath parent name) data) := by
  have nonempty := joinPath_ne_nil named parent
  have placed := shape_insertFile layer data nonempty
  refine ⟨h.wellFormed.insertFile named h.parent, ?_, paths_of_place layer h.paths valid placed, ?_⟩
  · have below := (below_joinPath named parent).mpr (.inl rfl)
    exact (directories_insertFile layer data nonempty).mpr
      ⟨h.parent, below.2, fun loop => (loop.trans below).2 rfl⟩
  · rw [placed, h.shape]

theorem Sound.insertDirectory {shape : Shape} (h : Sound shape parent layer) (named : Name name)
    (valid : ValidPath (joinPath parent name)) :
    Sound (place shape ⟨joinPath parent name, .directory⟩) (joinPath parent name)
      (layer.insertDirectory (joinPath parent name)) := by
  have placed := shape_insertDirectory layer (q := joinPath parent name)
  refine ⟨h.wellFormed.insertDirectory named h.parent, ?_, paths_of_place layer h.paths valid placed, ?_⟩
  · exact (mem_insertDirectory layer).mpr (.inl rfl)
  · rw [placed, h.shape]

theorem Sound.leave {shape : Shape} (h : Sound shape (joinPath parent name) layer)
    (named : Name name) : Sound shape parent layer := by
  refine ⟨h.wellFormed, ?_, h.paths, h.shape⟩
  have node := h.wellFormed.node_of_directory h.parent
  exact h.wellFormed.closed _ (by rw [node]; simp) parent
    ((below_joinPath named parent).mpr (.inl rfl))

theorem sound_root : Sound (place (fun _ => none) ⟨[], .directory⟩) []
    ⟨.empty, SortedSet.empty.insert []⟩ := by
  have shape : (⟨.empty, SortedSet.empty.insert []⟩ : Layer).shape =
      place (fun _ => none) ⟨[], .directory⟩ := shape_insertDirectory empty
  have wellFormed : (⟨.empty, SortedSet.empty.insert []⟩ : Layer).WellFormed := by
    constructor
    · intro p data found
      rw [SortedMap.get?_empty] at found
      cases found
    intro p found q below
    unfold node at found
    rw [SortedMap.get?_empty] at found
    dsimp only at found
    split at found
    next mem =>
      rw [SortedSet.mem_insert] at mem
      rw [mem.resolve_right (SortedSet.notMem_empty p)] at below
      exact absurd below not_below_root
    next => exact absurd rfl found
  exact ⟨wellFormed, SortedSet.mem_insert.mpr (.inl rfl),
    paths_of_place empty (fun p found => absurd rfl found) validPath_root shape, shape⟩

end Layer

/-! ### Parsing -/

section Parse

open Layer

variable {codecs : Codecs} {origin : Str} {input : Bytes} {s : Parsing} {shape : Shape}
  {parent : Str}

/-- The part of a builder that parsing leaves alone. -/
def Builder.fixed (builder : Builder) : VfsLimits × Layer := (builder.limits, builder.toLayer)

/-- Charges are all that changed. -/
structure Charged (s t : Parsing) : Prop where
  layer : t.layer = s.layer
  fixed : t.builder.fixed = s.builder.fixed

theorem Charged.trans {s t u : Parsing} (h : Charged s t) (h' : Charged t u) : Charged s u :=
  ⟨h'.layer.trans h.layer, h'.fixed.trans h.fixed⟩

theorem returns_modifyBuilder {f : Builder → Builder} (h : (f s.builder).fixed = s.builder.fixed) :
    Returns (fun _ => Charged s) s (modifyBuilder f) := returns_modify ⟨rfl, h⟩

theorem returns_chargeEntries (offset count : ℕ) :
    Returns (fun _ => Charged s) s (chargeEntries origin offset parent count) := by
  unfold chargeEntries
  apply returns_get_bind
  apply returns_okOr_bind
  intro entries _
  refine Returns.bind (returns_modifyBuilder rfl) fun _ t charged => ?_
  unfold throwIf
  exact .either (returns_throw _) (returns_pure charged)

theorem returns_parseFile (offset size blockSize : ℕ) (path : Str) :
    Returns (fun _ => Charged s) s
      (parseFile codecs origin input offset size blockSize path) := by
  unfold parseFile
  apply returns_get_bind
  apply returns_throwIf_bind
  intro _
  apply returns_throwIf_bind
  intro _
  apply returns_get_bind
  apply returns_okOr_bind
  intro aggregateBytes _
  refine Returns.bind (returns_modifyBuilder rfl) fun _ t first => ?_
  apply returns_throwIf_bind
  intro _
  apply returns_get_bind
  apply returns_okOr_bind
  intro blocks _
  refine Returns.bind (returns_modifyBuilder rfl) fun _ u second => ?_
  apply returns_throwIf_bind
  intro _
  apply returns_okOr_bind
  intro tableBytes _
  apply returns_okOr_bind
  intro compressedOffset _
  apply returns_throwIf_bind
  intro _
  cases parseBlocks codecs origin input offset size blockSize path _ 0 compressedOffset [] with
  | error e => exact returns_throw e
  | ok data => exact returns_pure (first.trans second)

/-- What holds between the entries of a table. -/
structure Entered (builder : Builder) (shape : Shape) (parent : Str) (s : Parsing) : Prop where
  sound : Sound shape parent s.layer
  fixed : s.builder.fixed = builder.fixed

theorem returns_parseEntry {levels : ℕ} {descend : ℕ → Str → ParseM Unit}
    (below : ∀ offset path shape t, ValidPath path →
      Sound shape path { t.layer with directories := t.layer.directories.insert path } →
        Returns (fun _ => Entered t.builder
          ((listing input levels offset path).foldl place shape) path) t (descend offset path))
    (entryOffset : ℕ) (h : Sound shape parent s.layer) (valid : ValidPath parent) :
    Returns (fun _ => Entered s.builder
        ((if isTable input entryOffset then
            ⟨joinPath parent (entryName input entryOffset), .directory⟩ ::
              listing input levels (wordAt input (entryOffset + 36))
                (joinPath parent (entryName input entryOffset))
          else [⟨joinPath parent (entryName input entryOffset), .file⟩]).foldl place shape)
        parent)
      s (parseEntry codecs origin input descend parent entryOffset) := by
  unfold parseEntry
  apply returns_ofExcept_bind
  intro name parsed
  have parsed : parseName (slice input entryOffset (entryOffset + nameBytes)) = .ok name := by
    cases read : parseName (slice input entryOffset (entryOffset + nameBytes)) with
    | error e =>
      rw [read] at parsed
      cases parsed
    | ok other =>
      rw [read] at parsed
      cases parsed
      rfl
  have read : entryName input entryOffset = name := by
    unfold entryName
    rw [parsed]
  have short : (slice input entryOffset (entryOffset + nameBytes)).length ≤ nameBytes := by
    unfold slice
    rw [List.length_take]
    omega
  have validName := validName_of_parseName short parsed
  have named := validName.name
  rw [read]
  apply returns_get_bind
  apply returns_throwIf_bind
  intro bounded
  have path : ValidPath (joinPath parent name) := valid.joinPath validName (by omega)
  refine Returns.ite (fun zeros => ?_) fun nonzero => Returns.ite (fun table => ?_) fun other =>
    Returns.ite (fun regular => ?_) fun _ => returns_throw _
  · have file : isTable input entryOffset = false := by
      simp [isTable, zeros.1]
    rw [file]
    exact returns_modify ⟨h.insertFile named path, rfl⟩
  · have directory : isTable input entryOffset = true := by
      simp [isTable, table.1, table.2]
      tauto
    rw [directory]
    apply returns_throwIf_bind
    intro _
    apply returns_modify_bind
    have entered := h.insertDirectory named path
    refine (below _ _ _ _ path ?_).mono fun _ u entered => ⟨entered.sound.leave named, entered.fixed⟩
    dsimp only
    rw [SortedSet.insert_of_mem entered.parent]
    exact entered
  · have file : isTable input entryOffset = false := by
      simp [isTable, regular.2.1]
    rw [file]
    apply returns_throwIf_bind
    intro _
    refine Returns.bind (returns_parseFile _ _ _ _) fun data t charged => ?_
    refine returns_modify ⟨?_, charged.fixed⟩
    rw [charged.layer]
    exact h.insertFile named path

/-- A table enters the nodes that it and the tables below it list. -/
theorem returns_parseDirectory {levels : ℕ} (offset : ℕ) (valid : ValidPath parent)
    (h : Sound shape parent { s.layer with directories := s.layer.directories.insert parent }) :
    Returns (fun _ => Entered s.builder
      ((listing input levels offset parent).foldl place shape) parent) s
      (parseDirectory codecs origin input levels offset parent) := by
  induction levels generalizing offset parent shape s with
  | zero => exact returns_throw _
  | succ levels ih =>
    unfold parseDirectory listing
    apply returns_okOr_bind
    intro count counted
    refine Returns.bind (returns_chargeEntries offset count) fun _ t charged => ?_
    apply returns_okOr_bind
    intro tableStart start
    apply returns_okOr_bind
    intro tableBytes _
    apply returns_okOr_bind
    intro tableEnd _
    apply returns_throwIf_bind
    intro _
    apply returns_modify_bind
    obtain rfl : tableStart = offset + 4 := (checkedAdd_eq_some.mp start).2
    obtain rfl : count = wordAt input offset := by
      unfold readU32 at counted
      split at counted <;> cases counted
      rfl
    rw [List.foldl_flatMap]
    refine returns_forM_foldl (I := fun shape => Entered s.builder shape parent) ?_ ?_
    · refine ⟨?_, charged.fixed⟩
      dsimp only
      rw [charged.layer]
      exact h
    · intro index _ shape v entered
      refine Returns.mono (returns_parseEntry (fun offset path shape w valid => ih offset valid) _
        entered.sound valid) fun _ w later => ?_
      exact ⟨later.sound, later.fixed.trans entered.fixed⟩

end Parse

end Upse.Vfs
