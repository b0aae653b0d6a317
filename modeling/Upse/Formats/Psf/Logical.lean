import Upse.Formats.Psf.Load
import Upse.Lib.Moves
import Upse.Lib.Sorted

/-!
# Logical paths

The resolver in memory names its files by logical paths, which it brings into one form.  Paths are those
of a Unix host, where a component is never a prefix.
-/

namespace Upse.Psf

open Moves

def separator : Byte := 47

/-- `replace('\\', "/")`. -/
def forwardSlashes (input : Str) : Str := input.map fun byte => if byte = 92 then separator else byte

/-- Component of a path. -/
inductive Component where
  | rootDir
  | curDir
  | parentDir
  | normal (part : Str)
  deriving DecidableEq

/-- `Path::components`: repeated separators and `.` are left out, except a `.` at the beginning. -/
def pathComponents (path : Str) : List Component :=
  let pieces := path.splitOn separator
  (if path.head? = some separator then [.rootDir]
    else if pieces.head? = some (ascii ".") then [.curDir]
    else []) ++
  pieces.filterMap fun piece =>
    if piece = [] ∨ piece = ascii "." then none
    else if piece = ascii ".." then some .parentDir
    else some (.normal piece)

/-- Takes one component into the parts of a normalized path. -/
def pushComponent (parts : List Str) : Component → Except ResolverError (List Str)
  | .normal part => .ok (parts ++ [part])
  | .curDir | .rootDir => .ok parts
  | .parentDir =>
    if parts = [] then .error ⟨ascii "logical path escapes resolver root"⟩ else .ok parts.dropLast

/-- A path without dots. -/
def normalizeLogical (input : Str) : Except ResolverError Str := do
  let parts ← (pathComponents (forwardSlashes input)).foldlM pushComponent []
  if parts = [] then throw ⟨ascii "empty logical origin"⟩
  return [separator].intercalate parts

/-- `PathBuf::pop`, for a path whose components are separated by single separators. -/
def popPath (path : Str) : Str := ((path.reverse.dropWhile (· ≠ separator)).drop 1).reverse

/-- `PathBuf::push`: an absolute path replaces the one before. -/
def pushPath (base path : Str) : Str :=
  if path.head? = some separator then path
  else if base = [] ∨ base.getLast? = some separator then base ++ path
  else base ++ separator :: path

/-- A reference against the file it is in. -/
def resolveLogical (containing reference : Str) : Except ResolverError Str := do
  let containing ← normalizeLogical containing
  normalizeLogical (pushPath (popPath containing) (forwardSlashes reference))

/-- In-memory logical filesystem. -/
structure MemoryResolver where
  files : SortedMap Str Bytes

namespace MemoryResolver

/-- No file. -/
def new : MemoryResolver := ⟨.empty⟩

/-- Inserts or replaces a normalized logical file. -/
def insert (resolver : MemoryResolver) (origin : Str) (bytes : Bytes) :
    Except ResolverError MemoryResolver := do
  let origin ← normalizeLogical origin
  return ⟨resolver.files.insert origin bytes⟩

/-- Resolves a reference. -/
def resolve (resolver : MemoryResolver) (containing reference : Str) :
    Except ResolverError (Str × Bytes) × MemoryResolver :=
  (do
    let origin ← resolveLogical containing reference
    match resolver.files.get? origin with
    | some bytes => return (origin, bytes)
    | none => throw ⟨ascii "missing logical file " ++ origin⟩, resolver)

end MemoryResolver

/-! ### What a path denotes -/

/-- A component of a logical path. -/
structure LogicalName (name : Str) : Prop where
  nonempty : name ≠ []
  not_here : name ≠ ascii "."
  not_up : name ≠ ascii ".."
  one : separator ∉ name
  forward : 92 ∉ name

/-- The form that logical paths are brought into. -/
def Canonical (path : Str) : Prop :=
  ∃ names : List Str, names ≠ [] ∧ (∀ name ∈ names, LogicalName name) ∧
    path = [separator].intercalate names

/-- The move of a piece between slashes. -/
def moveOf (piece : Str) : Move Str :=
  if piece = [] ∨ piece = ascii "." then .stay
  else if piece = ascii ".." then .up
  else .down piece

/-- The moves of a path, from wherever it starts. -/
def movesOf (input : Str) : List (Move Str) := ((forwardSlashes input).splitOn separator).map moveOf

/-- The reference denotes these names: from the root where it is absolute, and from the directory of the
containing file elsewhere. -/
def Refers (containing reference : Str) (names : List Str) : Prop :=
  ∃ file, file ≠ [] ∧ Denotes (movesOf containing) file ∧
    Denotes ((if (forwardSlashes reference).head? = some separator then []
      else file.dropLast.map .down) ++ movesOf reference) names

theorem foldlM_pushComponent (parts pieces : List Str) :
    (pieces.filterMap fun piece =>
      if piece = [] ∨ piece = ascii "." then none
      else if piece = ascii ".." then some .parentDir
      else some (.normal piece)).foldlM pushComponent parts =
    match follow parts (pieces.map moveOf) with
    | some names => .ok names
    | none => .error ⟨ascii "logical path escapes resolver root"⟩ := by
  induction pieces generalizing parts with
  | nil => rfl
  | cons piece pieces ih =>
    rw [List.filterMap_cons, List.map_cons]
    unfold moveOf
    by_cases still : piece = [] ∨ piece = ascii "."
    · rw [if_pos still, if_pos still]
      exact ih parts
    rw [if_neg still, if_neg still]
    by_cases upward : piece = ascii ".."
    · rw [if_pos upward, if_pos upward]
      dsimp only
      rw [List.foldlM_cons]
      cases parts with
      | nil => rfl
      | cons first rest => exact ih (first :: rest).dropLast
    · rw [if_neg upward, if_neg upward]
      exact ih (parts ++ [piece])

/-- A path is brought into the form of the names it denotes. -/
theorem normalizeLogical_eq (input : Str) :
    normalizeLogical input =
      match follow [] (movesOf input) with
      | none => .error ⟨ascii "logical path escapes resolver root"⟩
      | some [] => .error ⟨ascii "empty logical origin"⟩
      | some (name :: names) => .ok ([separator].intercalate (name :: names)) := by
  have parts : (pathComponents (forwardSlashes input)).foldlM pushComponent [] =
      match follow [] (movesOf input) with
      | some names => .ok names
      | none => .error ⟨ascii "logical path escapes resolver root"⟩ := by
    unfold pathComponents
    dsimp only
    rw [List.foldlM_append]
    refine Eq.trans ?_ (foldlM_pushComponent [] ((forwardSlashes input).splitOn separator))
    split
    next => rfl
    next =>
      split
      next => rfl
      next => rfl
  unfold normalizeLogical
  rw [parts]
  cases follow [] (movesOf input) with
  | none => rfl
  | some names =>
    cases names with
    | nil => rfl
    | cons name names => rfl

theorem normalizeLogical_eq_ok {input path : Str} :
    normalizeLogical input = .ok path ↔
      ∃ names, names ≠ [] ∧ Denotes (movesOf input) names ∧ path = [separator].intercalate names := by
  rw [normalizeLogical_eq]
  constructor
  · intro h
    cases reached : follow [] (movesOf input) with
    | none => rw [reached] at h; cases h
    | some names =>
      rw [reached] at h
      cases names with
      | nil => cases h
      | cons name names =>
        cases h
        exact ⟨_, List.cons_ne_nil _ _, denotes_iff.mpr reached, rfl⟩
  · rintro ⟨names, some_name, denotes, rfl⟩
    rw [denotes_iff.mp denotes]
    cases names with
    | nil => exact absurd rfl some_name
    | cons name names => rfl

/-! ### The form -/

theorem piece_bytes {input piece : Str} (member : piece ∈ input.splitOn separator) :
    separator ∉ piece ∧ ∀ byte ∈ piece, byte ∈ input := by
  induction input generalizing piece with
  | nil =>
    obtain rfl := List.mem_singleton.mp member
    exact ⟨nofun, nofun⟩
  | cons first input ih =>
    rw [List.splitOn_cons_eq_if_modifyHead] at member
    split at member
    next =>
      rcases List.mem_cons.mp member with rfl | later
      · exact ⟨nofun, nofun⟩
      · exact ⟨(ih later).1, fun byte mem => List.mem_cons_of_mem _ ((ih later).2 byte mem)⟩
    next other =>
      obtain ⟨head, tail, pieces⟩ := List.exists_cons_of_ne_nil (List.splitOn_ne_nil separator input)
      rw [pieces, List.modifyHead_cons] at member
      rcases List.mem_cons.mp member with rfl | later
      · have head_bytes := ih (pieces ▸ List.mem_cons_self)
        refine ⟨fun here => ?_, fun byte mem => ?_⟩
        · rcases List.mem_cons.mp here with same | later
          · exact other (beq_iff_eq.mpr same.symm)
          · exact head_bytes.1 later
        · rcases List.mem_cons.mp mem with rfl | later
          · exact List.mem_cons_self
          · exact List.mem_cons_of_mem _ (head_bytes.2 byte later)
      · have bytes := ih (pieces ▸ List.mem_cons_of_mem _ later)
        exact ⟨bytes.1, fun byte mem => List.mem_cons_of_mem _ (bytes.2 byte mem)⟩

theorem backslash_notMem_forwardSlashes (input : Str) : 92 ∉ forwardSlashes input := by
  intro member
  obtain ⟨byte, -, same⟩ := List.mem_map.mp member
  split at same
  next => cases same
  next other => exact other same

theorem logicalName_of_down {input name : Str} (member : .down name ∈ movesOf input) :
    LogicalName name := by
  obtain ⟨piece, listed, move⟩ := List.mem_map.mp member
  obtain ⟨one, bytes⟩ := piece_bytes listed
  unfold moveOf at move
  split at move
  next => cases move
  next moves =>
    split at move
    next => cases move
    next not_up =>
      cases move
      rw [not_or] at moves
      exact ⟨moves.1, moves.2, not_up, one,
        fun here => backslash_notMem_forwardSlashes input (bytes 92 here)⟩

theorem logicalName_of_denotes {input : Str} {names : List Str} (h : Denotes (movesOf input) names) :
    ∀ name ∈ names, LogicalName name := by
  intro name member
  rcases mem_of_follow (denotes_iff.mp h) member with before | down
  · cases before
  · exact logicalName_of_down down

section Form

variable {names : List Str}

theorem forwardSlashes_join (named : ∀ name ∈ names, LogicalName name) :
    forwardSlashes ([separator].intercalate names) = [separator].intercalate names := by
  refine (List.map_congr_left fun byte member => ?_).trans (List.map_id _)
  refine if_neg fun backslash => ?_
  rcases mem_intercalate member with rfl | ⟨name, listed, inside⟩
  · cases backslash
  · exact (named name listed).forward (backslash ▸ inside)

theorem movesOf_join (some_name : names ≠ []) (named : ∀ name ∈ names, LogicalName name) :
    movesOf ([separator].intercalate names) = names.map .down := by
  unfold movesOf
  rw [forwardSlashes_join named,
    List.splitOn_intercalate separator (fun name member => (named name member).one) some_name]
  refine List.map_congr_left fun name member => ?_
  have name := named name member
  unfold moveOf
  rw [if_neg (not_or.mpr ⟨name.nonempty, name.not_here⟩), if_neg name.not_up]

theorem Canonical.normalize {path : Str} (h : Canonical path) : normalizeLogical path = .ok path := by
  obtain ⟨names, some_name, named, rfl⟩ := h
  rw [normalizeLogical_eq_ok]
  refine ⟨names, some_name, ?_, rfl⟩
  rw [movesOf_join some_name named]
  exact .refl

theorem canonical_of_normalize {input path : Str} (h : normalizeLogical input = .ok path) :
    Canonical path := by
  obtain ⟨names, some_name, denotes, rfl⟩ := normalizeLogical_eq_ok.mp h
  exact ⟨names, some_name, logicalName_of_denotes denotes, rfl⟩

theorem popPath_join {name : Str} (named : LogicalName name) (parents : List Str) :
    popPath ([separator].intercalate (parents ++ [name])) = [separator].intercalate parents := by
  have skipped : ∀ byte ∈ name.reverse, decide (byte ≠ separator) = true := by
    intro byte member
    refine decide_eq_true fun same => named.one ?_
    exact same ▸ List.mem_reverse.mp member
  unfold popPath
  by_cases root : parents = []
  · rw [root, List.nil_append, List.intercalate_singleton, List.dropWhile_eq_nil_iff.mpr skipped]
    rfl
  · rw [intercalate_append root (List.cons_ne_nil _ _), List.intercalate_singleton, List.reverse_append,
      List.reverse_cons, List.append_assoc, List.dropWhile_append_of_pos skipped]
    show (([separator].intercalate parents).reverse).reverse = _
    rw [List.reverse_reverse]

theorem forwardSlashes_idem (input : Str) :
    forwardSlashes (forwardSlashes input) = forwardSlashes input := by
  refine (List.map_congr_left fun byte member => if_neg fun backslash => ?_).trans (List.map_id _)
  exact backslash_notMem_forwardSlashes input (backslash ▸ member)

theorem getLast?_join {name : Str} (named : LogicalName name) (parents : List Str) :
    ([separator].intercalate (parents ++ [name])).getLast? = name.getLast? := by
  by_cases root : parents = []
  · rw [root, List.nil_append, List.intercalate_singleton]
  · rw [intercalate_append root (List.cons_ne_nil _ _), List.intercalate_singleton,
      List.append_cons, List.getLast?_append_of_ne_nil _ named.nonempty]

theorem join_open {name : Str} (named : LogicalName name) (parents : List Str) :
    ¬ ([separator].intercalate (parents ++ [name]) = [] ∨
      ([separator].intercalate (parents ++ [name])).getLast? = some separator) := by
  rintro (empty | ends)
  · have last := getLast?_join named parents
    rw [empty] at last
    exact named.nonempty (List.getLast?_eq_none_iff.mp last.symm)
  · rw [getLast?_join named parents] at ends
    exact named.one (List.mem_of_getLast? ends)

/-- A reference pushed on a directory has the moves of the directory, unless it is absolute. -/
theorem movesOf_pushPath (named : ∀ name ∈ names, LogicalName name) (reference : Str) :
    movesOf (pushPath ([separator].intercalate names) (forwardSlashes reference)) =
      (if (forwardSlashes reference).head? = some separator then [] else names.map .down) ++
        movesOf reference := by
  unfold pushPath
  by_cases absolute : (forwardSlashes reference).head? = some separator
  · rw [if_pos absolute, if_pos absolute]
    unfold movesOf
    rw [forwardSlashes_idem]
    rfl
  rw [if_neg absolute, if_neg absolute]
  rcases names.eq_nil_or_concat with rfl | ⟨parents, name, rfl⟩
  · unfold movesOf
    rw [if_pos (.inl rfl)]
    show ((forwardSlashes (forwardSlashes reference)).splitOn separator).map moveOf = _
    rw [forwardSlashes_idem]
    rfl
  · rw [List.concat_eq_append] at named ⊢
    have name_named := named name (List.mem_append_right _ List.mem_cons_self)
    have some_name : parents ++ [name] ≠ [] := List.append_ne_nil_of_right_ne_nil _ (List.cons_ne_nil _ _)
    rw [if_neg (join_open name_named parents), ← movesOf_join some_name named]
    unfold movesOf
    have slashes : forwardSlashes ([separator].intercalate (parents ++ [name]) ++
        separator :: forwardSlashes reference) =
        forwardSlashes ([separator].intercalate (parents ++ [name])) ++
          separator :: forwardSlashes reference := by
      refine List.map_append.trans (congrArg _ ?_)
      show separator :: forwardSlashes (forwardSlashes reference) = _
      rw [forwardSlashes_idem]
    rw [slashes, List.splitOn_append_cons_self, List.map_append]

theorem movesOf_reference {containing : Str} {file : List Str} (some_name : file ≠ [])
    (denotes : Denotes (movesOf containing) file) (reference : Str) :
    movesOf (pushPath (popPath ([separator].intercalate file)) (forwardSlashes reference)) =
      (if (forwardSlashes reference).head? = some separator then []
        else file.dropLast.map .down) ++ movesOf reference := by
  have named := logicalName_of_denotes denotes
  obtain ⟨parents, name, rfl⟩ := (file.eq_nil_or_concat).resolve_left some_name
  rw [List.concat_eq_append] at named ⊢
  rw [popPath_join (named name (List.mem_append_right _ List.mem_cons_self)), List.dropLast_concat]
  exact movesOf_pushPath (fun name member => named name (List.mem_append_left _ member)) reference

theorem resolveLogical_eq_ok {containing reference path : Str} :
    resolveLogical containing reference = .ok path ↔
      ∃ names, names ≠ [] ∧ Refers containing reference names ∧
        path = [separator].intercalate names := by
  unfold resolveLogical
  rw [ErrorState.except_bind_ok]
  constructor
  · rintro ⟨_, normal, resolved⟩
    obtain ⟨file, some_name, denotes, rfl⟩ := normalizeLogical_eq_ok.mp normal
    obtain ⟨names, some_names, leads, rfl⟩ := normalizeLogical_eq_ok.mp resolved
    rw [movesOf_reference some_name denotes] at leads
    exact ⟨names, some_names, ⟨file, some_name, denotes, leads⟩, rfl⟩
  · rintro ⟨names, some_names, ⟨file, some_name, denotes, leads⟩, rfl⟩
    refine ⟨_, normalizeLogical_eq_ok.mpr ⟨file, some_name, denotes, rfl⟩, ?_⟩
    refine normalizeLogical_eq_ok.mpr ⟨names, some_names, ?_, rfl⟩
    rw [movesOf_reference some_name denotes]
    exact leads

theorem Refers.named {containing reference : Str} {names : List Str}
    (h : Refers containing reference names) : ∀ name ∈ names, LogicalName name := by
  obtain ⟨file, some_name, denotes, leads⟩ := h
  rw [← movesOf_reference some_name denotes] at leads
  exact logicalName_of_denotes leads

theorem join_inj {names' : List Str} (some_name : names ≠ []) (some_name' : names' ≠ [])
    (named : ∀ name ∈ names, LogicalName name) (named' : ∀ name ∈ names', LogicalName name)
    (same : [separator].intercalate names = [separator].intercalate names') : names = names' := by
  have moves := congrArg movesOf same
  rw [movesOf_join some_name named, movesOf_join some_name' named'] at moves
  exact List.map_injective_iff.mpr (fun _ _ h => Move.down.inj h) moves

/-- A path is brought into the form of the file it denotes, and of no other. -/
theorem normalizeLogical_eq_join (some_name : names ≠ []) (named : ∀ name ∈ names, LogicalName name)
    (input : Str) :
    normalizeLogical input = .ok ([separator].intercalate names) ↔ Denotes (movesOf input) names := by
  rw [normalizeLogical_eq_ok]
  constructor
  · rintro ⟨names', some_name', denotes, same⟩
    rwa [join_inj some_name some_name' named (logicalName_of_denotes denotes) same]
  · exact fun denotes => ⟨names, some_name, denotes, rfl⟩

end Form

end Upse.Psf
