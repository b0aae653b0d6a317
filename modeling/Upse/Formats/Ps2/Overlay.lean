import Upse.Formats.Ps2.Vfs

/-!
# Laying layers over each other

The prefix tests of the filesystem are the ancestor relation of paths, and what the layers leave at a
path is what the last layer that decides it says.
-/

namespace Upse.Vfs

/-! ### Paths as components -/

section Paths

variable {p q r name : Str}

/-- The names a normalized path consists of; the root has none. -/
def components (path : Str) : List Str := if path = [] then [] else path.splitOn slash

/-- A path lies properly below another. -/
def Below (q p : Str) : Prop := components q <+: components p ∧ q ≠ p

theorem components_ne_nil (h : p ≠ []) : components p ≠ [] := by
  unfold components
  rw [if_neg h]
  exact List.splitOn_ne_nil _ _

theorem intercalate_components (p : Str) : [slash].intercalate (components p) = p := by
  unfold components
  split
  next empty =>
    rw [empty]
    rfl
  next => exact List.intercalate_splitOn slash

theorem components_injective (h : components q = components p) : q = p := by
  rw [← intercalate_components q, h, intercalate_components]

theorem components_append (h : q ≠ []) (r : Str) :
    components (q ++ slash :: r) = components q ++ r.splitOn slash := by
  unfold components
  rw [if_neg (by simp), if_neg h, List.splitOn_append_cons_self]

/-- The prefix test of the filesystem decides whether a path lies below another. -/
theorem below_iff (h : q ≠ []) : Below q p ↔ q ++ [slash] <+: p := by
  constructor
  · rintro ⟨⟨rest, joined⟩, different⟩
    have more : rest ≠ [] := by
      rintro rfl
      rw [List.append_nil] at joined
      exact different (components_injective joined)
    refine ⟨[slash].intercalate rest, ?_⟩
    rw [← intercalate_components p, ← joined, intercalate_append (components_ne_nil h) more,
      intercalate_components, List.append_assoc]
    rfl
  · rintro ⟨rest, rfl⟩
    rw [List.append_assoc, List.singleton_append]
    refine ⟨⟨_, (components_append h rest).symm⟩, fun same => ?_⟩
    have lengths := congrArg List.length same
    rw [List.length_append, List.length_cons] at lengths
    omega

theorem Below.trans (h : Below q p) (h' : Below p r) : Below q r := by
  refine ⟨h.1.trans h'.1, ?_⟩
  rintro rfl
  exact h.2 (components_injective (h.1.eq_of_length (le_antisymm h.1.length_le h'.1.length_le)))

theorem not_below_self : ¬ Below p p := fun h => h.2 rfl

theorem not_below_root : ¬ Below q [] := by
  rintro ⟨above, different⟩
  exact different (components_injective (List.prefix_nil.mp above))

/-- A name of one component. -/
structure Name (name : Str) : Prop where
  nonempty : name ≠ []
  noSlash : slash ∉ name

theorem components_joinPath (named : Name name) (parent : Str) :
    components (joinPath parent name) = components parent ++ [name] := by
  unfold joinPath
  cases parent with
  | nil =>
    show components name = [name]
    unfold components
    rw [if_neg named.nonempty, List.splitOn_eq_singleton named.noSlash]
  | cons first rest =>
    show components (first :: rest ++ slash :: name) = _
    rw [components_append (by simp), List.splitOn_eq_singleton named.noSlash]

theorem joinPath_ne_nil (named : Name name) (parent : Str) : joinPath parent name ≠ [] := by
  intro empty
  have parts := components_joinPath named parent
  rw [empty] at parts
  cases parent <;> simp [components] at parts

/-- Above a path lie its parent and what lies above that. -/
theorem below_joinPath (named : Name name) (parent : Str) :
    Below q (joinPath parent name) ↔ q = parent ∨ Below q parent := by
  have parts := components_joinPath named parent
  constructor
  · rintro ⟨above, different⟩
    rw [parts] at above
    rcases List.prefix_concat_iff.mp above with same | above
    · exact absurd (components_injective (same.trans parts.symm)) different
    · by_cases same : q = parent
      · exact .inl same
      · exact .inr ⟨above, same⟩
  · intro h
    have parent_below : Below parent (joinPath parent name) := by
      refine ⟨parts ▸ List.prefix_append _ _, fun same => ?_⟩
      have lengths := congrArg List.length parts
      rw [← same, List.length_append, List.length_singleton] at lengths
      omega
    rcases h with rfl | h
    · exact parent_below
    · exact h.trans parent_below

end Paths

/-! ### What a layer holds at a path -/

/-- A node of the filesystem. -/
inductive Node where
  | file (data : Bytes)
  | directory
  deriving DecidableEq, Repr

namespace Layer

variable {layer base : Layer} {p q : Str} {data : Bytes}

/-- The node at a path. -/
def node (layer : Layer) (path : Str) : Option Node :=
  match layer.files.get? path with
  | some data => some (.file data)
  | none => if path ∈ layer.directories then some .directory else none

/-- No path is a file and a directory. -/
def Unambiguous (layer : Layer) : Prop :=
  ∀ p data, layer.files.get? p = some data → p ∉ layer.directories

/-- No path is a file and a directory, and above every node there are directories. -/
structure WellFormed (layer : Layer) : Prop where
  disjoint : layer.Unambiguous
  closed : ∀ p, layer.node p ≠ none → ∀ q, Below q p → q ∈ layer.directories

theorem node_of_file (h : layer.files.get? p = some data) : layer.node p = some (.file data) := by
  unfold node
  rw [h]

theorem node_eq_file : layer.node p = some (.file data) ↔ layer.files.get? p = some data := by
  refine ⟨fun h => ?_, node_of_file⟩
  unfold node at h
  cases found : layer.files.get? p with
  | some other =>
    rw [found] at h
    cases h
    rfl
  | none =>
    rw [found] at h
    simp only at h
    split at h <;> cases h

theorem WellFormed.node_of_directory (wf : layer.WellFormed) (h : p ∈ layer.directories) :
    layer.node p = some .directory := by
  unfold node
  cases found : layer.files.get? p with
  | some data => exact absurd h (wf.disjoint p data found)
  | none => exact if_pos h

theorem mem_of_node_directory (h : layer.node p = some .directory) : p ∈ layer.directories := by
  unfold node at h
  cases found : layer.files.get? p with
  | some data =>
    rw [found] at h
    cases h
  | none =>
    rw [found] at h
    by_contra missing
    simp only [if_neg missing] at h
    cases h

/-! ### One insertion -/

theorem keep_iff (h : q ≠ []) :
    (p != q && !(q ++ [slash]).isPrefixOf p) = true ↔ p ≠ q ∧ ¬ Below q p := by
  rw [below_iff h, Bool.and_eq_true, bne_iff_ne, Bool.not_eq_true', Bool.eq_false_iff, Ne, Ne,
    List.isPrefixOf_iff_prefix]

variable (layer) in
theorem files_removeSubtree (h : q ≠ []) :
    (p = q ∨ Below q p → (layer.removeSubtree q).files.get? p = none) ∧
      (p ≠ q → ¬ Below q p → (layer.removeSubtree q).files.get? p = layer.files.get? p) := by
  show (_ → (layer.files.retain _).get? p = none) ∧ (_ → _ → (layer.files.retain _).get? p = _)
  rw [SortedMap.get?_retain]
  constructor
  · intro gone
    rw [if_neg]
    rw [keep_iff h]
    tauto
  · intro other apart
    exact if_pos ((keep_iff h).mpr ⟨other, apart⟩)

theorem mem_removeSubtree (h : q ≠ []) :
    p ∈ (layer.removeSubtree q).directories ↔ p ∈ layer.directories ∧ p ≠ q ∧ ¬ Below q p := by
  show p ∈ layer.directories.retain _ ↔ _
  rw [SortedSet.mem_retain, keep_iff h]

variable (layer data) in
theorem directories_insertFile (h : q ≠ []) :
    p ∈ (layer.insertFile q data).directories ↔ p ∈ layer.directories ∧ p ≠ q ∧ ¬ Below q p :=
  mem_removeSubtree h

variable (layer data) in
theorem node_insertFile (h : q ≠ []) :
    (p = q → (layer.insertFile q data).node p = some (.file data)) ∧
      (Below q p → (layer.insertFile q data).node p = none) ∧
      (p ≠ q → ¬ Below q p → (layer.insertFile q data).node p = layer.node p) := by
  have files : (layer.insertFile q data).files = (layer.removeSubtree q).files.insert q data := rfl
  have directories := directories_insertFile layer data (p := p) h
  obtain ⟨removed, kept⟩ := files_removeSubtree layer (p := p) h
  refine ⟨fun same => ?_, fun below => ?_, fun other apart => ?_⟩
  · apply node_of_file
    rw [files, SortedMap.get?_insert, if_pos same]
  · unfold node
    rw [files, SortedMap.get?_insert, if_neg fun same => below.2 same.symm, removed (.inr below)]
    exact if_neg fun mem => (directories.mp mem).2.2 below
  · unfold node
    rw [files, SortedMap.get?_insert, if_neg other, kept other apart]
    have same : p ∈ (layer.insertFile q data).directories ↔ p ∈ layer.directories := by
      rw [directories]
      tauto
    simp only [same]

theorem Unambiguous.insertFile (h : layer.Unambiguous) (nonempty : q ≠ []) :
    (layer.insertFile q data).Unambiguous := by
  intro p other found mem
  obtain ⟨mem, different, apart⟩ := (directories_insertFile layer data nonempty).mp mem
  have same := (node_insertFile layer data nonempty).2.2 different apart
  rw [node_of_file found] at same
  exact h p other (node_eq_file.mp same.symm) mem

variable (layer) in
theorem mem_insertDirectory :
    p ∈ (layer.insertDirectory q).directories ↔ p = q ∨ p ∈ layer.directories :=
  SortedSet.mem_insert

variable (layer) in
theorem node_insertDirectory :
    (p = q → (layer.insertDirectory q).node p = some .directory) ∧
      (p ≠ q → (layer.insertDirectory q).node p = layer.node p) := by
  have files : (layer.insertDirectory q).files = layer.files.erase q := rfl
  have directories := mem_insertDirectory layer (p := p) (q := q)
  constructor
  · intro same
    unfold node
    rw [files, SortedMap.get?_erase, if_pos same]
    exact if_pos (directories.mpr (.inl same))
  · intro other
    unfold node
    rw [files, SortedMap.get?_erase, if_neg other]
    have same : p ∈ (layer.insertDirectory q).directories ↔ p ∈ layer.directories := by
      rw [directories]
      tauto
    simp only [same]

theorem Unambiguous.insertDirectory (h : layer.Unambiguous) :
    (layer.insertDirectory q).Unambiguous := by
  intro p data found mem
  obtain ⟨here, elsewhere⟩ := node_insertDirectory layer (p := p) (q := q)
  by_cases same : p = q
  · rw [node_of_file found] at here
    exact nomatch here same
  · rw [node_of_file found] at elsewhere
    exact h p data (node_eq_file.mp (elsewhere same).symm)
      (((mem_insertDirectory layer).mp mem).resolve_left same)

/-! ### A whole layer -/

/-- What a layer says about a path: the file or directory it has there, or that nothing is below one
of its files. -/
inductive Decides (layer : Layer) (p : Str) : Option Node → Prop
  | file (data : Bytes) : layer.files.get? p = some data → Decides layer p (some (.file data))
  | directory : p ∈ layer.directories → Decides layer p (some .directory)
  | absent (q : Str) (data : Bytes) : layer.files.get? q = some data → Below q p →
      Decides layer p none

variable (base) in
/-- The directories of a layer, laid over a base in any order. -/
theorem node_foldl_directories (directories : List Str) :
    (p ∈ directories → p ≠ [] → (directories.foldl (fun base directory =>
        if directory.isEmpty then base else base.insertDirectory directory) base).node p =
          some .directory) ∧
      (p ∉ directories ∨ p = [] → (directories.foldl (fun base directory =>
        if directory.isEmpty then base else base.insertDirectory directory) base).node p =
          base.node p) := by
  induction directories using List.reverseRecOn with
  | nil => exact ⟨nofun, fun _ => rfl⟩
  | append_singleton directories directory ih =>
    rw [List.foldl_append, List.foldl_cons, List.foldl_nil]
    generalize (directories.foldl _ base) = before at ih
    obtain ⟨listed, other⟩ := ih
    have step := node_insertDirectory before (p := p) (q := directory)
    constructor
    · intro mem some
      split
      next empty =>
        rcases List.mem_append.mp mem with mem | mem
        · exact listed mem some
        · rw [List.mem_singleton.mp mem] at some
          exact absurd (List.isEmpty_iff.mp empty) some
      next =>
        by_cases same : p = directory
        · exact step.1 same
        · rw [step.2 same]
          exact listed ((List.mem_append.mp mem).resolve_right fun mem =>
            same (List.mem_singleton.mp mem)) some
    · intro unlisted
      rw [List.mem_append, List.mem_singleton] at unlisted
      split
      next => exact other (by tauto)
      next nonempty =>
        have different : p ≠ directory := by
          rintro rfl
          rcases unlisted with unlisted | rfl
          · exact unlisted (.inr rfl)
          · exact nonempty rfl
        rw [step.2 different]
        exact other (by tauto)

variable (base data) in
/-- The files of a layer, laid over a base in any order: none is below another. -/
theorem node_foldl_files {files : List (Str × Bytes)} (named : ∀ file ∈ files, file.1 ≠ [])
    (keys : (files.map Prod.fst).Nodup)
    (apart : ∀ file ∈ files, ∀ other ∈ files, ¬ Below file.1 other.1) :
    ((p, data) ∈ files → (files.foldl (fun base file => base.insertFile file.1 file.2) base).node p =
        some (.file data)) ∧
      ((∃ file ∈ files, Below file.1 p) →
        (files.foldl (fun base file => base.insertFile file.1 file.2) base).node p = none) ∧
      ((∀ file ∈ files, p ≠ file.1 ∧ ¬ Below file.1 p) →
        (files.foldl (fun base file => base.insertFile file.1 file.2) base).node p = base.node p) := by
  induction files using List.reverseRecOn with
  | nil => exact ⟨by exact nofun, by exact nofun, fun _ => rfl⟩
  | append_singleton files file ih =>
    have front (other : Str × Bytes) (mem : other ∈ files) : other ∈ files ++ [file] :=
      List.mem_append_left _ mem
    have last : file ∈ files ++ [file] := List.mem_append_right _ List.mem_cons_self
    rw [List.map_append, List.nodup_append] at keys
    rw [List.foldl_append, List.foldl_cons, List.foldl_nil]
    obtain ⟨listed, below, other⟩ := ih (fun f mem => named f (front f mem)) keys.1
      fun f mem g mem' => apart f (front f mem) g (front g mem')
    generalize (files.foldl _ base) = before at listed below other
    obtain ⟨here, under, elsewhere⟩ :=
      node_insertFile before file.2 (p := p) (named file last)
    refine ⟨fun mem => ?_, fun ⟨f, mem, above⟩ => ?_, fun free => ?_⟩
    · rcases List.mem_append.mp mem with mem | mem
      · have different : p ≠ file.1 :=
          keys.2.2 p (List.mem_map_of_mem mem) file.1 (by simp)
        rw [elsewhere different (apart file last _ (front _ mem))]
        exact listed mem
      · obtain rfl : (p, data) = file := List.mem_singleton.mp mem
        exact here rfl
    · by_cases later : Below file.1 p
      · exact under later
      · have earlier : f ∈ files := by
          rcases List.mem_append.mp mem with mem | mem
          · exact mem
          · rw [List.mem_singleton.mp mem] at above
            exact absurd above later
        have different : p ≠ file.1 := by
          rintro rfl
          exact apart f mem file last above
        rw [elsewhere different later]
        exact below ⟨f, earlier, above⟩
    · obtain ⟨different, later⟩ := free file last
      rw [elsewhere different later]
      exact other fun f mem => free f (front f mem)

theorem WellFormed.file_ne_root (wf : layer.WellFormed) (known : [] ∈ layer.directories)
    {file : Str × Bytes} (mem : file ∈ layer.files.entries) : file.1 ≠ [] := by
  intro empty
  exact wf.disjoint file.1 file.2 (SortedMap.get?_eq_some.mpr mem) (empty ▸ known)

/-- What laying a layer over a base leaves at a path. -/
theorem node_apply (wf : layer.WellFormed) (root : base.node [] = some .directory)
    (known : [] ∈ layer.directories) :
    (∀ node, layer.Decides p node → (base.apply layer).node p = node) ∧
      ((∀ node, ¬ layer.Decides p node) → (base.apply layer).node p = base.node p) := by
  have keys : (layer.files.entries.map Prod.fst).Nodup :=
    List.pairwise_map.mpr (layer.files.sorted.imp ne_of_lt)
  have apart (file : Str × Bytes) (mem : file ∈ layer.files.entries) (other : Str × Bytes)
      (mem' : other ∈ layer.files.entries) : ¬ Below file.1 other.1 := by
    intro below
    have found := node_of_file (SortedMap.get?_eq_some.mpr mem' : layer.files.get? other.1 = _)
    exact wf.disjoint file.1 file.2 (SortedMap.get?_eq_some.mpr mem)
      (wf.closed other.1 (by rw [found]; simp) file.1 below)
  obtain ⟨listed, unlisted⟩ :=
    node_foldl_directories base (p := p) layer.directories.toList
  -- The files come after the directories, so that they decide over them.
  have files (data : Bytes) := node_foldl_files (layer.directories.toList.foldl
    (fun base directory => if directory.isEmpty then base else base.insertDirectory directory) base)
    data (p := p) (fun file mem => wf.file_ne_root known mem) keys apart
  refine ⟨fun node decided => ?_, fun undecided => ?_⟩
  · cases decided with
    | file data found => exact (files data).1 (SortedMap.get?_eq_some.mp found)
    | absent q data found below => exact (files []).2.1 ⟨_, SortedMap.get?_eq_some.mp found, below⟩
    | directory mem =>
      refine ((files []).2.2 fun file fileMem => ⟨?_, fun below => ?_⟩).trans ?_
      · rintro rfl
        exact wf.disjoint _ _ (SortedMap.get?_eq_some.mpr fileMem) mem
      · have directory := wf.node_of_directory mem
        exact wf.disjoint _ _ (SortedMap.get?_eq_some.mpr fileMem)
          (wf.closed p (by rw [directory]; simp) _ below)
      · by_cases empty : p = []
        · rw [unlisted (.inr empty), empty]
          exact root
        · exact listed mem empty
  · refine ((files []).2.2 fun file fileMem => ⟨?_, fun below => ?_⟩).trans (unlisted (.inl ?_))
    · rintro rfl
      exact undecided _ (.file file.2 (SortedMap.get?_eq_some.mpr fileMem))
    · exact undecided _ (.absent file.1 file.2 (SortedMap.get?_eq_some.mpr fileMem) below)
    · exact fun mem => undecided _ (.directory mem)

/-- Layers laid over a base: a path is left as the last layer that decides it says. -/
theorem node_foldl_apply {layers : List Layer} (root : base.node [] = some .directory)
    (wf : ∀ L ∈ layers, L.WellFormed ∧ [] ∈ L.directories) :
    (layers.foldl apply base).node [] = some .directory ∧
      (∀ before L after node, layers = before ++ L :: after → L.Decides p node →
        (∀ later ∈ after, ∀ other, ¬ later.Decides p other) →
        (layers.foldl apply base).node p = node) ∧
      ((∀ L ∈ layers, ∀ node, ¬ L.Decides p node) →
        (layers.foldl apply base).node p = base.node p) := by
  induction layers using List.reverseRecOn with
  | nil => exact ⟨root, fun before L after node parts => by simp at parts, fun _ => rfl⟩
  | append_singleton layers layer ih =>
    have front (L : Layer) (mem : L ∈ layers) : L ∈ layers ++ [layer] := List.mem_append_left _ mem
    have last : layer ∈ layers ++ [layer] := List.mem_append_right _ List.mem_cons_self
    obtain ⟨layer_wf, known⟩ := wf layer last
    obtain ⟨root', decided, undecided⟩ := ih fun L mem => wf L (front L mem)
    rw [List.foldl_append, List.foldl_cons, List.foldl_nil]
    obtain ⟨decision, silent⟩ := node_apply (p := p) layer_wf root' known
    refine ⟨(node_apply layer_wf root' known).1 _ (.directory known), ?_, fun none_decides => ?_⟩
    · intro before L after node parts decides later
      rcases List.eq_nil_or_concat after with rfl | ⟨middle, final, rfl⟩
      · obtain ⟨-, same⟩ := List.append_inj' parts rfl
        obtain rfl : layer = L := List.singleton_inj.mp same
        exact decision node decides
      · rw [List.concat_eq_append, ← List.cons_append, ← List.append_assoc] at parts
        obtain ⟨earlier, same⟩ := List.append_inj' parts rfl
        obtain rfl : layer = final := List.singleton_inj.mp same
        rw [silent fun other => later layer (by simp) other]
        exact decided before L middle node earlier decides fun other mem => later other (by simp [mem])
    · rw [silent (none_decides layer last)]
      exact undecided fun L mem => none_decides L (front L mem)

end Layer

end Upse.Vfs
