import Upse.Formats.Ps2.Tables

/-!
# Looking up what a plan lists

The filesystem of a plan is its parsed layers laid over each other.  All its paths are valid, so that
a lookup reaches them unless they have a component that lookups refuse.
-/

namespace Upse.Vfs

open ErrorState Psf

/-! ### Layers over each other -/

open Classical in
/-- Lays what one layer has over what is there: below its files nothing is left. -/
noncomputable def laidOver (base layer : Shape) : Shape := fun p =>
  match layer p with
  | some kind => some kind
  | none => if ∃ q, layer q = some .file ∧ Below q p then none else base p

/-- The empty root. -/
noncomputable def rootShape : Shape := place (fun _ => none) ⟨[], .directory⟩

namespace Layer

variable {layer base : Layer} {p : Str} {shape above : Shape}

/-- Laying a well-formed layer over another one decides between them. -/
theorem shape_apply (wf : layer.WellFormed) (known : [] ∈ layer.directories)
    (root : base.node [] = some .directory) :
    (base.apply layer).shape = laidOver base.shape layer.shape := by
  funext p
  obtain ⟨decided, undecided⟩ := node_apply (p := p) wf root known
  unfold laidOver
  cases found : layer.shape p with
  | some kind =>
    cases kind with
    | file =>
      obtain ⟨data, file⟩ := shape_eq_file.mp found
      unfold shape
      rw [decided _ (.file data file)]
      rfl
    | directory =>
      unfold shape
      rw [decided _ (.directory (wf.shape_eq_directory.mp found))]
      rfl
  | none =>
    dsimp only
    split
    next absent =>
      obtain ⟨q, file, below⟩ := absent
      obtain ⟨data, file⟩ := shape_eq_file.mp file
      unfold shape
      rw [decided _ (.absent q data file below)]
      rfl
    next present =>
      unfold shape
      rw [undecided]
      rintro node (⟨data, file⟩ | mem | ⟨q, data, file, below⟩)
      · rw [shape_eq_file.mpr ⟨data, file⟩] at found
        cases found
      · rw [wf.shape_eq_directory.mpr mem] at found
        cases found
      · exact present ⟨q, shape_eq_file.mpr ⟨data, file⟩, below⟩

theorem unambiguous_apply (h : base.Unambiguous) (wf : layer.WellFormed)
    (known : [] ∈ layer.directories) : (base.apply layer).Unambiguous := by
  have directories : ∀ items : List Str, (items.foldl (fun base directory =>
      if directory.isEmpty then base else base.insertDirectory directory) base).Unambiguous := by
    intro items
    induction items using List.reverseRecOn with
    | nil => exact h
    | append_singleton items item ih =>
      rw [List.foldl_append, List.foldl_cons, List.foldl_nil]
      split
      · exact ih
      · exact ih.insertDirectory
  have files : ∀ (items : List (Str × Bytes)) (start : Layer), start.Unambiguous →
      (∀ item ∈ items, item.1 ≠ []) →
        (items.foldl (fun base file => base.insertFile file.1 file.2) start).Unambiguous := by
    intro items
    induction items with
    | nil => exact fun _ unambiguous _ => unambiguous
    | cons item items ih =>
      intro start unambiguous named
      exact ih _ (unambiguous.insertFile (named item List.mem_cons_self)) fun other mem =>
        named other (List.mem_cons_of_mem _ mem)
  exact files _ _ (directories _) fun file mem => wf.file_ne_root known mem

theorem WellFormed.apply (wf : layer.WellFormed) (base_wf : base.WellFormed)
    (known : [] ∈ layer.directories) (root : [] ∈ base.directories) :
    (base.apply layer).WellFormed := by
  refine ⟨unambiguous_apply base_wf.disjoint wf known, fun p found q below => ?_⟩
  have root := base_wf.node_of_directory root
  obtain ⟨decided, undecided⟩ := node_apply (p := p) wf root known
  obtain ⟨decided', undecided'⟩ := node_apply (p := q) wf root known
  apply mem_of_node_directory
  by_cases decides : ∃ node, layer.Decides p node
  · obtain ⟨node, decides⟩ := decides
    have present : node ≠ none := by
      rw [← decided node decides]
      exact found
    have in_layer : layer.node p ≠ none := by
      rcases decides with ⟨data, file⟩ | mem | _
      · rw [node_of_file file]
        simp
      · rw [wf.node_of_directory mem]
        simp
      · exact absurd rfl present
    exact decided' _ (.directory (wf.closed p in_layer q below))
  · have silent : ∀ node, ¬ layer.Decides p node := fun node decides' => decides ⟨node, decides'⟩
    rw [undecided silent] at found
    have mem := base_wf.closed p found q below
    by_cases decides_above : ∃ node, layer.Decides q node
    · obtain ⟨node, decides'⟩ := decides_above
      cases decides' with
      | file data file => exact absurd (.absent q data file below) (silent none)
      | directory mem' => exact decided' _ (.directory mem')
      | absent r data file higher =>
        exact absurd (.absent r data file (higher.trans below)) (silent none)
    · rw [undecided' fun node decides' => decides_above ⟨node, decides'⟩]
      exact base_wf.node_of_directory mem

theorem laidOver_ne_none {base layer : Shape} (h : laidOver base layer p ≠ none) :
    layer p ≠ none ∨ base p ≠ none := by
  unfold laidOver at h
  split at h
  next kind found =>
    rw [found]
    exact .inl h
  next =>
    split at h
    next => exact absurd rfl h
    next => exact .inr h

theorem Sound.apply (h : Sound above [] layer) (under : Sound shape [] base) :
    Sound (laidOver shape above) [] (base.apply layer) := by
  have root := under.wellFormed.node_of_directory under.parent
  have laid := shape_apply h.wellFormed h.parent root
  refine ⟨h.wellFormed.apply under.wellFormed h.parent under.parent, ?_, fun p found => ?_, ?_⟩
  · exact mem_of_node_directory
      ((node_apply h.wellFormed root h.parent).1 _ (.directory h.parent))
  · rw [laid] at found
    rcases laidOver_ne_none found with found | found
    · exact h.paths p found
    · exact under.paths p found
  · rw [laid, h.shape, under.shape]

end Layer

/-! ### Plans -/

section Plans

variable {M : Type} {codecs : Codecs} {limits : VfsLimits} {builder builder' : Builder}

/-- A layer as parsing an input leaves it. -/
def Parsed (codecs : Codecs) (levels : ℕ) (source : PlanLayer) (layer : Layer) : Prop :=
  ∃ before after, (parseDirectory codecs source.origin source.container.reserved levels 0 []).run
    ⟨before, .empty⟩ = .ok () ⟨after, layer⟩

theorem entered_parsed {levels : ℕ} {source : PlanLayer} {before : Builder} {after : Parsing}
    (run : (parseDirectory codecs source.origin source.container.reserved levels 0 []).run
      ⟨before, .empty⟩ = .ok () after) :
    Entered before (listed source.container.reserved levels) [] after :=
  returns_parseDirectory (s := ⟨before, .empty⟩) 0 validPath_root Layer.sound_root () after run

theorem Parsed.sound {levels : ℕ} {source : PlanLayer} {layer : Layer}
    (h : Parsed codecs levels source layer) :
    Layer.Sound (listed source.container.reserved levels) [] layer := by
  obtain ⟨before, after, run⟩ := h
  exact (entered_parsed run).sound

/-- Adding a layer parses it and lays it over the earlier ones. -/
theorem addLayer_eq_ok {source : PlanLayer} (h : addLayer codecs source builder = .ok builder') :
    ∃ layer, Parsed codecs (builder.limits.maxDepth + 1) source layer ∧
      builder'.toLayer = builder.apply layer ∧ builder'.limits = builder.limits := by
  unfold addLayer at h
  by_cases version : source.container.version ≠ .psf2
  · rw [if_pos version] at h
    cases h
  · rw [if_neg version] at h
    cases run : (parseDirectory codecs source.origin source.container.reserved
        (builder.limits.maxDepth + 1) 0 []).run ⟨builder, .empty⟩ with
    | error e t =>
      simp only [run] at h
      cases h
    | ok _ after =>
      simp only [run] at h
      have entered := entered_parsed run
      obtain ⟨limits, base⟩ := Prod.ext_iff.mp entered.fixed
      cases h
      refine ⟨after.layer, ⟨builder, after.builder, run⟩, ?_, limits⟩
      exact congrArg (Layer.apply · after.layer) base

theorem foldlM_addLayer {sources : List PlanLayer}
    (h : sources.foldlM (fun builder source => addLayer codecs source builder) builder =
      .ok builder') :
    ∃ layers, List.Forall₂ (Parsed codecs (builder.limits.maxDepth + 1)) sources layers ∧
      builder'.toLayer = layers.foldl Layer.apply builder.toLayer := by
  induction sources generalizing builder with
  | nil =>
    cases h
    exact ⟨[], .nil, rfl⟩
  | cons source sources ih =>
    rw [List.foldlM_cons] at h
    cases added : addLayer codecs source builder with
    | error e =>
      rw [added] at h
      cases h
    | ok next =>
      rw [added] at h
      obtain ⟨layer, parsed, laid, limits⟩ := addLayer_eq_ok added
      obtain ⟨layers, rest, all⟩ := ih h
      rw [limits] at rest
      refine ⟨layer :: layers, .cons parsed rest, ?_⟩
      rw [all, laid]
      rfl

/-- Layers laid over each other have what the tables of their inputs leave. -/
theorem sound_foldl_apply {levels : ℕ} {sources : List PlanLayer} {layers : List Layer}
    {base : Layer} {shape : Shape} (under : Layer.Sound shape [] base)
    (parsed : List.Forall₂ (Parsed codecs levels) sources layers) :
    Layer.Sound ((sources.map fun source => listed source.container.reserved levels).foldl laidOver shape)
      [] (layers.foldl Layer.apply base) := by
  induction parsed generalizing base shape with
  | nil => exact under
  | cons first _ ih => exact ih (first.sound.apply under)

/-- The empty root, under the layers. -/
def rootLayer : Layer := ⟨.empty, SortedSet.empty.insert []⟩

theorem fromLoadPlan_eq_ok {plan : Psf2LoadPlan M} {vfs : Psf2Vfs}
    (h : fromLoadPlan codecs plan limits = .ok vfs) :
    ∃ layers, List.Forall₂ (Parsed codecs (limits.maxDepth + 1)) plan.layers layers ∧
      vfs.toLayer = layers.foldl Layer.apply rootLayer := by
  unfold fromLoadPlan at h
  cases folded : plan.layers.foldlM (fun builder layer => addLayer codecs layer builder)
      (Builder.new limits) with
  | error e =>
    rw [folded] at h
    cases h
  | ok builder =>
    rw [folded] at h
    obtain ⟨layers, parsed, laid⟩ := foldlM_addLayer folded
    cases h
    exact ⟨layers, parsed, laid⟩

/-- The node at a path is the one the last layer that decides the path has there; layers that do not
decide it leave it alone. -/
theorem overlay_exact (codecs : Codecs) (plan : Psf2LoadPlan M) (limits : VfsLimits) :
    (∀ vfs, fromLoadPlan codecs plan limits = .ok vfs →
      ∃ layers, List.Forall₂ (Parsed codecs (limits.maxDepth + 1)) plan.layers layers ∧
        vfs.toLayer = layers.foldl Layer.apply rootLayer) ∧
      ∀ layers : List Layer, (∀ layer ∈ layers, ∃ levels source, Parsed codecs levels source layer) →
        ∀ p,
          (∀ before layer after node, layers = before ++ layer :: after → layer.Decides p node →
            (∀ later ∈ after, ∀ other, ¬ later.Decides p other) →
            (layers.foldl Layer.apply rootLayer).node p = node) ∧
          ((∀ layer ∈ layers, ∀ node, ¬ layer.Decides p node) →
            (layers.foldl Layer.apply rootLayer).node p = rootLayer.node p) := by
  refine ⟨fun vfs loaded => fromLoadPlan_eq_ok loaded, fun layers parsed p => ?_⟩
  have sound : ∀ layer ∈ layers, layer.WellFormed ∧ [] ∈ layer.directories := by
    intro layer mem
    obtain ⟨levels, source, parsed⟩ := parsed layer mem
    exact ⟨parsed.sound.wellFormed, parsed.sound.parent⟩
  have root := Layer.sound_root.wellFormed.node_of_directory Layer.sound_root.parent
  exact (Layer.node_foldl_apply root sound).2

/-- The layer of an image. -/
def imageLayer (image : Bytes) : PlanLayer where
  origin := ascii "root"
  container := {
    version := .psf2
    reserved := image
    compressedProgram := []
    program := []
    tags := ⟨[]⟩
    reservedRange := ⟨headerSize, headerSize + image.length⟩
    compressedRange := ⟨headerSize + image.length, headerSize + image.length⟩
    tagRange := none }

/-- The plan of one image. -/
def imagePlan (image : Bytes) : Psf2LoadPlan Unit where
  rootOrigin := ascii "root"
  layers := [imageLayer image]
  refreshOverride := none
  metadata := ()

/-- The layer of a directory whose files are all empty. -/
def emptyFilesLayer (entries : Entries) : PlanLayer := imageLayer (encodeDirectory id entries 0)

/-- The plan of one such layer. -/
def emptyFilesPlan (entries : Entries) : Psf2LoadPlan Unit := imagePlan (encodeDirectory id entries 0)

/-- A decoder without any input, which fails as at the end of a stream. -/
def noCodecs : Codecs := ⟨fun _ => ⟨[], .error "corrupt deflate stream"⟩, fun _ => 0⟩

theorem overlay_exact_sample :
    ∃ older newer,
      Parsed noCodecs 2 (emptyFilesLayer (.file (ascii "a") [] 1 .nil)) older ∧
        Parsed noCodecs 2 (emptyFilesLayer (.directory (ascii "a") .nil .nil)) newer ∧
        ([older, newer].foldl Layer.apply rootLayer).node (ascii "a") = some .directory := by
  have first : (parseDirectory noCodecs (ascii "root")
      (emptyFilesLayer (.file (ascii "a") [] 1 .nil)).container.reserved 2 0 []).run
        ⟨Builder.new .default, .empty⟩ = .ok () _ := eq_ok_of_returned (by decide +kernel)
  have second : (parseDirectory noCodecs (ascii "root")
      (emptyFilesLayer (.directory (ascii "a") .nil .nil)).container.reserved 2 0 []).run
        ⟨Builder.new .default, .empty⟩ = .ok () _ := eq_ok_of_returned (by decide +kernel)
  refine ⟨_, _, ⟨_, _, first⟩, ⟨_, _, second⟩, ?_⟩
  have parsed := (overlay_exact noCodecs (emptyFilesPlan .nil) .default).2 [_, _] (by
      intro layer mem
      rcases List.mem_pair.mp mem with rfl | rfl
      · exact ⟨2, _, _, _, first⟩
      · exact ⟨2, _, _, _, second⟩) (ascii "a")
  exact parsed.1 [_] _ [] _ rfl (.directory (by decide +kernel)) (by exact nofun)

end Plans

/-! ### Lookups -/

section Lookups

variable {p : Str}

/-- A path with a component that lookups refuse. -/
def Dotted (p : Str) : Prop := ∃ name ∈ components p, name = ascii "." ∨ name = ascii ".."

instance (p : Str) : Decidable (Dotted p) := inferInstanceAs (Decidable (∃ name ∈ components p, _))

theorem splitOnP_congr {f g : Byte → Bool} {bytes : Bytes} (h : ∀ byte ∈ bytes, f byte = g byte) :
    bytes.splitOnP f = bytes.splitOnP g := by
  induction bytes with
  | nil => rfl
  | cons byte bytes ih =>
    rw [List.splitOnP_cons_eq_if_modifyHead, List.splitOnP_cons_eq_if_modifyHead,
      h byte List.mem_cons_self, ih fun other mem => h other (List.mem_cons_of_mem _ mem)]

theorem ValidPath.byte (h : ValidPath p) {byte : Byte} (mem : byte ∈ p) :
    byte = slash ∨ NameByte byte := by
  rw [← intercalate_components p] at mem
  rcases mem_intercalate mem with separator | ⟨part, listed, mem⟩
  · exact .inl separator
  · exact .inr ((h.names part listed).bytes byte mem)

theorem lowercase_of_valid {name : Str} (h : ValidName name) : lowercase name = name :=
  (List.map_congr_left fun byte mem => (h.bytes byte mem).lower).trans (List.map_id _)

/-- Valid components are accepted unless one of them is refused. -/
theorem normalizeComponents_valid {parts : List Str} (h : ∀ part ∈ parts, ValidName part) :
    normalizeComponents parts =
      if ∃ part ∈ parts, part = ascii "." ∨ part = ascii ".." then .error .invalidPath
      else .ok parts := by
  induction parts with
  | nil => rfl
  | cons part parts ih =>
    have valid := h part List.mem_cons_self
    have nonempty : part.isEmpty = false := List.isEmpty_eq_false_iff.mpr valid.nonempty
    have printable : (part.any fun byte => !(32 ≤ byte && byte ≤ 126) || byte == colon) = false := by
      rw [List.any_eq_false]
      intro byte mem
      have named := valid.bytes byte mem
      simp [named.plain]
      exact named.printable
    have short : ¬ nameBytes < part.length := by
      have := valid.short
      omega
    unfold normalizeComponents
    rw [nonempty, printable, ih fun other mem => h other (List.mem_cons_of_mem _ mem),
      lowercase_of_valid valid]
    simp only [Bool.false_eq_true, if_false, short, or_false]
    by_cases here : part = ascii "." ∨ part = ascii ".."
    · rw [if_pos here, if_pos ⟨part, List.mem_cons_self, here⟩]
    · rw [if_neg here]
      by_cases later : ∃ part ∈ parts, part = ascii "." ∨ part = ascii ".."
      · obtain ⟨other, mem, dotted⟩ := later
        rw [if_pos ⟨other, mem, dotted⟩, if_pos ⟨other, List.mem_cons_of_mem _ mem, dotted⟩]
        rfl
      · rw [if_neg later, if_neg]
        · rfl
        · rintro ⟨other, mem, dotted⟩
          rcases List.mem_cons.mp mem with rfl | mem
          · exact here dotted
          · exact later ⟨other, mem, dotted⟩

theorem normalizeLookup_valid (h : ValidPath p) :
    normalizeLookup p specMaxPathBytes = if Dotted p then .error .invalidPath else .ok p := by
  have isAscii : p.any (128 ≤ ·) = false := by
    rw [List.any_eq_false]
    intro byte mem
    rw [decide_eq_true_iff, not_le]
    rcases h.byte mem with rfl | named
    · decide
    · exact lt_of_le_of_lt named.printable.2 (by decide)
  have short : ¬ specMaxPathBytes < p.length := by
    have := h.short
    omega
  have split : p.splitOnP (fun byte => byte == slash || byte == backslash) = p.splitOn slash := by
    rw [List.splitOn_eq_splitOnP]
    apply splitOnP_congr
    intro byte mem
    rcases h.byte mem with rfl | named
    · decide
    · simp [named.plain]
  unfold normalizeLookup
  rw [isAscii, split]
  simp only [Bool.false_eq_true, false_or, short, if_false]
  by_cases empty : p = []
  · subst empty
    rfl
  · have parts : p.splitOn slash = components p := (if_neg empty).symm
    rw [parts, normalizeComponents_valid h.names]
    by_cases dotted : Dotted p
    · rw [if_pos dotted, if_pos (show ∃ name ∈ components p, _ from dotted)]
      rfl
    · rw [if_neg dotted, if_neg (show ¬ ∃ name ∈ components p, _ from dotted)]
      show (if specMaxPathBytes < ([slash].intercalate (components p)).length then _ else _) = _
      rw [intercalate_components, if_neg short]
      rfl

/-- Every listed path is looked up as what it is listed as. -/
structure Psf2Vfs.Reachable (vfs : Psf2Vfs) : Prop where
  files : ∀ p data, (p, data) ∈ vfs.files.entries →
    vfs.nodeKind p = .ok (some .file) ∧ vfs.file p = .ok data
  directories : ∀ p ∈ vfs.directories, vfs.nodeKind p = .ok (some .directory)

/-- A filesystem without dotted paths is reachable, and one with any is not. -/
theorem reachable_iff {vfs : Psf2Vfs} {shape : Shape} (sound : Layer.Sound shape [] vfs.toLayer) :
    vfs.Reachable ↔ ∀ p, Dotted p → shape p = none := by
  have normalized (p : Str) (found : vfs.toLayer.shape p ≠ none) :=
    normalizeLookup_valid (sound.paths p found)
  have file (p : Str) (data : Bytes) (mem : (p, data) ∈ vfs.files.entries) :
      vfs.toLayer.shape p = some .file :=
    Layer.shape_eq_file.mpr ⟨data, SortedMap.get?_eq_some.mpr mem⟩
  constructor
  · intro reachable p dotted
    rw [← sound.shape]
    by_contra found
    have refused : vfs.nodeKind p = .error (.lookup p .invalidPath) := by
      unfold Psf2Vfs.nodeKind
      rw [normalized p found, if_pos dotted]
      rfl
    cases kind : vfs.toLayer.shape p with
    | none => exact found kind
    | some listed =>
      cases listed with
      | file =>
        obtain ⟨data, entry⟩ := Layer.shape_eq_file.mp kind
        rw [(reachable.files p data (SortedMap.get?_eq_some.mp entry)).1] at refused
        cases refused
      | directory =>
        rw [reachable.directories p (sound.wellFormed.shape_eq_directory.mp kind)] at refused
        cases refused
  · intro undotted
    rw [← sound.shape] at undotted
    have plain (p : Str) (found : vfs.toLayer.shape p ≠ none) :
        normalizeLookup p specMaxPathBytes = .ok p := by
      rw [normalized p found, if_neg fun dotted => found (undotted p dotted)]
    constructor
    · intro p data mem
      have entry := SortedMap.get?_eq_some.mpr mem
      have accepted := plain p (by rw [file p data mem]; simp)
      unfold Psf2Vfs.nodeKind Psf2Vfs.file
      rw [accepted]
      constructor
      · show Except.ok (if (vfs.files.get? p).isSome then _ else _) = _
        rw [entry]
        rfl
      · dsimp only [Except.mapError, bind, Except.bind]
        rw [entry]
        rfl
    · intro p mem
      have directory := sound.wellFormed.shape_eq_directory.mpr mem
      have accepted := plain p (by rw [directory]; simp)
      have noFile : vfs.files.get? p = none := by
        cases found : vfs.files.get? p with
        | none => rfl
        | some data => exact absurd mem (sound.wellFormed.disjoint p data found)
      unfold Psf2Vfs.nodeKind
      rw [accepted]
      show Except.ok (if (vfs.files.get? p).isSome then _ else if p ∈ vfs.directories then _ else _) = _
      rw [noFile, if_pos mem]
      rfl

/-- What the tables of a plan leave. -/
noncomputable def planShape {M : Type} (plan : Psf2LoadPlan M) (limits : VfsLimits) : Shape :=
  (plan.layers.map fun source => listed source.container.reserved (limits.maxDepth + 1)).foldl laidOver
    rootShape

/-- The filesystem of a plan is well formed, and everything in it can be looked up, exactly when the
tables of the plan leave nothing at a path with a component `.` or `..`. -/
theorem lookup_exact {M : Type} (codecs : Codecs) (plan : Psf2LoadPlan M) (limits : VfsLimits)
    (vfs : Psf2Vfs) (loaded : fromLoadPlan codecs plan limits = .ok vfs) :
    vfs.WellFormed ∧ vfs.Reachable ↔ ∀ p, Dotted p → planShape plan limits p = none := by
  obtain ⟨layers, parsed, laid⟩ := fromLoadPlan_eq_ok loaded
  have sound : Layer.Sound (planShape plan limits) [] vfs.toLayer :=
    laid ▸ sound_foldl_apply Layer.sound_root parsed
  rw [← reachable_iff sound]
  exact ⟨And.right, fun reachable => ⟨sound.wellFormed, reachable⟩⟩

theorem foldl_place_none {entries : List TableEntry} {shape : Shape} (start : shape p = none)
    (apart : ∀ entry ∈ entries, p ≠ entry.path) : entries.foldl place shape p = none := by
  induction entries generalizing shape with
  | nil => exact start
  | cons entry entries ih =>
    obtain ⟨here, later⟩ := List.forall_mem_cons.mp apart
    refine ih ?_ later
    unfold place
    rw [if_neg here, start]
    split <;> rfl

theorem foldl_laidOver_none {shapes : List Shape} {base : Shape} (start : base p = none)
    (layers : ∀ shape ∈ shapes, shape p = none) : shapes.foldl laidOver base p = none := by
  induction shapes generalizing base with
  | nil => exact start
  | cons shape shapes ih =>
    obtain ⟨here, later⟩ := List.forall_mem_cons.mp layers
    refine ih ?_ later
    unfold laidOver
    rw [here]
    dsimp only
    split
    · rfl
    · exact start

theorem planShape_dotted {M : Type} {plan : Psf2LoadPlan M} {limits : VfsLimits}
    (plain : ∀ source ∈ plan.layers, ∀ entry ∈
      listing source.container.reserved (limits.maxDepth + 1) 0 [], ¬ Dotted entry.path)
    (dotted : Dotted p) : planShape plan limits p = none := by
  have apart {entries : List TableEntry} (plain : ∀ entry ∈ entries, ¬ Dotted entry.path) :
      ∀ entry ∈ entries, p ≠ entry.path := by
    rintro entry member rfl
    exact plain entry member dotted
  have root : ¬ Dotted [] := by decide
  have layers : ∀ shape ∈ plan.layers.map fun source =>
      listed source.container.reserved (limits.maxDepth + 1), shape p = none := by
    refine List.forall_mem_map.mpr fun source member => foldl_place_none rfl ?_
    exact apart (List.forall_mem_cons.mpr ⟨root, plain source member⟩)
  have start : rootShape p = none := @foldl_place_none _ [_] _ rfl
    (apart (List.forall_mem_singleton.mpr root))
  exact foldl_laidOver_none start layers

/-- The zlib stream of a single byte. -/
def oneStream : Bytes := [0x78, 0x9c, 0x63, 0x04, 0x00, 0x00, 0x02, 0x00, 0x02]

/-- Codecs that know this one stream. -/
def oneCodecs : Codecs where
  inflate stream :=
    if stream = oneStream then ⟨[[1]], .ok 9⟩ else ⟨[], .error "corrupt deflate stream"⟩
  crc _ := 0

/-- A directory with a file of one block and an empty file, under a layer with another file in the
directory. -/
def layeredPlan : Psf2LoadPlan Unit :=
  { emptyFilesPlan .nil with
    layers := [
      imageLayer (encodeDirectory (fun _ => oneStream)
        (.directory (ascii "Lib") (.file (ascii "A") [1] 16 .nil) (.file (ascii "b") [] 1 .nil)) 0),
      emptyFilesLayer (.directory (ascii "lib") (.file (ascii "c") [] 1 .nil) .nil)] }

theorem lookup_exact_sample :
    ∃ vfs, fromLoadPlan oneCodecs layeredPlan .default = .ok vfs ∧
      vfs.files.entries = [(ascii "b", []), (ascii "lib/a", [1]), (ascii "lib/c", [])] ∧
      vfs.WellFormed ∧ vfs.Reachable := by
  obtain ⟨vfs, loaded⟩ : ∃ vfs, fromLoadPlan oneCodecs layeredPlan .default = .ok vfs :=
    exists_ok_of_isOk (by decide +kernel)
  have files : (fromLoadPlan oneCodecs layeredPlan .default).toOption.map (·.files.entries) =
      some [(ascii "b", []), (ascii "lib/a", [1]), (ascii "lib/c", [])] := by decide +kernel
  rw [loaded] at files
  have plain : ∀ source ∈ layeredPlan.layers, ∀ entry ∈
      listing source.container.reserved (VfsLimits.default.maxDepth + 1) 0 [], ¬ Dotted entry.path := by
    decide +kernel
  exact ⟨vfs, loaded, Option.some.inj files,
    (lookup_exact _ _ _ vfs loaded).mpr fun p dotted => planShape_dotted plain dotted⟩

/-- A table with an entry named `.` is loaded, but a lookup of it fails. -/
theorem dot_not_reachable :
    ∃ vfs, fromLoadPlan noCodecs (emptyFilesPlan (.file (ascii ".") [] 1 .nil)) .default = .ok vfs ∧
      ¬ (vfs.WellFormed ∧ vfs.Reachable) := by
  obtain ⟨vfs, loaded⟩ : ∃ vfs,
      fromLoadPlan noCodecs (emptyFilesPlan (.file (ascii ".") [] 1 .nil)) .default = .ok vfs :=
    exists_ok_of_isOk (by decide +kernel)
  refine ⟨vfs, loaded, fun ⟨_, reachable⟩ => ?_⟩
  have files : (fromLoadPlan noCodecs (emptyFilesPlan (.file (ascii ".") [] 1 .nil))
      .default).toOption.map (·.files.entries) = some [(ascii ".", [])] := by decide +kernel
  rw [loaded] at files
  have refused : normalizeLookup (ascii ".") specMaxPathBytes = .error .invalidPath := rfl
  have listed : (ascii ".", []) ∈ vfs.files.entries := by
    rw [show vfs.files.entries = [(ascii ".", [])] from Option.some.inj files]
    exact List.mem_cons_self
  have kind := (reachable.files (ascii ".") [] listed).1
  unfold Psf2Vfs.nodeKind at kind
  rw [refused] at kind
  cases kind

end Lookups

end Upse.Vfs
