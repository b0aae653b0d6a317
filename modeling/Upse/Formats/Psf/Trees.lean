import Upse.Formats.Psf.LoadRuns

/-!
# Trees of PSF1 files

A file names one library that is laid under it and numbered ones that are laid on it.  A traversal
that succeeds has followed a tree of files, and its plan, its initial state and its refresh rate are
three readings of the tree.
-/

namespace Upse.Psf

open ErrorState

/-- A file with the library of its `_lib` tag and those of its numbered tags. -/
inductive Tree where
  | file (layer : PlanLayer) (primary : Option Tree) (additional : List Tree)

namespace Tree

variable {β : Type}

section Fold

variable (node : PlanLayer → Option β → List β → β)

mutual

/-- Reads a tree from its leaves to its root. -/
def fold : Tree → β
  | file layer primary additional => node layer (foldPrimary primary) (foldAll additional)

def foldPrimary : Option Tree → Option β
  | none => none
  | some tree => some (fold tree)

/-- What the trees come to. -/
def foldAll : List Tree → List β
  | [] => []
  | tree :: trees => fold tree :: foldAll trees

end

theorem foldPrimary_eq (primary : Option Tree) : foldPrimary node primary = primary.map (fold node) := by
  cases primary <;> simp [foldPrimary]

theorem foldAll_eq (trees : List Tree) : foldAll node trees = trees.map (fold node) := by
  induction trees with
  | nil => simp [foldAll]
  | cons tree trees ih => simp [foldAll, ih]

theorem fold_file (layer : PlanLayer) (primary : Option Tree) (additional : List Tree) :
    (file layer primary additional).fold node =
      node layer (primary.map (fold node)) (additional.map (fold node)) := by
  unfold fold
  rw [foldPrimary_eq, foldAll_eq]

end Fold

/-- The file at the root. -/
def layer : Tree → PlanLayer
  | file layer _ _ => layer

/-- The order of the layers: what is under a file, the file, and what is on it. -/
def overlay : Tree → List PlanLayer :=
  fold fun layer primary additional => primary.getD [] ++ [layer] ++ additional.flatten

/-- The file reached from the root by following `_lib`. -/
def initial : Tree → PlanLayer := fold fun layer primary _ => primary.getD layer

/-- The order in which the tags are met. -/
def preorder : Tree → List PlanLayer :=
  fold fun layer primary additional => layer :: (primary.getD [] ++ additional.flatten)

theorem overlay_file (layer : PlanLayer) (primary : Option Tree) (additional : List Tree) :
    (file layer primary additional).overlay =
      (primary.map overlay).getD [] ++ [layer] ++ additional.flatMap overlay := by
  unfold overlay
  rw [fold_file, List.flatMap_def]

theorem layer_mem (tree : Tree) : tree.layer ∈ tree.overlay := by
  obtain ⟨layer, primary, additional⟩ := tree
  rw [overlay_file]
  exact List.mem_append_left _ (List.mem_append_right _ (List.mem_singleton_self _))

theorem initial_file (layer : PlanLayer) (primary : Option Tree) (additional : List Tree) :
    (file layer primary additional).initial = (primary.map initial).getD layer := fold_file ..

theorem preorder_file (layer : PlanLayer) (primary : Option Tree) (additional : List Tree) :
    (file layer primary additional).preorder =
      layer :: ((primary.map preorder).getD [] ++ additional.flatMap preorder) := by
  unfold preorder
  rw [fold_file, List.flatMap_def]

end Tree

/-- The refresh rate a `_refresh` tag gives. -/
def PsfContainer.refresh (container : PsfContainer) : Option RefreshRate :=
  match container.tags.get (ascii "_refresh") with
  | none => none
  | some value =>
    if value = ascii "50" then some .hz50
    else if value = ascii "60" then some .hz60
    else none

/-- The first rate met in a tree. -/
def Tree.refresh (tree : Tree) : Option RefreshRate :=
  tree.preorder.findSome? fun layer => layer.container.refresh

variable {R V D E : Type} {loader : Loader R V D E} {version : PsfVersion} {s t : LoadState R}

/-- The resolver gave this file for a reference in a file, and it is a container of this version. -/
def Answers (loader : Loader R V D E) (version : PsfVersion) (containing reference : Str)
    (layer : PlanLayer) : Prop :=
  layer.container.version = version ∧
    ∃ before bytes after,
      loader.resolve before containing reference = (.ok (layer.origin, bytes), after) ∧
        parseWithLimits loader.codecs layer.origin bytes loader.parseLimits = .ok layer.container

/-- Each file has a library for its `_lib` tag and one for each of its numbered tags. -/
inductive Follows (loader : Loader R V D E) (version : PsfVersion) : Tree → Prop
  | file {layer : PlanLayer} {primary : Option Tree} {additional : List Tree}
    (under : Option.Rel (fun reference tree => Answers loader version layer.origin reference tree.layer)
      (layer.container.tags.get (ascii "_lib")) primary)
    (on : List.Forall₂ (fun reference tree => Answers loader version layer.origin reference tree.layer)
      (numberedLibraries layer.container) additional)
    (primaryFollows : ∀ tree ∈ primary, Follows loader version tree)
    (additionalFollow : ∀ tree ∈ additional, Follows loader version tree) :
    Follows loader version (.file layer primary additional)

theorem Follows.initial_mem {tree : Tree} (h : Follows loader version tree) :
    tree.initial ∈ tree.overlay := by
  induction h with
  | @file layer primary additional _ _ _ _ primaryMem _ =>
    rw [Tree.initial_file, Tree.overlay_file]
    cases primary with
    | none => exact List.mem_append_left _ (List.mem_singleton_self layer)
    | some tree =>
      have mem := primaryMem tree rfl
      exact List.mem_append_left _ (List.mem_append_left _ mem)

/-- Traversing some libraries: their tags are met one after the other, and none of their files is on
the stack. -/
structure Explored (loader : Loader R V D E) (version : PsfVersion) (trees : List Tree)
    (s t : LoadState R) : Prop where
  follows : ∀ tree ∈ trees, Follows loader version tree
  refresh : t.refreshOverride = s.refreshOverride.or
    ((trees.flatMap Tree.preorder).findSome? fun layer => layer.container.refresh)
  active : t.active = s.active
  apart : ∀ tree ∈ trees, ∀ layer ∈ tree.overlay, layer.origin ∉ s.active

theorem Explored.refl : Explored loader version [] s s :=
  ⟨by exact nofun, (Option.or_none ..).symm, rfl, by exact nofun⟩

theorem Explored.trans {u : LoadState R} {first second : List Tree}
    (h : Explored loader version first s t) (h' : Explored loader version second t u) :
    Explored loader version (first ++ second) s u := by
  refine ⟨?_, ?_, h'.active.trans h.active, ?_⟩
  · exact fun tree mem => (List.mem_append.mp mem).elim (h.follows tree) (h'.follows tree)
  · rw [h'.refresh, h.refresh, List.flatMap_append, List.findSome?_append, Option.or_assoc]
  · intro tree mem layer inTree
    rcases List.mem_append.mp mem with mem | mem
    · exact h.apart tree mem layer inTree
    · exact h.active ▸ h'.apart tree mem layer inTree

/-- What the traversal of a library returns and leaves. -/
structure Library (loader : Loader R V D E) (version : PsfVersion) (containing reference : Str)
    (s : LoadState R) (node : Psf1Node) (t : LoadState R) (tree : Tree) : Prop where
  answers : Answers loader version containing reference tree.layer
  explored : Explored loader version [tree] s t
  layers : node.layers = tree.overlay
  initial : node.initialStateOrigin = tree.initial.origin

/-- What the traversal of a file returns and leaves. -/
structure Traversed (loader : Loader R V D E) (version : PsfVersion) (layer : PlanLayer)
    (s : LoadState R) (node : Psf1Node) (t : LoadState R) (tree : Tree) : Prop where
  root : tree.layer = layer
  follows : Follows loader version tree
  layers : node.layers = tree.overlay
  initial : node.initialStateOrigin = tree.initial.origin
  refresh : t.refreshOverride = s.refreshOverride.or tree.refresh
  active : t.active = s.active
  apart : ∀ other ∈ tree.overlay, other = layer ∨ other.origin ∉ s.active

/-! ### One file -/

theorem refresh_of_parse {container : PsfContainer} {refresh : Option RefreshRate}
    (h : PlaybackMetadata.parseRefresh (container.tags.get (ascii "_refresh")) =
      (.ok refresh : Except (MetadataError E) _)) : refresh = container.refresh := by
  unfold PsfContainer.refresh
  cases tagged : container.tags.get (ascii "_refresh") with
  | none =>
    rw [tagged] at h
    cases h
    rfl
  | some value =>
    rw [tagged] at h
    unfold PlaybackMetadata.parseRefresh at h
    dsimp only at h ⊢
    by_cases slow : value = ascii "50"
    · rw [if_pos slow] at h ⊢
      exact (Except.ok.inj h).symm
    by_cases fast : value = ascii "60"
    · rw [if_neg slow, if_pos fast] at h ⊢
      exact (Except.ok.inj h).symm
    · rw [if_neg slow, if_neg fast] at h
      cases h

theorem refresh_of_metadata {origin : Str} {container : PsfContainer} {parsed : PlaybackMetadata V D}
    (h : metadata loader origin container = .ok parsed) : parsed.refresh = container.refresh := by
  have read : PlaybackMetadata.parse loader.parsers container.tags = .ok parsed :=
    except_mapError_ok.mp h
  obtain ⟨volume, _, read⟩ := except_bind_ok.mp read
  obtain ⟨length, _, read⟩ := except_bind_ok.mp read
  obtain ⟨fade, _, read⟩ := except_bind_ok.mp read
  obtain ⟨refresh, tagged, read⟩ := except_bind_ok.mp read
  cases read
  exact refresh_of_parse tagged

theorem returns_observeMetadata (origin : Str) (container : PsfContainer) :
    Returns (fun _ t => t.refreshOverride = s.refreshOverride.or container.refresh ∧
      t.active = s.active) s (observeMetadata loader origin container) := by
  unfold observeMetadata
  apply returns_ofExcept_bind
  intro parsed described
  exact returns_modify ⟨by rw [← refresh_of_metadata described], rfl⟩

theorem resolve_answers (containing reference : Str) :
    Returns (fun found t => Answers loader version containing reference ⟨found.2.origin, found.1⟩ ∧
        found.2.origin ∉ s.active ∧ t.refreshOverride = s.refreshOverride ∧ t.active = s.active) s
      (resolve loader version containing reference) := by
  unfold resolve
  have called : Returns (fun file t =>
      (∃ before after, loader.resolve before containing reference = (.ok (file.origin, file.bytes), after)) ∧
        t.refreshOverride = s.refreshOverride ∧ t.active = s.active) s
      (callResolver loader containing reference) := by
    intro file t run
    simp only [EStateM.run, callResolver] at run
    split at run
    next => cases run
    next origin bytes resolver answer =>
      cases run
      exact ⟨⟨s.resolver, resolver, answer⟩, rfl, rfl⟩
  refine called.bind fun file t obtained => ?_
  obtain ⟨⟨before, after, answer⟩, refresh, active⟩ := obtained
  have checked : Returns (fun container u => file.origin ∉ t.active ∧ container.version = version ∧
      parseWithLimits loader.codecs file.origin file.bytes loader.parseLimits = .ok container ∧
      u.active = t.active ∧ u.refreshOverride = t.refreshOverride) t
      (dropOnFailure file (checkFile loader version file)) :=
    fun container u run => checkFile_checked loader version file container u (run_dropOnFailure run)
  refine checked.bind fun container u accepted => ?_
  obtain ⟨fresh, matching, parsed, active', refresh'⟩ := accepted
  exact returns_pure ⟨⟨matching, before, file.bytes, after, answer, parsed⟩, active ▸ fresh,
    refresh'.trans refresh, active'.trans active⟩

/-! ### A tree -/

theorem explored_mapM {dependency : Str → Str → LoadM R E Psf1Node} {origin : Str}
    (below : ∀ reference u, Returns (fun node t => ∃ tree, Library loader version origin reference u node t tree)
      u (dependency origin reference)) (references : List Str) :
    Returns (fun nodes t => ∃ trees,
        List.Forall₂ (fun reference tree => Answers loader version origin reference tree.layer)
          references trees ∧
        Explored loader version trees s t ∧
        nodes.flatMap Psf1Node.layers = trees.flatMap Tree.overlay) s
      (references.mapM fun reference => dependency origin reference) := by
  induction references generalizing s with
  | nil => exact returns_pure ⟨[], .nil, .refl, rfl⟩
  | cons reference references ih =>
    rw [List.mapM_cons]
    refine (below reference s).bind fun node t ⟨tree, library⟩ => ?_
    refine ih.bind fun nodes u ⟨trees, answers, explored, layers⟩ => returns_pure ?_
    refine ⟨tree :: trees, .cons library.answers answers, library.explored.trans explored, ?_⟩
    rw [List.flatMap_cons, List.flatMap_cons, library.layers, layers]

theorem traversed_psf1Node {dependency : Str → Str → LoadM R E Psf1Node} (origin : Str)
    (container : PsfContainer)
    (below : ∀ reference u, Returns (fun node t => ∃ tree, Library loader version origin reference u node t tree)
      u (dependency origin reference)) :
    Returns (fun node t => ∃ tree, Traversed loader version ⟨origin, container⟩ s node t tree) s
      (psf1Node loader dependency origin container) := by
  unfold psf1Node
  refine (returns_observeMetadata origin container).bind fun _ t ⟨observed, active⟩ => ?_
  -- What is under the file is one tree or none.
  have rest (first : Psf1Node) (primary : Option Tree) (u : LoadState R)
      (under : Option.Rel (fun reference tree => Answers loader version origin reference tree.layer)
        (container.tags.get (ascii "_lib")) primary)
      (explored : Explored loader version primary.toList t u)
      (layers : first.layers = (primary.map Tree.overlay).getD [])
      (initial : first.initialStateOrigin = ((primary.map Tree.initial).getD ⟨origin, container⟩).origin) :
      Returns (fun node v => ∃ tree, Traversed loader version ⟨origin, container⟩ s node v tree) u
        ((numberedLibraries container).mapM (fun reference => dependency origin reference) >>=
          fun rest => (pure ⟨first.layers ++ [⟨origin, container⟩] ++ rest.flatMap Psf1Node.layers,
            first.initialStateOrigin⟩ : LoadM R E Psf1Node)) := by
    refine (explored_mapM below _).bind fun nodes v ⟨trees, on, explored', layers'⟩ => ?_
    have all := explored.trans explored'
    refine returns_pure ⟨.file ⟨origin, container⟩ primary trees, rfl, ?_, ?_, ?_, ?_, ?_, ?_⟩
    · refine .file under on (fun tree mem => all.follows tree ?_) fun tree mem => all.follows tree ?_
      · exact List.mem_append_left _ (Option.mem_toList.mpr mem)
      · exact List.mem_append_right _ mem
    · rw [Tree.overlay_file, layers, layers']
    · rw [Tree.initial_file, initial]
    · rw [all.refresh, observed, Option.or_assoc, Tree.refresh, Tree.preorder_file,
        List.findSome?_cons, List.flatMap_append]
      cases container.refresh <;> cases primary <;> simp
    · exact all.active.trans active
    · intro other mem
      rw [Tree.overlay_file, List.mem_append, List.mem_append, List.mem_singleton] at mem
      rcases mem with (mem | mem) | mem
      · cases primary with
        | none => cases mem
        | some tree => exact .inr (active ▸ explored.apart tree List.mem_cons_self other mem)
      · exact .inl mem
      · obtain ⟨tree, inTrees, mem⟩ := List.mem_flatMap.mp mem
        exact .inr (active ▸ explored.active ▸ explored'.apart tree inTrees other mem)
  dsimp only
  cases tagged : container.tags.get (ascii "_lib") with
  | none => exact rest ⟨[], origin⟩ none t (tagged ▸ .none) .refl rfl rfl
  | some reference =>
    refine (below reference t).bind fun first u ⟨tree, library⟩ => ?_
    exact rest first (some tree) u (tagged ▸ .some library.answers) library.explored library.layers
      library.initial

theorem library_psf1Dependency {levels : ℕ} (containing reference : Str) :
    Returns (fun node t => ∃ tree, Library loader version containing reference s node t tree) s
      (psf1Dependency loader version levels containing reference) := by
  induction levels generalizing containing reference s with
  | zero => exact returns_throw _
  | succ levels ih =>
    unfold psf1Dependency
    refine (resolve_answers containing reference).bind fun found t resolved => ?_
    obtain ⟨answers, fresh, refresh, active⟩ := resolved
    unfold holding push
    apply returns_modify_bind
    intro node u run
    obtain ⟨v, ran, rfl⟩ := run_andFinally run
    obtain ⟨tree, traversed⟩ := traversed_psf1Node found.2.origin found.1
      (fun reference w => ih found.2.origin reference) node v ran
    have stack : v.active = s.active ++ [found.2.origin] := by
      rw [traversed.active, ← active]
    refine ⟨tree, traversed.root ▸ answers, ⟨?_, ?_, ?_, ?_⟩, traversed.layers, traversed.initial⟩
    · exact List.forall_mem_singleton.mpr traversed.follows
    · rw [List.flatMap_singleton]
      exact traversed.refresh.trans (congrArg (Option.or · _) refresh)
    · show v.active.dropLast = s.active
      rw [stack, List.dropLast_concat]
    · intro other mem layer inTree
      obtain rfl := List.mem_singleton.mp mem
      rcases traversed.apart layer inTree with rfl | apart
      · exact fresh
      · exact fun inStack => apart (List.mem_append_left _ (active.symm ▸ inStack))

variable (loader) in
theorem traversed_loadPlan (rootOrigin : Str) (rootBytes : Bytes) (resolver : R)
    (plan : Psf1LoadPlan (PlaybackMetadata V D)) (t : LoadState R)
    (loaded : (loadPlan loader rootOrigin rootBytes).run (.new resolver) = .ok (.psf1 plan) t) :
    ∃ tree, tree.layer.origin = rootOrigin ∧
      parseWithLimits loader.codecs rootOrigin rootBytes loader.parseLimits = .ok tree.layer.container ∧
      Follows loader .psf1 tree ∧ plan.rootOrigin = rootOrigin ∧ plan.layers = tree.overlay ∧
      plan.initialStateOrigin = tree.initial.origin ∧ plan.refreshOverride = tree.refresh ∧
      ∀ layer ∈ tree.overlay, layer = tree.layer ∨ layer.origin ≠ rootOrigin := by
  have whole : Returns (fun found _ => ∀ plan : Psf1LoadPlan (PlaybackMetadata V D), found = .psf1 plan →
      ∃ tree, tree.layer.origin = rootOrigin ∧
        parseWithLimits loader.codecs rootOrigin rootBytes loader.parseLimits =
          .ok tree.layer.container ∧
        Follows loader .psf1 tree ∧ plan.rootOrigin = rootOrigin ∧ plan.layers = tree.overlay ∧
        plan.initialStateOrigin = tree.initial.origin ∧ plan.refreshOverride = tree.refresh ∧
        ∀ layer ∈ tree.overlay, layer = tree.layer ∨ layer.origin ≠ rootOrigin)
      (LoadState.new resolver) (loadPlan loader rootOrigin rootBytes) := by
    unfold loadPlan
    apply returns_ofExcept_bind
    intro root parsed
    apply returns_ofExcept_bind
    intro rootMetadata _
    refine (account_apart rootBytes.length).bind fun _ t ⟨active, refresh⟩ => ?_
    unfold push
    apply returns_modify_bind
    cases version : root.version with
    | psf2 =>
      refine Returns.bind (P := fun _ _ => True) (fun _ _ _ => trivial) fun layers u _ => ?_
      apply returns_get_bind
      refine returns_pure fun plan same => ?_
      cases same
    | psf1 =>
      refine (traversed_psf1Node rootOrigin root fun reference w =>
        library_psf1Dependency rootOrigin reference).bind fun node u ⟨tree, traversed⟩ => ?_
      apply returns_get_bind
      refine returns_pure fun plan same => ?_
      cases same
      refine ⟨tree, by rw [traversed.root], traversed.root ▸ except_mapError_ok.mp parsed, traversed.follows, rfl,
        traversed.layers, traversed.initial, ?_, fun layer mem => ?_⟩
      · show u.refreshOverride = _
        rw [traversed.refresh, refresh]
        rfl
      · rcases traversed.apart layer mem with rfl | apart
        · exact .inl traversed.root.symm
        · refine .inr fun same => apart (same ▸ ?_)
          exact List.mem_append_right _ (List.mem_singleton_self _)
  exact whole _ t loaded plan rfl

end Upse.Psf
