import Upse.Formats.Ps1.PsxExe
import Upse.Formats.Psf.Builder
import Upse.Formats.Psf.Trees

/-!
# Images of PSF1 trees

The memory, the initial state and the region of an image are each given by the last layer that has
something to say about them.
-/

namespace Upse.Psx

open Psf ErrorState

variable {α : Type} {layer : PlanLayer} {layers : List PlanLayer} {exe : PsxExe} {origin : Str}

/-- What the last layer that gives a value gives. -/
def lastGiven (f : PlanLayer → Option α) (layers : List PlanLayer) : Option α :=
  layers.reverse.findSome? f

theorem lastGiven_cons (f : PlanLayer → Option α) (layer : PlanLayer) (layers : List PlanLayer) :
    lastGiven f (layer :: layers) = (lastGiven f layers).or (f layer) := by
  unfold lastGiven
  rw [List.reverse_cons, List.findSome?_append, List.findSome?_singleton]

theorem lastGiven_of_agree {f : PlanLayer → Option α} {value : α} (mem : layer ∈ layers)
    (given : f layer = some value) (agree : ∀ other ∈ layers, ∀ a, f other = some a → a = value) :
    lastGiven f layers = some value := by
  unfold lastGiven
  cases found : layers.reverse.findSome? f with
  | none =>
    have silent := List.findSome?_eq_none_iff.mp found layer (List.mem_reverse.mpr mem)
    rw [given] at silent
    cases silent
  | some a =>
    obtain ⟨other, mem', given'⟩ := List.exists_of_findSome?_eq_some found
    exact congrArg some (agree other (List.mem_reverse.mp mem') a given')

/-- The executable in a layer. -/
def executable (layer : PlanLayer) : Option PsxExe := (PsxExe.parse layer.container.program).toOption

theorem executable_eq_some :
    executable layer = some exe ↔ PsxExe.parse layer.container.program = .ok exe := by
  unfold executable
  cases PsxExe.parse layer.container.program with
  | error e => exact ⟨nofun, nofun⟩
  | ok found => exact ⟨fun h => by cases h; rfl, fun h => by cases h; rfl⟩

/-- The byte the text of a layer has for a place in the memory. -/
def byteAt (offset : ℕ) (layer : PlanLayer) : Option Byte :=
  (executable layer).bind fun exe =>
    if exe.physicalTextOffset ≤ offset then exe.text[offset - exe.physicalTextOffset]? else none

/-- The counter and the stack pointer of a layer with this origin. -/
def stateAt (origin : Str) (layer : PlanLayer) : Option (ℕ × ℕ) :=
  if layer.origin = origin then (executable layer).map fun exe => (exe.pc, exe.sp) else none

/-- The region of a layer with this origin. -/
def regionAt (origin : Str) (layer : PlanLayer) : Option Region :=
  if layer.origin = origin then (executable layer).map PsxExe.region else none

/-! ### Copying -/

theorem length_copyInto {ram bytes : Bytes} {start : ℕ} (fits : start + bytes.length ≤ ram.length) :
    (copyInto ram start bytes).length = ram.length := by
  unfold copyInto
  simp only [List.length_append, List.length_take, List.length_drop]
  omega

theorem getElem?_copyInto {ram bytes : Bytes} {start : ℕ} (fits : start + bytes.length ≤ ram.length)
    (offset : ℕ) : (copyInto ram start bytes)[offset]? =
      (if start ≤ offset then bytes[offset - start]? else none).or ram[offset]? := by
  have front : (ram.take start).length = start := List.length_take_of_le (by omega)
  unfold copyInto
  rw [List.append_assoc]
  by_cases before : offset < start
  · rw [List.getElem?_append_left (by omega), List.getElem?_take_of_lt before, if_neg (by omega),
      Option.none_or]
  rw [List.getElem?_append_right (by omega), front, if_pos (by omega)]
  by_cases within : offset < start + bytes.length
  · have inside : offset - start < bytes.length := by omega
    have some : bytes[offset - start]? = some bytes[offset - start] := List.getElem?_eq_getElem inside
    rw [List.getElem?_append_left (by omega), some, Option.some_or]
  · have none : bytes[offset - start]? = none := List.getElem?_eq_none (by omega)
    rw [List.getElem?_append_right (by omega), none, Option.none_or, List.getElem?_drop]
    congr 1
    omega

/-! ### Layers -/

theorem add_ok (initialStateOrigin rootOrigin : Str) {overlay : Overlay}
    (size : overlay.ram.length = ramSize) (parsed : PsxExe.parse layer.container.program = .ok exe) :
    ∃ next, overlay.add initialStateOrigin rootOrigin layer = .ok next ∧ next.ram.length = ramSize ∧
      (∀ offset, next.ram[offset]? = (byteAt offset layer).or overlay.ram[offset]?) ∧
      next.initial = (stateAt initialStateOrigin layer).or overlay.initial ∧
      next.rootRegion = (regionAt rootOrigin layer).or overlay.rootRegion := by
  have fits := PsxExe.parse_inRam parsed
  rw [← size] at fits
  have found := executable_eq_some.mpr parsed
  unfold Overlay.add
  rw [parsed]
  refine ⟨_, rfl, (length_copyInto fits).trans size, fun offset => ?_, ?_, ?_⟩
  · unfold byteAt
    rw [found]
    exact getElem?_copyInto fits offset
  · unfold stateAt
    rw [found]
    dsimp only
    split <;> rfl
  · unfold regionAt
    rw [found]
    dsimp only
    split <;> rfl

theorem foldlM_add_ok (initialStateOrigin rootOrigin : Str) {overlay : Overlay}
    (size : overlay.ram.length = ramSize)
    (parsed : ∀ layer ∈ layers, (PsxExe.parse layer.container.program).isOk = true) :
    ∃ last, layers.foldlM (Overlay.add initialStateOrigin rootOrigin) overlay = .ok last ∧
      last.ram.length = ramSize ∧
      (∀ offset, last.ram[offset]? = (lastGiven (byteAt offset) layers).or overlay.ram[offset]?) ∧
      last.initial = (lastGiven (stateAt initialStateOrigin) layers).or overlay.initial ∧
      last.rootRegion = (lastGiven (regionAt rootOrigin) layers).or overlay.rootRegion := by
  induction layers generalizing overlay with
  | nil => exact ⟨overlay, rfl, size, fun _ => rfl, rfl, rfl⟩
  | cons layer layers ih =>
    obtain ⟨exe, first⟩ := exists_ok_of_isOk (parsed layer List.mem_cons_self)
    obtain ⟨next, added, size', ram, initial, region⟩ :=
      add_ok initialStateOrigin rootOrigin size first
    obtain ⟨last, rest, size'', ram', initial', region'⟩ :=
      ih size' fun other mem => parsed other (List.mem_cons_of_mem _ mem)
    refine ⟨last, ?_, size'', fun offset => ?_, ?_, ?_⟩
    · rw [List.foldlM_cons, added]
      exact rest
    · rw [ram', ram, lastGiven_cons, Option.or_assoc]
    · rw [initial', initial, lastGiven_cons, Option.or_assoc]
    · rw [region', region, lastGiven_cons, Option.or_assoc]

/-- What a plan whose payloads are executables comes to. -/
theorem fromPlan_of_parsed {M : Type} (plan : Psf1LoadPlan M)
    (parsed : ∀ layer ∈ plan.layers, (PsxExe.parse layer.container.program).isOk = true) :
    ∃ ram : Bytes, ram.length = ramSize ∧
      (∀ offset < ramSize, ram[offset]? = some ((lastGiven (byteAt offset) plan.layers).getD 0)) ∧
      ExecutableImage.fromPlan plan =
        match lastGiven (stateAt plan.initialStateOrigin) plan.layers with
        | none => .error .missingInitialLayer
        | some (pc, sp) =>
          match plan.refreshOverride.or
              ((lastGiven (regionAt plan.rootOrigin) plan.layers).bind Region.refresh) with
          | none => .error .unknownRootRegion
          | some refresh => .ok { ram := ram, pc := pc, sp := sp, refresh := refresh } := by
  have empty : (Overlay.mk (List.replicate ramSize 0) none none).ram.length = ramSize :=
    List.length_replicate
  obtain ⟨last, ran, size, ram, state, region⟩ :=
    foldlM_add_ok plan.initialStateOrigin plan.rootOrigin empty parsed
  rw [Option.or_none] at state region
  refine ⟨last.ram, size, fun offset inside => ?_, ?_⟩
  · rw [ram, List.getElem?_replicate_of_lt inside]
    cases lastGiven (byteAt offset) plan.layers <;> rfl
  · unfold ExecutableImage.fromPlan
    rw [ran]
    show (match last.initial with | none => _ | some (pc, sp) => _) = _
    rw [state, region]
    cases lastGiven (stateAt plan.initialStateOrigin) plan.layers with
    | none => rfl
    | some given =>
      dsimp only
      cases plan.refreshOverride.or
        ((lastGiven (regionAt plan.rootOrigin) plan.layers).bind Region.refresh) <;> rfl

/-! ### Trees -/

/-- The rate of an image: the first met in the tree, or that of the region of its root. -/
def refreshOf (tree : Tree) : Option RefreshRate :=
  tree.refresh.or (((executable tree.layer).map PsxExe.region).bind Region.refresh)

/-- The image of a tree.  Layers are known by their origins, so the initial state is that of the last
layer with the origin of the file that `_lib` leads to. -/
structure ImageOf (tree : Tree) (image : ExecutableImage) : Prop where
  size : image.ram.length = ramSize
  ram : ∀ offset < ramSize,
    image.ram[offset]? = some ((lastGiven (byteAt offset) tree.overlay).getD 0)
  state : lastGiven (stateAt tree.initial.origin) tree.overlay = some (image.pc, image.sp)
  initial : (∀ layer ∈ tree.overlay, layer.origin = tree.initial.origin →
      layer.container.program = tree.initial.container.program) →
    stateAt tree.initial.origin tree.initial = some (image.pc, image.sp)
  refresh : refreshOf tree = some image.refresh

theorem executable_of_isOk (h : (PsxExe.parse layer.container.program).isOk = true) :
    ∃ exe, executable layer = some exe := by
  obtain ⟨exe, parsed⟩ := exists_ok_of_isOk h
  exact ⟨exe, executable_eq_some.mpr parsed⟩

theorem stateAt_self (h : executable layer = some exe) :
    stateAt layer.origin layer = some (exe.pc, exe.sp) := by
  unfold stateAt
  rw [if_pos rfl, h]
  rfl

theorem regionAt_self (same : layer.origin = origin) (h : executable layer = some exe) :
    regionAt origin layer = some exe.region := by
  unfold regionAt
  rw [if_pos same, h]
  rfl

theorem regionAt_eq_some {region : Region} (h : regionAt origin layer = some region) :
    layer.origin = origin ∧ ∃ exe, executable layer = some exe ∧ exe.region = region := by
  unfold regionAt at h
  split at h
  next same => exact ⟨same, Option.map_eq_some_iff.mp h⟩
  next => cases h

theorem stateAt_eq_some {state : ℕ × ℕ} (h : stateAt origin layer = some state) :
    layer.origin = origin ∧ ∃ exe, executable layer = some exe ∧ (exe.pc, exe.sp) = state := by
  unfold stateAt at h
  split at h
  next same => exact ⟨same, Option.map_eq_some_iff.mp h⟩
  next => cases h

theorem lastGiven_state {tree : Tree} (mem : layer ∈ tree.overlay)
    (found : executable layer = some exe) :
    ∃ state, lastGiven (stateAt layer.origin) tree.overlay = some state := by
  cases given : lastGiven (stateAt layer.origin) tree.overlay with
  | some state => exact ⟨state, rfl⟩
  | none =>
    have silent := List.findSome?_eq_none_iff.mp given layer (List.mem_reverse.mpr mem)
    rw [stateAt_self found] at silent
    cases silent

/-- The image of a plan whose payloads are executables is that of the tree that was followed: every
byte is the last one laid there, no text leaves the memory, and the rate is the first met in the tree
or else that of the region of the root, without which there is no image. -/
theorem image_of_tree {R V D E : Type} (loader : Loader R V D E) (rootOrigin : Str) (rootBytes : Bytes)
    (resolver : R) (plan : Psf1LoadPlan (PlaybackMetadata V D)) (t : LoadState R)
    (loaded : (loadPlan loader rootOrigin rootBytes).run (.new resolver) = .ok (.psf1 plan) t)
    (parsed : ∀ layer ∈ plan.layers, (PsxExe.parse layer.container.program).isOk = true) :
    ∃ tree, tree.layer.origin = rootOrigin ∧
      parseWithLimits loader.codecs rootOrigin rootBytes loader.parseLimits = .ok tree.layer.container ∧
      Follows loader .psf1 tree ∧ plan.layers = tree.overlay ∧
      (∀ layer ∈ tree.overlay, ∀ exe, executable layer = some exe →
        exe.physicalTextOffset + exe.text.length ≤ ramSize) ∧
      (refreshOf tree = none → ExecutableImage.fromPlan plan = .error .unknownRootRegion) ∧
      (refreshOf tree ≠ none → ∃ image, ExecutableImage.fromPlan plan = .ok image ∧
        ImageOf tree image) := by
  obtain ⟨tree, root, read, follows, rootOrigin_eq, layers, initial, refresh, apart⟩ :=
    traversed_loadPlan loader rootOrigin rootBytes resolver plan t loaded
  rw [layers] at parsed
  refine ⟨tree, root, read, follows, layers, fun layer _ exe found => ?_, ?_⟩
  · exact PsxExe.parse_inRam (executable_eq_some.mp found)
  have rootMem : tree.layer ∈ tree.overlay := tree.layer_mem
  obtain ⟨rootExe, rootFound⟩ := executable_of_isOk (parsed _ rootMem)
  obtain ⟨initialExe, initialFound⟩ := executable_of_isOk (parsed _ follows.initial_mem)
  obtain ⟨ram, size, bytes, image⟩ := fromPlan_of_parsed plan (layers.symm ▸ parsed)
  obtain ⟨given, stateGiven⟩ := lastGiven_state follows.initial_mem initialFound
  have region : lastGiven (regionAt rootOrigin) tree.overlay = some rootExe.region := by
    refine lastGiven_of_agree rootMem (regionAt_self root rootFound) fun other mem a found => ?_
    obtain ⟨same, exe, otherFound, rfl⟩ := regionAt_eq_some found
    rcases apart other mem with rfl | different
    · rw [rootFound] at otherFound
      rw [Option.some.inj otherFound]
    · exact absurd same different
  have rate : refreshOf tree = tree.refresh.or ((some rootExe.region).bind Region.refresh) := by
    unfold refreshOf
    rw [rootFound, Option.map_some]
  rw [layers, initial, rootOrigin_eq, refresh, stateGiven, region, ← rate] at image
  rw [layers] at bytes
  constructor
  · intro none
    rw [none] at image
    exact image
  · intro some
    obtain ⟨refresh, rated⟩ := Option.ne_none_iff_exists'.mp some
    rw [rated] at image
    refine ⟨_, image, size, bytes, stateGiven, fun same => ?_, rated⟩
    -- Every layer with the origin of the initial file has its program.
    have one := lastGiven_of_agree follows.initial_mem (stateAt_self initialFound) fun other mem a found => ?_
    · rw [stateGiven] at one
      rw [stateAt_self initialFound, ← one]
    · obtain ⟨sameOrigin, exe, otherFound, rfl⟩ := stateAt_eq_some found
      unfold executable at otherFound initialFound
      rw [same other mem sameOrigin, initialFound] at otherFound
      rw [Option.some.inj otherFound]

/-! ### A resolver that changes its mind -/

/-- An executable with one byte of text. -/
def sampleExe (pc : Byte) : Bytes :=
  ascii "PS-X EXE" ++ List.replicate 8 0 ++ [pc, 0, 0, 0] ++ List.replicate 4 0 ++ [0, 0, 1, 0x80] ++
    [1, 0, 0, 0] ++ List.replicate 44 0 ++ ascii "Japan" ++ List.replicate 1967 0 ++ [pc]

/-- Codecs for these executables. -/
def sampleCodecs : Codecs where
  inflate stream := ⟨[sampleExe (stream.getD 0 0)], .ok stream.length⟩
  crc _ := 0

def sampleBuilder (pc : Byte) (tags : List (Str × Str)) : PsfBuilder := ⟨.psf1, [], sampleExe pc, tags⟩

def sampleFile (pc : Byte) (tags : List (Str × Str)) : Bytes :=
  (sampleBuilder pc tags).build sampleCodecs fun program => [program.getD 0x10 0]

def sampleLoader {R : Type} (resolve : R → Str → Str → Except ResolverError (Str × Bytes) × R) :
    Loader R Unit Unit Unit where
  resolve := resolve
  codecs := sampleCodecs
  parsers := ⟨fun _ => some (), (), fun _ => .ok (), ()⟩
  parseLimits := ⟨4096, 0, 4096, 100⟩
  limits := ⟨1, 3, 4096⟩

/-- The plan of a load. -/
def loadedPlan {R M E : Type} : EStateM.Result (LoadError E) (LoadState R) (LoadPlan M) →
    Option (Psf1LoadPlan M)
  | .ok (.psf1 plan) _ => some plan
  | _ => none

theorem loadedPlan_eq_some {R M E : Type} {plan : Psf1LoadPlan M}
    {result : EStateM.Result (LoadError E) (LoadState R) (LoadPlan M)}
    (h : loadedPlan result = some plan) : ∃ t, result = .ok (.psf1 plan) t := by
  unfold loadedPlan at h
  split at h
  next plan' t => cases h; exact ⟨t, rfl⟩
  next => cases h

def rootTags : List (Str × Str) := [(ascii "_lib", ascii "a"), (ascii "_lib2", ascii "b")]

def sampleLayer (origin : Str) (pc : Byte) (tags : List (Str × Str)) : PlanLayer :=
  ⟨origin, (sampleBuilder pc tags).container fun program => [program.getD 0x10 0]⟩

/-- Each reference has its own file. -/
def steady : Loader Unit Unit Unit Unit :=
  sampleLoader fun _ _ reference =>
    (.ok (reference, sampleFile (if reference = ascii "a" then 1 else 2) []), ())

/-- Every file has the same origin, and they differ. -/
def shifting : Loader ℕ Unit Unit Unit :=
  sampleLoader fun count _ _ => (.ok (ascii "a", sampleFile (BitVec.ofNat 8 count) []), count + 1)

theorem image_of_tree_sample :
    ∃ plan tree,
      loadedPlan ((loadPlan steady (ascii "root") (sampleFile 0 rootTags)).run (.new ())) = some plan ∧
        plan.layers = tree.overlay ∧
        (refreshOf tree ≠ none → ∃ image, ExecutableImage.fromPlan plan = .ok image ∧
          ImageOf tree image) := by
  have accepted : (loadedPlan ((loadPlan steady (ascii "root") (sampleFile 0 rootTags)).run
      (.new ()))).map (fun plan => plan.layers.all fun layer =>
        (PsxExe.parse layer.container.program).isOk) = some true := by decide +kernel
  obtain ⟨plan, found, all⟩ := Option.map_eq_some_iff.mp accepted
  obtain ⟨t, loaded⟩ := loadedPlan_eq_some found
  obtain ⟨tree, -, -, -, layers, -, -, image⟩ := image_of_tree steady (ascii "root")
    (sampleFile 0 rootTags) () plan t loaded (List.all_eq_true.mp all)
  exact ⟨plan, tree, found, layers, image⟩

/-- A file that comes under the origin of the initial file decides the initial state. -/
theorem other_file_decides_state :
    ∃ plan tree image,
      loadedPlan ((loadPlan shifting (ascii "root") (sampleFile 0 rootTags)).run (.new 1)) = some plan ∧
        Follows shifting .psf1 tree ∧ plan.layers = tree.overlay ∧
        ExecutableImage.fromPlan plan = .ok image ∧
        stateAt tree.initial.origin tree.initial ≠ some (image.pc, image.sp) := by
  let root := sampleLayer (ascii "root") 0 rootTags
  let under := sampleLayer (ascii "a") 1 []
  let on := sampleLayer (ascii "a") 2 []
  let tree := Tree.file root (some (.file under none [])) [.file on none []]
  have answers (pc : Byte) (before : ℕ) (counted : BitVec.ofNat 8 before = pc) (reference : Str)
      (parsed : parseWithLimits sampleCodecs (ascii "a") (sampleFile pc []) ⟨4096, 0, 4096, 100⟩ =
        .ok (sampleLayer (ascii "a") pc []).container) :
      Answers shifting .psf1 (ascii "root") reference (sampleLayer (ascii "a") pc []) :=
    ⟨rfl, before, sampleFile pc [], before + 1, by rw [← counted]; rfl, parsed⟩
  have leaf (pc : Byte) : Follows shifting .psf1 (.file (sampleLayer (ascii "a") pc []) none []) :=
    .file .none .nil (by exact nofun) (by exact nofun)
  have follows : Follows shifting .psf1 tree := by
    refine .file (.some (answers 1 1 rfl _ (by decide +kernel)))
      (.cons (answers 2 2 rfl (ascii "b") (by decide +kernel)) .nil) ?_ ?_
    · rintro _ ⟨⟩
      exact leaf 1
    · intro tree mem
      rw [List.mem_singleton.mp mem]
      exact leaf 2
  have layers : tree.overlay = [under, root, on] := rfl
  have facts : (loadedPlan ((loadPlan shifting (ascii "root") (sampleFile 0 rootTags)).run
      (.new 1))).map (fun plan => (plan.layers, plan.rootOrigin, plan.initialStateOrigin,
        plan.refreshOverride)) =
      some ([under, root, on], ascii "root", ascii "a", none) := by decide +kernel
  obtain ⟨plan, found, same⟩ := Option.map_eq_some_iff.mp facts
  obtain ⟨planLayers, rootOrigin, initialOrigin, refresh⟩ :
      plan.layers = [under, root, on] ∧ plan.rootOrigin = ascii "root" ∧
        plan.initialStateOrigin = ascii "a" ∧ plan.refreshOverride = none := by
    simpa only [Prod.mk.injEq] using same
  obtain ⟨ram, -, -, image⟩ := fromPlan_of_parsed plan (by rw [planLayers]; decide +kernel)
  have state : lastGiven (stateAt (ascii "a")) [under, root, on] = some (2, 0) := by decide +kernel
  have region : lastGiven (regionAt (ascii "root")) [under, root, on] = some .japan := by
    decide +kernel
  rw [planLayers, rootOrigin, initialOrigin, refresh, state, region] at image
  refine ⟨plan, tree, _, found, follows, planLayers.trans layers.symm, image, ?_⟩
  have own : stateAt (ascii "a") under = some (1, 0) := by decide +kernel
  show stateAt (ascii "a") under ≠ some (2, 0)
  rw [own]
  decide

end Upse.Psx
