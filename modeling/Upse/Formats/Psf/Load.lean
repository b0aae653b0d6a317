import Mathlib.Data.Nat.Digits.Defs
import Upse.Formats.Psf.Plan
import Upse.Lib.ErrorState

/-!
# Loading a file and its libraries

A root file names libraries, which a resolver finds and which name libraries of their own.  The files
that were obtained, the depths they were asked for at, the stacks of origins and the files that were
released are recorded for the statements about them; no step reads the records.
-/

namespace Upse.Psf

open ErrorState

/-- Bounds applied across a root file and its dependency traversal. -/
structure DependencyLimits where
  maxDepth : ℕ
  maxFiles : ℕ
  maxAggregateBytes : ℕ
  deriving DecidableEq, Repr

/-- Resolution failure reported by a custom source. -/
structure ResolverError where
  message : Str
  deriving DecidableEq, Repr

/-- One owned file returned by a dependency resolver; `id` tells the obtained files apart. -/
structure ResolvedFile where
  id : ℕ
  origin : Str
  bytes : Bytes
  deriving DecidableEq, Repr

/-- Dependency traversal failure. -/
inductive LoadError (E : Type) where
  | parse (error : ParseError)
  | metadata (origin : Str) (source : MetadataError E)
  | resolve (origin reference : Str) (source : ResolverError)
  | versionMismatch (origin : Str) (expected actual : PsfVersion)
  | cycle (chain : List Str)
  | limitExceeded (limit : String)

/-- What a traversal works with: the resolver, as a machine of its own, the codecs, the parsers of
values and the limits. -/
structure Loader (R V D E : Type) where
  resolve : R → Str → Str → Except ResolverError (Str × Bytes) × R
  codecs : Codecs
  parsers : ValueParsers V D E
  parseLimits : ParseLimits
  limits : DependencyLimits

/-- The state of a traversal, with the records of what it did. -/
structure LoadState (R : Type) where
  resolver : R
  fileCount : ℕ
  aggregateBytes : ℕ
  active : List Str
  refreshOverride : Option RefreshRate
  obtained : List Str
  depths : List ℕ
  stackLog : List (List Str)
  released : List ℕ

/-- No file yet. -/
def LoadState.new {R : Type} (resolver : R) : LoadState R where
  resolver := resolver
  fileCount := 0
  aggregateBytes := 0
  active := []
  refreshOverride := none
  obtained := []
  depths := []
  stackLog := []
  released := []

/-! ### Library tags -/

/-- The key of a numbered library. -/
def libraryKey (index : ℕ) : Str :=
  ascii "_lib" ++ (Nat.digits 10 index).reverse.map fun digit => BitVec.ofNat 8 (48 + digit)

/-- The numbered libraries from an index on, as many as `rounds`. -/
def numberedFrom (tags : Tags) : ℕ → ℕ → List Str
  | 0, _ => []
  | rounds + 1, index =>
    match tags.get (libraryKey index) with
    | none => []
    | some value => value :: numberedFrom tags rounds (index + 1)

/-- The numbered libraries up to the first gap; no more keys can be found than there are tags. -/
def numberedLibraries (container : PsfContainer) : List Str :=
  numberedFrom container.tags (container.tags.entries.length + 1) 2

/-! ### Traversal -/

section Traversal

variable {R V D E : Type}

/-- Programs of the traversal. -/
abbrev LoadM (R E : Type) := EStateM (LoadError E) (LoadState R)

variable (loader : Loader R V D E) (version : PsfVersion)

/-- Counts a file against the limits. -/
def account (bytes : ℕ) : LoadM R E Unit := do
  let fileCount ← okOr (checkedAdd 64 (← get).fileCount 1) (.limitExceeded "file count")
  modify fun s => { s with fileCount := fileCount }
  throwIf (loader.limits.maxFiles < fileCount) (.limitExceeded "file count")
  let aggregateBytes ← okOr (checkedAdd 64 (← get).aggregateBytes bytes)
    (.limitExceeded "aggregate source bytes")
  modify fun s => { s with aggregateBytes := aggregateBytes }
  throwIf (loader.limits.maxAggregateBytes < aggregateBytes) (.limitExceeded "aggregate source bytes")

/-- The metadata of a file. -/
def metadata (origin : Str) (container : PsfContainer) :
    Except (LoadError E) (PlaybackMetadata V D) :=
  (PlaybackMetadata.parse loader.parsers container.tags).mapError (.metadata origin)

/-- Merges the metadata of a file. -/
def observeMetadata (origin : Str) (container : PsfContainer) : LoadM R E Unit := do
  let parsed ← ErrorState.ofExcept (metadata loader origin container)
  modify fun s => { s with refreshOverride := s.refreshOverride.or parsed.refresh }

/-- Dropping an obtained file releases it. -/
def LoadState.drop (file : ResolvedFile) (s : LoadState R) : LoadState R :=
  { s with released := file.id :: s.released }

/-- Runs a program, and after it another step, whether it failed or not. -/
def andFinally {α : Type} (m : LoadM R E α) (f : LoadState R → LoadState R) : LoadM R E α := fun s =>
  match m s with
  | .ok a t => .ok a (f t)
  | .error e t => .error e (f t)

theorem run_andFinally_ok {α : Type} {f : LoadState R → LoadState R} {m : LoadM R E α} {a : α}
    {s t : LoadState R} (h : m.run s = .ok a t) : (andFinally m f).run s = .ok a (f t) := by
  have h : m s = .ok a t := h
  show andFinally m f s = _
  unfold andFinally
  rw [h]

theorem run_andFinally_error {α : Type} {f : LoadState R → LoadState R} {m : LoadM R E α}
    {e : LoadError E} {s t : LoadState R} (h : m.run s = .error e t) :
    (andFinally m f).run s = .error e (f t) := by
  have h : m s = .error e t := h
  show andFinally m f s = _
  unfold andFinally
  rw [h]

theorem leaves_andFinally {α : Type} {f : LoadState R → LoadState R} {m : LoadM R E α} {s : LoadState R} :
    leaves ((andFinally m f).run s) = f (leaves (m.run s)) := by
  cases h : m.run s with
  | ok a t => rw [run_andFinally_ok h]; rfl
  | error e t => rw [run_andFinally_error h]; rfl

/-- Asks the resolver for a file. -/
def callResolver (containing reference : Str) : LoadM R E ResolvedFile := fun s =>
  match loader.resolve s.resolver containing reference with
  | (.error source, resolver) =>
    .error (.resolve containing reference source)
      { s with resolver := resolver, depths := s.active.length :: s.depths }
  | (.ok (origin, bytes), resolver) =>
    .ok ⟨s.obtained.length, origin, bytes⟩
      { s with
        resolver := resolver
        obtained := origin :: s.obtained
        depths := s.active.length :: s.depths }

/-- What a file must satisfy before it is traversed. -/
def checkFile (file : ResolvedFile) : LoadM R E PsfContainer := do
  account loader file.bytes.length
  let active := (← get).active
  throwIf (file.origin ∈ active)
    (.cycle (active.dropWhile (· ≠ file.origin) ++ [file.origin]))
  let container ← ErrorState.ofExcept
    ((parseWithLimits loader.codecs file.origin file.bytes loader.parseLimits).mapError .parse)
  throwIf (container.version ≠ version) (.versionMismatch file.origin version container.version)
  return container

/-- Runs a program and drops a file where it fails. -/
def dropOnFailure {α : Type} (file : ResolvedFile) (m : LoadM R E α) : LoadM R E α := fun s =>
  match m s with
  | .ok a t => .ok a t
  | .error e t => .error e (t.drop file)

theorem run_dropOnFailure_ok {α : Type} {file : ResolvedFile} {m : LoadM R E α} {a : α}
    {s t : LoadState R} (h : m.run s = .ok a t) : (dropOnFailure file m).run s = .ok a t := by
  have h : m s = .ok a t := h
  show dropOnFailure file m s = _
  unfold dropOnFailure
  rw [h]

theorem run_dropOnFailure_error {α : Type} {file : ResolvedFile} {m : LoadM R E α} {e : LoadError E}
    {s t : LoadState R} (h : m.run s = .error e t) :
    (dropOnFailure file m).run s = .error e (t.drop file) := by
  have h : m s = .error e t := h
  show dropOnFailure file m s = _
  unfold dropOnFailure
  rw [h]

/-- A file that fails its checks is dropped; a checked one stays with the caller. -/
def resolve (containing reference : Str) : LoadM R E (PsfContainer × ResolvedFile) := do
  let file ← callResolver loader containing reference
  let container ← dropOnFailure file (checkFile loader version file)
  return (container, file)

/-- Opens a file. -/
def push (origin : Str) : LoadM R E Unit :=
  modify fun s => { s with active := s.active ++ [origin], stackLog := (s.active ++ [origin]) :: s.stackLog }

/-- Traverses a file that is held while it is on the stack. -/
def holding {α : Type} (file : ResolvedFile) (node : LoadM R E α) : LoadM R E α := do
  push file.origin
  andFinally node fun s => ({ s with active := s.active.dropLast } : LoadState R).drop file

/-- What a file of the tree and its libraries give. -/
structure Psf1Node where
  layers : List PlanLayer
  initialStateOrigin : Str

/-- A file of a PSF1 tree; `dependency` traverses a library of it. -/
def psf1Node (dependency : Str → Str → LoadM R E Psf1Node) (origin : Str) (container : PsfContainer) :
    LoadM R E Psf1Node := do
  observeMetadata loader origin container
  let primary := container.tags.get (ascii "_lib")
  let additional := numberedLibraries container
  let first ←
    match primary with
    | some reference => dependency origin reference
    | none => pure ⟨[], origin⟩
  let rest ← additional.mapM fun reference => dependency origin reference
  return ⟨first.layers ++ [⟨origin, container⟩] ++ rest.flatMap Psf1Node.layers,
    first.initialStateOrigin⟩

/-- A library.  The recursion is on how many levels of libraries are left, so that the check of the
depth is its base case. -/
def psf1Dependency : ℕ → Str → Str → LoadM R E Psf1Node
  | 0, _, _ => throw (.limitExceeded "dependency depth")
  | levels + 1, containing, reference => do
    let (container, file) ← resolve loader version containing reference
    holding file (psf1Node loader (psf1Dependency levels) file.origin container)

/-- A file of a PSF2 tree. -/
def psf2Node (dependency : Str → Str → LoadM R E (List PlanLayer)) (origin : Str)
    (container : PsfContainer) : LoadM R E (List PlanLayer) := do
  observeMetadata loader origin container
  let references := (container.tags.get (ascii "_lib")).toList ++ numberedLibraries container
  let layers ← references.mapM fun reference => dependency origin reference
  return layers.flatten ++ [⟨origin, container⟩]

/-- Loads a PSF2 file after its libraries. -/
def psf2Dependency : ℕ → Str → Str → LoadM R E (List PlanLayer)
  | 0, _, _ => throw (.limitExceeded "dependency depth")
  | levels + 1, containing, reference => do
    let (container, file) ← resolve loader version containing reference
    holding file (psf2Node loader (psf2Dependency levels) file.origin container)

/-- Parses a root and resolves its complete dependency plan. -/
def loadPlan (rootOrigin : Str) (rootBytes : Bytes) :
    LoadM R E (LoadPlan (PlaybackMetadata V D)) := do
  let root ← ErrorState.ofExcept
    ((parseWithLimits loader.codecs rootOrigin rootBytes loader.parseLimits).mapError .parse)
  let rootMetadata ← ErrorState.ofExcept (metadata loader rootOrigin root)
  account loader rootBytes.length
  push rootOrigin
  match root.version with
  | .psf1 => do
    let node ← psf1Node loader (psf1Dependency loader root.version loader.limits.maxDepth) rootOrigin root
    return .psf1 ⟨rootOrigin, node.layers, node.initialStateOrigin, (← get).refreshOverride, rootMetadata⟩
  | .psf2 => do
    let layers ← psf2Node loader (psf2Dependency loader root.version loader.limits.maxDepth) rootOrigin root
    return .psf2 ⟨rootOrigin, layers, (← get).refreshOverride, rootMetadata⟩

end Traversal

end Upse.Psf
