import Upse.Formats.Psf.Builder
import Upse.Formats.Psf.LoadRuns
import Upse.Formats.Psf.Logical

/-!
# Loads from the resolver in memory

A resolver that stays as it is and answers with origins of a kind leaves only origins of that kind on
the stacks of a load, next to the origin of the root.  The resolver in memory answers with logical paths
in their form, where different origins denote different files.
-/

namespace Upse.Psf

open ErrorState Moves

section Kinds

variable {R V D E : Type} {loader : Loader R V D E} {version : PsfVersion} {resolver : R} {root : Str}
  {P : Str → Prop} {s : LoadState R}

/-- The resolver is `resolver`, and origins other than that of the root satisfy `P`. -/
structure Confined (resolver : R) (root : Str) (P : Str → Prop) (s : LoadState R) : Prop where
  resolver : s.resolver = resolver
  obtained : ∀ origin ∈ s.obtained, P origin
  active : ∀ origin ∈ s.active, origin = root ∨ P origin
  stackLog : ∀ stack ∈ s.stackLog, ∀ origin ∈ stack, origin = root ∨ P origin

/-- The resolver stays as it is, and the origins it answers with satisfy `P`. -/
def AnswersIn (loader : Loader R V D E) (resolver : R) (P : Str → Prop) : Prop :=
  ∀ containing reference, (loader.resolve resolver containing reference).2 = resolver ∧
    ∀ found, (loader.resolve resolver containing reference).1 = .ok found → P found.1

theorem uncounted_confined : Uncounted (Confined resolver root P) where
  fileCount h _ := ⟨h.resolver, h.obtained, h.active, h.stackLog⟩
  aggregateBytes h _ := ⟨h.resolver, h.obtained, h.active, h.stackLog⟩
  refreshOverride h _ := ⟨h.resolver, h.obtained, h.active, h.stackLog⟩

theorem Confined.drop (h : Confined resolver root P s) (file : ResolvedFile) :
    Confined resolver root P (s.drop file) :=
  ⟨h.resolver, h.obtained, h.active, h.stackLog⟩

theorem Confined.pop (h : Confined resolver root P s) :
    Confined resolver root P { s with active := s.active.dropLast } :=
  ⟨h.resolver, h.obtained, fun origin member => h.active origin (List.mem_of_mem_dropLast member),
    h.stackLog⟩

theorem Confined.push (h : Confined resolver root P s) {origin : Str} (kind : origin = root ∨ P origin) :
    Confined resolver root P { s with
      active := s.active ++ [origin]
      stackLog := (s.active ++ [origin]) :: s.stackLog } := by
  have active : ∀ other ∈ s.active ++ [origin], other = root ∨ P other := by
    intro other member
    rcases List.mem_append.mp member with before | last
    · exact h.active other before
    · exact List.mem_singleton.mp last ▸ kind
  exact ⟨h.resolver, h.obtained, active, List.forall_mem_cons.mpr ⟨active, h.stackLog⟩⟩

theorem confined_callResolver (answers : AnswersIn loader resolver P) (h : Confined resolver root P s)
    (containing reference : Str) :
    Confined resolver root P (leaves ((callResolver loader containing reference).run s)) ∧
      ∀ file t, (callResolver loader containing reference).run s = .ok file t → P file.origin := by
  obtain ⟨stays, kind⟩ := answers containing reference
  rw [← h.resolver] at stays kind
  cases called : loader.resolve s.resolver containing reference with
  | mk outcome after =>
    rw [called] at stays kind
    simp only [EStateM.run, callResolver, called]
    cases outcome with
    | error source =>
      exact ⟨⟨stays.trans h.resolver, h.obtained, h.active, h.stackLog⟩, fun file t run => by cases run⟩
    | ok found =>
      have good := kind found rfl
      refine ⟨⟨stays.trans h.resolver, ?_, h.active, h.stackLog⟩, fun file t run => ?_⟩
      · exact List.forall_mem_cons.mpr ⟨good, h.obtained⟩
      · cases run
        exact good

variable (version) in
theorem confined_resolve (answers : AnswersIn loader resolver P) (h : Confined resolver root P s)
    (containing reference : Str) :
    Confined resolver root P (leaves ((resolve loader version containing reference).run s)) ∧
      ∀ found t, (resolve loader version containing reference).run s = .ok found t →
        P found.2.origin := by
  obtain ⟨after, kind⟩ := confined_callResolver answers h containing reference
  unfold resolve
  simp only [run_bind]
  cases called : (callResolver loader containing reference).run s with
  | error e t =>
    rw [called] at after
    exact ⟨after, by exact nofun⟩
  | ok file t =>
    rw [called] at after
    have checked := leads_checkFile loader version uncounted_confined (s := t) file after
    dsimp only
    cases ran : (checkFile loader version file).run t with
    | ok container u =>
      rw [ran] at checked
      rw [run_dropOnFailure_ok ran]
      refine ⟨checked, fun found v run => ?_⟩
      cases run
      exact kind file t called
    | error e u =>
      rw [ran] at checked
      rw [run_dropOnFailure_error ran]
      exact ⟨checked.drop file, by exact nofun⟩

theorem leads_holding {α : Type} {file : ResolvedFile} {node : LoadM R E α} (kind : P file.origin)
    (traversed : ∀ u, Leads (Keeps (Confined resolver root P)) u node) :
    Leads (Keeps (Confined resolver root P)) s (holding file node) := by
  intro h
  have after := (traversed _ (h.push (.inr kind))).pop.drop file
  unfold holding push
  rw [run_modify_bind, leaves_andFinally]
  exact after

theorem confined_library {α : Type} (answers : AnswersIn loader resolver P)
    (node : PsfContainer → ResolvedFile → LoadM R E α) (containing reference : Str)
    (traversed : ∀ container file u, Leads (Keeps (Confined resolver root P)) u (node container file)) :
    Leads (Keeps (Confined resolver root P)) s
      (resolve loader version containing reference >>= fun found =>
        holding found.2 (node found.1 found.2)) := by
  intro h
  obtain ⟨after, kind⟩ := confined_resolve version answers h containing reference
  rw [run_bind]
  cases ran : (resolve loader version containing reference).run s with
  | error e t =>
    rw [ran] at after
    exact after
  | ok found t =>
    rw [ran] at after
    exact leads_holding (kind found t ran) (traversed found.1 found.2) after

theorem confined_psf1Dependency (answers : AnswersIn loader resolver P) (levels : ℕ)
    (containing reference : Str) :
    Leads (Keeps (Confined resolver root P)) s
      (psf1Dependency loader version levels containing reference) := by
  induction levels generalizing containing reference s with
  | zero => exact leads_throw _
  | succ levels ih =>
    unfold psf1Dependency
    exact confined_library answers (fun container file =>
      psf1Node loader (psf1Dependency loader version levels) file.origin container) containing reference
      fun container file u => leads_psf1Node uncounted_confined (fun _ _ _ => ih _ _) _ _

theorem confined_psf2Dependency (answers : AnswersIn loader resolver P) (levels : ℕ)
    (containing reference : Str) :
    Leads (Keeps (Confined resolver root P)) s
      (psf2Dependency loader version levels containing reference) := by
  induction levels generalizing containing reference s with
  | zero => exact leads_throw _
  | succ levels ih =>
    unfold psf2Dependency
    exact confined_library answers (fun container file =>
      psf2Node loader (psf2Dependency loader version levels) file.origin container) containing reference
      fun container file u => leads_psf2Node uncounted_confined (fun _ _ _ => ih _ _) _ _

/-- A whole load, whether it succeeds or not. -/
theorem confined_loadPlan (answers : AnswersIn loader resolver P) (root : Str) (rootBytes : Bytes) :
    Confined resolver root P
      (leaves ((loadPlan loader root rootBytes).run (LoadState.new resolver))) := by
  have start : Confined resolver root P (LoadState.new resolver) :=
    ⟨rfl, by exact nofun, by exact nofun, by exact nofun⟩
  refine (show Leads (Keeps (Confined resolver root P)) (LoadState.new resolver)
    (loadPlan loader root rootBytes) from ?_) start
  unfold loadPlan
  apply leads_ofExcept_bind
  intro container _
  apply leads_ofExcept_bind
  intro rootMetadata _
  refine (leads_account loader uncounted_confined _).bind fun _ t _ => ?_
  unfold push
  apply leads_modify_bind
  · exact fun h => h.push (.inl rfl)
  cases container.version with
  | psf1 =>
    exact (leads_psf1Node uncounted_confined (fun containing reference u =>
      confined_psf1Dependency answers _ _ _) _ _).bind fun _ _ _ => leads_get_bind (leads_pure _)
  | psf2 =>
    exact (leads_psf2Node uncounted_confined (fun containing reference u =>
      confined_psf2Dependency answers _ _ _) _ _).bind fun _ _ _ => leads_get_bind (leads_pure _)

end Kinds

/-! ### The resolver in memory -/

theorem Canonical.relative {path : Str} (h : Canonical path) : path.head? ≠ some separator := by
  obtain ⟨names, some_name, named, rfl⟩ := h
  obtain ⟨name, names, rfl⟩ := List.exists_cons_of_ne_nil some_name
  have name_named := named name List.mem_cons_self
  obtain ⟨first, rest, rfl⟩ := List.exists_cons_of_ne_nil name_named.nonempty
  have other : first ≠ separator := fun same => name_named.one (same ▸ List.mem_cons_self)
  cases names with
  | nil => exact fun absolute => other (Option.some.inj absolute)
  | cons _ _ =>
    rw [List.intercalate_cons_cons]
    exact fun absolute => other (Option.some.inj absolute)

theorem canonical_of_resolve {containing reference path : Str}
    (h : resolveLogical containing reference = .ok path) : Canonical path := by
  obtain ⟨containing', -, pushed⟩ := ErrorState.except_bind_ok.mp h
  exact canonical_of_normalize pushed

theorem Refers.unique {containing reference : Str} {names names' : List Str}
    (h : Refers containing reference names) (h' : Refers containing reference names') :
    names = names' := by
  obtain ⟨file, -, denotes, leads⟩ := h
  obtain ⟨file', -, denotes', leads'⟩ := h'
  obtain rfl := denotes.unique denotes'
  exact leads.unique leads'

theorem resolveLogical_congr {containing reference containing' reference' : Str} {names : List Str}
    (h : Refers containing reference names) (h' : Refers containing' reference' names) (path : Str) :
    resolveLogical containing reference = .ok path ↔ resolveLogical containing' reference' = .ok path := by
  rw [resolveLogical_eq_ok, resolveLogical_eq_ok]
  constructor
  · rintro ⟨found, some_name, refers, rfl⟩
    obtain rfl := h.unique refers
    exact ⟨names, some_name, h', rfl⟩
  · rintro ⟨found, some_name, refers, rfl⟩
    obtain rfl := h'.unique refers
    exact ⟨names, some_name, h, rfl⟩

namespace MemoryResolver

/-- The resolver after a file is inserted; one that is refused changes nothing. -/
def store (resolver : MemoryResolver) (file : Str × Bytes) : MemoryResolver :=
  (resolver.insert file.1 file.2).toOption.getD resolver

/-- These are the bytes of the last of the files whose path denotes the names. -/
def LastStored (files : List (Str × Bytes)) (names : List Str) (bytes : Bytes) : Prop :=
  ∃ before origin after, files = before ++ (origin, bytes) :: after ∧
    Denotes (movesOf origin) names ∧ ∀ file ∈ after, ¬ Denotes (movesOf file.1) names

section Stored

variable {files : List (Str × Bytes)} {file : Str × Bytes} {names : List Str} {bytes : Bytes}

theorem lastStored_concat : LastStored (files ++ [file]) names bytes ↔
    Denotes (movesOf file.1) names ∧ file.2 = bytes ∨
      ¬ Denotes (movesOf file.1) names ∧ LastStored files names bytes := by
  constructor
  · rintro ⟨before, origin, after, split, denotes, later⟩
    rcases after.eq_nil_or_concat with rfl | ⟨after, last, rfl⟩
    · obtain ⟨-, same⟩ := List.append_inj' split rfl
      cases same
      exact .inl ⟨denotes, rfl⟩
    · rw [List.concat_eq_append] at split later
      rw [← List.cons_append, ← List.append_assoc] at split
      obtain ⟨rfl, same⟩ := List.append_inj' split rfl
      cases same
      rw [List.forall_mem_append, List.forall_mem_singleton] at later
      exact .inr ⟨later.2, before, origin, after, rfl, denotes, later.1⟩
  · rintro (⟨denotes, rfl⟩ | ⟨other, before, origin, after, rfl, denotes, later⟩)
    · exact ⟨files, file.1, [], rfl, denotes, List.forall_mem_nil _⟩
    · refine ⟨before, origin, after ++ [file], List.append_assoc _ _ _, denotes, ?_⟩
      exact List.forall_mem_append.mpr ⟨later, List.forall_mem_singleton.mpr other⟩

theorem get?_store (some_name : names ≠ []) (named : ∀ name ∈ names, LogicalName name)
    (resolver : MemoryResolver) (file : Str × Bytes) :
    Denotes (movesOf file.1) names ∧
        (resolver.store file).files.get? ([separator].intercalate names) = some file.2 ∨
      ¬ Denotes (movesOf file.1) names ∧
        (resolver.store file).files.get? ([separator].intercalate names) =
          resolver.files.get? ([separator].intercalate names) := by
  rw [← normalizeLogical_eq_join some_name named]
  unfold store insert
  cases normalizeLogical file.1 with
  | error e => exact .inr ⟨by exact nofun, rfl⟩
  | ok origin =>
    show _ ∧ (resolver.files.insert origin file.2).get? _ = _ ∨
      _ ∧ (resolver.files.insert origin file.2).get? _ = _
    rw [SortedMap.get?_insert, Except.ok.injEq, eq_comm (a := origin)]
    split
    next same => exact .inl ⟨same, rfl⟩
    next other => exact .inr ⟨other, rfl⟩

/-- The resolver holds for each file the bytes stored last, however its path was spelled. -/
theorem get?_stored (some_name : names ≠ []) (named : ∀ name ∈ names, LogicalName name)
    (files : List (Str × Bytes)) :
    (∀ bytes, (files.foldl store .new).files.get? ([separator].intercalate names) = some bytes ↔
      LastStored files names bytes) ∧
    ((files.foldl store .new).files.get? ([separator].intercalate names) = none ↔
      ∀ file ∈ files, ¬ Denotes (movesOf file.1) names) := by
  induction files using List.reverseRecOn with
  | nil =>
    refine ⟨fun bytes => ⟨by exact nofun, ?_⟩, ⟨fun _ => List.forall_mem_nil _, fun _ => rfl⟩⟩
    rintro ⟨before, origin, after, split, -⟩
    cases before <;> cases split
  | append_singleton files file ih =>
    rw [List.foldl_append, List.foldl_cons, List.foldl_nil, List.forall_mem_append,
      List.forall_mem_singleton]
    obtain ⟨same, found⟩ | ⟨other, found⟩ :=
      get?_store some_name named (files.foldl store .new) file
    · rw [found]
      refine ⟨fun bytes => ?_, ⟨by exact nofun, fun absent => absurd same absent.2⟩⟩
      rw [lastStored_concat, Option.some.injEq]
      exact ⟨fun last => .inl ⟨same, last⟩, fun last => last.elim And.right fun h => absurd same h.1⟩
    · rw [found, ih.2, and_iff_left other]
      refine ⟨fun bytes => ?_, Iff.rfl⟩
      rw [lastStored_concat, ih.1]
      exact ⟨fun last => .inr ⟨other, last⟩, fun last => last.elim (absurd ·.1 other) And.right⟩

end Stored

/-- A file is taken in exactly where its path denotes one inside the root.  Whatever was inserted, and
however it was spelled, a reference that denotes a file is answered with the bytes inserted last for
that file, under its path in the form, and with the missing-file error exactly where none were; and a
reference that denotes none is answered with no file. -/
theorem resolve_stored (files : List (Str × Bytes)) (containing reference : Str) :
    let resolver := files.foldl store .new
    (∀ origin bytes, (∃ after, resolver.insert origin bytes = .ok after) ↔
      ∃ names, names ≠ [] ∧ Denotes (movesOf origin) names) ∧
    (∀ names, names ≠ [] → Refers containing reference names →
      (∀ path bytes, (resolver.resolve containing reference).1 = .ok (path, bytes) ↔
        path = [separator].intercalate names ∧ LastStored files names bytes) ∧
      ((resolver.resolve containing reference).1 =
          .error ⟨ascii "missing logical file " ++ [separator].intercalate names⟩ ↔
        ∀ file ∈ files, ¬ Denotes (movesOf file.1) names)) ∧
    ((∀ names, names ≠ [] → ¬ Refers containing reference names) →
      ∀ found, (resolver.resolve containing reference).1 ≠ .ok found) := by
  intro resolver
  refine ⟨fun origin bytes => ?_, fun names some_name refers => ?_, fun none found answered => ?_⟩
  · have taken : (∃ after, resolver.insert origin bytes = .ok after) ↔
        ∃ path, normalizeLogical origin = .ok path := by
      unfold insert
      cases normalizeLogical origin with
      | error e =>
        constructor
        · rintro ⟨after, h⟩
          cases h
        · rintro ⟨path, h⟩
          cases h
      | ok path => exact ⟨fun _ => ⟨path, rfl⟩, fun _ => ⟨_, rfl⟩⟩
    rw [taken]
    constructor
    · rintro ⟨path, normal⟩
      obtain ⟨names, some_name, denotes, -⟩ := normalizeLogical_eq_ok.mp normal
      exact ⟨names, some_name, denotes⟩
    · rintro ⟨names, some_name, denotes⟩
      exact ⟨_, normalizeLogical_eq_ok.mpr ⟨names, some_name, denotes, rfl⟩⟩
  · have resolved := resolveLogical_eq_ok.mpr ⟨names, some_name, refers, rfl⟩
    obtain ⟨last, absent⟩ := get?_stored some_name refers.named files
    change ∀ bytes, resolver.files.get? _ = some bytes ↔ _ at last
    change resolver.files.get? _ = none ↔ _ at absent
    simp only [← last, ← absent, resolve, resolved, bind, Except.bind]
    cases resolver.files.get? ([separator].intercalate names) with
    | none =>
      refine ⟨fun path bytes => ⟨by exact nofun, ?_⟩, ⟨fun _ => rfl, fun _ => rfl⟩⟩
      rintro ⟨-, h⟩
      cases h
    | some stored =>
      refine ⟨fun path bytes => ⟨fun answered => ?_, ?_⟩, ⟨by exact nofun, by exact nofun⟩⟩
      · cases answered
        exact ⟨rfl, rfl⟩
      · rintro ⟨rfl, same⟩
        cases same
        rfl
  · obtain ⟨path, resolved, -⟩ := ErrorState.except_bind_ok.mp answered
    obtain ⟨names, some_name, refers, -⟩ := resolveLogical_eq_ok.mp resolved
    exact none names some_name refers

/-- Files stored under two spellings of one path, next to one that leads above the root. -/
def respelled : List (Str × Bytes) :=
  [(ascii "x\\b", [1]), (ascii "../x/b", [2]), (ascii "d/../x/./b", [3]), (ascii "b", [4])]

theorem resolve_stored_sample :
    ((respelled.foldl store .new).resolve (ascii "d/a") (ascii "../x//b")).1 =
        .ok (ascii "x/b", [3]) ∧
      ((respelled.foldl store .new).resolve (ascii "d/a") (ascii "c")).1 =
        .error ⟨ascii "missing logical file d/c"⟩ ∧
      ∀ after, (respelled.foldl store .new).insert (ascii "../x/b") [2] ≠ .ok after := by
  have refers : Refers (ascii "d/a") (ascii "../x//b") [ascii "x", ascii "b"] :=
    ⟨[ascii "d", ascii "a"], by decide, denotes_iff.mpr (by decide), denotes_iff.mpr (by decide)⟩
  have refers' : Refers (ascii "d/a") (ascii "c") [ascii "d", ascii "c"] :=
    ⟨[ascii "d", ascii "a"], by decide, denotes_iff.mpr (by decide), denotes_iff.mpr (by decide)⟩
  obtain ⟨taken, answers, -⟩ := resolve_stored respelled (ascii "d/a") (ascii "../x//b")
  obtain ⟨-, missing, -⟩ := resolve_stored respelled (ascii "d/a") (ascii "c")
  refine ⟨((answers _ (by decide) refers).1 _ _).mpr ⟨by decide, ?_⟩,
    (missing _ (by decide) refers').2.mpr ?_, fun after inserted => ?_⟩
  · refine ⟨respelled.take 2, _, _, rfl, denotes_iff.mpr (by decide), ?_⟩
    simp only [denotes_iff]
    decide
  · simp only [denotes_iff]
    decide
  · obtain ⟨names, -, denotes⟩ := (taken _ _).mp ⟨after, inserted⟩
    cases denotes_iff.mp denotes

end MemoryResolver

section Memory

variable {V D E : Type} (codecs : Codecs) (parsers : ValueParsers V D E) (parseLimits : ParseLimits)
  (limits : DependencyLimits)

/-- Loads with the resolver in memory. -/
def memoryLoader : Loader MemoryResolver V D E where
  resolve := MemoryResolver.resolve
  codecs := codecs
  parsers := parsers
  parseLimits := parseLimits
  limits := limits

theorem memory_answers (resolver : MemoryResolver) :
    AnswersIn (memoryLoader codecs parsers parseLimits limits) resolver fun origin =>
      Canonical origin ∧ (resolver.files.get? origin).isSome := by
  intro containing reference
  refine ⟨rfl, fun found answered => ?_⟩
  obtain ⟨origin, resolved, present⟩ := ErrorState.except_bind_ok.mp answered
  split at present
  next bytes has =>
    cases present
    exact ⟨canonical_of_resolve resolved, Option.isSome_of_eq_some has⟩
  next => cases present

/-- Origins in their form are apart as files where they are apart as strings. -/
theorem nodup_normalize {stack : List Str} (h : stack.Nodup)
    (normal : ∀ origin ∈ stack, normalizeLogical origin = .ok origin) :
    (stack.map normalizeLogical).Nodup := by
  refine h.map_on fun a mem b mem' same => ?_
  rw [normal a mem, normal b mem'] at same
  exact Except.ok.inj same

/-- Resolution gives paths in their form, which do not leave the root of the resolver, and the same one
for references that denote the same file.  So no file is on a stack of a load under two origins, but
for the root where the caller's origin for it is not in that form. -/
theorem logical_confined :
    (∀ containing reference path, resolveLogical containing reference = .ok path →
      Canonical path ∧ path.head? ≠ some separator ∧ normalizeLogical path = .ok path) ∧
    (∀ containing reference path, resolveLogical containing reference = .ok path ↔
      ∃ names, names ≠ [] ∧ Refers containing reference names ∧
        path = [separator].intercalate names) ∧
    (∀ containing reference containing' reference' names, Refers containing reference names →
      Refers containing' reference' names → ∀ path,
        resolveLogical containing reference = .ok path ↔
          resolveLogical containing' reference' = .ok path) ∧
    ∀ (resolver : MemoryResolver) (root : Str) (rootBytes : Bytes),
      let left := leaves ((loadPlan (memoryLoader codecs parsers parseLimits limits) root rootBytes).run
        (LoadState.new resolver))
      (∀ origin ∈ left.obtained, Canonical origin ∧ (resolver.files.get? origin).isSome) ∧
      (∀ stack ∈ left.stackLog, ((stack.erase root).map normalizeLogical).Nodup) ∧
      (normalizeLogical root = .ok root →
        ∀ stack ∈ left.stackLog, (stack.map normalizeLogical).Nodup) := by
  refine ⟨fun containing reference path resolved => ?_, fun _ _ _ => resolveLogical_eq_ok,
    fun _ _ _ _ _ refers refers' => resolveLogical_congr refers refers',
    fun resolver root rootBytes => ?_⟩
  · have canonical := canonical_of_resolve resolved
    exact ⟨canonical, canonical.relative, canonical.normalize⟩
  intro left
  have confined := confined_loadPlan (memory_answers codecs parsers parseLimits limits resolver) root
    rootBytes
  obtain ⟨-, distinct, -⟩ := load_bounded (memoryLoader codecs parsers parseLimits limits) root
    rootBytes resolver
  refine ⟨confined.obtained, fun stack logged => ?_, fun normal stack logged => ?_⟩
  · refine nodup_normalize ((distinct stack logged).erase root) fun origin member => ?_
    obtain ⟨other, member⟩ := (distinct stack logged).mem_erase_iff.mp member
    exact ((confined.stackLog stack logged origin member).resolve_left other).1.normalize
  · refine nodup_normalize (distinct stack logged) fun origin member => ?_
    rcases confined.stackLog stack logged origin member with rfl | kind
    · exact normal
    · exact kind.1.normalize

end Memory

/-! ### Small loads -/

/-- Codecs for files without a program. -/
def plainCodecs : Codecs := ⟨fun _ => ⟨[], .ok 0⟩, fun _ => 0⟩

def plainFile (libraries : List Str) : Bytes :=
  (PsfBuilder.mk .psf2 [] [] (libraries.map fun reference => (ascii "_lib", reference))).build
    plainCodecs id

def plainLoader : Loader MemoryResolver Unit Unit Unit :=
  memoryLoader plainCodecs ⟨fun _ => some (), (), fun _ => .ok (), ()⟩ ⟨4096, 0, 4096, 100⟩ ⟨2, 3, 4096⟩

/-- The files of a library that leads back to `d/a`. -/
def circular : MemoryResolver :=
  ⟨.insert (ascii "x/b") (plainFile [ascii "..\\d/./a"])
    (.insert (ascii "d/a") (plainFile [ascii "../x//b"]) MemoryResolver.new.files)⟩

theorem logical_confined_sample :
    let left := leaves ((loadPlan plainLoader (ascii "d/a") (plainFile [ascii "../x//b"])).run
      (.new circular))
    left.obtained = [ascii "d/a", ascii "x/b"] ∧
      [ascii "d/a", ascii "x/b"] ∈ left.stackLog ∧
      ∀ stack ∈ left.stackLog, (stack.map normalizeLogical).Nodup := by
  intro left
  have facts : left.obtained = [ascii "d/a", ascii "x/b"] ∧
      [ascii "d/a", ascii "x/b"] ∈ left.stackLog := by decide +kernel
  have normal : normalizeLogical (ascii "d/a") = .ok (ascii "d/a") := by rfl
  refine ⟨facts.1, facts.2, ?_⟩
  exact ((logical_confined plainCodecs _ _ _).2.2.2 circular (ascii "d/a") _).2.2 normal

/-- A library without libraries. -/
def single : MemoryResolver := ⟨.insert (ascii "a") (plainFile []) MemoryResolver.new.files⟩

/-- A root whose origin the caller spells in another way is loaded once more as a library of its own. -/
theorem respelled_root_loaded :
    ∃ plan t,
      (loadPlan plainLoader (ascii "./a") (plainFile [ascii "a"])).run (.new single) = .ok plan t ∧
        [ascii "./a", ascii "a"] ∈ t.stackLog ∧
        normalizeLogical (ascii "./a") = .ok (ascii "a") ∧
        normalizeLogical (ascii "a") = .ok (ascii "a") := by
  have loads : succeeds ((loadPlan plainLoader (ascii "./a") (plainFile [ascii "a"])).run
      (.new single)) = true := by decide +kernel
  have logged : [ascii "./a", ascii "a"] ∈ (leaves ((loadPlan plainLoader (ascii "./a")
      (plainFile [ascii "a"])).run (.new single))).stackLog := by decide +kernel
  obtain ⟨plan, t, ran⟩ := exists_ok_of_succeeds loads
  rw [ran] at logged
  exact ⟨plan, t, ran, logged, by rfl, by rfl⟩

end Upse.Psf
