import Mathlib.Data.Nat.Digits.Lemmas
import Upse.Formats.Psf.Load

/-!
# What loading leaves

Along every path of a traversal, successful or not, the stack of origins has no origin twice, no
library is asked for below the deepest level, and every file that was obtained is either still held
or was released, once.
-/

namespace Upse.Psf

open ErrorState

variable {R V D E : Type} {loader : Loader R V D E} {version : PsfVersion} {active : List Str}
  {held : List ℕ} {s t : LoadState R}

/-! ### Stacks, depths and releases -/

/-- A state with the stack `active` in which the files `held` are not released yet. -/
structure Sound (loader : Loader R V D E) (active : List Str) (held : List ℕ) (s : LoadState R) :
    Prop where
  stack : s.active = active
  nodup : active.Nodup
  depths : ∀ depth ∈ s.depths, depth ≤ loader.limits.maxDepth
  stackLog : ∀ stack ∈ s.stackLog, stack.Nodup
  balance : (s.released ++ held).Perm (List.range s.obtained.length)

/-- Steps after which a state is sound that was sound before. -/
abbrev KeepsSound (loader : Loader R V D E) (active : List Str) (held : List ℕ) :
    LoadState R → LoadState R → Prop :=
  Keeps (Sound loader active held)

/-- The predicate does not look at the counts and the refresh rate. -/
structure Uncounted (I : LoadState R → Prop) : Prop where
  fileCount : ∀ {s}, I s → ∀ count, I { s with fileCount := count }
  aggregateBytes : ∀ {s}, I s → ∀ bytes, I { s with aggregateBytes := bytes }
  refreshOverride : ∀ {s}, I s → ∀ refresh, I { s with refreshOverride := refresh }

theorem uncounted_sound : Uncounted (Sound loader active held) where
  fileCount h _ := ⟨h.stack, h.nodup, h.depths, h.stackLog, h.balance⟩
  aggregateBytes h _ := ⟨h.stack, h.nodup, h.depths, h.stackLog, h.balance⟩
  refreshOverride h _ := ⟨h.stack, h.nodup, h.depths, h.stackLog, h.balance⟩

section Uncounted

variable {I : LoadState R → Prop} (uncounted : Uncounted I)

include uncounted

variable (loader) in
theorem leads_account (bytes : ℕ) : Leads (Keeps I) s (account loader bytes) := by
  unfold account
  apply leads_get_bind
  apply leads_okOr_bind
  intro fileCount _
  apply leads_modify_bind
  · exact fun h => uncounted.fileCount h fileCount
  apply leads_throwIf_bind
  intro _
  apply leads_get_bind
  apply leads_okOr_bind
  intro aggregateBytes _
  apply leads_modify_bind
  · exact fun h => uncounted.aggregateBytes h aggregateBytes
  unfold throwIf
  exact .either (leads_throw _) (leads_pure _)

theorem leads_observeMetadata (origin : Str) (container : PsfContainer) :
    Leads (Keeps I) s (observeMetadata loader origin container) := by
  unfold observeMetadata
  apply leads_ofExcept_bind
  intro parsed _
  exact leads_modify fun h => uncounted.refreshOverride h _

variable (loader version) in
theorem leads_checkFile (file : ResolvedFile) : Leads (Keeps I) s (checkFile loader version file) := by
  unfold checkFile
  refine (leads_account loader uncounted _).bind fun _ t _ => ?_
  apply leads_get_bind
  apply leads_throwIf_bind
  intro _
  apply leads_ofExcept_bind
  intro container _
  apply leads_throwIf_bind
  intro _
  exact leads_pure _

theorem leads_psf1Node {dependency : Str → Str → LoadM R E Psf1Node}
    (below : ∀ containing reference u, Leads (Keeps I) u (dependency containing reference))
    (origin : Str) (container : PsfContainer) :
    Leads (Keeps I) s (psf1Node loader dependency origin container) := by
  unfold psf1Node
  refine (leads_observeMetadata uncounted _ _).bind fun _ t _ => ?_
  have rest (first : Psf1Node) (u : LoadState R) : Leads (Keeps I) u
      ((numberedLibraries container).mapM (fun reference => dependency origin reference) >>=
        fun rest => (pure ⟨first.layers ++ [⟨origin, container⟩] ++ rest.flatMap Psf1Node.layers,
          first.initialStateOrigin⟩ : LoadM R E Psf1Node)) :=
    (leads_mapM fun reference v => below origin reference v).returning
  dsimp only
  cases container.tags.get (ascii "_lib") with
  | none => exact rest ⟨[], origin⟩ t
  | some reference => exact (below origin reference t).bind fun first u _ => rest first u

theorem leads_psf2Node {dependency : Str → Str → LoadM R E (List PlanLayer)}
    (below : ∀ containing reference u, Leads (Keeps I) u (dependency containing reference))
    (origin : Str) (container : PsfContainer) :
    Leads (Keeps I) s (psf2Node loader dependency origin container) := by
  unfold psf2Node
  refine (leads_observeMetadata uncounted _ _).bind fun _ t _ => ?_
  exact (leads_mapM fun reference u => below origin reference u).returning

end Uncounted

theorem account_apart (bytes : ℕ) :
    Returns (fun _ t => t.active = s.active ∧ t.refreshOverride = s.refreshOverride) s
      (account loader bytes) := by
  unfold account
  apply returns_get_bind
  apply returns_okOr_bind
  intro fileCount _
  apply returns_modify_bind
  apply returns_throwIf_bind
  intro _
  apply returns_get_bind
  apply returns_okOr_bind
  intro aggregateBytes _
  apply returns_modify_bind
  unfold throwIf
  exact .either (returns_throw _) (returns_pure ⟨rfl, rfl⟩)

variable (loader version) in
theorem checkFile_checked (file : ResolvedFile) :
    Returns (fun container t => file.origin ∉ s.active ∧ container.version = version ∧
        parseWithLimits loader.codecs file.origin file.bytes loader.parseLimits = .ok container ∧
        t.active = s.active ∧ t.refreshOverride = s.refreshOverride) s
      (checkFile loader version file) := by
  unfold checkFile
  refine (account_apart file.bytes.length).bind fun _ t apart => ?_
  apply returns_get_bind
  apply returns_throwIf_bind
  intro fresh
  rw [apart.1] at fresh
  apply returns_ofExcept_bind
  intro container parsed
  apply returns_throwIf_bind
  intro matching
  exact returns_pure ⟨fresh, not_not.mp matching, except_mapError_ok.mp parsed, apart⟩

variable {file : ResolvedFile} {α : Type} {levels : ℕ}

theorem Sound.drop (h : Sound loader active (file.id :: held) s) :
    Sound loader active held (s.drop file) :=
  ⟨h.stack, h.nodup, h.depths, h.stackLog, List.perm_middle.symm.trans h.balance⟩

theorem sound_callResolver (h : Sound loader active held s) (shallow : active.length ≤ loader.limits.maxDepth)
    (containing reference : Str) :
    (∀ file t, (callResolver loader containing reference).run s = .ok file t →
      Sound loader active (file.id :: held) t) ∧
      ∀ e t, (callResolver loader containing reference).run s = .error e t →
        Sound loader active held t := by
  have depths : ∀ depth ∈ s.active.length :: s.depths, depth ≤ loader.limits.maxDepth := by
    rw [h.stack]
    exact List.forall_mem_cons.mpr ⟨shallow, h.depths⟩
  cases called : loader.resolve s.resolver containing reference with
  | mk outcome resolver =>
    constructor
    · intro file t run
      simp only [EStateM.run, callResolver, called] at run
      cases outcome with
      | error source => cases run
      | ok found =>
        cases run
        refine ⟨h.stack, h.nodup, depths, h.stackLog, ?_⟩
        rw [List.length_cons, List.range_succ]
        exact List.perm_middle.trans ((h.balance.cons _).trans (List.perm_append_singleton _ _).symm)
    · intro e t run
      simp only [EStateM.run, callResolver, called] at run
      cases outcome with
      | error source =>
        cases run
        exact ⟨h.stack, h.nodup, depths, h.stackLog, h.balance⟩
      | ok found => cases run

variable (version) in
/-- A resolved file is held, and not on the stack; one that fails its checks is released. -/
theorem sound_resolve (h : Sound loader active held s) (shallow : active.length ≤ loader.limits.maxDepth)
    (containing reference : Str) :
    (∀ found t, (resolve loader version containing reference).run s = .ok found t →
      Sound loader active (found.2.id :: held) t ∧ found.2.origin ∉ active) ∧
      ∀ e t, (resolve loader version containing reference).run s = .error e t →
        Sound loader active held t := by
  obtain ⟨obtains, fails⟩ := sound_callResolver h shallow containing reference
  unfold resolve
  simp only [run_bind]
  cases called : (callResolver loader containing reference).run s with
  | error e t =>
    refine ⟨by exact nofun, fun e' t' run => ?_⟩
    cases run
    exact fails e t called
  | ok file u =>
    have holds := obtains file u called
    have checked := leads_checkFile loader version (s := u)
      (I := Sound loader active (file.id :: held)) uncounted_sound file
    have checks := checkFile_checked loader version (s := u) file
    unfold Leads at checked
    dsimp only
    cases ran : (checkFile loader version file).run u with
    | ok container v =>
      rw [ran] at checked
      rw [run_dropOnFailure_ok ran]
      refine ⟨fun found t run => ?_, by exact nofun⟩
      cases run
      refine ⟨checked holds, ?_⟩
      rw [← holds.stack]
      exact (checks container v ran).1
    | error e v =>
      rw [ran] at checked
      rw [run_dropOnFailure_error ran]
      refine ⟨by exact nofun, fun e' t run => ?_⟩
      cases run
      exact (checked holds).drop

/-- Traversing a file ends with the stack as it was and the file released. -/
theorem sound_holding {node : LoadM R E α}
    (h : Sound loader active (file.id :: held) s) (fresh : file.origin ∉ active)
    (traversed : ∀ u, Leads (KeepsSound loader (active ++ [file.origin]) (file.id :: held)) u node) :
    Sound loader active held (leaves ((holding file node).run s)) := by
  have nodup : (active ++ [file.origin]).Nodup := by
    rw [List.nodup_append]
    refine ⟨h.nodup, List.nodup_singleton _, fun a mem b mem' => ?_⟩
    rw [List.mem_singleton.mp mem']
    rintro rfl
    exact fresh mem
  have pushed : Sound loader (active ++ [file.origin]) (file.id :: held)
      { s with
        active := s.active ++ [file.origin]
        stackLog := (s.active ++ [file.origin]) :: s.stackLog } := by
    refine ⟨by rw [h.stack], nodup, h.depths, ?_, h.balance⟩
    rw [h.stack]
    exact List.forall_mem_cons.mpr ⟨nodup, h.stackLog⟩
  have popped {u : LoadState R} (sound : Sound loader (active ++ [file.origin]) (file.id :: held) u) :
      Sound loader active held (({ u with active := u.active.dropLast } : LoadState R).drop file) := by
    refine Sound.drop ⟨?_, h.nodup, sound.depths, sound.stackLog, sound.balance⟩
    show u.active.dropLast = active
    rw [sound.stack, List.dropLast_concat]
  unfold holding push
  rw [run_modify_bind, leaves_andFinally]
  exact popped (traversed _ pushed)

theorem leads_library (node : PsfContainer → ResolvedFile → LoadM R E α)
    (shallow : active.length ≤ loader.limits.maxDepth) (containing reference : Str)
    (traversed : ∀ container file, file.origin ∉ active → ∀ u,
      Leads (KeepsSound loader (active ++ [file.origin]) (file.id :: held)) u (node container file)) :
    Leads (KeepsSound loader active held) s
      (resolve loader version containing reference >>= fun found =>
        holding found.2 (node found.1 found.2)) := by
  intro h
  obtain ⟨ok, error⟩ := sound_resolve version h shallow containing reference
  rw [run_bind]
  cases ran : (resolve loader version containing reference).run s with
  | error e t => exact error e t ran
  | ok found t =>
    obtain ⟨holds, fresh⟩ := ok found t ran
    exact sound_holding holds fresh (traversed found.1 found.2 fresh)

theorem leads_psf1Dependency (shallow : active.length + levels ≤ loader.limits.maxDepth + 1)
    (containing reference : Str) :
    Leads (KeepsSound loader active held) s
      (psf1Dependency loader version levels containing reference) := by
  induction levels generalizing active held containing reference s with
  | zero => exact leads_throw _
  | succ levels ih =>
    unfold psf1Dependency
    have above : active.length ≤ loader.limits.maxDepth := by omega
    refine leads_library (fun container file =>
      psf1Node loader (psf1Dependency loader version levels) file.origin container) above containing
      reference fun container file _ u => ?_
    refine leads_psf1Node uncounted_sound (fun containing reference v => ih ?_ containing reference) _ _
    rw [List.length_append, List.length_singleton]
    omega

theorem leads_psf2Dependency (shallow : active.length + levels ≤ loader.limits.maxDepth + 1)
    (containing reference : Str) :
    Leads (KeepsSound loader active held) s
      (psf2Dependency loader version levels containing reference) := by
  induction levels generalizing active held containing reference s with
  | zero => exact leads_throw _
  | succ levels ih =>
    unfold psf2Dependency
    have above : active.length ≤ loader.limits.maxDepth := by omega
    refine leads_library (fun container file =>
      psf2Node loader (psf2Dependency loader version levels) file.origin container) above containing
      reference fun container file _ u => ?_
    refine leads_psf2Node uncounted_sound (fun containing reference v => ih ?_ containing reference) _ _
    rw [List.length_append, List.length_singleton]
    omega

variable (loader) in
/-- A whole load releases everything, whether it succeeds or not. -/
theorem sound_loadPlan (rootOrigin : Str) (rootBytes : Bytes) (resolver : R) :
    ∃ active, Sound loader active []
      (leaves ((loadPlan loader rootOrigin rootBytes).run (LoadState.new resolver))) := by
  have start : Sound loader [] [] (LoadState.new resolver) :=
    ⟨rfl, List.nodup_nil, by exact nofun, by exact nofun, List.Perm.refl _⟩
  unfold loadPlan
  cases parsed : (parseWithLimits loader.codecs rootOrigin rootBytes loader.parseLimits).mapError
      (LoadError.parse (E := E)) with
  | error e => exact ⟨[], start⟩
  | ok root =>
    rw [run_ofExcept_bind rfl]
    cases described : metadata loader rootOrigin root with
    | error e => exact ⟨[], start⟩
    | ok rootMetadata =>
      rw [run_ofExcept_bind rfl, run_bind]
      have accounted : Leads (KeepsSound loader [] []) (LoadState.new resolver)
          (account loader rootBytes.length) := leads_account loader uncounted_sound _
      unfold Leads at accounted
      cases ran : (account loader rootBytes.length).run (LoadState.new resolver) with
      | error e t =>
        rw [ran] at accounted
        exact ⟨[], accounted start⟩
      | ok _ t =>
        rw [ran] at accounted
        have sound : Sound loader [] [] t := accounted start
        have pushed : Sound loader [rootOrigin] [] { t with
            active := t.active ++ [rootOrigin]
            stackLog := (t.active ++ [rootOrigin]) :: t.stackLog } := by
          refine ⟨by rw [sound.stack]; rfl, List.nodup_singleton _, sound.depths, ?_, sound.balance⟩
          rw [sound.stack]
          exact List.forall_mem_cons.mpr ⟨List.nodup_singleton _, sound.stackLog⟩
        refine ⟨[rootOrigin], ?_⟩
        dsimp only
        unfold push
        rw [run_modify_bind]
        cases root.version with
        | psf1 =>
          refine (leads_psf1Node uncounted_sound (fun containing reference u =>
            leads_psf1Dependency ?_ _ _) _ _).bind
            (fun _ _ _ => leads_get_bind (leads_pure _)) pushed
          rw [List.length_singleton]
          omega
        | psf2 =>
          refine (leads_psf2Node uncounted_sound (fun containing reference u =>
            leads_psf2Dependency ?_ _ _) _ _).bind
            (fun _ _ _ => leads_get_bind (leads_pure _)) pushed
          rw [List.length_singleton]
          omega

/-! ### Files of a successful load -/

/-- A state within the limits on files and bytes. -/
structure Within (loader : Loader R V D E) (s : LoadState R) : Prop where
  files : s.fileCount ≤ loader.limits.maxFiles
  bytes : s.aggregateBytes ≤ loader.limits.maxAggregateBytes

/-- Files of these origins were obtained, and accounted within the limits. -/
structure Loaded (loader : Loader R V D E) (origins : List Str) (s t : LoadState R) : Prop where
  fileCount : t.fileCount = s.fileCount + origins.length
  obtained : t.obtained.Perm (origins ++ s.obtained)
  within : Within loader s → Within loader t

theorem Loaded.trans {u : LoadState R} {first second : List Str} (h : Loaded loader first s t)
    (h' : Loaded loader second t u) : Loaded loader (first ++ second) s u := by
  refine ⟨?_, ?_, h'.within ∘ h.within⟩
  · rw [h'.fileCount, h.fileCount, List.length_append, Nat.add_assoc]
  · have joined := h'.obtained.trans (h.obtained.append_left second)
    rw [← List.append_assoc] at joined
    exact joined.trans (List.perm_append_comm.append_right _)

theorem returns_account (bytes : ℕ) :
    Returns (fun _ t => t.fileCount = s.fileCount + 1 ∧ t.obtained = s.obtained ∧ Within loader t) s
      (account loader bytes) := by
  unfold account
  apply returns_get_bind
  apply returns_okOr_bind
  intro fileCount counted
  apply returns_modify_bind
  apply returns_throwIf_bind
  intro files
  apply returns_get_bind
  apply returns_okOr_bind
  intro aggregateBytes _
  apply returns_modify_bind
  unfold throwIf
  refine Returns.ite (fun _ => returns_throw _) fun bytes => returns_pure ⟨?_, rfl, ?_⟩
  · exact (checkedAdd_eq_some.mp counted).2
  · exact ⟨not_lt.mp files, not_lt.mp bytes⟩

theorem loaded_observeMetadata (origin : Str) (container : PsfContainer) :
    Returns (fun _ => Loaded loader [] s) s (observeMetadata loader origin container) := by
  unfold observeMetadata
  apply returns_ofExcept_bind
  intro parsed _
  exact returns_modify ⟨rfl, List.Perm.refl _, fun h => ⟨h.files, h.bytes⟩⟩

theorem returns_checkFile (file : ResolvedFile) :
    Returns (fun _ t => t.fileCount = s.fileCount + 1 ∧ t.obtained = s.obtained ∧ Within loader t) s
      (checkFile loader version file) := by
  unfold checkFile
  refine (returns_account _).bind fun _ t counted => ?_
  apply returns_get_bind
  apply returns_throwIf_bind
  intro _
  apply returns_ofExcept_bind
  intro container _
  apply returns_throwIf_bind
  intro _
  exact returns_pure counted

theorem run_dropOnFailure {m : LoadM R E α} {a : α} {s t : LoadState R}
    (h : (dropOnFailure file m).run s = .ok a t) : m.run s = .ok a t := by
  cases ran : m.run s with
  | ok b u =>
    rw [run_dropOnFailure_ok ran] at h
    exact h
  | error e u =>
    rw [run_dropOnFailure_error ran] at h
    cases h

theorem run_andFinally {f : LoadState R → LoadState R} {m : LoadM R E α} {a : α}
    {s t : LoadState R} (h : (andFinally m f).run s = .ok a t) :
    ∃ u, m.run s = .ok a u ∧ t = f u := by
  cases ran : m.run s with
  | ok b u =>
    rw [run_andFinally_ok ran] at h
    cases h
    exact ⟨u, rfl, rfl⟩
  | error e u =>
    rw [run_andFinally_error ran] at h
    cases h

theorem returns_callResolver (containing reference : Str) :
    Returns (fun file t => t.fileCount = s.fileCount ∧ t.obtained = file.origin :: s.obtained) s
      (callResolver loader containing reference) := by
  intro file t run
  simp only [EStateM.run, callResolver] at run
  split at run
  next => cases run
  next =>
    cases run
    exact ⟨rfl, rfl⟩

theorem loaded_resolve (containing reference : Str) :
    Returns (fun found => Loaded loader [found.2.origin] s) s
      (resolve loader version containing reference) := by
  unfold resolve
  refine (returns_callResolver containing reference).bind fun file t called => ?_
  refine Returns.bind (P := fun _ u =>
    u.fileCount = t.fileCount + 1 ∧ u.obtained = t.obtained ∧ Within loader u) ?_ ?_
  · intro container u run
    exact returns_checkFile file container u (run_dropOnFailure run)
  · intro container u checked
    refine returns_pure ⟨?_, ?_, fun _ => checked.2.2⟩
    · rw [checked.1, called.1]
      rfl
    · rw [checked.2.1, called.2]
      exact List.Perm.refl _

/-- The file of a node was obtained before the node; its libraries are obtained in it. -/
structure LoadedNode (loader : Loader R V D E) (origin : Str) (origins : List Str)
    (s t : LoadState R) : Prop where
  fileCount : t.fileCount + 1 = s.fileCount + origins.length
  obtained : (origin :: t.obtained).Perm (origins ++ s.obtained)
  within : Within loader s → Within loader t

theorem loaded_library {origins : α → List Str}
    (node : PsfContainer → ResolvedFile → LoadM R E α) (containing reference : Str)
    (traversed : ∀ container file u, Returns (fun a => LoadedNode loader file.origin (origins a) u) u
      (node container file)) :
    Returns (fun a => Loaded loader (origins a) s) s
      (resolve loader version containing reference >>= fun found =>
        holding found.2 (node found.1 found.2)) := by
  refine (loaded_resolve containing reference).bind fun found t resolved => ?_
  unfold holding push
  apply returns_modify_bind
  intro a u run
  obtain ⟨v, ran, rfl⟩ := run_andFinally run
  have inner := traversed found.1 found.2 _ a v ran
  have files := inner.fileCount
  have obtained := inner.obtained
  refine ⟨?_, ?_, fun within => ?_⟩
  · show v.fileCount = _
    have before := resolved.fileCount
    rw [List.length_singleton] at before
    dsimp only at files
    omega
  · show v.obtained.Perm _
    have all := obtained.trans (resolved.obtained.append_left (origins a))
    exact (all.trans List.perm_middle).cons_inv
  · have after := inner.within ⟨(resolved.within within).files, (resolved.within within).bytes⟩
    exact ⟨after.files, after.bytes⟩

/-- The origins of layers. -/
def layerOrigins (layers : List PlanLayer) : List Str := layers.map PlanLayer.origin

theorem loaded_psf1Node {dependency : Str → Str → LoadM R E Psf1Node}
    (below : ∀ containing reference u,
      Returns (fun node => Loaded loader (layerOrigins node.layers) u) u
        (dependency containing reference)) (origin : Str) (container : PsfContainer) :
    Returns (fun node => LoadedNode loader origin (layerOrigins node.layers) s) s
      (psf1Node loader dependency origin container) := by
  unfold psf1Node
  refine (loaded_observeMetadata origin container).bind fun _ t observed => ?_
  have rest (first : Psf1Node) (u : LoadState R)
      (loaded : Loaded loader (layerOrigins first.layers) s u) :
      Returns (fun node => LoadedNode loader origin (layerOrigins node.layers) s) u
        ((numberedLibraries container).mapM (fun reference => dependency origin reference) >>=
          fun rest => (pure ⟨first.layers ++ [⟨origin, container⟩] ++ rest.flatMap Psf1Node.layers,
            first.initialStateOrigin⟩ : LoadM R E Psf1Node)) := by
    refine (returns_mapM (P := fun (nodes : List Psf1Node) v =>
      Loaded loader (layerOrigins (first.layers ++ nodes.flatMap Psf1Node.layers)) s v) [] ?_ ?_).bind
        fun nodes v all => returns_pure ?_
    · rw [List.flatMap_nil, List.append_nil]
      exact loaded
    · intro reference nodes v all
      refine (below origin reference v).mono fun node w next => ?_
      have joined := all.trans next
      unfold layerOrigins at joined ⊢
      rw [List.flatMap_append, List.flatMap_singleton, ← List.append_assoc, List.map_append]
      exact joined
    · rw [List.nil_append] at all
      have files := all.fileCount
      have obtained := all.obtained
      unfold layerOrigins at files obtained ⊢
      simp only [List.map_append, List.length_append, List.map_cons, List.map_nil] at files obtained ⊢
      refine ⟨?_, ?_, all.within⟩
      · simp only [List.length_append, List.length_cons, List.length_nil]
        omega
      · refine (obtained.cons origin).trans ?_
        rw [List.append_assoc, List.append_assoc, List.append_assoc]
        exact List.perm_middle.symm
  dsimp only
  cases container.tags.get (ascii "_lib") with
  | none => exact rest ⟨[], origin⟩ t observed
  | some reference =>
    refine (below origin reference t).bind fun first u next => rest first u ?_
    exact observed.trans next

theorem loaded_psf2Node {dependency : Str → Str → LoadM R E (List PlanLayer)}
    (below : ∀ containing reference u,
      Returns (fun layers => Loaded loader (layerOrigins layers) u) u (dependency containing reference))
    (origin : Str) (container : PsfContainer) :
    Returns (fun layers => LoadedNode loader origin (layerOrigins layers) s) s
      (psf2Node loader dependency origin container) := by
  unfold psf2Node
  refine (loaded_observeMetadata origin container).bind fun _ t observed => ?_
  refine (returns_mapM (P := fun (libraries : List (List PlanLayer)) v =>
    Loaded loader (layerOrigins libraries.flatten) s v) [] observed ?_).bind
      fun libraries v all => returns_pure ?_
  · intro reference libraries v all
    refine (below origin reference v).mono fun layers w next => ?_
    have joined := all.trans next
    unfold layerOrigins at joined ⊢
    rw [List.flatten_append, List.flatten_singleton, List.map_append]
    exact joined
  · rw [List.nil_append] at all
    have files := all.fileCount
    have obtained := all.obtained
    unfold layerOrigins at files obtained ⊢
    rw [List.map_append]
    refine ⟨?_, ?_, all.within⟩
    · rw [List.length_append, files]
      exact Nat.add_assoc _ _ _
    · refine (obtained.cons origin).trans ?_
      rw [List.append_assoc]
      exact List.perm_middle.symm

theorem loaded_psf1Dependency (containing reference : Str) :
    Returns (fun node => Loaded loader (layerOrigins node.layers) s) s
      (psf1Dependency loader version levels containing reference) := by
  induction levels generalizing containing reference s with
  | zero => exact returns_throw _
  | succ levels ih =>
    unfold psf1Dependency
    exact loaded_library (fun container file =>
      psf1Node loader (psf1Dependency loader version levels) file.origin container) containing reference
      fun container file u => loaded_psf1Node (fun containing reference v => ih containing reference) _ _

theorem loaded_psf2Dependency (containing reference : Str) :
    Returns (fun layers => Loaded loader (layerOrigins layers) s) s
      (psf2Dependency loader version levels containing reference) := by
  induction levels generalizing containing reference s with
  | zero => exact returns_throw _
  | succ levels ih =>
    unfold psf2Dependency
    exact loaded_library (fun container file =>
      psf2Node loader (psf2Dependency loader version levels) file.origin container) containing reference
      fun container file u => loaded_psf2Node (fun containing reference v => ih containing reference) _ _

/-- The layers of a plan. -/
def LoadPlan.layers {M : Type} : LoadPlan M → List PlanLayer
  | .psf1 plan => plan.layers
  | .psf2 plan => plan.layers

theorem loaded_loadPlan (rootOrigin : Str) (rootBytes : Bytes) (resolver : R) :
    Returns (fun plan t => Within loader t ∧ t.fileCount = plan.layers.length ∧
        (rootOrigin :: t.obtained).Perm (layerOrigins plan.layers))
      (LoadState.new resolver) (loadPlan loader rootOrigin rootBytes) := by
  unfold loadPlan
  apply returns_ofExcept_bind
  intro root _
  apply returns_ofExcept_bind
  intro rootMetadata _
  refine (returns_account rootBytes.length).bind fun _ t counted => ?_
  unfold push
  apply returns_modify_bind
  have total {layers : List PlanLayer} {u : LoadState R}
      (node : LoadedNode loader rootOrigin (layerOrigins layers) { t with
        active := t.active ++ [rootOrigin]
        stackLog := (t.active ++ [rootOrigin]) :: t.stackLog } u) :
      Within loader u ∧ u.fileCount = layers.length ∧
        (rootOrigin :: u.obtained).Perm (layerOrigins layers) := by
    refine ⟨node.within ⟨counted.2.2.files, counted.2.2.bytes⟩, ?_, ?_⟩
    · have files := node.fileCount
      unfold layerOrigins at files
      rw [List.length_map] at files
      have first : t.fileCount = 1 := counted.1
      dsimp only at files
      omega
    · have obtained := node.obtained
      dsimp only at obtained
      rw [counted.2.1] at obtained
      exact List.append_nil (layerOrigins layers) ▸ obtained
  cases root.version with
  | psf1 =>
    refine (loaded_psf1Node (fun containing reference u => loaded_psf1Dependency _ _) _ _).bind
      fun node u loaded => ?_
    apply returns_get_bind
    exact returns_pure (total loaded)
  | psf2 =>
    refine (loaded_psf2Node (fun containing reference u => loaded_psf2Dependency _ _) _ _).bind
      fun layers u loaded => ?_
    apply returns_get_bind
    exact returns_pure (total loaded)

/-! ### Numbered libraries -/

theorem lowercase_libraryKey (index : ℕ) : lowercase (libraryKey index) = libraryKey index := by
  unfold libraryKey lowercase
  rw [List.map_append, List.map_map]
  congr 1
  apply List.map_congr_left
  intro digit mem
  have small : digit < 10 := Nat.digits_lt_base (by decide) (List.mem_reverse.mp mem)
  show asciiLower (BitVec.ofNat 8 (48 + digit)) = BitVec.ofNat 8 (48 + digit)
  interval_cases digit <;> rfl

theorem libraryKey_injective : Function.Injective libraryKey := by
  intro a b same
  unfold libraryKey at same
  have digits := List.append_cancel_left same
  have decode (n : ℕ) : ((Nat.digits 10 n).reverse.map fun digit => BitVec.ofNat 8 (48 + digit)).map
      (fun byte => byte.toNat - 48) = (Nat.digits 10 n).reverse := by
    rw [List.map_map]
    refine (List.map_congr_left fun digit mem => ?_).trans (List.map_id _)
    have small : digit < 10 := Nat.digits_lt_base (by decide) (List.mem_reverse.mp mem)
    show (BitVec.ofNat 8 (48 + digit)).toNat - 48 = digit
    rw [BitVec.toNat_ofNat]
    omega
  have reversed := congrArg (List.map fun byte => byte.toNat - 48) digits
  rw [decode, decode] at reversed
  exact Nat.digits_inj_iff.mp (List.reverse_injective reversed)

theorem exists_entry_of_get {tags : Tags} {index : ℕ} {value : Str}
    (found : tags.get (libraryKey index) = some value) :
    libraryKey index ∈ tags.entries.map fun entry => lowercase entry.key := by
  unfold Tags.get at found
  obtain ⟨entry, first, -⟩ := Option.map_eq_some_iff.mp found
  have same := List.find?_some first
  unfold eqIgnoreAsciiCase at same
  rw [beq_iff_eq, lowercase_libraryKey] at same
  exact List.mem_map.mpr ⟨entry, List.mem_of_find?_eq_some first, same⟩

theorem numberedFrom_found (tags : Tags) (rounds index : ℕ) :
    (∀ offset < (numberedFrom tags rounds index).length,
        libraryKey (index + offset) ∈ tags.entries.map fun entry => lowercase entry.key) ∧
      ((numberedFrom tags rounds index).length < rounds →
        tags.get (libraryKey (index + (numberedFrom tags rounds index).length)) = none) := by
  induction rounds generalizing index with
  | zero => exact ⟨by exact nofun, by exact nofun⟩
  | succ rounds ih =>
    unfold numberedFrom
    cases found : tags.get (libraryKey index) with
    | none => exact ⟨by exact nofun, fun _ => found⟩
    | some value =>
      obtain ⟨before, after⟩ := ih (index + 1)
      dsimp only
      rw [List.length_cons]
      constructor
      · intro offset lt
        cases offset with
        | zero => exact exists_entry_of_get found
        | succ offset =>
          rw [Nat.add_comm offset, ← Nat.add_assoc]
          exact before offset (by omega)
      · intro lt
        rw [Nat.add_comm _ 1, ← Nat.add_assoc]
        exact after (by omega)

theorem numberedLibraries_stop (container : PsfContainer) :
    container.tags.get (libraryKey (2 + (numberedLibraries container).length)) = none := by
  unfold numberedLibraries
  obtain ⟨found, stop⟩ := numberedFrom_found container.tags
    (container.tags.entries.length + 1) 2
  apply stop
  by_contra enough
  -- As many keys as there are entries and one more would all be among the entries.
  have subset : (List.range (container.tags.entries.length + 1)).map (fun offset => libraryKey (2 + offset))
      ⊆ container.tags.entries.map fun entry => lowercase entry.key := by
    intro key mem
    obtain ⟨offset, lt, rfl⟩ := List.mem_map.mp mem
    exact found offset (lt_of_lt_of_le (List.mem_range.mp lt) (not_lt.mp enough))
  have distinct : ((List.range (container.tags.entries.length + 1)).map fun offset =>
      libraryKey (2 + offset)).Nodup :=
    List.nodup_range.map fun a b same => Nat.add_left_cancel (libraryKey_injective same)
  have count := (distinct.subperm subset).length_le
  rw [List.length_map, List.length_map, List.length_range] at count
  omega

/-- Loading ends within its limits whatever the resolver does: the stack never has an origin twice,
no library below the deepest level is asked for, every obtained file is released once, and a
successful plan has one layer for each accounted file. -/
theorem load_bounded (loader : Loader R V D E) (rootOrigin : Str) (rootBytes : Bytes) (resolver : R) :
    let result := (loadPlan loader rootOrigin rootBytes).run (LoadState.new resolver)
    (∀ depth ∈ (leaves result).depths, depth ≤ loader.limits.maxDepth) ∧
      (∀ stack ∈ (leaves result).stackLog, stack.Nodup) ∧
      (leaves result).released.Perm (List.range (leaves result).obtained.length) ∧
      (∀ plan t, result = .ok plan t →
        t.fileCount ≤ loader.limits.maxFiles ∧
          t.aggregateBytes ≤ loader.limits.maxAggregateBytes ∧
          t.fileCount = plan.layers.length ∧
          (rootOrigin :: t.obtained).Perm (layerOrigins plan.layers)) ∧
      ∀ container : PsfContainer,
        container.tags.get (libraryKey (2 + (numberedLibraries container).length)) = none := by
  intro result
  obtain ⟨active, sound⟩ := sound_loadPlan loader rootOrigin rootBytes resolver
  refine ⟨sound.depths, sound.stackLog, ?_, fun plan t run => ?_, numberedLibraries_stop⟩
  · exact List.append_nil (leaves result).released ▸ sound.balance
  · obtain ⟨within, files, layers⟩ := loaded_loadPlan rootOrigin rootBytes resolver plan t run
    exact ⟨within.files, within.bytes, files, layers⟩

end Upse.Psf
