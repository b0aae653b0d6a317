import Mathlib.Logic.Function.Basic
import Upse.Bios.Modules.GuestList
import Upse.Bios.Modules.Rollback

/-!
# The libraries of a module over its life

A load gives identifiers out to the libraries of its image and enters them in the module's record;
nothing else changes what a record lists.  Whether an unload drops the right libraries depends on the
operations in between: a library registered in the module's name later is not listed, and an
identifier that was released may have become another module's.
-/

namespace Upse

open ErrorState

namespace Loadcore

variable {s t u : Loadcore} {id : ℕ}

/-! ### What leaves the registry alone -/

/-- Only memory and the guest differ. -/
def SameRegistry (s t : Loadcore) : Prop := t.registry = s.registry

instance : Std.Refl SameRegistry := ⟨fun _ => rfl⟩

instance : IsTrans Loadcore SameRegistry := ⟨fun _ _ _ first second => second.trans first⟩

theorem sameRegistry_onMemory {α : Type} (m : EStateM KernelError SystemMemory α) :
    Leads SameRegistry s (onMemory m) := leads_zoom rfl

theorem sameRegistry_onGuest {α : Type} (m : EStateM WriteError GuestMemory α) :
    Leads SameRegistry s (onGuest m) := leads_zoom rfl

theorem sameRegistry_free (address : ℕ) : Leads SameRegistry s (free address) :=
  (sameRegistry_onMemory _).map _

theorem sameRegistry_loadInto (irx : IrxModule) (image : Allocation) :
    Leads SameRegistry s (loadInto irx image) := by
  apply leads_throwIf_bind
  intro _
  apply leads_throwIf_bind
  intro _
  apply leads_ofExcept_bind
  intro linked _
  apply leads_get_bind
  apply leads_throwIf_bind
  intro _
  apply leads_get_bind
  apply leads_throwIf_bind
  intro _
  exact (leads_modify rfl).returning

theorem sameRegistry_publish (irx : IrxModule) (metadata : ℕ) (info : ModuleInfo) :
    Leads SameRegistry s (publish irx metadata info) :=
  (sameRegistry_onGuest _).bind fun _ _ _ => (sameRegistry_onGuest _).bind fun _ _ _ =>
    sameRegistry_onGuest _

theorem fails_orUndo_registry {α : Type} {m : LoadcoreM α} {undo : LoadcoreM Unit}
    (same : SameRegistry s t) (kept : Leads SameRegistry t m)
    (undone : ∀ v, Leads SameRegistry v undo) : Fails (SameRegistry s) t (orUndo m undo) := by
  refine fails_orUndo fun e v failed => ?_
  have left : SameRegistry t v := by
    unfold Leads at kept
    rwa [failed] at kept
  exact (undone v).trans (left.trans same)

theorem fails_free {P : Loadcore → Prop} {address : ℕ} (h : ∀ t, SameRegistry s t → P t) :
    Fails P s (free address) := by
  intro e t run
  have kept : Leads SameRegistry s (free address) := sameRegistry_free address
  unfold Leads at kept
  rw [run] at kept
  exact h t kept

/-- A load that fails leaves the registry as it was, whatever the memory is like. -/
theorem fails_load_registry {irx : IrxModule} :
    Fails (SameRegistry s) s (load irx) := by
  have unchanged : SameRegistry s s := rfl
  have undone : ∀ (image metadata : Allocation) (v : Loadcore), Leads SameRegistry v (do
      free image.address
      free metadata.address : LoadcoreM Unit) := fun image metadata v =>
    (sameRegistry_free _).bind fun _ _ _ => sameRegistry_free _
  apply fails_get_bind
  refine fails_okOr_bind unchanged fun moduleId next => ?_
  refine fails_throwIf_bind unchanged fun _ => ?_
  refine fails_ofExcept_bind unchanged fun _ _ => ?_
  refine fails_okOr_bind unchanged fun nameSize _ => ?_
  refine fails_okOr_bind unchanged fun size _ => ?_
  refine (fails_allocate unchanged).bind fun metadata s₁ taken => ?_
  have same₁ : s₁.registry = s.registry := (sameRegistry_onMemory _).of_ok taken
  refine (fails_orUndo_registry same₁ (sameRegistry_onMemory _) fun _ => sameRegistry_free _).bind
    fun image s₂ taken' => ?_
  have same₂ : s₂.registry = s.registry :=
    ((sameRegistry_onMemory _).of_ok (run_orUndo_ok.mp taken')).trans same₁
  refine (fails_orUndo_registry same₂ (sameRegistry_loadInto _ _) (undone _ _)).bind
    fun linked s₃ stored => ?_
  have same₃ : s₃.registry = s.registry :=
    ((sameRegistry_loadInto _ _).of_ok (run_orUndo_ok.mp stored)).trans same₂
  refine fails_get_bind ((fails_orUndo_registry same₃ (leads_ofExcept _) (undone _ _)).bind
    fun _ _ run => ?_)
  obtain ⟨validated, rfl⟩ := run_ofExcept_ok_iff.mp (run_orUndo_ok.mp run)
  apply fails_get_bind
  refine (fails_orUndo_registry same₃ (sameRegistry_publish _ _ _) (undone _ _)).bind
    fun _ s₄ published => ?_
  -- The libraries and the record have their places.
  have same₄ : s₄.registry = s₃.registry :=
    (sameRegistry_publish _ _ _).of_ok (run_orUndo_ok.mp published)
  have room : s₄.registry.libraries.len + linked.exports.length ≤ maxLibraries := by
    rw [same₄]
    exact room_of_validateExports (except_mapError_ok.mp validated)
  have next' : s₄.registry.modules.nextId = some moduleId := by
    rw [same₄, same₃]
    exact next
  exact fails_enter room next'

/-! ### Ownership, recorded twice -/

/-- The identifiers a loaded module's record lists. -/
def listedIn (s : Loadcore) (id : ℕ) : Option (List ℕ) :=
  (s.registry.get id).map ModuleRecord.exportIds

/-- The module a registered library names. -/
def ownerOf (s : Loadcore) (libraryId : ℕ) : Option ℕ :=
  (s.registry.exported libraryId).map ExportRegistration.moduleId

/-- Neither record of the ownership has changed. -/
structure SameOwners (s t : Loadcore) : Prop where
  listed : t.listedIn = s.listedIn
  owner : t.ownerOf = s.ownerOf

instance : Std.Refl SameOwners := ⟨fun _ => ⟨rfl, rfl⟩⟩

instance : IsTrans Loadcore SameOwners :=
  ⟨fun _ _ _ h h' => ⟨h'.listed.trans h.listed, h'.owner.trans h.owner⟩⟩

theorem SameOwners.of_registry (h : t.registry = s.registry) : SameOwners s t := by
  constructor
  · unfold listedIn
    rw [h]
  · unfold ownerOf
    rw [h]

theorem sameOwners_modifyModule {f : ModuleRecord → ModuleRecord}
    (keeps : ∀ record, (f record).exportIds = record.exportIds) (id : ℕ) :
    Leads SameOwners s (modifyRegistry fun registry =>
      { registry with modules := registry.modules.modify id f }) := by
  refine leads_modify ⟨?_, rfl⟩
  funext j
  unfold listedIn ModuleRegistry.get
  rw [FixedTable.get_modify]
  split
  next same =>
    rw [same, Option.map_map]
    exact congrArg (Option.map · _) (funext keeps)
  next => rfl

theorem sameOwners_modifyLibrary {f : ExportRegistration → ExportRegistration}
    (keeps : ∀ library, (f library).moduleId = library.moduleId) {registry : ModuleRegistry}
    (same : s.registry = registry) (id : ℕ) : Leads SameOwners s (modifyRegistry fun _ =>
      { registry with libraries := registry.libraries.modify id f }) := by
  subst same
  refine leads_modify ⟨rfl, ?_⟩
  funext j
  unfold ownerOf ModuleRegistry.exported
  rw [FixedTable.get_modify]
  split
  next same =>
    rw [same, Option.map_map]
    exact congrArg (Option.map · _) (funext keeps)
  next => rfl

theorem sameOwners_onGuest {α : Type} (m : EStateM WriteError GuestMemory α) :
    Leads SameOwners s (onGuest m) :=
  (sameRegistry_onGuest m).mono fun _ _ => .of_registry

theorem sameOwners_setState (state : ModuleState) : Leads SameOwners s (setState id state) :=
  leads_get_bind (leads_okOr_bind fun _ _ => (sameOwners_onGuest _).bind fun _ _ _ =>
    sameOwners_modifyModule (by intro _; rfl) _)

theorem sameOwners_guard (error : Option KernelError) : Leads SameOwners s (guard error) := by
  cases error with
  | none => exact leads_pure ()
  | some e => exact leads_throw _

theorem sameOwners_begin {error : ModuleState → Option KernelError} {state : ModuleState} :
    Leads SameOwners s (begin error state id) :=
  leads_get_bind (leads_okOr_bind fun _ _ => (sameOwners_guard _).bind fun _ _ _ =>
    (sameOwners_setState _).returning)

theorem sameOwners_completeStart {result : ResidentState} :
    Leads SameOwners s (completeStart id result) := by
  refine leads_get_bind (leads_okOr_bind fun _ _ => leads_throwIf_bind fun _ => ?_)
  cases result with
  | unstarted => exact leads_throw _
  | resident => exact (sameOwners_setState _).returning
  | notResident => exact (sameOwners_setState _).returning
  | removable => exact (sameOwners_setState _).returning

theorem sameOwners_completeStop {result : ℤ} : Leads SameOwners s (completeStop id result) :=
  leads_get_bind (leads_okOr_bind fun _ _ => leads_throwIf_bind fun _ =>
    (sameOwners_setState _).returning)

theorem sameOwners_bindImport {name : Name} {requiredVersion ordinal : ℕ} :
    Leads SameOwners s (bindImport name requiredVersion ordinal) :=
  leads_ofExcept_bind fun _ _ => leads_get_bind (leads_okOr_bind fun _ _ => leads_okOr_bind
    fun _ _ => leads_okOr_bind fun _ _ =>
      (sameOwners_modifyLibrary (by intro _; rfl) rfl _).returning)

theorem sameOwners_unbindImport : Leads SameOwners s (unbindImport id) :=
  leads_get_bind (leads_okOr_bind fun _ _ => leads_okOr_bind fun _ _ =>
    sameOwners_modifyLibrary (by intro _; rfl) rfl _)

theorem sameOwners_unlink {address next : ℕ} : Leads SameOwners s (unlink id address next) := by
  apply leads_get_bind
  split
  next other record _ =>
    exact (sameOwners_onGuest _).bind fun _ _ _ => sameOwners_modifyModule (by intro _; rfl) _
  next =>
    refine leads_get_bind (leads_throwIf_bind fun _ => (sameOwners_onGuest _).bind fun _ _ _ => ?_)
    exact leads_modify ⟨rfl, rfl⟩

/-! ### What an operation does to the ownership -/

/-- The effect of an operation, successful or not, on both records of the ownership. -/
inductive Owning (s : Loadcore) : Op → Loadcore → Prop
  | same {op : Op} {t : Loadcore} (h : SameOwners s t) : Owning s op t
  | loaded {irx : IrxModule} {id : ℕ} {ids : List ℕ} {t : Loadcore} (run : (load irx).run s = .ok id t)
      (isNew : s.listedIn id = none) (listed : t.listedIn = Function.update s.listedIn id (some ids))
      (fresh : ∀ l ∈ ids, s.ownerOf l = none ∧ t.ownerOf l = some id)
      (others : ∀ l, l ∉ ids → t.ownerOf l = s.ownerOf l) : Owning s (.load irx) t
  | registered {moduleId l : ℕ} {library : ExportLibrary} {t : Loadcore}
      (listed : t.listedIn = s.listedIn) (free : s.ownerOf l = none)
      (owner : t.ownerOf = Function.update s.ownerOf l (some moduleId)) :
      Owning s (.registerExport moduleId library) t
  | released {l : ℕ} {t : Loadcore} (listed : t.listedIn = s.listedIn)
      (owner : t.ownerOf = Function.update s.ownerOf l none) : Owning s (.releaseExport l) t
  | unloaded {id : ℕ} {ids : List ℕ} {t : Loadcore} (found : s.listedIn id = some ids)
      (listed : t.listedIn = Function.update s.listedIn id none)
      (owner : ∀ l, t.ownerOf l = if l ∈ ids then none else s.ownerOf l) : Owning s (.unload id) t

theorem insertExport_owner {moduleId l : ℕ} {library : ExportLibrary} {registry : ModuleRegistry}
    (h : s.registry.insertExport moduleId library = .ok (l, registry)) :
    s.ownerOf l = none ∧ ({ s with registry := registry } : Loadcore).ownerOf =
      Function.update s.ownerOf l (some moduleId) := by
  obtain ⟨⟨l', libraries⟩, inserted, same⟩ := except_bind_ok.mp h
  cases same
  obtain ⟨-, free, -, -, entries⟩ := FixedTable.insert_eq_ok inserted
  constructor
  · unfold ownerOf ModuleRegistry.exported
    rw [free]
    rfl
  · funext j
    unfold ownerOf ModuleRegistry.exported
    rw [entries, Function.update_apply]
    split <;> rfl

theorem run_insertExports_ok {moduleId : ℕ} {libraries : List ExportLibrary} {ids ids' : List ℕ}
    (run : (insertExports moduleId libraries ids).run s = .ok ids' t) : ∃ added, ids' = ids ++ added ∧
      (∀ l ∈ added, s.ownerOf l = none ∧ t.ownerOf l = some moduleId) ∧
      ∀ l, l ∉ added → t.ownerOf l = s.ownerOf l := by
  induction libraries generalizing s ids with
  | nil =>
    obtain ⟨rfl, rfl⟩ := run_pure_ok.mp run
    exact ⟨[], (List.append_nil _).symm, by simp, fun _ _ => rfl⟩
  | cons library rest ih =>
    obtain ⟨_, _, got, run⟩ := run_bind_ok.mp run
    obtain ⟨rfl, rfl⟩ := run_get_ok.mp got
    split at run
    next id registry inserted =>
      obtain ⟨_, _, modified, run⟩ := run_bind_ok.mp run
      obtain rfl := run_modify_ok.mp modified
      obtain ⟨free, entered⟩ := insertExport_owner inserted
      obtain ⟨added, rfl, fresh, others⟩ := ih run
      have before : ∀ l, ownerOf { s with registry := registry } l =
          if l = id then some moduleId else s.ownerOf l := by
        intro l
        rw [entered, Function.update_apply]
      refine ⟨id :: added, by rw [List.append_assoc]; rfl, fun l member => ?_, fun l absent => ?_⟩
      · by_cases here : l = id
        · subst here
          refine ⟨free, ?_⟩
          by_cases again : l ∈ added
          · exact (fresh l again).2
          · exact (others l again).trans ((before l).trans (if_pos rfl))
        · have later := fresh l ((List.mem_cons.mp member).resolve_left here)
          exact ⟨(if_neg here).symm.trans ((before l).symm.trans later.1), later.2⟩
      · rw [List.mem_cons, not_or] at absent
        exact (others l absent.2).trans ((before l).trans (if_neg absent.1))
    next =>
      obtain ⟨_, _, -, run⟩ := run_bind_ok.mp run
      cases run

theorem owning_load (irx : IrxModule) :
    Owning s (.load irx) (leaves ((load irx).run s)) := by
  cases ran : (load irx).run s with
  | error e t => exact .same (.of_registry (fails_load_registry e t ran))
  | ok id t =>
    obtain ⟨metadata, image, mode, address, alignment, linked, exportIds, info, modules, s₁, s₂, s₃,
      s₄, s₅, taken, taken', stored, published, listed, inserted, -, rfl⟩ := run_load_parts ran
    have same : s₄.registry = s.registry :=
      ((sameRegistry_publish _ _ _).of_ok published).trans
        (((sameRegistry_loadInto _ _).of_ok stored).trans
          (((sameRegistry_onMemory _).of_ok taken').trans ((sameRegistry_onMemory _).of_ok taken)))
    have owners : SameOwners s s₄ := .of_registry same
    obtain ⟨_, rfl, fresh, others⟩ := run_insertExports_ok listed
    have relisted := (relisted_insertExports _ _ _).of_ok listed
    obtain ⟨free, -, -, entries⟩ := FixedTable.insertAt_eq_ok inserted
    rw [relisted.modules, same] at free entries
    rw [owners.owner] at fresh others
    refine .loaded ran ?_ ?_ fresh others
    · unfold listedIn ModuleRegistry.get
      rw [free]
      rfl
    · funext j
      unfold listedIn ModuleRegistry.get
      rw [leaves_ok, entries, Function.update_apply]
      split <;> rfl

theorem owning_registerExport (moduleId : ℕ) (library : ExportLibrary) :
    Leads (fun s t => Owning s (.registerExport moduleId library) t) s
      (registerExport moduleId library) := by
  refine leads_of_fails ?_ ?_
  · intro l t run
    simp only [registerExport, liftKernel, run_bind_ok, run_get_ok, run_ofExcept_ok_iff,
      except_mapError_ok, modifyRegistry, run_modify_ok, run_pure_ok] at run
    obtain ⟨_, _, ⟨rfl, rfl⟩, _, _, ⟨-, rfl⟩, _, _, ⟨rfl, rfl⟩, ⟨l', registry⟩, _, ⟨inserted, rfl⟩, _, _,
      rfl, rfl, rfl⟩ := run
    obtain ⟨free, owner⟩ := insertExport_owner inserted
    obtain ⟨modules, -⟩ := insertExport_keeps inserted
    refine .registered ?_ free owner
    unfold listedIn ModuleRegistry.get
    rw [modules]
  · have unchanged : Owning s (.registerExport moduleId library) s := .same ⟨rfl, rfl⟩
    refine fails_get_bind (fails_ofExcept_bind unchanged fun _ _ => ?_)
    refine fails_get_bind ((fails_ofExcept _ unchanged).bind fun _ _ run => ?_)
    exact (fails_modify _).bind fun _ _ _ => fails_pure _

theorem owning_releaseExport : Leads (fun s t => Owning s (.releaseExport id) t) s
    (releaseExport id) := by
  have unchanged : Owning s (.releaseExport id) s := .same ⟨rfl, rfl⟩
  have removed : Owning s (.releaseExport id) { s with registry :=
      { s.registry with libraries := (s.registry.libraries.remove id).2 } } := by
    refine .released rfl ?_
    funext j
    unfold ownerOf ModuleRegistry.exported
    rw [FixedTable.get_remove, Function.update_apply]
    split <;> rfl
  refine leads_of_fails ?_ ?_
  · intro library t run
    simp only [releaseExport, run_bind_ok, run_get_ok, run_okOr_ok, run_throwIf_ok, modifyRegistry,
      run_modify_ok] at run
    obtain ⟨_, _, ⟨rfl, rfl⟩, _, _, ⟨-, rfl⟩, _, _, ⟨-, rfl⟩, _, _, rfl, -, rfl⟩ := run
    exact removed
  · refine fails_get_bind (fails_okOr_bind unchanged fun _ _ => ?_)
    refine fails_throwIf_bind unchanged fun _ => ?_
    refine (fails_modify _).bind fun _ _ run => ?_
    obtain rfl := run_modify_ok.mp run
    exact fails_okOr _ _ removed

theorem owning_removed {record : ModuleRecord} (same : SameOwners s u)
    (found : u.registry.modules.get id = some record)
    (registry : t.registry = { u.registry with
      modules := (u.registry.modules.remove id).2 }.removeExports record.exportIds) :
    Owning s (.unload id) t := by
  have listed : s.listedIn id = some record.exportIds := by
    rw [← same.listed]
    unfold listedIn ModuleRegistry.get
    rw [found]
    rfl
  refine .unloaded listed ?_ fun l => ?_
  · rw [← same.listed]
    funext j
    unfold listedIn ModuleRegistry.get
    rw [registry, Function.update_apply]
    show ((u.registry.modules.remove id).2.get j).map _ = _
    rw [FixedTable.get_remove]
    split <;> rfl
  · rw [← same.owner]
    unfold ownerOf
    rw [registry, get_removeExports]
    split <;> rfl

theorem owning_unload : Leads (fun s t => Owning s (.unload id) t) s (unload id) := by
  refine leads_of_fails ?_ ?_
  · intro removed t run
    obtain ⟨record, u, -, -, unlinked, taken, registry, -⟩ := run_unload_ok run
    exact owning_removed (sameOwners_unlink.of_ok unlinked) taken registry
  · have unchanged : Owning s (.unload id) s := .same ⟨rfl, rfl⟩
    refine fails_get_bind (fails_okOr_bind unchanged fun record found => ?_)
    refine (fails_guard unchanged).bind fun _ _ run => ?_
    obtain rfl := run_guard_ok run
    refine fails_throwIf_bind unchanged fun _ => ?_
    refine fails_throwIf_bind unchanged fun _ => ?_
    refine (fails_unlink unchanged).bind fun _ u run => ?_
    have same : SameOwners s u := sameOwners_unlink.of_ok run
    -- The record is still there, so that only the blocks can be missing.
    have listed : u.listedIn id = some record.exportIds := by
      rw [same.listed]
      unfold listedIn
      rw [found]
      rfl
    obtain ⟨removed, taken, -⟩ := Option.map_eq_some_iff.mp listed
    have taken : u.registry.modules.get id = some removed := taken
    refine fails_get_bind ((fails_modify _).bind fun _ _ run => ?_)
    obtain rfl := run_modify_ok.mp run
    rw [FixedTable.remove_fst, taken]
    refine (fails_pure _).bind fun _ _ run => ?_
    obtain ⟨rfl, rfl⟩ := run_pure_ok.mp run
    refine (fails_modify _).bind fun _ v run => ?_
    have gone := (run_modify_ok.mp run).symm
    have ends : ∀ w, SameRegistry v w → Owning s (.unload id) w := by
      intro w kept
      refine owning_removed same taken (kept.trans ?_)
      rw [gone]
    refine (fails_free ends).bind fun _ w run => ?_
    have kept : SameRegistry v w := (sameRegistry_free _).of_ok run
    exact (fails_free fun x kept' => ends x (kept'.trans kept)).bind fun _ _ _ => fails_pure _

theorem owning_perform (op : Op) : Owning s op (leaves (op.perform.run s)) := by
  cases op with
  | load irx =>
    rw [Op.perform, leaves_map]
    exact owning_load irx
  | unload id => exact Leads.map owning_unload _
  | beginStart id => exact .same (Leads.map sameOwners_begin _)
  | completeStart id result => exact .same (Leads.map sameOwners_completeStart _)
  | beginStop id => exact .same (Leads.map sameOwners_begin _)
  | completeStop id result => exact .same (Leads.map sameOwners_completeStop _)
  | registerExport moduleId library => exact Leads.map (owning_registerExport moduleId library) _
  | releaseExport id => exact Leads.map owning_releaseExport _
  | bindImport name requiredVersion ordinal => exact .same (Leads.map sameOwners_bindImport _)
  | unbindImport libraryId => exact .same sameOwners_unbindImport

/-! ### What the operations so far amount to -/

/-- The module an operation has loaded. -/
def Event.loaded (e : Event) : Option ℕ :=
  match e.op with
  | .load irx => returned ((load irx).run e.before)
  | _ => none

/-- The operation is a `register_export`. -/
def Event.exports (e : Event) : Bool :=
  match e.op with
  | .registerExport _ _ => true
  | _ => false

/-- The operation has registered a library under this identifier. -/
def Event.registers (e : Event) (l : ℕ) : Bool :=
  (e.before.ownerOf l).isNone && (e.after.ownerOf l).isSome

/-- What the operations of a run have done: the identifiers given out by the load of each module that
is still loaded, and the libraries registered by `register_export` that still are. -/
structure Ledger where
  given : ℕ → ℕ → Bool
  registered : ℕ → Bool

/-- The ledger of no operation. -/
def Ledger.new : Ledger := ⟨fun _ _ => false, fun _ => false⟩

/-- The ledger after one more operation. -/
def Ledger.next (h : Ledger) (e : Event) : Ledger where
  given id l := (e.after.listedIn id).isSome && (h.given id l || (e.loaded == some id && e.registers l))
  registered l := (e.after.ownerOf l).isSome && (h.registered l || (e.exports && e.registers l))

/-- A record lists exactly what its load gave out, and a library that `register_export` has not
registered is registered under an identifier that the load of the module it names gave out. -/
structure Ledger.Sound (h : Ledger) (s : Loadcore) : Prop where
  given : ∀ id l, h.given id l = true ↔ ∃ ids, s.listedIn id = some ids ∧ l ∈ ids
  owned : ∀ l id, s.ownerOf l = some id → h.registered l = true ∨ h.given id l = true

variable {h : Ledger}

theorem Ledger.Sound.isSome (sound : h.Sound s) {l : ℕ} (given : h.given id l = true) :
    (s.listedIn id).isSome = true := by
  obtain ⟨ids, listed, -⟩ := (sound.given id l).mp given
  rw [listed]
  rfl

theorem Ledger.sound_new (guest : GuestMemory) : Ledger.new.Sound (reset guest) := by
  have listed : ∀ id, (reset guest).listedIn id = none := fun id =>
    congrArg (Option.map _) (FixedTable.get_new id)
  have owner : ∀ l, (reset guest).ownerOf l = none := fun l =>
    congrArg (Option.map _) (FixedTable.get_new l)
  refine ⟨fun id l => ?_, fun l id owned => ?_⟩
  · rw [listed]
    simp [Ledger.new]
  · rw [owner] at owned
    cases owned

/-- Where no record has changed and no load has returned, the ledger's account of the loads stands. -/
theorem Ledger.Sound.given_next {e : Event} (sound : h.Sound e.before)
    (listed : e.after.listedIn = e.before.listedIn)
    (quiet : ∀ l, (e.loaded == some id && e.registers l) = false) (l : ℕ) :
    (h.next e).given id l = h.given id l := by
  show ((e.after.listedIn id).isSome && (h.given id l || _)) = _
  rw [quiet, Bool.or_false, listed]
  cases given : h.given id l with
  | false => rw [Bool.and_false]
  | true => rw [sound.isSome given, Bool.and_true]

theorem Ledger.registered_next {e : Event} {l : ℕ} (owner : e.after.ownerOf l = some id)
    (registered : h.registered l = true) : (h.next e).registered l = true := by
  show ((e.after.ownerOf l).isSome && (h.registered l || _)) = true
  rw [owner, registered]
  rfl

/-- Every operation keeps the ledger sound: a load enters what it gives out, and no other operation
changes what a record lists. -/
theorem Ledger.Sound.next {e : Event} (sound : h.Sound e.before)
    (effect : Owning e.before e.op e.after) : (h.next e).Sound e.after := by
  obtain ⟨before, op, after⟩ := e
  cases effect with
  | same same =>
    have given : ∀ id l, (h.next ⟨before, op, after⟩).given id l = h.given id l := by
      intro id
      refine sound.given_next same.listed fun l => ?_
      have none : Event.registers ⟨before, op, after⟩ l = false := by
        unfold Event.registers
        rw [same.owner]
        cases before.ownerOf l <;> rfl
      rw [none, Bool.and_false]
    refine ⟨fun id l => ?_, fun l id owner => ?_⟩
    · rw [given, sound.given, same.listed]
    · rw [given]
      exact (sound.owned l id (same.owner ▸ owner)).imp_left (registered_next owner)
  | @loaded irx m ids _ run isNew listed fresh others =>
    have loaded : Event.loaded ⟨before, .load irx, after⟩ = some m := by
      show returned ((load irx).run before) = _
      rw [run]
      rfl
    have registers : ∀ l, Event.registers ⟨before, .load irx, after⟩ l = decide (l ∈ ids) := by
      intro l
      unfold Event.registers
      by_cases member : l ∈ ids
      · rw [(fresh l member).1, (fresh l member).2, decide_eq_true member]
        rfl
      · rw [others l member, decide_eq_false member]
        cases before.ownerOf l <;> rfl
    have given : ∀ id l, (h.next ⟨before, .load irx, after⟩).given id l =
        if id = m then decide (l ∈ ids) else h.given id l := by
      intro id l
      show ((after.listedIn id).isSome && (h.given id l || _)) = _
      rw [listed, loaded, registers, Function.update_apply]
      split
      next same =>
        have absent : h.given id l = false := by
          by_contra given
          have listed := sound.isSome (Bool.not_eq_false _ ▸ given)
          rw [same, isNew] at listed
          cases listed
        rw [absent, same]
        simp
      next differ =>
        rw [show (some m == some id) = false by simpa using Ne.symm differ, Bool.false_and,
          Bool.or_false]
        cases given : h.given id l with
        | false => rw [Bool.and_false]
        | true => rw [sound.isSome given, Bool.and_true]
    refine ⟨fun id l => ?_, fun l id owner => ?_⟩
    · rw [given, listed, Function.update_apply]
      split
      next => simp
      next => exact sound.given id l
    · rw [given]
      by_cases member : l ∈ ids
      · have named := (fresh l member).2.symm.trans owner
        right
        rw [if_pos (Option.some.inj named).symm, decide_eq_true member]
      · refine (sound.owned l id (others l member ▸ owner)).imp (registered_next owner) fun old => ?_
        rw [if_neg, old]
        rintro rfl
        have listed := sound.isSome old
        rw [isNew] at listed
        cases listed
  | @registered m l library _ listed free owner =>
    have given : ∀ id j, (h.next ⟨before, .registerExport m library, after⟩).given id j =
        h.given id j := fun id => sound.given_next listed fun _ => rfl
    refine ⟨fun id j => ?_, fun j id named => ?_⟩
    · rw [given, sound.given, listed]
    · rw [given]
      by_cases here : j = l
      · subst here
        left
        have registers : Event.registers ⟨before, .registerExport m library, after⟩ j = true := by
          unfold Event.registers
          rw [free, named]
          rfl
        show ((after.ownerOf j).isSome && (h.registered j || _)) = true
        rw [registers, named]
        simp [Event.exports]
      · have before : before.ownerOf j = some id := by
          rwa [owner, Function.update_of_ne here] at named
        exact (sound.owned j id before).imp_left (registered_next named)
  | @released l _ listed owner =>
    have given : ∀ id j, (h.next ⟨before, .releaseExport l, after⟩).given id j = h.given id j :=
      fun id => sound.given_next listed fun _ => rfl
    refine ⟨fun id j => ?_, fun j id named => ?_⟩
    · rw [given, sound.given, listed]
    · rw [given]
      have kept : before.ownerOf j = some id := by
        rw [owner, Function.update_apply] at named
        split at named
        next => cases named
        next => exact named
      exact (sound.owned j id kept).imp_left (registered_next named)
  | @unloaded m ids _ found listed owner =>
    have given : ∀ id l, (h.next ⟨before, .unload m, after⟩).given id l =
        if id = m then false else h.given id l := by
      intro id l
      show ((after.listedIn id).isSome && (h.given id l || false)) = _
      rw [listed, Function.update_apply, Bool.or_false]
      split
      next => rfl
      next =>
        cases given : h.given id l with
        | false => rw [Bool.and_false]
        | true => rw [sound.isSome given, Bool.and_true]
    refine ⟨fun id l => ?_, fun l id named => ?_⟩
    · rw [given, listed, Function.update_apply]
      split
      next => simp
      next => exact sound.given id l
    · rw [owner] at named
      split at named
      next => cases named
      next absent =>
        rw [given]
        have kept := owner l
        rw [if_neg absent] at kept
        refine (sound.owned l id named).imp (registered_next (kept.trans named)) fun old => ?_
        rw [if_neg, old]
        rintro rfl
        obtain ⟨ids', listed', member⟩ := (sound.given id l).mp old
        exact absent (Option.some.inj (found.symm.trans listed') ▸ member)

/-! ### Unloading what the record lists -/

/-- No library that `register_export` has registered in the module's name stands under an identifier
its load has not given out, and none that its load has given out names another module. -/
structure Ledger.Agrees (h : Ledger) (id : ℕ) (s : Loadcore) : Prop where
  given : ∀ l, s.ownerOf l = some id → h.registered l = true → h.given id l = true
  own : ∀ l owner, s.ownerOf l = some owner → h.given id l = true → owner = id

theorem Ledger.Sound.listsOwned_iff (sound : h.Sound s) {record : ModuleRecord}
    (found : s.registry.get id = some record) : ListsOwned id s.registry ↔ h.Agrees id s := by
  have listed : ∀ l, h.given id l = true ↔ l ∈ record.exportIds := by
    intro l
    rw [sound.given]
    unfold listedIn
    rw [found]
    simp
  constructor
  · intro lists
    refine ⟨fun l owner _ => ?_, fun l owner named given => ?_⟩
    · obtain ⟨library, registered, rfl⟩ := Option.map_eq_some_iff.mp owner
      exact (listed l).mpr ((lists record found l library registered).mpr rfl)
    · obtain ⟨library, registered, rfl⟩ := Option.map_eq_some_iff.mp named
      exact (lists record found l library registered).mp ((listed l).mp given)
  · intro agrees record' found' l library registered
    obtain rfl := Option.some.inj (found.symm.trans found')
    have owner : s.ownerOf l = some library.moduleId := congrArg (Option.map _) registered
    constructor
    · intro member
      exact agrees.own l _ owner ((listed l).mpr member)
    · rintro rfl
      exact (listed l).mp ((sound.owned l _ owner).elim (agrees.given l owner) fun given => given)

/-- Whatever a run unloads, the operations before agree with the record of the module. -/
def Careful (h : Ledger) : List Event → Prop
  | [] => True
  | e :: events => (∀ id, e.Unloads id → h.Agrees id e.before) ∧ Careful (h.next e) events

theorem careful_concat {events : List Event} {e : Event} :
    Careful h (events ++ [e]) ↔ Careful h events ∧
      ∀ id, e.Unloads id → (events.foldl Ledger.next h).Agrees id e.before := by
  induction events generalizing h with
  | nil => exact ⟨fun careful => ⟨trivial, careful.1⟩, fun careful => ⟨careful.2, trivial⟩⟩
  | cons first events ih =>
    show _ ∧ Careful _ (events ++ [e]) ↔ (_ ∧ _) ∧ _
    rw [ih, and_assoc]
    rfl

/-- In every run from the empty registry, every successful unload drops exactly the libraries
registered in the module's name if and only if, before each of them, no library that
`register_export` registered in the module's name stands under an identifier its load has not given
out, and none that its load gave out is another module's. -/
theorem unloads_drop_owned_iff {guest : GuestMemory} {events : List Event}
    (run : Run Records (reset guest) events t) :
    (∀ e ∈ events, ∀ id, e.Unloads id → DropsOwned id e.before.registry e.after.registry) ↔
      Careful .new events := by
  refine (run.history (H := fun events t => (events.foldl Ledger.next .new).Sound t ∧
    ((∀ e ∈ events, ∀ id, e.Unloads id → DropsOwned id e.before.registry e.after.registry) ↔
      Careful .new events)) ⟨Ledger.sound_new guest, by simp [Careful]⟩ ?_).2
  rintro events a e b ⟨sound, before⟩ recorded
  have same := recorded
  obtain ⟨rfl, rfl, next⟩ := same
  constructor
  · rw [List.foldl_append]
    refine sound.next ?_
    rw [← next]
    exact owning_perform e.op
  · rw [careful_concat, ← before]
    have last : ∀ id, e.Unloads id → (DropsOwned id e.before.registry e.after.registry ↔
        (events.foldl Ledger.next .new).Agrees id e.before) := by
      intro id unloads
      obtain ⟨removed, ran⟩ := unloads.run recorded
      obtain ⟨record, -, found, -⟩ := run_unload_ok ran
      exact (dropsOwned_iff ran).trans (sound.listsOwned_iff found)
    constructor
    · intro drops
      refine ⟨fun f member => drops f (List.mem_append_left _ member), fun id unloads => ?_⟩
      exact (last id unloads).mp (drops e (by simp) id unloads)
    · rintro ⟨earlier, agrees⟩ f member id unloads
      rcases List.mem_append.mp member with member | member
      · exact earlier f member id unloads
      · obtain rfl := List.mem_singleton.mp member
        exact (last id unloads).mpr (agrees id unloads)

/-! ### A run that drops a library -/

theorem Ledger.agrees_of_all (all : (s.registry.libraries.iter.all fun entry =>
    if entry.2.moduleId = id then !h.registered entry.1 || h.given id entry.1
    else !h.given id entry.1) = true) : h.Agrees id s := by
  have each : ∀ l owner, s.ownerOf l = some owner → (if owner = id then
      !h.registered l || h.given id l else !h.given id l) = true := by
    intro l owner named
    obtain ⟨library, registered, rfl⟩ := Option.map_eq_some_iff.mp named
    exact List.all_eq_true.mp all (l, library) ((FixedTable.mem_iter (by decide)).mpr registered)
  refine ⟨fun l named registered => ?_, fun l owner named given => ?_⟩
  · have chosen := each l id named
    rw [if_pos rfl, registered] at chosen
    exact chosen
  · by_contra foreign
    have chosen := each l owner named
    rw [if_neg foreign, given] at chosen
    cases chosen

/-- A module of four bytes that exports one library. -/
def exportingModule (library : ExportLibrary) : IrxModule where
  name := [0x65]
  version := 0x0101
  variant := .relocatableV1
  textSize := 4
  dataSize := 0
  bssSize := 0
  preferredAddress := 0
  alignment := 16
  imageSize := 4
  link address := .ok ⟨.replicate 4 0, address, 0, [library]⟩

/-- Two modules with a library each are loaded, the second registers another one, the library of the
first is bound and unbound, and the first is unloaded. -/
def exporting : List Op :=
  [.load (exportingModule plainLibrary),
    .load (exportingModule { plainLibrary with name := [0x6d] }),
    .registerExport 2 { plainLibrary with name := [0x6e] }, .bindImport [0x6c] 0x0101 0,
    .unbindImport 1]

theorem unloads_drop_owned_iff_sample :
    (∀ e ∈ recorded (reset zeroedGuest) (exporting ++ [.unload 1]), ∀ id, e.Unloads id →
        DropsOwned id e.before.registry e.after.registry) ∧
      (after (reset zeroedGuest) exporting).ownerOf 1 = some 1 ∧
      (after (reset zeroedGuest) (exporting ++ [.unload 1])).ownerOf 1 = none ∧
      (after (reset zeroedGuest) (exporting ++ [.unload 1])).ownerOf 3 = some 2 := by
  refine ⟨(unloads_drop_owned_iff (run_recorded _ _)).mpr ?_, by decide +kernel, by decide +kernel,
    by decide +kernel⟩
  refine ⟨by rintro id ⟨⟨⟩, -⟩, by rintro id ⟨⟨⟩, -⟩, by rintro id ⟨⟨⟩, -⟩, by rintro id ⟨⟨⟩, -⟩,
    by rintro id ⟨⟨⟩, -⟩, ?_, trivial⟩
  rintro id ⟨⟨⟩, -⟩
  apply Ledger.agrees_of_all
  decide +kernel

end Loadcore

end Upse
