import Upse.Bios.Modules.Registry

/-!
# Who owns an export library

A module's record lists the identifiers of the libraries found in its image, and a registered
library names its module.  Unloading goes by the record alone.
-/

namespace Upse

open ErrorState

namespace Loadcore

variable {s t u : Loadcore}

/-! ### What unloading does to the libraries -/

theorem run_onMemory_ok {α : Type} {m : EStateM KernelError SystemMemory α} {a : α}
    (run : (onMemory m).run s = .ok a t) :
    ∃ memory, m.run s.memory = .ok a memory ∧ t = { s with memory := memory } :=
  run_zoom_ok.mp run

theorem run_onGuest_ok {α : Type} {m : EStateM WriteError GuestMemory α} {a : α}
    (run : (onGuest m).run s = .ok a t) :
    ∃ guest, m.run s.guest = .ok a guest ∧ t = { s with guest := guest } :=
  run_zoom_ok.mp run

theorem run_free_ok {address : ℕ} {a : Unit} (run : (free address).run s = .ok a t) :
    ∃ block memory, (SystemMemory.free address).run s.memory = .ok block memory ∧
      t = { s with memory := memory } := by
  unfold free at run
  rw [run_map] at run
  cases ran : (onMemory (SystemMemory.free address)).run s with
  | ok block reached =>
    rw [ran] at run
    cases run
    obtain ⟨memory, freed, rfl⟩ := run_onMemory_ok ran
    exact ⟨block, memory, freed, rfl⟩
  | error e reached =>
    rw [ran] at run
    cases run

theorem run_unlink_ok {id address next : ℕ} {a : Unit}
    (run : (unlink id address next).run s = .ok a t) :
    (∃ other record guest, predecessor s.registry id address = some (other, record) ∧
      (GuestMemory.writeU32 record.infoAddress next).run s.guest = .ok () guest ∧
      t = { s with
        guest := guest
        registry := { s.registry with modules := s.registry.modules.modify other fun record =>
          { record with info := { record.info with next := next } } } }) ∨
    ∃ guest, predecessor s.registry id address = none ∧ s.registry.head = address ∧
      (GuestMemory.writeU32 moduleHeadAddress next).run s.guest = .ok () guest ∧
      t = { s with guest := guest, registry := { s.registry with head := next } } := by
  simp only [unlink, run_bind_ok, run_get_ok] at run
  obtain ⟨_, _, ⟨rfl, rfl⟩, run⟩ := run
  cases found : predecessor s.registry id address with
  | none =>
    simp only [found, run_bind_ok, run_get_ok, run_throwIf_ok, modifyRegistry, run_modify_ok] at run
    obtain ⟨_, _, ⟨rfl, rfl⟩, _, _, ⟨head, rfl⟩, _, _, written, rfl⟩ := run
    obtain ⟨guest, stored, rfl⟩ := run_onGuest_ok written
    exact .inr ⟨guest, rfl, not_not.mp head, stored, rfl⟩
  | some entry =>
    simp only [found, run_bind_ok, modifyRegistry, run_modify_ok] at run
    obtain ⟨_, _, written, rfl⟩ := run
    obtain ⟨guest, stored, rfl⟩ := run_onGuest_ok written
    exact .inl ⟨entry.1, entry.2, guest, rfl, stored, rfl⟩

theorem predecessor_ne {registry : ModuleRegistry} {id address other : ℕ} {record : ModuleRecord}
    (h : predecessor registry id address = some (other, record)) : other ≠ id := by
  have chosen := List.find?_some h
  simp only [ne_eq, decide_eq_true_eq] at chosen
  exact chosen.1

theorem get_removeExports (registry : ModuleRegistry) (ids : List ℕ) (id : ℕ) :
    (registry.removeExports ids).exported id =
      if id ∈ ids then none else registry.exported id := by
  unfold ModuleRegistry.removeExports ModuleRegistry.exported
  simp only
  induction ids generalizing registry with
  | nil => rfl
  | cons first ids ih =>
    have rest := ih { registry with libraries := (registry.libraries.remove first).2 }
    simp only at rest
    rw [List.foldl_cons, rest, FixedTable.get_remove]
    by_cases here : id = first
    · simp [here]
    · simp [here]

/-- What a successful unload does: the list, the record and the libraries its record lists, and the
two blocks. -/
theorem run_unload_ok {id : ℕ} {removed : ModuleRecord} (run : (unload id).run s = .ok removed t) :
    ∃ record u, s.registry.get id = some record ∧ ModuleState.unloadError record.state = none ∧
      (unlink id record.infoAddress record.info.next).run s = .ok () u ∧
      u.registry.modules.get id = some removed ∧
      t.registry = { u.registry with modules := (u.registry.modules.remove id).2 }.removeExports
        removed.exportIds ∧
      t.guest = u.guest ∧
      ∃ image metadata memory,
        (SystemMemory.free removed.imageAllocation.address).run u.memory = .ok image memory ∧
        (SystemMemory.free removed.metadataAllocation.address).run memory =
          .ok metadata t.memory := by
  simp only [unload, run_bind_ok, run_get_ok, run_okOr_ok, run_throwIf_ok, modifyRegistry,
    run_modify_ok, run_pure_ok] at run
  obtain ⟨_, _, ⟨rfl, rfl⟩, record, _, ⟨found, rfl⟩, _, _, allowed, _, _, ⟨-, rfl⟩, _, _, ⟨-, rfl⟩,
    _, u, unlinked, _, _, ⟨rfl, rfl⟩, _, _, rfl, gone, _, ⟨taken, rfl⟩, _, _, rfl, _, v, freed, _, w,
    freed', rfl, rfl⟩ := run
  have unchanged : (guard (ModuleState.unloadError record.state)).run s = .ok () s ∧
      ModuleState.unloadError record.state = none := by
    unfold guard at allowed ⊢
    cases state : ModuleState.unloadError record.state with
    | none => exact ⟨rfl, rfl⟩
    | some e => rw [state] at allowed; cases allowed
  rw [unchanged.1] at allowed
  cases allowed
  obtain ⟨image, memory, freedImage, rfl⟩ := run_free_ok freed
  obtain ⟨metadata, memory', freedMetadata, rfl⟩ := run_free_ok freed'
  rw [FixedTable.remove_fst] at taken
  exact ⟨record, u, found, unchanged.2, unlinked, taken, rfl, rfl, image, metadata, memory,
    freedImage, freedMetadata⟩

/-! ### The libraries of an unloaded module -/

/-- Unloading a module drops exactly the libraries registered in its name, and every other library
stays as it is. -/
def DropsOwned (id : ℕ) (registry registry' : ModuleRegistry) : Prop :=
  ∀ libraryId, registry'.exported libraryId =
    (registry.exported libraryId).filter fun library => library.moduleId != id

/-- The record of a module lists exactly the identifiers under which libraries are registered in its
name. -/
def ListsOwned (id : ℕ) (registry : ModuleRegistry) : Prop :=
  ∀ record, registry.get id = some record → ∀ libraryId library,
    registry.exported libraryId = some library →
      (libraryId ∈ record.exportIds ↔ library.moduleId = id)

theorem exported_unload {id : ℕ} {removed : ModuleRecord}
    (run : (unload id).run s = .ok removed t) : ∃ record, s.registry.get id = some record ∧
      ∀ libraryId, t.registry.exported libraryId =
        if libraryId ∈ record.exportIds then none else s.registry.exported libraryId := by
  obtain ⟨record, u, found, -, unlinked, taken, registry, -, -⟩ := run_unload_ok run
  have kept : u.registry.libraries = s.registry.libraries ∧
      removed.exportIds = record.exportIds := by
    rcases run_unlink_ok unlinked with ⟨other, before, guest, chosen, -, rfl⟩ |
      ⟨guest, -, -, -, rfl⟩
    · refine ⟨rfl, ?_⟩
      rw [FixedTable.get_modify, if_neg (predecessor_ne chosen).symm] at taken
      have same : some removed = some record := taken.symm.trans found
      rw [Option.some.inj same]
    · have same : some removed = some record := taken.symm.trans found
      exact ⟨rfl, by rw [Option.some.inj same]⟩
  refine ⟨record, found, fun libraryId => ?_⟩
  rw [registry, get_removeExports, kept.2]
  unfold ModuleRegistry.exported
  rw [kept.1]

theorem dropsOwned_iff {id : ℕ} {removed : ModuleRecord} (run : (unload id).run s = .ok removed t) :
    DropsOwned id s.registry t.registry ↔ ListsOwned id s.registry := by
  obtain ⟨record, found, dropped⟩ := exported_unload run
  constructor
  · intro drops record' found' libraryId library registered
    rw [found] at found'
    obtain rfl := Option.some.inj found'
    have after := drops libraryId
    rw [dropped, registered, Option.filter_some] at after
    by_cases listed : libraryId ∈ record.exportIds
    · rw [if_pos listed] at after
      split at after
      next => cases after
      next owned => exact ⟨fun _ => by simpa using owned, fun _ => listed⟩
    · rw [if_neg listed] at after
      split at after
      next foreign =>
        refine ⟨fun h => absurd h listed, fun owned => ?_⟩
        simp [owned] at foreign
      next => cases after
  · intro lists libraryId
    rw [dropped]
    cases registered : s.registry.exported libraryId with
    | none => simp
    | some library =>
      have owned := lists record found libraryId library registered
      rw [Option.filter_some]
      by_cases listed : libraryId ∈ record.exportIds
      · rw [if_pos listed, if_neg (by simp [owned.mp listed])]
      · have foreign : library.moduleId ≠ id := fun h => listed (owned.mpr h)
        rw [if_neg listed, if_pos (by simp [foreign])]

/-- One operation of a run, with the registry's state before and after it. -/
structure Event where
  before : Loadcore
  op : Op
  after : Loadcore

/-- A step that records itself. -/
def Records (s : Loadcore) (e : Event) (t : Loadcore) : Prop :=
  e.before = s ∧ e.after = t ∧ Next s e.op t

/-- The registry before any operation: no module, no library, a heap without blocks. -/
def reset (guest : GuestMemory) : Loadcore := ⟨.new, ⟨defaultHeapStart, defaultHeapEnd, .new⟩, guest⟩

/-- The unload in an event succeeded. -/
def Event.Unloads (e : Event) (id : ℕ) : Prop :=
  e.op = .unload id ∧ succeeds ((unload id).run e.before) = true

theorem Event.Unloads.run {e : Event} {id : ℕ} (h : e.Unloads id) (recorded : Records s e t) :
    ∃ removed, (unload id).run e.before = .ok removed e.after := by
  obtain ⟨rfl, rfl, next⟩ := recorded
  obtain ⟨op, succeeded⟩ := h
  obtain ⟨removed, reached, ran⟩ := exists_ok_of_succeeds succeeded
  refine ⟨removed, ?_⟩
  unfold Next at next
  rw [op] at next
  change leaves (((fun _ => ()) <$> unload id : LoadcoreM Unit).run e.before) = e.after at next
  rw [leaves_map, ran] at next
  rw [ran, ← next]
  rfl

/-! ### A library the record does not list -/

/-- A module of four bytes without libraries. -/
def plainModule : IrxModule where
  name := [0x61]
  version := 0x0101
  variant := .relocatableV1
  textSize := 4
  dataSize := 0
  bssSize := 0
  preferredAddress := 0
  alignment := 16
  imageSize := 4
  link address := .ok ⟨.replicate 4 0, address, 0, []⟩

/-- Two megabytes of memory that holds zeros and takes every write. -/
def zeroedGuest : GuestMemory := ⟨⟨0, 0x200000⟩, fun _ _ => true, fun _ => 0⟩

/-- A library with one function. -/
def plainLibrary : ExportLibrary := ⟨[0x6c], 0x0101, 0, 0x10100, [0x10110]⟩

/-- A module is loaded and registers a library. -/
def registering : List Op := [.load plainModule, .registerExport 1 plainLibrary]

/-- The recorded run of operations from a state. -/
def recorded (s : Loadcore) : List Op → List Event
  | [] => []
  | op :: ops =>
    ⟨s, op, leaves (op.perform.run s)⟩ :: recorded (leaves (op.perform.run s)) ops

/-- The state operations leave. -/
def after (s : Loadcore) : List Op → Loadcore
  | [] => s
  | op :: ops => after (leaves (op.perform.run s)) ops

theorem run_recorded (s : Loadcore) (ops : List Op) : Run Records s (recorded s ops) (after s ops) := by
  induction ops generalizing s with
  | nil => exact .refl s
  | cons op ops ih => exact (Run.single ⟨rfl, rfl, rfl⟩).append (ih _)

/-- Unloading a module does not drop a library it has registered itself: the library goes on naming
a module that is gone. -/
theorem library_outlives_module : ∃ s t : Loadcore, ∃ events removed,
    Run Records (reset zeroedGuest) events s ∧ (unload 1).run s = .ok removed t ∧
      ¬ DropsOwned 1 s.registry t.registry ∧ t.registry.get 1 = none ∧
      ∃ library, t.registry.exported 1 = some library ∧ library.moduleId = 1 := by
  have succeeded :
      succeeds ((unload 1).run (after (reset zeroedGuest) registering)) = true := by decide +kernel
  obtain ⟨removed, t, ran⟩ := exists_ok_of_succeeds succeeded
  have left : (leaves ((unload 1).run (after (reset zeroedGuest) registering))).registry.exported 1 =
      some ⟨1, [0x6c], 0x0101, 0, 0x10100, [0x10110], 0⟩ := by decide +kernel
  have gone : ((leaves ((unload 1).run (after (reset zeroedGuest) registering))).registry.get 1).isNone =
      true := by decide +kernel
  rw [ran] at left gone
  refine ⟨_, t, _, removed, run_recorded _ registering, ran, ?_, Option.isNone_iff_eq_none.mp gone, _,
    left, rfl⟩
  intro drops
  have dropped := drops 1
  rw [show t.registry.exported 1 = _ from left] at dropped
  have foreign := (Option.filter_eq_some_iff.mp dropped.symm).2
  exact absurd foreign (by decide)

end Loadcore

end Upse
