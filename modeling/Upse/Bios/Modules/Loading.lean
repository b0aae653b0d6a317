import Upse.Bios.Allocations
import Upse.Bios.Modules.Ownership

/-!
# What loading a module touches

A load works in two blocks of its own, which the allocator keeps apart from every block that was live
before; until the head of the list is written, nothing else changes, and a load that fails gives both
blocks back.
-/

namespace Upse

open ErrorState

namespace SystemMemory

variable {memory memory' : SystemMemory}

theorem Sound.allocateAligned_ok (sound : memory.Sound) {mode : AllocationMode}
    {size address alignment : ℕ} {a : Allocation}
    (run : (SystemMemory.allocateAligned mode size address alignment).run memory = .ok a memory') :
    memory'.Sound ∧ memory'.range = memory.range ∧ memory'.live.Perm (a :: memory.live) ∧
      a.requestedSize = size := by
  obtain failed | ⟨reserved, selected, id, table, -, -, -, -, inserted, ran⟩ :=
    allocateAligned_cases memory mode size address alignment
  · obtain ⟨e, failed⟩ := failed
    rw [failed] at run
    cases run
  · have kept := sound.allocateAligned mode size address alignment
    rw [run] at ran kept
    cases ran
    rcases kept with ⟨e, failed⟩ | ⟨b, reached, same, kept, range⟩
    · cases failed
    · cases same
      exact ⟨kept, range, (FixedTable.perm_insert (by decide) inserted).map Prod.snd, rfl⟩

theorem allocateAligned_error {mode : AllocationMode} {size address alignment : ℕ} {e : KernelError}
    (run : (SystemMemory.allocateAligned mode size address alignment).run memory = .error e memory') :
    memory' = memory := by
  obtain ⟨e', failed⟩ | ⟨_, _, _, _, -, -, -, -, -, ran⟩ :=
    allocateAligned_cases memory mode size address alignment
  · rw [failed] at run
    cases run
    rfl
  · rw [ran] at run
    cases run

theorem Sound.free_ok (sound : memory.Sound) {a : Allocation} (ha : a ∈ memory.live) :
    ∃ memory', (SystemMemory.free a.address).run memory = .ok a memory' ∧ memory'.Sound ∧
      memory'.range = memory.range ∧ memory.live.Perm (a :: memory'.live) := by
  obtain ⟨⟨id, b⟩, member, rfl⟩ := List.mem_map.mp ha
  cases found : memory.allocations.iter.findSome? fun entry =>
      if entry.2.address = b.address then some entry.1 else none with
  | none =>
    have none := List.findSome?_eq_none_iff.mp found _ member
    simp at none
  | some other =>
    obtain ⟨⟨id', c⟩, member', chosen⟩ := List.exists_of_findSome?_eq_some found
    split at chosen
    next same =>
      obtain rfl := Option.some.inj chosen
      have entry : memory.allocations.get id' = some c :=
        (FixedTable.mem_iter (by decide)).mp member'
      obtain rfl : c = b := sound.eq_of_address (List.mem_map.mpr ⟨_, member', rfl⟩) ha same
      refine ⟨_, ?_, sound.remove entry, rfl,
        (FixedTable.perm_remove (by decide) entry).map Prod.snd⟩
      unfold SystemMemory.free
      simp [found, entry]
    next => cases chosen

end SystemMemory

namespace Loadcore

open GuestMemory

variable {s t u : Loadcore}

/-! ### Working in blocks of one's own -/

/-- From `s` to `t`, only the blocks `own` were taken, and no other block was written. -/
structure Holding (s : Loadcore) (own : List Allocation) (t : Loadcore) : Prop where
  modules : t.registry.modules = s.registry.modules
  head : t.registry.head = s.registry.head
  sound : t.memory.Sound
  range : t.memory.range = s.memory.range
  live : t.memory.live.Perm (own ++ s.memory.live)
  guest : ∀ b ∈ s.memory.live, SameAt s.guest t.guest b.address b.size
  takes : ∀ address size, t.guest.Takes address size ↔ s.guest.Takes address size

theorem Holding.refl (sound : s.memory.Sound) : Holding s [] s :=
  ⟨rfl, rfl, sound, rfl, .refl _, fun _ _ _ _ _ => rfl, fun _ _ => Iff.rfl⟩

section Holding

variable {own : List Allocation} {a : Allocation}

theorem Holding.mem (h : Holding s own t) (member : a ∈ own) : a ∈ t.memory.live :=
  h.live.mem_iff.mpr (List.mem_append_left _ member)

theorem Holding.mem_old (h : Holding s own t) (member : a ∈ s.memory.live) : a ∈ t.memory.live :=
  h.live.mem_iff.mpr (List.mem_append_right _ member)

theorem Holding.start (h : Holding s own t) : t.memory.start = s.memory.start :=
  congrArg Prod.fst h.range

theorem Holding.ne (h : Holding s own t) {b : Allocation} (member : a ∈ own)
    (old : b ∈ s.memory.live) : a ≠ b := by
  rintro rfl
  exact List.disjoint_of_nodup_append (h.live.nodup_iff.mp h.sound.nodup) member old

theorem Holding.allocate (h : Holding s own t) {mode : AllocationMode} {size address alignment : ℕ}
    (run : (onMemory (SystemMemory.allocateAligned mode size address alignment)).run t = .ok a u) :
    Holding s (a :: own) u ∧ u.guest = t.guest ∧ a.requestedSize = size := by
  obtain ⟨memory, ran, rfl⟩ := run_onMemory_ok run
  obtain ⟨sound, range, live, requested⟩ := h.sound.allocateAligned_ok ran
  exact ⟨⟨h.modules, h.head, sound, range.trans h.range, live.trans (h.live.cons a), h.guest,
    h.takes⟩, rfl, requested⟩

theorem Holding.free (h : Holding s (a :: own) t) :
    ∃ u, (free a.address).run t = .ok () u ∧ Holding s own u ∧ u.guest = t.guest := by
  obtain ⟨memory, ran, sound, range, live⟩ := h.sound.free_ok (h.mem List.mem_cons_self)
  refine ⟨{ t with memory := memory }, ?_, ⟨h.modules, h.head, sound, range.trans h.range,
    (live.symm.trans h.live).cons_inv, h.guest, h.takes⟩, rfl⟩
  have outer : (onMemory (SystemMemory.free a.address)).run t =
      .ok a { t with memory := memory } := run_zoom_ok.mpr ⟨memory, ran, rfl⟩
  unfold Loadcore.free
  rw [run_map, outer]

theorem Holding.store (h : Holding s own t) {start : ℕ} {input : List (BitVec 8)}
    (outside : ∀ b ∈ s.memory.live, b.stop ≤ start ∨ start + input.length ≤ b.address) :
    Holding s own { t with guest := t.guest.store start input } := by
  refine ⟨h.modules, h.head, h.sound, h.range, h.live, fun b old => ?_, h.takes⟩
  apply (h.guest b old).trans
  apply t.guest.store_sameAt
  exact outside b old

theorem Holding.outside (h : Holding s own t) (member : a ∈ own) {start size : ℕ}
    (low : a.address ≤ start) (high : start + size ≤ a.stop) :
    ∀ b ∈ s.memory.live, b.stop ≤ start ∨ start + size ≤ b.address := by
  intro b old
  have order := h.sound.ordered_of_ne (h.mem member) (h.mem_old old) (h.ne member old)
  omega

theorem Holding.below (h : Holding s own t) {start size : ℕ}
    (below : start + size ≤ s.memory.start) :
    ∀ b ∈ s.memory.live, b.stop ≤ start ∨ start + size ≤ b.address := by
  intro b old
  have inside := (h.sound.inside b (h.mem_old old)).1
  rw [h.start] at inside
  exact .inr (by omega)

theorem Holding.libraries (h : Holding s own t) {registry : ModuleRegistry}
    (modules : registry.modules = t.registry.modules) (head : registry.head = t.registry.head) :
    Holding s own { t with registry := registry } :=
  ⟨modules.trans h.modules, head.trans h.head, h.sound, h.range, h.live, h.guest, h.takes⟩

end Holding

/-! ### A load that fails -/

/-- Nothing is taken, and the word that holds the head is as it was. -/
structure Restored (s t : Loadcore) : Prop where
  holding : Holding s [] t
  headWord : t.guest.word moduleHeadAddress = s.guest.word moduleHeadAddress

theorem run_orUndo_of_ok {α : Type} {m : LoadcoreM α} {undo : LoadcoreM Unit} {a : α}
    (ran : m.run s = .ok a t) : (orUndo m undo).run s = .ok a t := by
  rw [EStateM.run, orUndo, ran]

theorem run_orUndo_of_error {α : Type} {m : LoadcoreM α} (undo : LoadcoreM Unit) {e : ModuleError}
    (ran : m.run s = .error e t) : ∃ e', (orUndo m undo).run s = .error e' (leaves (undo.run t)) := by
  rw [EStateM.run, orUndo, ran]
  dsimp only
  cases undo.run t with
  | ok _ u => exact ⟨e, rfl⟩
  | error e' u => exact ⟨e', rfl⟩

theorem run_orUndo_ok {α : Type} {m : LoadcoreM α} {undo : LoadcoreM Unit} {a : α} :
    (orUndo m undo).run s = .ok a t ↔ m.run s = .ok a t := by
  refine ⟨fun run => ?_, run_orUndo_of_ok⟩
  cases ran : m.run s with
  | ok b u => rwa [run_orUndo_of_ok ran] at run
  | error e u =>
    obtain ⟨e', undone⟩ := run_orUndo_of_error undo ran
    rw [undone] at run
    cases run

theorem fails_orUndo {α : Type} {P : Loadcore → Prop} {m : LoadcoreM α} {undo : LoadcoreM Unit}
    (h : Fails (fun t => P (leaves (undo.run t))) s m) : Fails P s (orUndo m undo) := by
  intro e t run
  cases ran : m.run s with
  | ok a u =>
    rw [run_orUndo_of_ok ran] at run
    cases run
  | error e' u =>
    obtain ⟨_, undone⟩ := run_orUndo_of_error undo ran
    rw [undone] at run
    cases run
    exact h e' u ran

section Load

variable {image metadata : Allocation}

theorem restored_undo (h : Holding s [image, metadata] t)
    (headWord : t.guest.word moduleHeadAddress = s.guest.word moduleHeadAddress) :
    Restored s (leaves ((do free image.address; free metadata.address : LoadcoreM Unit).run t)) := by
  obtain ⟨u, ran, holding, guest⟩ := h.free
  obtain ⟨v, ran', holding', guest'⟩ := holding.free
  rw [run_bind, ran]
  simp only
  rw [ran']
  exact ⟨holding', by rw [leaves_ok, guest', guest]; exact headWord⟩

theorem run_loadInto_ok {irx : IrxModule} {own : List Allocation}
    {linked : LinkedImage irx.imageSize} (h : Holding s own t) (member : image ∈ own)
    (requested : image.requestedSize = irx.imageSize)
    (run : (loadInto irx image).run t = .ok linked u) :
    Holding s own u ∧ u.registry = t.registry ∧
      (moduleHeadAddress + 4 ≤ s.memory.start →
        u.guest.word moduleHeadAddress = t.guest.word moduleHeadAddress) := by
  simp only [loadInto, run_bind_ok, run_throwIf_ok, run_get_ok, run_modify_ok, run_pure_ok,
    run_ofExcept_ok_iff] at run
  obtain ⟨_, _, ⟨-, rfl⟩, _, _, ⟨-, rfl⟩, _, _, ⟨-, rfl⟩, _, _, ⟨rfl, rfl⟩, _, _, ⟨-, rfl⟩, _, _,
    ⟨rfl, rfl⟩, _, _, ⟨-, rfl⟩, _, _, rfl, -, rfl⟩ := run
  have formed := (h.sound.formed image (h.mem member)).enough
  refine ⟨h.store (h.outside member (Nat.le_refl _) ?_), rfl, fun below => ?_⟩
  · rw [Vector.length_toList, Allocation.stop]
    omega
  · have inside := (h.sound.inside image (h.mem member)).1
    rw [h.start] at inside
    exact GuestMemory.word_eq_of_sameAt (t.guest.store_sameAt (.inl (by omega)))

theorem fails_loadInto {irx : IrxModule} {P : Loadcore → Prop} (h : P t) :
    Fails P t (loadInto irx image) := by
  unfold loadInto
  refine fails_throwIf_bind h fun _ => ?_
  refine fails_throwIf_bind h fun _ => ?_
  refine fails_ofExcept_bind h fun _ _ => ?_
  refine fails_get_bind (fails_throwIf_bind h fun _ => ?_)
  refine fails_get_bind (fails_throwIf_bind h fun _ => ?_)
  exact (fails_modify _).bind fun _ _ _ => fails_pure _

/-- The descriptor is written and made the head. -/
structure Published (metadata : ℕ) (info : ModuleInfo) (t : Loadcore) : Prop where
  bytes : t.guest.bytes metadata moduleInfoSize = info.encode
  headWord : t.guest.word moduleHeadAddress = metadata % 2 ^ 32
  takes : t.guest.Takes moduleHeadAddress 4

theorem length_encode (info : ModuleInfo) : info.encode.length = moduleInfoSize := by
  simp [ModuleInfo.encode, moduleInfoSize]

theorem run_onGuest_writeGuest_ok {address : ℕ} {input : List (BitVec 8)} {a : Unit} :
    (onGuest (writeGuest address input)).run t = .ok a u ↔
      t.guest.Takes address input.length ∧ u = { t with guest := t.guest.store address input } := by
  constructor
  · intro run
    obtain ⟨guest, ran, rfl⟩ := run_onGuest_ok run
    obtain ⟨takes, rfl⟩ := run_writeGuest_ok.mp ran
    exact ⟨takes, rfl⟩
  · rintro ⟨takes, rfl⟩
    exact run_zoom_ok.mpr ⟨_, run_writeGuest_ok.mpr ⟨takes, rfl⟩, rfl⟩

theorem fails_onGuest_writeGuest {P : Loadcore → Prop} {address : ℕ} {input : List (BitVec 8)}
    (h : P t) : Fails P t (onGuest (writeGuest address input)) :=
  fails_zoom (fails_writeGuest h)

theorem Holding.descriptor {own : List Allocation} {name : Name} (h : Holding s own t)
    (member : metadata ∈ own) (requested : metadata.requestedSize = moduleInfoSize + (name.length + 1)) :
    s.memory.start ≤ metadata.address ∧
      (∀ b ∈ s.memory.live, b.stop ≤ metadata.address ∨
        metadata.address + moduleInfoSize ≤ b.address) ∧
      ∀ b ∈ s.memory.live, b.stop ≤ metadata.address + moduleInfoSize ∨
        metadata.address + moduleInfoSize + (name ++ [0]).length ≤ b.address := by
  have enough := (h.sound.formed metadata (h.mem member)).enough
  have inside := (h.sound.inside metadata (h.mem member)).1
  rw [h.start] at inside
  refine ⟨inside, h.outside member (Nat.le_refl _) ?_,
    h.outside member (Nat.le_add_right metadata.address moduleInfoSize) ?_⟩
  · rw [Allocation.stop]
    omega
  · rw [List.length_append, List.length_singleton, Allocation.stop]
    omega

section Publish

variable {irx : IrxModule} {own : List Allocation} {info : ModuleInfo}

theorem run_publish_ok {a : Unit} (h : Holding s own t) (member : metadata ∈ own)
    (requested : metadata.requestedSize = moduleInfoSize + (irx.name.length + 1))
    (below : moduleHeadAddress + 4 ≤ s.memory.start)
    (run : (publish irx metadata.address info).run t = .ok a u) :
    Holding s own u ∧ u.registry = t.registry ∧ Published metadata.address info u := by
  simp only [publish, writeU32, run_bind_ok, run_onGuest_writeGuest_ok] at run
  obtain ⟨_, _, ⟨-, rfl⟩, _, _, ⟨-, rfl⟩, takes, rfl⟩ := run
  obtain ⟨inside, descriptor, name⟩ := h.descriptor member requested
  rw [← length_encode info] at descriptor
  have headApart : ∀ b ∈ s.memory.live, b.stop ≤ moduleHeadAddress ∨
      moduleHeadAddress + (leBytes 4 metadata.address).length ≤ b.address := by
    rw [length_leBytes]
    exact h.below below
  refine ⟨((h.store descriptor).store name).store headApart, rfl, ?_, word_store _ _ _, ?_⟩
  · have afterName : SameAt (t.guest.store metadata.address info.encode)
        ((t.guest.store metadata.address info.encode).store (metadata.address + moduleInfoSize)
          (irx.name ++ [0])) metadata.address moduleInfoSize :=
      store_sameAt _ (.inl (Nat.le_refl _))
    have afterHead : ∀ guest : GuestMemory, SameAt guest
        (guest.store moduleHeadAddress (leBytes 4 metadata.address)) metadata.address
        moduleInfoSize :=
      fun guest => guest.store_sameAt (.inr (by rw [length_leBytes]; omega))
    rw [bytes_eq_of_sameAt (afterName.trans (afterHead _)), ← length_encode info, bytes_store]
  · rwa [length_leBytes] at takes

theorem fails_publish {P : Loadcore → Prop} (h : Holding s own t) (member : metadata ∈ own)
    (requested : metadata.requestedSize = moduleInfoSize + (irx.name.length + 1))
    (below : moduleHeadAddress + 4 ≤ s.memory.start)
    (headWord : t.guest.word moduleHeadAddress = s.guest.word moduleHeadAddress)
    (ends : ∀ u, Holding s own u → u.guest.word moduleHeadAddress = s.guest.word moduleHeadAddress →
      P u) :
    Fails P t (publish irx metadata.address info) := by
  obtain ⟨inside, descriptor, name⟩ := h.descriptor member requested
  rw [← length_encode info] at descriptor
  have headKept : ∀ (guest : GuestMemory) (start : ℕ) (input : List (BitVec 8)),
      metadata.address ≤ start →
      (guest.store start input).word moduleHeadAddress = guest.word moduleHeadAddress := by
    intro guest start input above
    apply word_eq_of_sameAt
    apply store_sameAt
    left
    omega
  refine (fails_onGuest_writeGuest (ends t h headWord)).bind fun _ _ run => ?_
  obtain ⟨-, rfl⟩ := run_onGuest_writeGuest_ok.mp run
  have headWord' := (headKept t.guest _ info.encode (Nat.le_refl _)).trans headWord
  refine (fails_onGuest_writeGuest (ends _ (h.store descriptor) headWord')).bind fun _ _ run => ?_
  obtain ⟨-, rfl⟩ := run_onGuest_writeGuest_ok.mp run
  refine fails_onGuest_writeGuest (ends _ ((h.store descriptor).store name) ?_)
  exact (headKept _ _ _ (Nat.le_add_right _ _)).trans headWord'

end Publish

/-! ### Registering the libraries and the record -/

/-- Only the libraries differ. -/
structure Relisted (s t : Loadcore) : Prop where
  modules : t.registry.modules = s.registry.modules
  head : t.registry.head = s.registry.head
  memory : t.memory = s.memory
  guest : t.guest = s.guest

instance : Std.Refl Relisted := ⟨fun _ => ⟨rfl, rfl, rfl, rfl⟩⟩

instance : IsTrans Loadcore Relisted :=
  ⟨fun _ _ _ h h' => ⟨h'.modules.trans h.modules, h'.head.trans h.head, h'.memory.trans h.memory,
    h'.guest.trans h.guest⟩⟩

theorem relisted_modifyRegistry {f : ModuleRegistry → ModuleRegistry}
    (modules : (f s.registry).modules = s.registry.modules)
    (head : (f s.registry).head = s.registry.head) : Leads Relisted s (modifyRegistry f) :=
  leads_modify ⟨modules, head, rfl, rfl⟩

theorem insertExport_keeps {registry registry' : ModuleRegistry} {moduleId id : ℕ}
    {library : ExportLibrary} (h : registry.insertExport moduleId library = .ok (id, registry')) :
    registry'.modules = registry.modules ∧ registry'.head = registry.head := by
  unfold ModuleRegistry.insertExport at h
  simp only [bind, Except.bind] at h
  split at h
  next => cases h
  next => cases h; exact ⟨rfl, rfl⟩

theorem relisted_insertExports (moduleId : ℕ) (libraries : List ExportLibrary) (ids : List ℕ) :
    Leads Relisted s (insertExports moduleId libraries ids) := by
  induction libraries generalizing s ids with
  | nil => exact leads_pure _
  | cons library rest ih =>
    apply leads_get_bind
    split
    next id registry inserted =>
      obtain ⟨modules, head⟩ := insertExport_keeps inserted
      exact (relisted_modifyRegistry modules head).bind fun _ _ _ => ih _
    next => exact (relisted_modifyRegistry rfl rfl).bind fun _ _ _ => leads_throw _

theorem fails_insertRecord {moduleId : ℕ} {record : ModuleRecord} :
    Fails (Relisted s) s (insertRecord moduleId record) := by
  apply fails_get_bind
  split
  next => exact fails_modify _
  next =>
    refine (fails_modify _).bind fun _ _ run => ?_
    obtain rfl := run_modify_ok.mp run
    exact fails_throw _ ⟨rfl, rfl, rfl, rfl⟩

theorem run_insertRecord_ok {moduleId : ℕ} {record : ModuleRecord} {a : Unit}
    (run : (insertRecord moduleId record).run s = .ok a t) :
    ∃ modules, s.registry.modules.insertAt moduleId record = .ok modules ∧
      t = { s with registry := { s.registry with modules := modules } } := by
  simp only [insertRecord, run_bind_ok, run_get_ok] at run
  obtain ⟨_, _, ⟨rfl, rfl⟩, run⟩ := run
  split at run
  next modules inserted =>
    obtain rfl := run_modify_ok.mp run
    exact ⟨modules, inserted, rfl⟩
  next =>
    simp only [run_bind_ok, run_throw_ok] at run
    obtain ⟨_, _, _, impossible⟩ := run
    exact impossible.elim

/-! ### Loading as a whole -/

/-- Both blocks of a module. -/
def blocks (record : ModuleRecord) : List Allocation :=
  [record.imageAllocation, record.metadataAllocation]

/-- What a successful load leaves: a record with blocks of its own, whose descriptor is the head. -/
structure LoadedAs (id : ℕ) (record : ModuleRecord) (s t : Loadcore) : Prop where
  free : s.registry.get id = none
  modules : ∀ j, t.registry.get j = if j = id then some record else s.registry.get j
  head : t.registry.head = record.infoAddress
  next : record.info.next = s.registry.head
  address : record.infoAddress = record.metadataAllocation.address
  requested : moduleInfoSize ≤ record.metadataAllocation.requestedSize
  flags : record.info.newFlags = record.state.newFlags
  sound : t.memory.Sound
  range : t.memory.range = s.memory.range
  live : t.memory.live.Perm (blocks record ++ s.memory.live)
  guest : ∀ b ∈ s.memory.live, SameAt s.guest t.guest b.address b.size
  bytes : t.guest.bytes record.infoAddress moduleInfoSize = record.info.encode
  headWord : t.guest.word moduleHeadAddress = record.infoAddress % 2 ^ 32

/-- A successful load: the two blocks, the image, the descriptor, the libraries and the record. -/
theorem run_load_parts {irx : IrxModule} {id : ℕ} (run : (load irx).run s = .ok id t) :
    ∃ (metadata image : Allocation) (mode : AllocationMode) (address alignment : ℕ)
      (linked : LinkedImage irx.imageSize) (exportIds : List ℕ) (info : ModuleInfo)
      (modules : FixedTable ModuleRecord maxModules 1) (s₁ s₂ s₃ s₄ s₅ : Loadcore),
      (onMemory (SystemMemory.allocate .first (moduleInfoSize + (irx.name.length + 1)) 0)).run s =
        .ok metadata s₁ ∧
      (onMemory (SystemMemory.allocateAligned mode irx.imageSize address alignment)).run s₁ =
        .ok image s₂ ∧
      (loadInto irx image).run s₂ = .ok linked s₃ ∧
      (publish irx metadata.address info).run s₃ = .ok () s₄ ∧
      (insertExports id linked.exports []).run s₄ = .ok exportIds s₅ ∧
      s₅.registry.modules.insertAt id ⟨id, irx.name, irx.version, .loaded, metadata.address, info,
        metadata, image, exportIds⟩ = .ok modules ∧
      info = newInfo irx id s₃.registry.head (metadata.address + moduleInfoSize) image.address
        linked.entry linked.globalPointer ∧
      t = { s₅ with registry := { s₅.registry with modules := modules, head := metadata.address } } := by
  unfold load at run
  -- The checks before the memory is taken.
  obtain ⟨_, _, got, run⟩ := run_bind_ok.mp run
  obtain ⟨rfl, rfl⟩ := run_get_ok.mp got
  obtain ⟨_, _, next, run⟩ := run_bind_ok.mp run
  obtain ⟨-, rfl⟩ := run_okOr_ok.mp next
  obtain ⟨_, _, few, run⟩ := run_bind_ok.mp run
  obtain ⟨-, rfl⟩ := run_throwIf_ok.mp few
  obtain ⟨_, _, valid, run⟩ := run_bind_ok.mp run
  obtain ⟨-, rfl⟩ := run_ofExcept_ok_iff.mp valid
  obtain ⟨nameSize, _, added, run⟩ := run_bind_ok.mp run
  obtain ⟨named, rfl⟩ := run_okOr_ok.mp added
  obtain ⟨size, _, added, run⟩ := run_bind_ok.mp run
  obtain ⟨sized, rfl⟩ := run_okOr_ok.mp added
  obtain ⟨metadata, s₁, taken, run⟩ := run_bind_ok.mp run
  obtain ⟨image, s₂, taken', run⟩ := run_bind_ok.mp run
  obtain ⟨linked, s₃, stored, run⟩ := run_bind_ok.mp run
  obtain ⟨_, _, got, run⟩ := run_bind_ok.mp run
  obtain ⟨rfl, rfl⟩ := run_get_ok.mp got
  obtain ⟨_, _, valid, run⟩ := run_bind_ok.mp run
  obtain ⟨-, rfl⟩ := run_ofExcept_ok_iff.mp (run_orUndo_ok.mp valid)
  obtain ⟨_, _, got, run⟩ := run_bind_ok.mp run
  obtain ⟨rfl, rfl⟩ := run_get_ok.mp got
  obtain ⟨_, s₄, published, run⟩ := run_bind_ok.mp run
  obtain ⟨exportIds, s₅, listed, run⟩ := run_bind_ok.mp run
  obtain ⟨_, s₆, entered, run⟩ := run_bind_ok.mp run
  obtain ⟨_, _, finished, run⟩ := run_bind_ok.mp run
  obtain ⟨rfl, rfl⟩ := run_pure_ok.mp run
  rw [run_orUndo_ok] at taken' stored published listed entered
  obtain ⟨-, rfl⟩ := checkedAdd_eq_some.mp named
  obtain ⟨-, rfl⟩ := checkedAdd_eq_some.mp sized
  obtain ⟨modules, inserted, rfl⟩ := run_insertRecord_ok entered
  obtain rfl := run_modify_ok.mp finished
  exact ⟨metadata, image, _, _, _, linked, exportIds, _, modules, s₁, s₂, s₃, s₄, s₅, taken, taken',
    stored, published, listed, inserted, rfl, rfl⟩

theorem run_load_ok {irx : IrxModule} {id : ℕ} (sound : s.memory.Sound)
    (below : moduleHeadAddress + 4 ≤ s.memory.start) (run : (load irx).run s = .ok id t) :
    ∃ record, LoadedAs id record s t := by
  obtain ⟨metadata, image, mode, address, alignment, linked, exportIds, info, modules, s₁, s₂, s₃,
    s₄, s₅, taken, taken', stored, published, listed, inserted, rfl, rfl⟩ := run_load_parts run
  obtain ⟨h₁, -, requested⟩ := (Holding.refl sound).allocate taken
  obtain ⟨h₂, -, requested'⟩ := h₁.allocate taken'
  obtain ⟨h₃, registry₃, -⟩ := run_loadInto_ok h₂ List.mem_cons_self requested' stored
  obtain ⟨h₄, registry₄, descriptor⟩ := run_publish_ok h₃ (List.mem_cons_of_mem _
    List.mem_cons_self) requested below published
  have relisted := (relisted_insertExports _ _ _).of_ok listed
  obtain ⟨free, -, -, entries⟩ := FixedTable.insertAt_eq_ok inserted
  have same : s₅.registry.modules = s.registry.modules := relisted.modules.trans h₄.modules
  rw [same] at free entries
  have guest : s₅.guest = s₄.guest := relisted.guest
  have memory : s₅.memory = s₄.memory := relisted.memory
  exact ⟨_, {
    free := free
    modules := entries
    head := rfl
    next := h₃.head
    address := rfl
    requested := by rw [requested]; exact Nat.le_add_right _ _
    flags := rfl
    sound := by rw [memory]; exact h₄.sound
    range := by rw [memory]; exact h₄.range
    live := by rw [memory]; exact h₄.live
    guest := by rw [guest]; exact h₄.guest
    bytes := by rw [guest]; exact descriptor.bytes
    headWord := by rw [guest]; exact descriptor.headWord }⟩

theorem fails_allocate {P : Loadcore → Prop} (holds : P t) {mode : AllocationMode}
    {size address alignment : ℕ} :
    Fails P t (onMemory (SystemMemory.allocateAligned mode size address alignment)) := by
  refine fails_zoom fun e memory run => ?_
  rw [SystemMemory.allocateAligned_error run]
  exact holds

theorem run_restoreHead (takes : t.guest.Takes moduleHeadAddress 4) : restoreHead.run t =
    .ok () { t with guest := t.guest.store moduleHeadAddress (leBytes 4 t.registry.head) } := by
  have written : (onGuest (writeGuest moduleHeadAddress (leBytes 4 t.registry.head))).run t =
      .ok () { t with guest := t.guest.store moduleHeadAddress (leBytes 4 t.registry.head) } :=
    run_onGuest_writeGuest_ok.mpr ⟨by rwa [length_leBytes], rfl⟩
  change EStateM.Result.ok () (leaves ((onGuest (writeGuest moduleHeadAddress
    (leBytes 4 t.registry.head))).run t)) = _
  rw [written, leaves_ok]

theorem restored_restoreHead (h : Holding s [image, metadata] t)
    (takes : t.guest.Takes moduleHeadAddress 4) (relisted : Relisted t u)
    (below : moduleHeadAddress + 4 ≤ s.memory.start)
    (head : s.guest.word moduleHeadAddress = s.registry.head) :
    Restored s (leaves ((do
      restoreHead
      free image.address
      free metadata.address : LoadcoreM Unit).run u)) := by
  obtain ⟨registry, memory, guest⟩ := u
  obtain ⟨modules, sameHead, rfl, rfl⟩ := relisted
  have held : Holding s [image, metadata] ⟨registry, t.memory, t.guest⟩ :=
    h.libraries modules sameHead
  have apart : ∀ b ∈ s.memory.live, b.stop ≤ moduleHeadAddress ∨
      moduleHeadAddress + (leBytes 4 registry.head).length ≤ b.address := by
    rw [length_leBytes]
    exact h.below below
  have headWord : (t.guest.store moduleHeadAddress (leBytes 4 registry.head)).word
      moduleHeadAddress = s.guest.word moduleHeadAddress := by
    have same : registry.head = s.guest.word moduleHeadAddress := held.head.trans head.symm
    rw [word_store, same]
    exact Nat.mod_eq_of_lt (word_lt _ _)
  have restores := run_restoreHead (show (⟨registry, t.memory, t.guest⟩ : Loadcore).guest.Takes
    moduleHeadAddress 4 from takes)
  rw [run_bind, restores]
  exact restored_undo (held.store apart) headWord

/-- A load that fails takes nothing and leaves the list alone. -/
theorem fails_load {irx : IrxModule} (sound : s.memory.Sound)
    (below : moduleHeadAddress + 4 ≤ s.memory.start)
    (head : s.guest.word moduleHeadAddress = s.registry.head) :
    Fails (Restored s) s (load irx) := by
  have unchanged : Restored s s := ⟨.refl sound, rfl⟩
  apply fails_get_bind
  refine fails_okOr_bind unchanged fun moduleId _ => ?_
  refine fails_throwIf_bind unchanged fun _ => ?_
  refine fails_ofExcept_bind unchanged fun _ _ => ?_
  refine fails_okOr_bind unchanged fun nameSize named => ?_
  refine fails_okOr_bind unchanged fun size sized => ?_
  obtain ⟨-, rfl⟩ := checkedAdd_eq_some.mp named
  obtain ⟨-, rfl⟩ := checkedAdd_eq_some.mp sized
  refine (fails_allocate unchanged).bind fun metadata s₁ taken => ?_
  obtain ⟨h₁, guest₁, requested⟩ := (Holding.refl sound).allocate taken
  refine (fails_orUndo (fails_allocate ?_)).bind fun image s₂ taken' => ?_
  · obtain ⟨u, ran, held, guest⟩ := h₁.free
    rw [ran]
    exact ⟨held, by rw [leaves_ok, guest, guest₁]⟩
  obtain ⟨h₂, guest₂, requested'⟩ := h₁.allocate (run_orUndo_ok.mp taken')
  have headWord₂ : s₂.guest.word moduleHeadAddress = s.guest.word moduleHeadAddress := by
    rw [guest₂, guest₁]
  refine (fails_orUndo (fails_loadInto (restored_undo h₂ headWord₂))).bind fun linked s₃ stored => ?_
  obtain ⟨h₃, -, headWord₃⟩ := run_loadInto_ok h₂ List.mem_cons_self requested'
    (run_orUndo_ok.mp stored)
  have headWord₃ := (headWord₃ below).trans headWord₂
  refine fails_get_bind ((fails_orUndo (fails_ofExcept _ (restored_undo h₃ headWord₃))).bind
    fun _ _ run => ?_)
  obtain ⟨-, rfl⟩ := run_ofExcept_ok_iff.mp (run_orUndo_ok.mp run)
  apply fails_get_bind
  have member : metadata ∈ [image, metadata] := List.mem_cons_of_mem _ List.mem_cons_self
  refine (fails_orUndo (fails_publish h₃ member requested below headWord₃
    fun u held word => restored_undo held word)).bind fun _ s₄ published => ?_
  obtain ⟨h₄, -, descriptor⟩ := run_publish_ok h₃ member requested below
    (run_orUndo_ok.mp published)
  refine (fails_orUndo fun e u failed => ?_).bind fun exportIds s₅ listed => ?_
  · have relisted : Relisted s₄ u := by
      have leads : Leads Relisted s₄ (insertExports moduleId linked.exports []) :=
        relisted_insertExports _ _ _
      unfold Leads at leads
      rwa [failed] at leads
    exact restored_restoreHead h₄ descriptor.takes relisted below head
  have relisted := (relisted_insertExports _ _ _).of_ok (run_orUndo_ok.mp listed)
  refine (fails_orUndo fun e u failed => ?_).bind fun _ _ _ => (fails_modify _).bind
    fun _ _ _ => fails_pure _
  exact restored_restoreHead h₄ descriptor.takes
    (IsTrans.trans _ _ _ relisted (fails_insertRecord e u failed)) below head

end Load

end Loadcore

end Upse
