import Upse.Bios.Modules.Loading

/-!
# Loads that fail

A load can fail until the head of the module list is written, and not after it: the libraries and the
record it then enters have their places.  Before that it has only taken two blocks and written to the
guest, and giving the blocks back leaves the very tables it found.
-/

namespace Upse

open ErrorState

/-! ### Tables with room -/

namespace FixedTable

variable {T : Type} {N firstId : ℕ}

theorem insert_of_room {t : FixedTable T N firstId} (fits : firstId + N ≤ 2 ^ 32) (value : T)
    (room : t.len < N) : ∃ id u, t.insert value = .ok (id, u) ∧ u.len = t.len + 1 := by
  have some_free : ∃ entry ∈ t.entries, Option.isNone entry = true := by
    by_contra none
    have all : t.entries.countP Option.isSome = t.entries.length := by
      refine List.countP_eq_length.mpr fun entry mem => ?_
      cases entry with
      | some _ => rfl
      | none => exact absurd ⟨_, mem, rfl⟩ none
    rw [← t.len_eq, t.size_eq] at all
    omega
  cases found : t.entries.findIdx? Option.isNone with
  | none =>
    obtain ⟨entry, mem, free⟩ := some_free
    rw [List.findIdx?_eq_none_iff.mp found entry mem] at free
    cases free
  | some index =>
    obtain ⟨bound, free, -⟩ := List.findIdx?_eq_some_iff_getElem.mp found
    rw [t.size_eq] at bound
    have next : t.nextId = some (firstId + index) := by
      unfold nextId
      rw [found]
      exact checkedAdd_eq_some.mpr ⟨by omega, rfl⟩
    obtain ⟨absent, low, high, -⟩ := nextId_eq_some next
    obtain ⟨u, inserted⟩ := insertAt_of_free value absent low high
    refine ⟨firstId + index, u, ?_, ?_⟩
    · unfold insert
      rw [next]
      show (t.insertAt (firstId + index) value).map _ = _
      rw [inserted]
      rfl
    · unfold insertAt at inserted
      split at inserted
      next => cases inserted
      next =>
        split at inserted
        next => cases inserted; rfl
        next => cases inserted

theorem remove_of_insert {t u : FixedTable T N firstId} {id : ℕ} {value : T}
    (h : t.insert value = .ok (id, u)) : (u.remove id).2 = t := by
  obtain ⟨-, absent, -, -, entries⟩ := insert_eq_ok h
  refine ext_get fun j => ?_
  rw [get_remove, entries]
  split
  next same => rw [same, absent]
  next => rfl

end FixedTable

/-! ### Blocks that are given back -/

namespace SystemMemory

variable {memory memory' : SystemMemory}

theorem Sound.free_allocated (sound : memory.Sound) {mode : AllocationMode}
    {size address alignment : ℕ} {a : Allocation}
    (run : (SystemMemory.allocateAligned mode size address alignment).run memory = .ok a memory') :
    (SystemMemory.free a.address).run memory' = .ok a memory := by
  obtain ⟨sound', -, live, -⟩ := sound.allocateAligned_ok run
  obtain ⟨e, failed⟩ | ⟨reserved, selected, id, table, -, -, -, -, inserted, ran⟩ :=
    allocateAligned_cases memory mode size address alignment
  · rw [failed] at run
    cases run
  rw [ran] at run
  cases run
  obtain ⟨-, absent, -, -, entries⟩ := FixedTable.insert_eq_ok inserted
  have here : table.get id = some ⟨selected, reserved, size, alignment⟩ := by
    rw [entries, if_pos rfl]
  have fresh : ⟨selected, reserved, size, alignment⟩ ∉ memory.live :=
    (List.nodup_cons.mp (live.nodup_iff.mp sound'.nodup)).1
  obtain ⟨freedMemory, freed, -⟩ := sound'.free_ok (live.mem_iff.mpr List.mem_cons_self)
  rw [freed]
  obtain ⟨e, failed⟩ | ⟨other, b, found, freed'⟩ :=
    free_cases { memory with allocations := table } selected
  · rw [freed] at failed
    cases failed
  · rw [freed] at freed'
    cases freed'
    -- The entry that was found is the one that was inserted.
    by_cases same : other = id
    · rw [same, FixedTable.remove_of_insert inserted]
    · dsimp only at found
      rw [entries, if_neg same] at found
      refine absurd ?_ fresh
      exact List.mem_map.mpr ⟨_, (FixedTable.mem_iter (by decide)).mpr found, rfl⟩

end SystemMemory

namespace Loadcore

open GuestMemory

variable {s t u : Loadcore}

/-! ### Steps that cannot fail -/

theorem run_insertExports {moduleId : ℕ} {libraries : List ExportLibrary} {ids : List ℕ}
    (room : t.registry.libraries.len + libraries.length ≤ maxLibraries) :
    ∃ ids' u, (insertExports moduleId libraries ids).run t = .ok ids' u := by
  induction libraries generalizing t ids with
  | nil => exact ⟨ids, t, rfl⟩
  | cons library rest ih =>
    rw [List.length_cons] at room
    let registration : ExportRegistration := ⟨moduleId, library.name, library.version, library.mode,
      library.tableAddress, library.functions, 0⟩
    obtain ⟨id, table, inserted, length⟩ := FixedTable.insert_of_room (by decide) registration
      (show t.registry.libraries.len < maxLibraries by omega)
    have exported : t.registry.insertExport moduleId library =
        .ok (id, { t.registry with libraries := table }) := by
      unfold ModuleRegistry.insertExport
      rw [inserted]
      rfl
    obtain ⟨ids', u, ran⟩ := @ih { t with registry := { t.registry with libraries := table } }
      (ids ++ [id]) (show table.len + rest.length ≤ maxLibraries by omega)
    refine ⟨ids', u, ?_⟩
    unfold insertExports
    rw [run_get_bind, exported]
    exact ran

theorem room_of_validateExports {registry : ModuleRegistry} {libraries : List ExportLibrary}
    (h : registry.validateExports libraries = .ok ()) :
    registry.libraries.len + libraries.length ≤ maxLibraries := by
  unfold ModuleRegistry.validateExports at h
  split at h
  next => cases h
  next room =>
    have fits : registry.libraries.len ≤ maxLibraries := by
      rw [registry.libraries.len_eq]
      exact List.countP_le_length.trans registry.libraries.size_eq.le
    have capacity : registry.libraries.capacity = maxLibraries := rfl
    omega

theorem run_insertRecord {moduleId : ℕ} (record : ModuleRecord)
    (next : t.registry.modules.nextId = some moduleId) :
    ∃ u, (insertRecord moduleId record).run t = .ok () u := by
  obtain ⟨absent, low, high, -⟩ := FixedTable.nextId_eq_some next
  obtain ⟨modules, inserted⟩ := FixedTable.insertAt_of_free record absent low high
  refine ⟨{ t with registry := { t.registry with modules := modules } }, ?_⟩
  unfold insertRecord
  rw [run_get_bind, inserted]
  rfl

/-- Once there is room for the libraries and the record, nothing of a load fails any more. -/
theorem fails_enter {P : Loadcore → Prop} {moduleId : ℕ} {libraries : List ExportLibrary}
    {undo : LoadcoreM Unit} {record : List ℕ → ModuleRecord} {f : ModuleRegistry → ModuleRegistry}
    (room : t.registry.libraries.len + libraries.length ≤ maxLibraries)
    (next : t.registry.modules.nextId = some moduleId) : Fails P t (do
      let exportIds ← orUndo (insertExports moduleId libraries []) undo
      orUndo (insertRecord moduleId (record exportIds)) undo
      modifyRegistry f
      return moduleId) := by
  have listing : ∃ ids u, (insertExports moduleId libraries []).run t = .ok ids u := run_insertExports room
  obtain ⟨ids, u, listed⟩ := listing
  refine (fails_orUndo (fails_of_ok listed)).bind fun exportIds v run => ?_
  have relisted := (relisted_insertExports _ _ _).of_ok (run_orUndo_ok.mp run)
  have next' : v.registry.modules.nextId = some moduleId := relisted.modules ▸ next
  obtain ⟨w, recorded⟩ := run_insertRecord _ next'
  exact (fails_orUndo (fails_of_ok recorded)).bind fun _ _ _ => (fails_modify _).bind
    fun _ _ _ => fails_pure _

/-! ### What a failed load leaves -/

/-- The arena does not reach the word that holds the head. -/
def ArenaApart (memory : SystemMemory) : Prop :=
  moduleHeadAddress + 4 ≤ memory.start ∨ memory.stop ≤ moduleHeadAddress

/-- The tables and the head are as they were, and so is the word that holds the head where the arena
does not reach it. -/
structure RolledBack (s t : Loadcore) : Prop where
  memory : t.memory = s.memory
  registry : t.registry = s.registry
  headWord : ArenaApart s.memory → t.guest.word moduleHeadAddress = s.guest.word moduleHeadAddress

/-- The registry is as it was, and so is the word that holds the head. -/
structure Untouched (s : Loadcore) (memory : SystemMemory) (t : Loadcore) : Prop where
  memory : t.memory = memory
  registry : t.registry = s.registry
  headWord : ArenaApart s.memory → t.guest.word moduleHeadAddress = s.guest.word moduleHeadAddress

variable {memory : SystemMemory} {a image metadata : Allocation}

theorem Untouched.store (h : Untouched s memory t) (sound : memory.Sound)
    (range : memory.range = s.memory.range) (member : a ∈ memory.live) {start : ℕ}
    {input : List (BitVec 8)} (low : a.address ≤ start) (high : start + input.length ≤ a.stop) :
    Untouched s memory { t with guest := t.guest.store start input } := by
  refine ⟨h.memory, h.registry, fun apart => Eq.trans ?_ (h.headWord apart)⟩
  obtain ⟨above, below⟩ := sound.inside a member
  have starts : memory.start = s.memory.start := congrArg Prod.fst range
  have stops : memory.stop = s.memory.stop := congrArg Prod.snd range
  apply word_eq_of_sameAt
  apply store_sameAt
  unfold ArenaApart at apart
  omega

theorem run_free {memory memory' : SystemMemory} {address : ℕ} (h : t.memory = memory)
    (ran : (SystemMemory.free address).run memory = .ok a memory') :
    (free address).run t = .ok () { t with memory := memory' } := by
  have lifted : (onMemory (SystemMemory.free address)).run t = .ok a { t with memory := memory' } :=
    run_zoom_ok.mpr ⟨memory', h ▸ ran, rfl⟩
  unfold Loadcore.free
  rw [run_map, lifted]

theorem Untouched.undo {memory₁ memory₂ : SystemMemory} (h : Untouched s memory₂ t)
    (first : (SystemMemory.free metadata.address).run memory₁ = .ok metadata s.memory)
    (second : (SystemMemory.free image.address).run memory₂ = .ok image memory₁) :
    RolledBack s (leaves ((do free image.address; free metadata.address : LoadcoreM Unit).run t)) := by
  rw [run_bind_of_ok (run_free h.memory second), run_free rfl first]
  exact ⟨rfl, h.registry, h.headWord⟩

/-- The descriptor and the name are written to the block of the descriptor; once the head is written,
too, the publication does not fail. -/
theorem Untouched.publish {irx : IrxModule} {info : ModuleInfo} {P : Loadcore → Prop}
    (h : Untouched s memory t) (sound : memory.Sound) (range : memory.range = s.memory.range)
    (member : metadata ∈ memory.live)
    (requested : metadata.requestedSize = moduleInfoSize + (irx.name.length + 1))
    (ends : ∀ u, Untouched s memory u → P u) : Fails P t (publish irx metadata.address info) := by
  have enough := (sound.formed metadata member).enough
  unfold Loadcore.publish
  refine (fails_onGuest_writeGuest (ends t h)).bind fun _ _ run => ?_
  obtain ⟨-, rfl⟩ := run_onGuest_writeGuest_ok.mp run
  have described : Untouched s memory { t with
      guest := t.guest.store metadata.address info.encode } := by
    refine h.store sound range member (Nat.le_refl _) ?_
    rw [length_encode, Allocation.stop]
    omega
  refine (fails_onGuest_writeGuest (ends _ described)).bind fun _ _ run => ?_
  obtain ⟨-, rfl⟩ := run_onGuest_writeGuest_ok.mp run
  refine fails_onGuest_writeGuest (ends _ ?_)
  refine described.store sound range member (Nat.le_add_right _ _) ?_
  rw [List.length_append, List.length_singleton, Allocation.stop]
  omega

theorem registry_publish {irx : IrxModule} {info : ModuleInfo} {address : ℕ}
    (run : (publish irx address info).run t = .ok () u) : u.registry = t.registry := by
  simp only [publish, writeU32, run_bind_ok, run_onGuest_writeGuest_ok] at run
  obtain ⟨_, _, ⟨-, rfl⟩, _, _, ⟨-, rfl⟩, -, rfl⟩ := run
  rfl

theorem Untouched.loadInto {irx : IrxModule} {linked : LinkedImage irx.imageSize}
    (h : Untouched s memory t) (sound : memory.Sound) (range : memory.range = s.memory.range)
    (member : image ∈ memory.live) (requested : image.requestedSize = irx.imageSize)
    (run : (loadInto irx image).run t = .ok linked u) : Untouched s memory u := by
  have enough := (sound.formed image member).enough
  simp only [Loadcore.loadInto, run_bind_ok, run_throwIf_ok, run_get_ok, run_modify_ok, run_pure_ok,
    run_ofExcept_ok_iff] at run
  obtain ⟨_, _, ⟨-, rfl⟩, _, _, ⟨-, rfl⟩, _, _, ⟨-, rfl⟩, _, _, ⟨rfl, rfl⟩, _, _, ⟨-, rfl⟩, _, _,
    ⟨rfl, rfl⟩, _, _, ⟨-, rfl⟩, _, _, rfl, rfl, rfl⟩ := run
  refine h.store sound range member (Nat.le_refl _) ?_
  rw [Vector.length_toList, Allocation.stop]
  omega

/-- A load that fails leaves the tables, the head and, where the arena does not reach it, the word
that holds the head as they were. -/
theorem rolledBack_load {irx : IrxModule} (sound : s.memory.Sound) :
    Fails (RolledBack s) s (load irx) := by
  have unchanged : RolledBack s s := ⟨rfl, rfl, fun _ => rfl⟩
  apply fails_get_bind
  refine fails_okOr_bind unchanged fun moduleId next => ?_
  refine fails_throwIf_bind unchanged fun _ => ?_
  refine fails_ofExcept_bind unchanged fun _ _ => ?_
  refine fails_okOr_bind unchanged fun nameSize named => ?_
  refine fails_okOr_bind unchanged fun size sized => ?_
  obtain ⟨-, rfl⟩ := checkedAdd_eq_some.mp named
  obtain ⟨-, rfl⟩ := checkedAdd_eq_some.mp sized
  -- The block of the descriptor.
  refine (fails_allocate unchanged).bind fun metadata s₁ taken => ?_
  obtain ⟨memory₁, first, rfl⟩ := run_onMemory_ok taken
  obtain ⟨sound₁, range₁, live₁, requested⟩ := sound.allocateAligned_ok first
  have first := sound.free_allocated first
  have untouched₁ : Untouched s memory₁ { s with memory := memory₁ } := ⟨rfl, rfl, fun _ => rfl⟩
  refine (fails_orUndo (fails_allocate ?_)).bind fun image s₂ taken' => ?_
  · rw [run_free rfl first]
    exact ⟨rfl, rfl, fun _ => rfl⟩
  -- The block of the image.
  obtain ⟨memory₂, second, rfl⟩ := run_onMemory_ok (run_orUndo_ok.mp taken')
  obtain ⟨sound₂, range₂, live₂, requested'⟩ := sound₁.allocateAligned_ok second
  have second := sound₁.free_allocated second
  have range : memory₂.range = s.memory.range := range₂.trans range₁
  have imageMember : image ∈ memory₂.live := live₂.mem_iff.mpr List.mem_cons_self
  have metadataMember : metadata ∈ memory₂.live :=
    live₂.mem_iff.mpr (List.mem_cons_of_mem _ (live₁.mem_iff.mpr List.mem_cons_self))
  have untouched : Untouched s memory₂ { s with memory := memory₂ } := ⟨rfl, rfl, fun _ => rfl⟩
  refine (fails_orUndo (fails_loadInto (untouched.undo first second))).bind fun linked s₃ stored => ?_
  have loaded := untouched.loadInto sound₂ range imageMember requested' (run_orUndo_ok.mp stored)
  refine fails_get_bind ((fails_orUndo (fails_ofExcept _ (loaded.undo first second))).bind
    fun _ _ run => ?_)
  obtain ⟨validated, rfl⟩ := run_ofExcept_ok_iff.mp (run_orUndo_ok.mp run)
  apply fails_get_bind
  refine (fails_orUndo (loaded.publish sound₂ range metadataMember requested
    fun v untouched => untouched.undo first second)).bind fun _ s₄ published => ?_
  -- The head is written, and nothing fails any more.
  have registry : s₄.registry = s.registry :=
    (registry_publish (run_orUndo_ok.mp published)).trans loaded.registry
  have room : s₄.registry.libraries.len + linked.exports.length ≤ maxLibraries := by
    rw [registry, ← loaded.registry]
    exact room_of_validateExports (except_mapError_ok.mp validated)
  have next' : s₄.registry.modules.nextId = some moduleId := registry ▸ next
  exact fails_enter room next'

/-- A load that fails leaves the allocator, the modules, the libraries and the head as they were, and
the guest's word for the head, too, where the arena does not reach it. -/
theorem load_rolls_back {start stop : Word} {ops : List MemoryOp} {memory₀ : SystemMemory}
    (created : SystemMemory.new start stop = .ok memory₀)
    (ran : Run SystemMemory.Next memory₀ ops s.memory) (irx : IrxModule) {e : ModuleError}
    (failed : (load irx).run s = .error e t) :
    t.memory = s.memory ∧ t.registry.modules = s.registry.modules ∧
      t.registry.libraries = s.registry.libraries ∧ t.registry.head = s.registry.head ∧
      (ArenaApart s.memory → t.guest.word moduleHeadAddress = s.guest.word moduleHeadAddress) := by
  obtain ⟨sound, -⟩ := SystemMemory.sound_run created ran
  have back := rolledBack_load sound e t failed
  refine ⟨back.memory, ?_, ?_, ?_, back.headWord⟩
  · rw [back.registry]
  · rw [back.registry]
  · rw [back.registry]

/-- A module with a long name. -/
def longNamed : IrxModule where
  name := List.replicate 60 0x61
  version := 0x101
  variant := .relocatableV2
  textSize := 4
  dataSize := 0
  bssSize := 0
  preferredAddress := 0
  alignment := 16
  imageSize := 4
  link _ := .ok ⟨Vector.replicate 4 0, 0, 0, []⟩

/-- A guest that takes every write but that of the head, and an empty arena. -/
def refusingHead (start stop : ℕ) : Loadcore where
  registry := .new
  memory := ⟨start, stop, .new⟩
  guest := ⟨⟨0, 0x200000⟩, fun address _ => address != moduleHeadAddress, fun _ => 0⟩

/-- What a failed load leaves. -/
def leftOver {α : Type} : EStateM.Result ModuleError Loadcore α → Option Loadcore
  | .ok _ _ => none
  | .error _ t => some t

theorem leftOver_eq_some {α : Type} {result : EStateM.Result ModuleError Loadcore α}
    (h : leftOver result = some t) : ∃ e, result = .error e t := by
  cases result with
  | ok a u => cases h
  | error e u => cases h; exact ⟨e, rfl⟩

/-- Two modules are loaded and the first is unloaded again; the guest then refuses to write the head. -/
def refusingLater : Loadcore :=
  let s := after (reset zeroedGuest) [.load plainModule, .load longNamed, .unload 1]
  { s with guest := { s.guest with accepts := fun address _ => address != moduleHeadAddress } }

/-- What the loads and the unload did to the arena. -/
def arenaOps : List MemoryOp :=
  [.allocate .first (moduleInfoSize + 2) 0, .allocateAligned .first 4 0 0x100,
    .allocate .first (moduleInfoSize + 61) 0, .allocateAligned .first 4 0 0x100, .free 0x10100, .free 0x10000]

theorem memory_ext {m m' : SystemMemory} (start : m.start = m'.start) (stop : m.stop = m'.stop)
    (entries : m.allocations.entries = m'.allocations.entries) : m = m' := by
  cases m
  cases m'
  cases start
  cases stop
  exact congrArg _ (FixedTable.ext_entries entries)

theorem load_rolls_back_sample :
    ∃ e t, (load plainModule).run refusingLater = .error e t ∧
      t.memory = refusingLater.memory ∧
      (t.registry.modules.get 1).isNone = true ∧ (t.registry.modules.get 2).isSome = true ∧
      t.guest.word moduleHeadAddress = 0x10200 := by
  have fails : (leftOver ((load plainModule).run refusingLater)).isSome = true := by decide +kernel
  obtain ⟨t, left⟩ := Option.isSome_iff_exists.mp fails
  obtain ⟨e, failed⟩ := leftOver_eq_some left
  have created : SystemMemory.new 0x10000 0x200000 = .ok ⟨0x10000, 0x200000, .new⟩ := rfl
  have ran : Run SystemMemory.Next ⟨0x10000, 0x200000, .new⟩ arenaOps refusingLater.memory := by
    let arena := arenaOps.foldl (fun memory (op : MemoryOp) => leaves (op.perform.run memory))
      (⟨0x10000, 0x200000, .new⟩ : SystemMemory)
    have entries : arena.allocations.entries = refusingLater.memory.allocations.entries := by
      decide +kernel
    rw [← memory_ext (by decide +kernel) (by decide +kernel) entries]
    exact Run.foldl _ _ _
  obtain ⟨memory, modules, -, -, headWord⟩ := load_rolls_back created ran plainModule failed
  refine ⟨e, t, failed, memory, ?_, ?_, ?_⟩
  · rw [modules]
    decide +kernel
  · rw [modules]
    decide +kernel
  · rw [headWord (.inl (by decide +kernel))]
    decide +kernel

/-- An arena around the word of the head: the name of the module is written over it. -/
theorem name_over_head_word :
    ∃ e t, SystemMemory.new 0x200 0x400 = .ok (refusingHead 0x200 0x400).memory ∧
      (load longNamed).run (refusingHead 0x200 0x400) = .error e t ∧
      t.guest.word moduleHeadAddress ≠ (refusingHead 0x200 0x400).guest.word moduleHeadAddress := by
  have word : (leftOver ((load longNamed).run (refusingHead 0x200 0x400))).map
      (fun t => t.guest.word moduleHeadAddress) = some 0x61616161 := by decide +kernel
  obtain ⟨t, left, word⟩ := Option.map_eq_some_iff.mp word
  obtain ⟨e, failed⟩ := leftOver_eq_some left
  refine ⟨e, t, rfl, failed, ?_⟩
  rw [word]
  decide

end Loadcore

end Upse
