import Upse.Bios.Modules.Loading
import Upse.Lib.NextPath

/-!
# The module list in guest memory

The guest finds the loaded modules by following `next` from the word at `moduleHeadAddress`.  The
list it finds is that of the registry, newest first, and each descriptor is the encoding of the
module's record.
-/

namespace Upse

open ErrorState NextPath

namespace Loadcore

open GuestMemory

variable {s t u : Loadcore} {order : List ℕ} {id : ℕ}

/-! ### The invariant -/

/-- The address of the descriptor of a module. -/
def infoAddressOf (registry : ModuleRegistry) (id : ℕ) : ℕ :=
  ((registry.get id).map ModuleRecord.infoAddress).getD 0

/-- The blocks of a module are live, and its descriptor stands in its metadata block. -/
structure Shown (s : Loadcore) (record : ModuleRecord) : Prop where
  live : ∀ b ∈ blocks record, b ∈ s.memory.live
  differ : record.imageAllocation ≠ record.metadataAllocation
  address : record.infoAddress = record.metadataAllocation.address
  requested : moduleInfoSize ≤ record.metadataAllocation.requestedSize
  bytes : s.guest.bytes record.infoAddress moduleInfoSize = record.info.encode
  flags : record.info.newFlags = record.state.newFlags
  next : record.info.next < 2 ^ 32

/-- The guest's list shows the modules of the registry in this order. -/
structure Listed (order : List ℕ) (s : Loadcore) : Prop where
  sound : s.memory.Sound
  range : s.memory.range = (defaultHeapStart, defaultHeapEnd)
  members : ∀ id, id ∈ order ↔ ∃ record, s.registry.get id = some record
  nodup : order.Nodup
  shown : ∀ id record, s.registry.get id = some record → Shown s record
  own : ∀ i j r r', s.registry.get i = some r → s.registry.get j = some r' → ∀ b ∈ blocks r,
    b ∈ blocks r' → i = j
  head : s.guest.word moduleHeadAddress = s.registry.head
  path : Path s.guest.word s.registry.head (order.map (infoAddressOf s.registry))

theorem metadata_mem (record : ModuleRecord) : record.metadataAllocation ∈ blocks record :=
  List.mem_cons_of_mem _ List.mem_cons_self

theorem infoAddressOf_of_get {registry : ModuleRegistry} {record : ModuleRecord}
    (found : registry.get id = some record) : infoAddressOf registry id = record.infoAddress := by
  rw [infoAddressOf, found]
  rfl

section Listed

variable {record record' : ModuleRecord}

theorem Shown.inside (h : Shown s record) (sound : s.memory.Sound) :
    s.memory.start ≤ record.infoAddress ∧ record.infoAddress + moduleInfoSize ≤
      record.metadataAllocation.stop := by
  have live := h.live _ (metadata_mem record)
  have enough := (sound.formed _ live).enough
  have requested := h.requested
  have inside := (sound.inside _ live).1
  rw [h.address, Allocation.stop]
  omega

theorem Listed.start (h : Listed order s) : s.memory.start = defaultHeapStart :=
  congrArg Prod.fst h.range

theorem Listed.below (h : Listed order s) : moduleHeadAddress + 4 ≤ s.memory.start := by
  rw [h.start]
  decide

theorem Listed.apart (h : Listed order s) {i j : ℕ} (found : s.registry.get i = some record)
    (found' : s.registry.get j = some record') (differ : i ≠ j) :
    record.infoAddress + moduleInfoSize ≤ record'.infoAddress ∨
      record'.infoAddress + moduleInfoSize ≤ record.infoAddress := by
  have shown := h.shown i record found
  have shown' := h.shown j record' found'
  have other : record.metadataAllocation ≠ record'.metadataAllocation := by
    intro same
    apply differ
    exact h.own i j record record' found found' _ (metadata_mem record) (same ▸ metadata_mem record')
  have order := h.sound.ordered_of_ne (shown.live _ (metadata_mem record))
    (shown'.live _ (metadata_mem record')) other
  have inside := shown.inside h.sound
  have inside' := shown'.inside h.sound
  have address := shown.address
  have address' := shown'.address
  omega

theorem Listed.eq_of_address (h : Listed order s) {i j : ℕ} (found : s.registry.get i = some record)
    (found' : s.registry.get j = some record') (same : record.infoAddress = record'.infoAddress) :
    i = j := by
  by_contra differ
  have apart := h.apart found found' differ
  rw [same, moduleInfoSize] at apart
  omega

theorem Shown.word (h : Shown s record) :
    s.guest.word record.infoAddress = record.info.next := by
  have bytes := h.bytes
  rw [show moduleInfoSize = 4 + 44 from rfl, bytes_add] at bytes
  have first := (List.append_inj bytes (by rw [length_bytes, length_leBytes])).1
  rw [GuestMemory.word, first, ofLeBytes_leBytes]
  exact Nat.mod_eq_of_lt h.next

/-- What keeps the modules, their blocks, their descriptors and the head keeps the list. -/
theorem Listed.frame (h : Listed order s) (modules : t.registry.modules = s.registry.modules)
    (head : t.registry.head = s.registry.head) (sound : t.memory.Sound)
    (range : t.memory.range = s.memory.range)
    (live : ∀ id record, s.registry.get id = some record → ∀ b ∈ blocks record, b ∈ t.memory.live)
    (descriptors : ∀ id record, s.registry.get id = some record →
      SameAt s.guest t.guest record.infoAddress moduleInfoSize)
    (headWord : t.guest.word moduleHeadAddress = s.guest.word moduleHeadAddress) :
    Listed order t := by
  have same : ∀ id, t.registry.get id = s.registry.get id := by
    intro id
    rw [ModuleRegistry.get, modules, ModuleRegistry.get]
  have addresses : infoAddressOf t.registry = infoAddressOf s.registry := by
    funext id
    rw [infoAddressOf, same, infoAddressOf]
  refine ⟨sound, range.trans h.range, fun id => ?_, h.nodup, fun id record found => ?_,
    fun i j r r' found found' => ?_, ?_, ?_⟩
  · rw [same]
    exact h.members id
  · rw [same] at found
    have shown := h.shown id record found
    exact ⟨live id record found, shown.differ, shown.address, shown.requested,
      (bytes_eq_of_sameAt (descriptors id record found)).trans shown.bytes, shown.flags, shown.next⟩
  · rw [same] at found found'
    exact h.own i j r r' found found'
  · rw [headWord, head, h.head]
  · rw [head, addresses]
    refine h.path.congr fun b member => ?_
    obtain ⟨id, listed, rfl⟩ := List.mem_map.mp member
    obtain ⟨record, found⟩ := (h.members id).mp listed
    rw [infoAddressOf_of_get found]
    exact word_eq_of_sameAt ((descriptors id record found).sub (Nat.le_refl _)
      (Nat.add_le_add_left (by decide) _))

theorem Listed.relisted (h : Listed order s) (relisted : Relisted s t) : Listed order t := by
  refine h.frame relisted.modules relisted.head (relisted.memory ▸ h.sound)
    (congrArg SystemMemory.range relisted.memory) ?_ ?_ (by rw [relisted.guest])
  · rw [relisted.memory]
    exact fun id record found => (h.shown id record found).live
  · rw [relisted.guest]
    exact fun _ _ _ _ _ _ => rfl

theorem Listed.restored (h : Listed order s) (restored : Restored s t) : Listed order t := by
  have held := restored.holding
  refine h.frame held.modules held.head held.sound held.range
    (fun id record found b member => held.mem_old ((h.shown id record found).live b member))
    (fun id record found => ?_) restored.headWord
  have shown := h.shown id record found
  have inside := shown.inside h.sound
  refine (held.guest _ (shown.live _ (metadata_mem record))).sub (Nat.le_of_eq shown.address.symm) ?_
  exact inside.2

/-! ### Loading -/

theorem Listed.loaded (h : Listed order s) (loaded : LoadedAs id record s t) :
    Listed (id :: order) t := by
  have isNew : id ∉ order := by
    intro member
    obtain ⟨other, found⟩ := (h.members id).mp member
    rw [loaded.free] at found
    cases found
  have nodup := loaded.live.nodup_iff.mp loaded.sound.nodup
  have fresh : ∀ b ∈ blocks record, b ∉ s.memory.live := by
    intro b member old
    exact List.disjoint_of_nodup_append nodup member old
  have live : ∀ b ∈ blocks record, b ∈ t.memory.live := by
    intro b member
    exact loaded.live.mem_iff.mpr (List.mem_append_left _ member)
  have old : ∀ b ∈ s.memory.live, b ∈ t.memory.live := fun b member =>
    loaded.live.mem_iff.mpr (List.mem_append_right _ member)
  have shownNew : Shown t record := by
    refine ⟨live, ?_, loaded.address, loaded.requested, loaded.bytes, loaded.flags, ?_⟩
    · intro same
      exact (List.nodup_cons.mp nodup).1 (same ▸ List.mem_cons_self)
    · rw [loaded.next, ← h.head]
      exact word_lt _ _
  have descriptors : ∀ j r, s.registry.get j = some r →
      SameAt s.guest t.guest r.infoAddress moduleInfoSize := by
    intro j r found
    have shown := h.shown j r found
    exact (loaded.guest _ (shown.live _ (metadata_mem r))).sub (Nat.le_of_eq shown.address.symm)
      (shown.inside h.sound).2
  have getOld : ∀ j ∈ order, t.registry.get j = s.registry.get j := by
    intro j member
    rw [loaded.modules, if_neg]
    rintro rfl
    exact isNew member
  have getNew : t.registry.get id = some record := by rw [loaded.modules, if_pos rfl]
  refine ⟨loaded.sound, loaded.range.trans h.range, fun j => ?_, List.nodup_cons.mpr ⟨isNew, h.nodup⟩,
    fun j r found => ?_, fun i j r r' found found' b member member' => ?_, ?_, ?_⟩
  · rw [loaded.modules, List.mem_cons]
    split
    next same => exact ⟨fun _ => ⟨record, rfl⟩, fun _ => .inl same⟩
    next differ => rw [h.members, or_iff_right differ]
  · rw [loaded.modules] at found
    split at found
    next => cases found; exact shownNew
    next =>
      have shown := h.shown j r found
      exact ⟨fun b member => old b (shown.live b member), shown.differ, shown.address,
        shown.requested, (bytes_eq_of_sameAt (descriptors j r found)).trans shown.bytes, shown.flags,
        shown.next⟩
  · rw [loaded.modules] at found found'
    split at found
    next same =>
      cases found
      split at found'
      next same' => exact same.trans same'.symm
      next => exact absurd ((h.shown j r' found').live b member') (fresh b member)
    next =>
      split at found'
      next => cases found'; exact absurd ((h.shown i r found).live b member) (fresh b member')
      next => exact h.own i j r r' found found' b member member'
  · rw [loaded.headWord, loaded.head]
    have inside := shownNew.inside loaded.sound
    have live := loaded.sound.inside _ (live _ (metadata_mem record))
    exact Nat.mod_eq_of_lt (by have := loaded.sound.stop_lt; unfold moduleInfoSize at inside; omega)
  · rw [loaded.head, List.map_cons, infoAddressOf_of_get getNew]
    have inside := shownNew.inside loaded.sound
    have start : t.memory.start = defaultHeapStart := congrArg Prod.fst (loaded.range.trans h.range)
    refine ⟨rfl, ?_, ?_⟩
    · rw [start] at inside
      unfold defaultHeapStart at inside
      omega
    · rw [shownNew.word, loaded.next]
      have addresses : order.map (infoAddressOf t.registry) = order.map (infoAddressOf s.registry) := by
        refine List.map_congr_left fun j member => ?_
        rw [infoAddressOf, getOld j member, infoAddressOf]
      rw [addresses]
      refine h.path.congr fun b member => ?_
      obtain ⟨j, listed, rfl⟩ := List.mem_map.mp member
      obtain ⟨r, found⟩ := (h.members j).mp listed
      rw [infoAddressOf_of_get found]
      exact word_eq_of_sameAt ((descriptors j r found).sub (Nat.le_refl _)
        (Nat.add_le_add_left (by decide) _))

/-! ### Starting and stopping -/

theorem Listed.store_apart (h : Listed order s) (found : s.registry.get id = some record)
    {start : ℕ} {input : List (BitVec 8)} (low : record.infoAddress ≤ start)
    (high : start + input.length ≤ record.infoAddress + moduleInfoSize) :
    (∀ j r, s.registry.get j = some r → j ≠ id →
      SameAt s.guest (s.guest.store start input) r.infoAddress moduleInfoSize) ∧
      (s.guest.store start input).word moduleHeadAddress = s.guest.word moduleHeadAddress := by
  constructor
  · intro j r found' differ
    have apart := h.apart found found' differ.symm
    apply store_sameAt
    omega
  · have inside := ((h.shown id record found).inside h.sound).1
    have below := h.below
    apply word_eq_of_sameAt
    apply store_sameAt
    left
    omega

variable {state : ModuleState} {P : Loadcore → Prop}

theorem run_setState_ok {a : Unit} (run : (setState id state).run s = .ok a t) :
    ∃ record, s.registry.get id = some record ∧ t = { s with
      guest := s.guest.store (record.infoAddress + 10) (leBytes 2 state.newFlags)
      registry := { s.registry with
        modules := s.registry.modules.modify id fun record =>
          { record with state := state, info := { record.info with newFlags := state.newFlags } } } } := by
  simp only [setState, run_bind_ok, run_get_ok, run_okOr_ok, writeU16, run_onGuest_writeGuest_ok] at run
  obtain ⟨_, _, ⟨rfl, rfl⟩, record, _, ⟨found, rfl⟩, _, _, ⟨-, rfl⟩, ran⟩ := run
  obtain rfl := run_modify_ok.mp ran
  exact ⟨record, found, rfl⟩

theorem fails_setState (h : P s) :
    Fails P s (setState id state) := by
  refine fails_get_bind (fails_okOr_bind h fun _ _ => ?_)
  exact (fails_onGuest_writeGuest h).bind fun _ _ _ => fails_modify _

theorem bytes_setState {guest : GuestMemory} {address : ℕ} {info : ModuleInfo} (flags : ℕ)
    (bytes : guest.bytes address moduleInfoSize = info.encode) :
    (guest.store (address + 10) (leBytes 2 flags)).bytes address moduleInfoSize =
      { info with newFlags := flags }.encode := by
  have size : moduleInfoSize = 10 + (2 + 36) := rfl
  have whole : guest.bytes address (10 + ((leBytes 2 flags).length + 36)) =
      (leBytes 4 info.next ++ (leBytes 4 info.name ++ leBytes 2 info.version)) ++
        (leBytes 2 info.newFlags ++ (leBytes 2 info.id ++ (leBytes 2 info.flags ++
        (leBytes 4 info.entry ++ (leBytes 4 info.globalPointer ++ (leBytes 4 info.textStart ++
        (leBytes 4 info.textSize ++ (leBytes 4 info.dataSize ++ (leBytes 4 info.bssSize ++
        (leBytes 4 info.unused1 ++ leBytes 4 info.unused2)))))))))) := by
    rw [length_leBytes]
    rw [size] at bytes
    simpa only [ModuleInfo.encode, List.append_assoc] using bytes
  have stored := bytes_store_inside whole (by simp) (by simp)
  rw [length_leBytes, ← size] at stored
  simpa only [ModuleInfo.encode, List.append_assoc] using stored

/-- A record of `t` is one of `s` with the same blocks, and its descriptor is in guest memory. -/
structure Edited (s t : Loadcore) (record record' : ModuleRecord) : Prop where
  address : record'.infoAddress = record.infoAddress
  metadata : record'.metadataAllocation = record.metadataAllocation
  image : record'.imageAllocation = record.imageAllocation
  live : ∀ b ∈ blocks record, b ∈ t.memory.live
  bytes : t.guest.bytes record.infoAddress moduleInfoSize = record'.info.encode
  flags : record'.info.newFlags = record'.state.newFlags
  next : record'.info.next < 2 ^ 32

theorem Listed.edited {order' : List ℕ} (h : Listed order s) (sound : t.memory.Sound)
    (range : t.memory.range = s.memory.range)
    (members : ∀ j, j ∈ order' ↔ ∃ record, t.registry.get j = some record) (nodup : order'.Nodup)
    (edited : ∀ j r', t.registry.get j = some r' →
      ∃ r, s.registry.get j = some r ∧ Edited s t r r')
    (head : t.guest.word moduleHeadAddress = t.registry.head)
    (path : Path t.guest.word t.registry.head (order'.map (infoAddressOf s.registry))) :
    Listed order' t := by
  refine ⟨sound, range.trans h.range, members, nodup, fun j r' found => ?_,
    fun i j r' q' found found' b member member' => ?_, head, ?_⟩
  · obtain ⟨r, before, edit⟩ := edited j r' found
    have shown := h.shown j r before
    refine ⟨?_, ?_, ?_, ?_, ?_, edit.flags, edit.next⟩
    · rw [blocks, edit.metadata, edit.image]
      exact edit.live
    · rw [edit.metadata, edit.image]
      exact shown.differ
    · rw [edit.address, edit.metadata]
      exact shown.address
    · rw [edit.metadata]
      exact shown.requested
    · rw [edit.address]
      exact edit.bytes
  · obtain ⟨r, before, edit⟩ := edited i r' found
    obtain ⟨q, before', edit'⟩ := edited j q' found'
    rw [blocks, edit.metadata, edit.image] at member
    rw [blocks, edit'.metadata, edit'.image] at member'
    exact h.own i j r q before before' b member member'
  · have addresses : order'.map (infoAddressOf t.registry) =
        order'.map (infoAddressOf s.registry) := by
      refine List.map_congr_left fun j member => ?_
      obtain ⟨r', found⟩ := (members j).mp member
      obtain ⟨r, before, edit⟩ := edited j r' found
      rw [infoAddressOf_of_get found, infoAddressOf_of_get before, edit.address]
    rw [addresses]
    exact path

theorem listed_setState :
    Leads (Keeps (Listed order)) s (setState id state) := by
  refine leads_of_fails ?_ (fails_setState fun h => h)
  rintro a t run h
  obtain ⟨record, found, rfl⟩ := run_setState_ok run
  have shown := h.shown id record found
  have inside : record.infoAddress + 10 + (leBytes 2 state.newFlags).length ≤
      record.infoAddress + moduleInfoSize := by
    rw [length_leBytes]
    exact Nat.add_le_add_left (show 10 + 2 ≤ moduleInfoSize by decide) record.infoAddress
  obtain ⟨others, headWord⟩ := h.store_apart found (Nat.le_add_right record.infoAddress 10) inside
  have getEach : ∀ j, ModuleRegistry.get { s.registry with
      modules := s.registry.modules.modify id fun record =>
        { record with state := state, info := { record.info with newFlags := state.newFlags } } } j =
      if j = id then some { record with
        state := state
        info := { record.info with newFlags := state.newFlags } } else s.registry.get j := by
    intro j
    have found' : s.registry.modules.get id = some record := found
    rw [ModuleRegistry.get, FixedTable.get_modify, found']
    rfl
  refine h.edited h.sound rfl (fun j => ?_) h.nodup (fun j r' found' => ?_) ?_ ?_
  · rw [getEach, h.members]
    split
    next same => exact ⟨fun _ => ⟨_, rfl⟩, fun _ => ⟨record, same ▸ found⟩⟩
    next => exact Iff.rfl
  · rw [getEach] at found'
    split at found'
    next same =>
      cases found'
      exact ⟨record, same ▸ found, rfl, rfl, rfl, shown.live, bytes_setState _ shown.bytes, rfl,
        shown.next⟩
    next differ =>
      have kept := h.shown j r' found'
      exact ⟨r', found', rfl, rfl, rfl, kept.live,
        (bytes_eq_of_sameAt (others j r' found' differ)).trans kept.bytes, kept.flags, kept.next⟩
  · exact headWord.trans h.head
  · refine h.path.congr fun b member => ?_
    obtain ⟨j, listed, rfl⟩ := List.mem_map.mp member
    obtain ⟨r, found'⟩ := (h.members j).mp listed
    rw [infoAddressOf_of_get found']
    apply word_eq_of_sameAt
    by_cases same : j = id
    · subst same
      obtain rfl := Option.some.inj (found.symm.trans found')
      exact store_sameAt _ (.inl (Nat.add_le_add_left (by decide) _))
    · exact (others j r found' same).sub (Nat.le_refl _) (Nat.add_le_add_left (by decide) _)

theorem listed_guard (error : Option KernelError) :
    Leads (Keeps (Listed order)) s (guard error) := by
  cases error with
  | none => exact leads_pure ()
  | some e => exact leads_throw _

theorem listed_begin {error : ModuleState → Option KernelError} :
    Leads (Keeps (Listed order)) s (begin error state id) :=
  leads_get_bind (leads_okOr_bind fun _ _ => (listed_guard _).bind fun _ _ _ =>
    listed_setState.returning)

theorem listed_completeStart {result : ResidentState} :
    Leads (Keeps (Listed order)) s (completeStart id result) := by
  refine leads_get_bind (leads_okOr_bind fun _ _ => leads_throwIf_bind fun _ => ?_)
  cases result with
  | unstarted => exact leads_throw _
  | resident => exact listed_setState.returning
  | notResident => exact listed_setState.returning
  | removable => exact listed_setState.returning

theorem listed_completeStop {result : ℤ} :
    Leads (Keeps (Listed order)) s (completeStop id result) :=
  leads_get_bind (leads_okOr_bind fun _ _ => leads_throwIf_bind fun _ =>
    listed_setState.returning)

/-! ### Unloading -/

theorem fails_unlink {address next : ℕ} (h : P s) :
    Fails P s (unlink id address next) := by
  apply fails_get_bind
  split
  next => exact (fails_onGuest_writeGuest h).bind fun _ _ _ => fails_modify _
  next =>
    refine fails_get_bind (fails_throwIf_bind h fun _ => ?_)
    exact (fails_onGuest_writeGuest h).bind fun _ _ _ => fails_modify _

/-- The list without one of its modules, whose record and blocks are still there. -/
structure Unlinked (order : List ℕ) (id : ℕ) (record : ModuleRecord) (s t : Loadcore) : Prop where
  memory : t.memory = s.memory
  found : t.registry.get id = some record
  members : ∀ j, j ≠ id →
    ((∃ r', t.registry.get j = some r') ↔ ∃ r, s.registry.get j = some r)
  edited : ∀ j r', j ≠ id → t.registry.get j = some r' →
    ∃ r, s.registry.get j = some r ∧ Edited s t r r'
  head : t.guest.word moduleHeadAddress = t.registry.head
  path : Path t.guest.word t.registry.head ((order.erase id).map (infoAddressOf s.registry))

theorem Listed.before (h : Listed order s) {other : ℕ} (found : s.registry.get id = some record)
    (found' : s.registry.get other = some record') (leads : record'.info.next = record.infoAddress) :
    ∃ front back, order = front ++ other :: id :: back := by
  have member := (h.members other).mpr ⟨record', found'⟩
  have visited := (h.members id).mpr ⟨record, found⟩
  have word : s.guest.word (infoAddressOf s.registry other) = infoAddressOf s.registry id := by
    rw [infoAddressOf_of_get found, infoAddressOf_of_get found', (h.shown other record' found').word,
      leads]
  obtain ⟨front, back, split⟩ := h.path.successor (List.mem_map_of_mem member) word
    (h.path.ne_zero (List.mem_map_of_mem visited))
  obtain ⟨front, rest, rfl, -, split⟩ := List.map_eq_append_iff.mp split
  obtain ⟨i, rest, rfl, address, split⟩ := List.map_eq_cons_iff.mp split
  obtain ⟨j, back, rfl, address', -⟩ := List.map_eq_cons_iff.mp split
  obtain ⟨r, foundI⟩ := (h.members i).mp (by simp)
  obtain ⟨q, foundJ⟩ := (h.members j).mp (by simp)
  rw [infoAddressOf_of_get foundI, infoAddressOf_of_get found'] at address
  rw [infoAddressOf_of_get foundJ, infoAddressOf_of_get found] at address'
  obtain rfl := h.eq_of_address foundI found' address
  obtain rfl := h.eq_of_address foundJ found address'
  exact ⟨front, back, rfl⟩

theorem bytes_link {guest : GuestMemory} {address : ℕ} {info : ModuleInfo} (next : ℕ)
    (bytes : guest.bytes address moduleInfoSize = info.encode) :
    (guest.store address (leBytes 4 next)).bytes address moduleInfoSize =
      { info with next := next }.encode := by
  have split : ∀ next, ModuleInfo.encode { info with next := next } =
      leBytes 4 next ++ info.encode.drop 4 := by
    intro next
    unfold ModuleInfo.encode
    rw [List.drop_left' (length_leBytes 4 info.next)]
  have whole : guest.bytes address (0 + ((leBytes 4 next).length + 44)) =
      [] ++ (leBytes 4 info.next ++ info.encode.drop 4) := by
    rw [length_leBytes]
    exact bytes.trans (split info.next)
  have stored := bytes_store_inside whole rfl (by rw [length_leBytes, length_leBytes])
  rw [length_leBytes] at stored
  exact stored.trans (split next).symm

theorem Listed.unlinked (h : Listed order s) (found : s.registry.get id = some record) {a : Unit}
    (run : (unlink id record.infoAddress record.info.next).run s = .ok a u) :
    Unlinked order id record s u := by
  have shown := h.shown id record found
  rcases run_unlink_ok run with ⟨other, r, guest, chosen, written, rfl⟩ |
    ⟨guest, -, first, written, rfl⟩
  · obtain ⟨-, rfl⟩ := run_writeGuest_ok.mp written
    have differ := predecessor_ne chosen
    have found' : s.registry.get other = some r :=
      (FixedTable.mem_iter (by decide)).mp (List.mem_of_find?_eq_some chosen)
    have leads : r.info.next = record.infoAddress := by
      have test := List.find?_some chosen
      simp only [ne_eq, decide_eq_true_eq] at test
      exact test.2
    obtain ⟨front, back, rfl⟩ := h.before found found' leads
    have shown' := h.shown other r found'
    have inside : r.infoAddress + (leBytes 4 record.info.next).length ≤
        r.infoAddress + moduleInfoSize := by
      rw [length_leBytes]
      exact Nat.add_le_add_left (show 4 ≤ moduleInfoSize by decide) r.infoAddress
    obtain ⟨others, headWord⟩ := h.store_apart found' (Nat.le_refl _) inside
    have getEach : ∀ j, ModuleRegistry.get { s.registry with
        modules := s.registry.modules.modify other fun r =>
          { r with info := { r.info with next := record.info.next } } } j =
        if j = other then some { r with info := { r.info with next := record.info.next } }
        else s.registry.get j := by
      intro j
      have listed : s.registry.modules.get other = some r := found'
      rw [ModuleRegistry.get, FixedTable.get_modify, listed]
      rfl
    have erased : (front ++ other :: id :: back).erase id = front ++ other :: back := by
      have distinct := List.nodup_middle.mp
        ((List.append_assoc front [other] (id :: back)).symm ▸ h.nodup :
          (front ++ [other] ++ id :: back).Nodup)
      have absent := (List.nodup_cons.mp distinct).1
      rw [List.append_cons, List.erase_append_right _ fun member =>
        absent (List.mem_append_left _ member), List.erase_cons_head, List.append_assoc]
      rfl
    refine ⟨rfl, ?_, fun j _ => ?_, fun j r' _ found'' => ?_, headWord.trans h.head, ?_⟩
    · rw [getEach, if_neg differ.symm]
      exact found
    · rw [getEach]
      split
      next same => exact ⟨fun _ => ⟨r, same ▸ found'⟩, fun _ => ⟨_, rfl⟩⟩
      next => exact Iff.rfl
    · rw [getEach] at found''
      split at found''
      next same =>
        cases found''
        exact ⟨r, same ▸ found', rfl, rfl, rfl, shown'.live, bytes_link _ shown'.bytes, shown'.flags,
          shown.next⟩
      next apart =>
        have kept := h.shown j r' found''
        exact ⟨r', found'', rfl, rfl, rfl, kept.live,
          (bytes_eq_of_sameAt (others j r' found'' apart)).trans kept.bytes, kept.flags, kept.next⟩
    · rw [erased]
      have path := h.path
      rw [List.map_append, List.map_cons, List.map_cons] at path
      rw [List.map_append, List.map_cons]
      refine path.unlink ?_ fun c member => ?_
      · rw [infoAddressOf_of_get found', infoAddressOf_of_get found, shown.word, word_store]
        exact Nat.mod_eq_of_lt shown.next
      · rw [← List.map_append] at member
        obtain ⟨j, listed, rfl⟩ := List.mem_map.mp member
        have apart : j ≠ other := by
          rintro rfl
          have distinct := List.nodup_middle.mp h.nodup
          apply (List.nodup_cons.mp distinct).1
          simp only [List.mem_append, List.mem_cons] at listed ⊢
          tauto
        have inOrder : j ∈ front ++ other :: id :: back := by
          simp only [List.mem_append, List.mem_cons] at listed ⊢
          tauto
        obtain ⟨q, found''⟩ := (h.members j).mp inOrder
        rw [infoAddressOf_of_get found'']
        exact word_eq_of_sameAt ((others j q found'' apart).sub (Nat.le_refl _)
          (Nat.add_le_add_left (by decide) _))
  · obtain ⟨-, rfl⟩ := run_writeGuest_ok.mp written
    have descriptors : ∀ j r, s.registry.get j = some r → SameAt s.guest
        (s.guest.store moduleHeadAddress (leBytes 4 record.info.next)) r.infoAddress
        moduleInfoSize := by
      intro j r found'
      have inside := ((h.shown j r found').inside h.sound).1
      have below := h.below
      apply store_sameAt
      rw [length_leBytes]
      omega
    refine ⟨rfl, found, fun j _ => Iff.rfl, fun j r' _ found' => ?_, ?_, ?_⟩
    · have kept := h.shown j r' found'
      exact ⟨r', found', rfl, rfl, rfl, kept.live,
        (bytes_eq_of_sameAt (descriptors j r' found')).trans kept.bytes, kept.flags, kept.next⟩
    · rw [word_store]
      exact Nat.mod_eq_of_lt shown.next
    · have member := (h.members id).mpr ⟨record, found⟩
      have path := h.path
      cases order with
      | nil => cases member
      | cons i rest =>
        obtain ⟨address, -, path⟩ := path
        obtain ⟨r, found'⟩ := (h.members i).mp List.mem_cons_self
        rw [infoAddressOf_of_get found', first] at address
        obtain rfl := h.eq_of_address found' found address.symm
        rw [List.erase_cons_head]
        rw [infoAddressOf_of_get found, shown.word] at path
        refine path.congr fun b listed => ?_
        obtain ⟨j, inRest, rfl⟩ := List.mem_map.mp listed
        obtain ⟨q, found''⟩ := (h.members j).mp (List.mem_cons_of_mem _ inRest)
        rw [infoAddressOf_of_get found'']
        exact word_eq_of_sameAt ((descriptors j q found'').sub (Nat.le_refl _)
          (Nat.add_le_add_left (by decide) _))

theorem fails_guard {error : Option KernelError} (h : P s) :
    Fails P s (guard error) := by
  cases error with
  | none => exact fails_pure ()
  | some e => exact fails_throw _ h

theorem run_guard_ok {error : Option KernelError} {a : Unit} (run : (guard error).run s = .ok a t) :
    s = t := by
  cases error with
  | none => exact (run_pure_ok.mp run).2
  | some e => cases run

theorem Unlinked.frees (unlinked : Unlinked order id record s u) (h : Listed order s)
    (found : s.registry.get id = some record) : ∃ image memory metadata memory',
      (SystemMemory.free record.imageAllocation.address).run u.memory = .ok image memory ∧
      (SystemMemory.free record.metadataAllocation.address).run memory = .ok metadata memory' ∧
      memory'.Sound ∧ memory'.range = s.memory.range ∧
      ∀ b ∈ s.memory.live, b ∉ blocks record → b ∈ memory'.live := by
  have shown := h.shown id record found
  obtain ⟨memory, freed, sound, range, live⟩ := h.sound.free_ok (shown.live _ List.mem_cons_self)
  have still : ∀ b ∈ s.memory.live, b ≠ record.imageAllocation → b ∈ memory.live :=
    fun b member differ => (List.mem_cons.mp (live.mem_iff.mp member)).resolve_left differ
  obtain ⟨memory', freed', sound', range', live'⟩ := sound.free_ok
    (still _ (shown.live _ (metadata_mem record)) shown.differ.symm)
  refine ⟨_, memory, _, memory', unlinked.memory ▸ freed, freed', sound', range'.trans range, ?_⟩
  intro b member apart
  have kept := still b member fun same => apart (same ▸ List.mem_cons_self)
  exact (List.mem_cons.mp (live'.mem_iff.mp kept)).resolve_left
    fun same => apart (same ▸ metadata_mem record)

theorem fails_unload (h : Listed order s) (unchanged : P s) :
    Fails P s (unload id) := by
  refine fails_get_bind (fails_okOr_bind unchanged fun record found => ?_)
  refine (fails_guard unchanged).bind fun _ _ run => ?_
  obtain rfl := run_guard_ok run
  refine fails_throwIf_bind unchanged fun _ => ?_
  refine fails_throwIf_bind unchanged fun _ => ?_
  refine (fails_unlink unchanged).bind fun _ u run => ?_
  have unlinked := h.unlinked found run
  obtain ⟨image, memory, metadata, memory', freed, freed', -⟩ := unlinked.frees h found
  refine fails_get_bind ((fails_modify _).bind fun _ _ run => ?_)
  obtain rfl := run_modify_ok.mp run
  have taken : u.registry.modules.get id = some record := unlinked.found
  rw [FixedTable.remove_fst, taken]
  refine (fails_pure _).bind fun _ _ run => ?_
  obtain ⟨rfl, rfl⟩ := run_pure_ok.mp run
  refine (fails_modify _).bind fun _ _ run => ?_
  obtain rfl := run_modify_ok.mp run
  refine (Fails.map ?_ _).bind fun _ _ run => ?_
  · exact fails_of_ok (run_zoom_ok.mpr ⟨memory, freed, rfl⟩)
  · obtain ⟨_, _, ran, rfl⟩ := run_free_ok run
    simp only at ran
    obtain ⟨-, rfl⟩ := EStateM.Result.ok.inj (freed.symm.trans ran)
    refine (Fails.map ?_ _).bind fun _ _ _ => fails_pure _
    exact fails_of_ok (run_zoom_ok.mpr ⟨memory', freed', rfl⟩)

theorem Listed.unloaded {removed : ModuleRecord} (h : Listed order s)
    (run : (unload id).run s = .ok removed t) : Listed (order.erase id) t := by
  obtain ⟨record, u, found, -, ran, taken, registry, guest, _, _, memory, freed, freed'⟩ :=
    run_unload_ok run
  have unlinked := h.unlinked found ran
  have same : some record = some removed := unlinked.found.symm.trans taken
  obtain rfl := Option.some.inj same
  obtain ⟨_, _, _, _, ran, ran', sound, range, live⟩ := unlinked.frees h found
  obtain ⟨-, rfl⟩ := EStateM.Result.ok.inj (freed.symm.trans ran)
  obtain ⟨-, reached⟩ := EStateM.Result.ok.inj (freed'.symm.trans ran')
  rw [← reached] at sound range live
  have getEach : ∀ j, t.registry.get j = if j = id then none else u.registry.get j := by
    intro j
    rw [registry]
    exact FixedTable.get_remove _ _ _
  have head : t.registry.head = u.registry.head := by rw [registry]; rfl
  refine h.edited sound range (fun j => ?_) (h.nodup.erase id) (fun j r' found' => ?_) ?_ ?_
  · rw [h.nodup.mem_erase_iff, getEach]
    split
    next same => exact ⟨fun member => absurd same member.1, fun ⟨_, absent⟩ => nomatch absent⟩
    next differ => rw [unlinked.members j differ, h.members, and_iff_right differ]
  · rw [getEach] at found'
    split at found'
    next => cases found'
    next differ =>
      obtain ⟨r, before, edit⟩ := unlinked.edited j r' differ found'
      refine ⟨r, before, edit.address, edit.metadata, edit.image, fun b member => ?_,
        guest ▸ edit.bytes, edit.flags, edit.next⟩
      refine live b (unlinked.memory ▸ edit.live b member) fun member' => differ ?_
      exact h.own j id r record before found b member member'
  · rw [guest, head]
    exact unlinked.head
  · rw [guest, head]
    exact unlinked.path

/-! ### The libraries -/

theorem relisted_registerExport {moduleId : ℕ} {library : ExportLibrary} :
    Leads Relisted s (registerExport moduleId library) := by
  refine leads_get_bind (leads_ofExcept_bind fun _ _ => leads_get_bind (leads_ofExcept_bind ?_))
  rintro ⟨id, registry⟩ inserted
  have kept : registry.modules = s.registry.modules ∧ registry.head = s.registry.head := by
    cases ran : s.registry.insertExport moduleId library with
    | error e => rw [ran] at inserted; cases inserted
    | ok entry =>
      rw [ran] at inserted
      cases inserted
      exact insertExport_keeps ran
  exact (relisted_modifyRegistry kept.1 kept.2).returning

theorem relisted_releaseExport : Leads Relisted s (releaseExport id) :=
  leads_get_bind (leads_okOr_bind fun _ _ => leads_throwIf_bind fun _ =>
    (relisted_modifyRegistry rfl rfl).bind fun _ _ _ => leads_okOr _ _)

theorem relisted_bindImport {name : Name} {requiredVersion ordinal : ℕ} :
    Leads Relisted s (bindImport name requiredVersion ordinal) :=
  leads_ofExcept_bind fun _ _ => leads_get_bind (leads_okOr_bind fun _ _ => leads_okOr_bind
    fun _ _ => leads_okOr_bind fun _ _ =>
      (relisted_modifyRegistry rfl rfl).returning)

theorem relisted_unbindImport : Leads Relisted s (unbindImport id) :=
  leads_get_bind (leads_okOr_bind fun _ _ => leads_okOr_bind fun _ _ =>
    relisted_modifyRegistry rfl rfl)

end Listed

/-! ### The list over runs -/

/-- What a step does to the list of modules. -/
inductive Relisting where
  | loaded (id : ℕ)
  | unloaded (id : ℕ)
  | none
  deriving DecidableEq, Repr

/-- The order of the list after a step: a module that was loaded comes first. -/
def Relisting.apply (order : List ℕ) : Relisting → List ℕ
  | .loaded id => id :: order
  | .unloaded id => order.erase id
  | .none => order

/-- The modules loaded and not unloaded since, newest first. -/
def newest (events : List Relisting) : List ℕ := events.foldl Relisting.apply []

/-- What an operation does to the list: only a successful load or unload changes it. -/
def Op.relisting (s : Loadcore) : Op → Relisting
  | .load irx =>
    match (Loadcore.load irx).run s with
    | .ok id _ => .loaded id
    | .error _ _ => .none
  | .unload id => if succeeds ((Loadcore.unload id).run s) then .unloaded id else .none
  | _ => .none

/-- What the rest of the machine may do: use the allocator for other blocks, and write guest memory
outside the descriptors and the head. -/
structure Elsewhere (s t : Loadcore) : Prop where
  registry : t.registry = s.registry
  memory : t.memory = s.memory ∨ ∃ op, s.memory.Next op t.memory
  live : ∀ id record, s.registry.get id = some record → ∀ b ∈ blocks record, b ∈ t.memory.live
  descriptors : ∀ id record, s.registry.get id = some record →
    SameAt s.guest t.guest record.infoAddress moduleInfoSize
  headWord : SameAt s.guest t.guest moduleHeadAddress 4

/-- An operation of the registry, successful or not, or something elsewhere. -/
inductive ListStep (s : Loadcore) : Relisting → Loadcore → Prop
  | op (op : Op) : ListStep s (op.relisting s) (leaves (op.perform.run s))
  | elsewhere {t : Loadcore} (h : Elsewhere s t) : ListStep s .none t

theorem Listed.perform (h : Listed order s) (op : Op) :
    Listed (Relisting.apply order (op.relisting s)) (leaves (op.perform.run s)) := by
  cases op with
  | load irx =>
    rw [Op.perform, leaves_map, Op.relisting]
    cases ran : (load irx).run s with
    | ok id t =>
      obtain ⟨record, loaded⟩ := run_load_ok h.sound h.below ran
      exact h.loaded loaded
    | error e t => exact h.restored (fails_load h.sound h.below h.head e t ran)
  | unload id =>
    rw [Op.perform, leaves_map, Op.relisting]
    cases ran : (unload id).run s with
    | ok removed t => exact h.unloaded ran
    | error e t => exact fails_unload (P := Listed order) h h e t ran
  | beginStart id => exact Leads.map listed_begin _ h
  | completeStart id result => exact Leads.map listed_completeStart _ h
  | beginStop id => exact Leads.map listed_begin _ h
  | completeStop id result => exact Leads.map listed_completeStop _ h
  | registerExport moduleId library => exact h.relisted (Leads.map relisted_registerExport _)
  | releaseExport id => exact h.relisted (Leads.map relisted_releaseExport _)
  | bindImport name requiredVersion ordinal => exact h.relisted (Leads.map relisted_bindImport _)
  | unbindImport libraryId => exact h.relisted relisted_unbindImport

theorem Listed.elsewhere (h : Listed order s) (elsewhere : Elsewhere s t) : Listed order t := by
  have memory : t.memory.Sound ∧ t.memory.range = s.memory.range := by
    rcases elsewhere.memory with same | ⟨op, next⟩
    · exact ⟨same ▸ h.sound, congrArg SystemMemory.range same⟩
    · exact h.sound.next next
  exact h.frame (congrArg ModuleRegistry.modules elsewhere.registry)
    (congrArg ModuleRegistry.head elsewhere.registry) memory.1 memory.2 elsewhere.live
    elsewhere.descriptors (word_eq_of_sameAt elsewhere.headWord)

theorem listed_reset {guest : GuestMemory} (empty : guest.word moduleHeadAddress = 0) :
    Listed [] (reset guest) := by
  have absent : ∀ id, (reset guest).registry.get id = none := fun id => FixedTable.get_new id
  refine ⟨SystemMemory.sound_empty (by decide) (by decide), rfl, fun id => ?_, .nil,
    fun id record found => ?_, fun i j r r' found => ?_, empty, rfl⟩
  · rw [absent]
    simp
  · rw [absent] at found
    cases found
  · rw [absent] at found
    cases found

/-- The guest's list mirrors the registry: following it from the head visits the descriptors of the
loaded modules, each once, in this order, and each holds the encoding of its module's record. -/
structure Mirrors (order : List ℕ) (s : Loadcore) : Prop where
  members : ∀ id, id ∈ order ↔ ∃ record, s.registry.get id = some record
  once : (order.map (infoAddressOf s.registry)).Nodup
  visits : Path s.guest.word (s.guest.word moduleHeadAddress) (order.map (infoAddressOf s.registry))
  encoded : ∀ id record, s.registry.get id = some record →
    s.guest.bytes record.infoAddress moduleInfoSize = record.info.encode ∧
      record.info.newFlags = record.state.newFlags
  head : s.registry.head = s.guest.word moduleHeadAddress

theorem Listed.mirrors (h : Listed order s) : Mirrors order s := by
  refine ⟨h.members, ?_, h.head.symm ▸ h.path,
    fun id record found => ⟨(h.shown id record found).bytes, (h.shown id record found).flags⟩,
    h.head.symm⟩
  refine h.nodup.map_on fun i member j member' same => ?_
  obtain ⟨r, found⟩ := (h.members i).mp member
  obtain ⟨q, found'⟩ := (h.members j).mp member'
  rw [infoAddressOf_of_get found, infoAddressOf_of_get found'] at same
  exact h.eq_of_address found found' same

/-- In every run from the empty registry, of operations that succeed or fail, the guest's list
mirrors the registry, newest module first. -/
theorem list_mirrors_registry {guest : GuestMemory} {events : List Relisting}
    (empty : guest.word moduleHeadAddress = 0) (run : Run ListStep (reset guest) events t) :
    Mirrors (newest events) t := by
  have listed : Listed (newest events) t := by
    refine run.history (H := fun events t => Listed (newest events) t) (listed_reset empty) ?_
    intro events s e t listed step
    rw [newest, List.foldl_append]
    cases step with
    | op op => exact listed.perform op
    | elsewhere h => exact listed.elsewhere h
  exact listed.mirrors

/-- What each operation of a run does to the list. -/
def relistings (s : Loadcore) : List Op → List Relisting
  | [] => []
  | op :: ops => op.relisting s :: relistings (leaves (op.perform.run s)) ops

theorem run_relistings (s : Loadcore) (ops : List Op) :
    Run ListStep s (relistings s ops) (after s ops) := by
  induction ops generalizing s with
  | nil => exact .refl s
  | cons op ops ih => exact (Run.single (.op op)).append (ih _)

/-- Three modules are loaded, one is started, and the one in the middle of the list is unloaded. -/
def threeLoads : List Op :=
  [.load plainModule, .load plainModule, .load plainModule, .beginStart 3, .unload 2]

theorem list_mirrors_registry_sample :
    newest (relistings (reset zeroedGuest) threeLoads) = [3, 1] ∧
      Mirrors (newest (relistings (reset zeroedGuest) threeLoads))
        (after (reset zeroedGuest) threeLoads) :=
  ⟨by decide +kernel, list_mirrors_registry (by decide) (run_relistings _ threeLoads)⟩

end Loadcore

end Upse
