import Upse.Bios.Allocator

/-!
# The live allocations of system memory

The three searches return an aligned interval of the arena that meets no live allocation, so over
any run of the allocator the live allocations stay apart, aligned and inside the arena, and the
count of free bytes is exact.
-/

namespace Upse

open ErrorState

/-! ### The invariant -/

/-- The address and the size of one allocation are well formed. -/
structure Allocation.Formed (a : Allocation) : Prop where
  aligned : a.alignment ∣ a.address
  positive : 0 < a.size
  quantum : sysmemQuantum ∣ a.size
  enough : a.requestedSize ≤ a.size

namespace SystemMemory

variable {memory memory' : SystemMemory}

/-- The arena is a range of 32-bit addresses, and the live allocations are apart and inside. -/
structure Sound (memory : SystemMemory) : Prop where
  start_le : memory.start ≤ memory.stop
  stop_lt : memory.stop < 2 ^ 32
  formed : ∀ a ∈ memory.live, a.Formed
  inside : ∀ a ∈ memory.live, memory.start ≤ a.address ∧ a.stop ≤ memory.stop
  apart : memory.live.Pairwise fun a b => a.span.Apart b.span

/-- The interval lies in the arena and meets no live allocation. -/
structure Fits (memory : SystemMemory) (address size : ℕ) : Prop where
  start_le : memory.start ≤ address
  le_stop : address + size ≤ memory.stop
  clear : ∀ a ∈ memory.live, address + size ≤ a.address ∨ a.stop ≤ address

theorem Sound.perm {live : List Allocation} (sound : memory.Sound) (start : memory'.start = memory.start)
    (stop : memory'.stop = memory.stop) (p : memory'.live.Perm live) (formed : ∀ a ∈ live, a.Formed)
    (inside : ∀ a ∈ live, memory.start ≤ a.address ∧ a.stop ≤ memory.stop)
    (apart : live.Pairwise fun a b => a.span.Apart b.span) : memory'.Sound where
  start_le := by rw [start, stop]; exact sound.start_le
  stop_lt := by rw [stop]; exact sound.stop_lt
  formed a member := formed a (p.mem_iff.mp member)
  inside a member := by
    rw [start, stop]
    exact inside a (p.mem_iff.mp member)
  apart := (p.pairwise_iff fun h x hs ht => h x ht hs).mpr apart

/-! ### The searches -/

theorem perm_sorted (memory : SystemMemory) : memory.sorted.Perm memory.live :=
  List.perm_insertionSort _ _

theorem Sound.ordered (sound : memory.Sound) :
    memory.sorted.Pairwise fun a b => a.stop ≤ b.address := by
  have addresses : memory.sorted.Pairwise fun a b => a.address ≤ b.address :=
    List.pairwise_insertionSort _ _
  have apart : memory.sorted.Pairwise fun a b => a.span.Apart b.span :=
    (memory.perm_sorted.pairwise_iff fun h x hs ht => h x ht hs).mpr sound.apart
  have both := addresses.and apart
  refine both.imp_of_mem fun {a b} ha hb ⟨le, apart⟩ => ?_
  have posA := (sound.formed a (memory.perm_sorted.mem_iff.mp ha)).positive
  have posB := (sound.formed b (memory.perm_sorted.mem_iff.mp hb)).positive
  have order := apart.ordered posA posB
  simp only [Allocation.span, Allocation.stop] at order ⊢
  omega

theorem findFirstLoop_spec {size alignment : ℕ} (power : alignment.isPowerOfTwo)
    {blocks : List Allocation} (ordered : blocks.Pairwise fun a b => a.stop ≤ b.address)
    (inside : ∀ b ∈ blocks, b.stop ≤ memory.stop) {cursor result : ℕ} (aligned : alignment ∣ cursor)
    (h : memory.findFirstLoop size alignment blocks cursor = some result) :
    cursor ≤ result ∧ alignment ∣ result ∧ result + size ≤ memory.stop ∧
      ∀ b ∈ blocks, result + size ≤ b.address ∨ b.stop ≤ result := by
  induction blocks generalizing cursor with
  | nil =>
    obtain ⟨last, added, h⟩ := Option.bind_eq_some_iff.mp h
    obtain ⟨-, rfl⟩ := checkedAdd_eq_some.mp added
    split at h
    next fits =>
      obtain rfl := Option.some.inj h
      exact ⟨le_rfl, aligned, fits, nofun⟩
    next => exact nomatch h
  | cons a blocks ih =>
    obtain ⟨last, added, h⟩ := Option.bind_eq_some_iff.mp h
    obtain ⟨-, rfl⟩ := checkedAdd_eq_some.mp added
    obtain ⟨after, later⟩ := List.pairwise_cons.mp ordered
    split at h
    next fits =>
      obtain rfl := Option.some.inj h
      have top := inside a List.mem_cons_self
      refine ⟨le_rfl, aligned, ?_, fun b member => .inl ?_⟩
      · unfold Allocation.stop at top
        omega
      · obtain rfl | member := List.mem_cons.mp member
        · exact fits
        · have next := after b member
          unfold Allocation.stop at next
          omega
    next =>
      obtain ⟨cursor', raised, h⟩ := Option.bind_eq_some_iff.mp h
      obtain ⟨aligned', le⟩ := alignUp_spec power raised
      obtain ⟨le', dvd, top, clear⟩ :=
        ih later (fun b member => inside b (List.mem_cons_of_mem _ member)) aligned' h
      refine ⟨by omega, dvd, top, fun b member => ?_⟩
      obtain rfl | member := List.mem_cons.mp member
      · exact .inr (by omega)
      · exact clear b member

/-- Each round of `find_last` keeps a boundary below the blocks it has left behind. -/
theorem findLastLoop_spec {size alignment : ℕ} (power : alignment.isPowerOfTwo)
    {blocks : List Allocation} (ordered : blocks.Pairwise fun a b => b.stop ≤ a.address)
    (inside : ∀ b ∈ blocks, memory.start ≤ b.address) {boundary result : ℕ}
    (fits : boundary < 2 ^ 32)
    (h : memory.findLastLoop size alignment blocks boundary = some result) :
    result + size ≤ boundary ∧ alignment ∣ result ∧ memory.start ≤ result ∧
      ∀ b ∈ blocks, result + size ≤ b.address ∨ b.stop ≤ result := by
  induction blocks generalizing boundary with
  | nil =>
    obtain ⟨top, left, h⟩ := Option.bind_eq_some_iff.mp h
    obtain ⟨room, rfl⟩ := checkedSub_eq_some.mp left
    have below := alignDown_le (boundary - size) alignment
    split at h
    next start =>
      obtain rfl := Option.some.inj h
      exact ⟨by omega, dvd_alignDown power (by omega), start, nofun⟩
    next => exact nomatch h
  | cons a blocks ih =>
    obtain ⟨top, left, h⟩ := Option.bind_eq_some_iff.mp h
    obtain ⟨room, rfl⟩ := checkedSub_eq_some.mp left
    have below := alignDown_le (boundary - size) alignment
    obtain ⟨before, later⟩ := List.pairwise_cons.mp ordered
    split at h
    next clear =>
      obtain rfl := Option.some.inj h
      have bottom := inside a List.mem_cons_self
      unfold Allocation.stop at clear
      refine ⟨by omega, dvd_alignDown power (by omega), by omega, fun b member => .inr ?_⟩
      obtain rfl | member := List.mem_cons.mp member
      · exact clear
      · have next := before b member
        omega
    next =>
      obtain ⟨top, dvd, start, clear⟩ :=
        ih later (fun b member => inside b (List.mem_cons_of_mem _ member)) (by omega) h
      refine ⟨by omega, dvd, start, fun b member => ?_⟩
      obtain rfl | member := List.mem_cons.mp member
      · exact .inl (by omega)
      · exact clear b member

theorem Sound.findFirst (sound : memory.Sound) {size alignment result : ℕ}
    (power : alignment.isPowerOfTwo) (h : memory.findFirst size alignment = some result) :
    alignment ∣ result ∧ memory.Fits result size := by
  obtain ⟨cursor, raised, h⟩ := Option.bind_eq_some_iff.mp h
  obtain ⟨aligned, le⟩ := alignUp_spec power raised
  have inside : ∀ b ∈ memory.sorted, b.stop ≤ memory.stop := fun b member =>
    (sound.inside b (memory.perm_sorted.mem_iff.mp member)).2
  obtain ⟨le', dvd, top, clear⟩ := findFirstLoop_spec power sound.ordered inside aligned h
  exact ⟨dvd, by omega, top, fun b member => clear b (memory.perm_sorted.mem_iff.mpr member)⟩

theorem Sound.findLast (sound : memory.Sound) {size alignment result : ℕ}
    (power : alignment.isPowerOfTwo) (h : memory.findLast size alignment = some result) :
    alignment ∣ result ∧ memory.Fits result size := by
  have ordered : memory.sorted.reverse.Pairwise fun a b => b.stop ≤ a.address :=
    List.pairwise_reverse.mpr sound.ordered
  have inside : ∀ b ∈ memory.sorted.reverse, memory.start ≤ b.address := fun b member =>
    (sound.inside b (memory.perm_sorted.mem_iff.mp (List.mem_reverse.mp member))).1
  obtain ⟨top, dvd, start, clear⟩ := findLastLoop_spec power ordered inside sound.stop_lt h
  refine ⟨dvd, start, top, fun b member => clear b ?_⟩
  exact List.mem_reverse.mpr (memory.perm_sorted.mem_iff.mpr member)

theorem fits_of_isFree {address size : ℕ} (h : memory.isFree address size = true) :
    memory.Fits address size := by
  unfold isFree at h
  split at h
  next => cases h
  next last added =>
    obtain ⟨-, rfl⟩ := checkedAdd_eq_some.mp added
    obtain ⟨range, clear⟩ := Bool.and_eq_true_iff.mp h
    obtain ⟨start, top⟩ := of_decide_eq_true range
    refine ⟨start, top, fun a member => ?_⟩
    exact of_decide_eq_true (List.all_eq_true.mp clear a member)

theorem Sound.select (sound : memory.Sound) {mode : AllocationMode}
    {reserved address alignment result : ℕ} (power : alignment.isPowerOfTwo)
    (h : memory.select mode reserved address alignment = .ok (some result)) :
    alignment ∣ result ∧ memory.Fits result reserved := by
  cases mode with
  | first => exact sound.findFirst power (Except.ok.inj h)
  | last => exact sound.findLast power (Except.ok.inj h)
  | address =>
    unfold SystemMemory.select at h
    simp only at h
    split at h
    next => cases h
    next aligned =>
      have found := Except.ok.inj h
      split at found
      next free =>
        obtain rfl := Option.some.inj found
        exact ⟨Nat.dvd_of_mod_eq_zero (not_not.mp aligned), fits_of_isFree free⟩
      next => cases found

/-! ### Blocks that differ -/

theorem Sound.apart_of_ne (sound : memory.Sound) {a b : Allocation} (ha : a ∈ memory.live)
    (hb : b ∈ memory.live) (differ : a ≠ b) : a.span.Apart b.span := by
  have symmetric : Std.Symm fun a b : Allocation => a.span.Apart b.span :=
    ⟨fun _ _ h x hs ht => h x ht hs⟩
  exact sound.apart.forall ha hb differ

theorem Sound.ordered_of_ne (sound : memory.Sound) {a b : Allocation} (ha : a ∈ memory.live)
    (hb : b ∈ memory.live) (differ : a ≠ b) : a.stop ≤ b.address ∨ b.stop ≤ a.address :=
  (sound.apart_of_ne ha hb differ).ordered (sound.formed a ha).positive (sound.formed b hb).positive

theorem Sound.eq_of_address (sound : memory.Sound) {a b : Allocation} (ha : a ∈ memory.live)
    (hb : b ∈ memory.live) (same : a.address = b.address) : a = b := by
  by_contra differ
  have positive := (sound.formed a ha).positive
  have positive' := (sound.formed b hb).positive
  have order := sound.ordered_of_ne ha hb differ
  simp only [Allocation.stop] at order
  omega

theorem Sound.nodup (sound : memory.Sound) : memory.live.Nodup := by
  refine sound.apart.imp_of_mem ?_
  rintro a b ha - apart rfl
  exact apart a.address ⟨Nat.le_refl _, Nat.lt_add_of_pos_right (sound.formed a ha).positive⟩
    ⟨Nat.le_refl _, Nat.lt_add_of_pos_right (sound.formed a ha).positive⟩

/-! ### The operations -/

theorem allocateAligned_cases (memory : SystemMemory) (mode : AllocationMode)
    (size address alignment : ℕ) :
    (∃ e, (allocateAligned mode size address alignment).run memory = .error e memory) ∨
      ∃ reserved selected id table, size ≠ 0 ∧ alignment.isPowerOfTwo ∧
        alignUp size sysmemQuantum = some reserved ∧
        memory.select mode reserved address alignment = .ok (some selected) ∧
        memory.allocations.insert ⟨selected, reserved, size, alignment⟩ = .ok (id, table) ∧
        (allocateAligned mode size address alignment).run memory =
          .ok ⟨selected, reserved, size, alignment⟩ { memory with allocations := table } := by
  unfold allocateAligned
  by_cases empty : size = 0
  · exact .inl ⟨.illegalSize, by simp [empty]⟩
  by_cases weak : alignment < sysmemQuantum ∨ ¬ alignment.isPowerOfTwo
  · exact .inl ⟨.illegalObject, by simp [empty, weak]⟩
  by_cases full : memory.allocations.nextId = none
  · exact .inl ⟨.noMemory, by simp [empty, weak, full]⟩
  cases rounded : alignUp size sysmemQuantum with
  | none => exact .inl ⟨.illegalSize, by simp [empty, weak, full]⟩
  | some reserved =>
    cases selection : memory.select mode reserved address alignment with
    | error e => exact .inl ⟨e, by simp [empty, weak, full, selection]⟩
    | ok found =>
      cases found with
      | none => exact .inl ⟨.noMemory, by simp [empty, weak, full, selection]⟩
      | some selected =>
        cases inserted : memory.allocations.insert ⟨selected, reserved, size, alignment⟩ with
        | error e => exact .inl ⟨e, by simp [empty, weak, full, selection, inserted]⟩
        | ok entry =>
          refine .inr ⟨reserved, selected, entry.1, entry.2, empty, ?_, rfl, selection, inserted, ?_⟩
          · exact not_not.mp (not_or.mp weak).2
          · simp [empty, weak, full, selection, inserted]

theorem free_cases (memory : SystemMemory) (address : ℕ) :
    (∃ e, (free address).run memory = .error e memory) ∨
      ∃ id a, memory.allocations.get id = some a ∧
        (free address).run memory =
          .ok a { memory with allocations := (memory.allocations.remove id).2 } := by
  unfold free
  cases found : memory.allocations.iter.findSome? fun entry =>
      if entry.2.address = address then some entry.1 else none with
  | none => exact .inl ⟨.illegalObject, by simp [found]⟩
  | some id =>
    obtain ⟨⟨id', a⟩, member, same⟩ := List.exists_of_findSome?_eq_some found
    split at same
    next =>
      obtain rfl := Option.some.inj same
      have entry : memory.allocations.get id' = some a := (FixedTable.mem_iter (by decide)).mp member
      exact .inr ⟨id', a, entry, by simp [found, entry]⟩
    next => cases same

theorem Sound.insert (sound : memory.Sound) {a : Allocation} {id : ℕ}
    {table : FixedTable Allocation maxAllocations 1} (formed : a.Formed)
    (fits : memory.Fits a.address a.size)
    (inserted : memory.allocations.insert a = .ok (id, table)) :
    Sound { memory with allocations := table } := by
  have perm : (live { memory with allocations := table }).Perm (a :: memory.live) :=
    (FixedTable.perm_insert (by decide) inserted).map Prod.snd
  refine sound.perm rfl rfl perm (List.forall_mem_cons.mpr ⟨formed, sound.formed⟩)
    (List.forall_mem_cons.mpr ⟨⟨fits.start_le, fits.le_stop⟩, sound.inside⟩)
    (List.pairwise_cons.mpr ⟨fun b member => ?_, sound.apart⟩)
  intro x here there
  have clear := fits.clear b member
  simp only [Span.Contains, Allocation.span, Allocation.stop] at here there clear
  omega

theorem Sound.remove (sound : memory.Sound) {a : Allocation} {id : ℕ}
    (found : memory.allocations.get id = some a) :
    Sound { memory with allocations := (memory.allocations.remove id).2 } := by
  have perm : memory.live.Perm
      (a :: live { memory with allocations := (memory.allocations.remove id).2 }) :=
    (FixedTable.perm_remove (by decide) found).map Prod.snd
  have keeps {b : Allocation}
      (member : b ∈ live { memory with allocations := (memory.allocations.remove id).2 }) :
      b ∈ memory.live :=
    perm.mem_iff.mpr (List.mem_cons_of_mem _ member)
  refine sound.perm rfl rfl (.refl _) (fun b member => sound.formed b (keeps member))
    (fun b member => sound.inside b (keeps member)) ?_
  exact (List.pairwise_cons.mp
    ((perm.pairwise_iff fun h x hs ht => h x ht hs).mp sound.apart)).2

theorem Sound.allocateAligned (sound : memory.Sound) (mode : AllocationMode)
    (size address alignment : ℕ) :
    (∃ e, (allocateAligned mode size address alignment).run memory = .error e memory) ∨
      ∃ a memory', (SystemMemory.allocateAligned mode size address alignment).run memory =
        .ok a memory' ∧ memory'.Sound ∧ memory'.range = memory.range := by
  obtain failed | ⟨reserved, selected, id, table, positive, power, rounded, found, inserted, run⟩ :=
    allocateAligned_cases memory mode size address alignment
  · exact .inl failed
  · obtain ⟨dvd, fits⟩ := sound.select power found
    obtain ⟨quantum, enough⟩ := alignUp_spec ⟨8, rfl⟩ rounded
    refine .inr ⟨_, _, run, sound.insert ⟨dvd, ?_, quantum, enough⟩ fits inserted, rfl⟩
    exact lt_of_lt_of_le (Nat.pos_of_ne_zero positive) enough

theorem Sound.free (sound : memory.Sound) (address : ℕ) :
    (∃ e, (free address).run memory = .error e memory) ∨
      ∃ a memory', (SystemMemory.free address).run memory = .ok a memory' ∧
        memory'.Sound ∧ memory'.range = memory.range := by
  obtain failed | ⟨id, a, found, run⟩ := free_cases memory address
  · exact .inl failed
  · exact .inr ⟨a, _, run, sound.remove found, rfl⟩

@[simp] theorem live_new (start stop : ℕ) : live ⟨start, stop, .new⟩ = [] := by
  rw [live, FixedTable.iter_new (by decide)]
  rfl

theorem sound_empty {start stop : ℕ} (le : start ≤ stop) (lt : stop < 2 ^ 32) :
    Sound ⟨start, stop, .new⟩ where
  start_le := le
  stop_lt := lt
  formed := by simp
  inside := by simp
  apart := by simp

end SystemMemory

namespace MemoryOp

open SystemMemory

variable {memory : SystemMemory}

/-- One operation keeps the invariant and the arena; where it fails it changes nothing. -/
theorem perform_spec (op : MemoryOp) (sound : memory.Sound) :
    (∃ e, op.perform.run memory = .error e memory) ∨
      ∃ memory', op.perform.run memory = .ok () memory' ∧ memory'.Sound ∧
        memory'.range = memory.range := by
  cases op with
  | allocate mode size address =>
    obtain ⟨e, run⟩ | ⟨a, memory', run, kept⟩ :=
      sound.allocateAligned mode size.toNat address.toNat sysmemQuantum
    · exact .inl ⟨e, by simp [perform, SystemMemory.allocate, run]⟩
    · exact .inr ⟨memory', by simp [perform, SystemMemory.allocate, run], kept⟩
  | allocateAligned mode size address alignment =>
    obtain ⟨e, run⟩ | ⟨a, memory', run, kept⟩ :=
      sound.allocateAligned mode size.toNat address.toNat alignment.toNat
    · exact .inl ⟨e, by simp [perform, run]⟩
    · exact .inr ⟨memory', by simp [perform, run], kept⟩
  | free address =>
    obtain ⟨e, run⟩ | ⟨a, memory', run, kept⟩ := sound.free address.toNat
    · exact .inl ⟨e, by simp [perform, run]⟩
    · exact .inr ⟨memory', by simp [perform, run], kept⟩
  | reset => exact .inr ⟨_, rfl, sound_empty sound.start_le sound.stop_lt, rfl⟩

end MemoryOp

namespace SystemMemory

variable {memory memory' : SystemMemory}

theorem Sound.next (sound : memory.Sound) {op : MemoryOp} (next : memory.Next op memory') :
    memory'.Sound ∧ memory'.range = memory.range := by
  obtain ⟨e, run⟩ | ⟨after, run, kept⟩ := op.perform_spec sound
  · rw [Next, run] at next
    exact ⟨next ▸ sound, next ▸ rfl⟩
  · rw [Next, run] at next
    exact next ▸ kept

theorem sound_run {start stop : Word} {ops : List MemoryOp}
    (created : SystemMemory.new start stop = .ok memory) (run : Run Next memory ops memory') :
    memory'.Sound ∧ memory'.range = (start.toNat, stop.toNat) := by
  refine run.invariant (I := fun m => m.Sound ∧ m.range = (start.toNat, stop.toNat)) ?_ ?_
  · unfold new at created
    split at created
    next => cases created
    next valid =>
      simp only [not_or, not_le] at valid
      cases created
      exact ⟨sound_empty valid.2.1.le stop.isLt, rfl⟩
  · rintro before op after ⟨sound, range⟩ next
    obtain ⟨sound', range'⟩ := sound.next next
    exact ⟨sound', range'.trans range⟩

/-! ### Free bytes -/

theorem foldlM_checkedAdd {sizes : List ℕ} {used : ℕ} (fits : used + sizes.sum < 2 ^ 32) :
    sizes.foldlM (checkedAdd 32) used = some (used + sizes.sum) := by
  induction sizes generalizing used with
  | nil => rfl
  | cons size sizes ih =>
    rw [List.sum_cons, ← Nat.add_assoc] at fits ⊢
    rw [List.foldlM_cons, checkedAdd_eq_some.mpr ⟨by omega, rfl⟩]
    exact ih fits

theorem Sound.totalFree (sound : memory.Sound) : ∃ free, memory.totalFree = some free ∧
    free + (memory.live.map Allocation.size).sum = memory.stop - memory.start := by
  have used : (memory.live.map Allocation.size).sum ≤ memory.stop - memory.start := by
    have spans : memory.live.map Allocation.size =
        (memory.live.map Allocation.span).map Span.length := by simp [Allocation.span]
    rw [spans]
    exact sum_length_le (List.pairwise_map.mpr sound.apart)
      (List.forall_mem_map.mpr sound.inside)
  have counted : (memory.live.map Allocation.size).foldlM (checkedAdd 32) 0 =
      some (memory.live.map Allocation.size).sum := by
    have := sound.stop_lt
    rw [foldlM_checkedAdd (by omega), Nat.zero_add]
  refine ⟨memory.stop - memory.start - (memory.live.map Allocation.size).sum, ?_, by omega⟩
  rw [SystemMemory.totalFree, memorySize, checkedSub_eq_some.mpr ⟨sound.start_le, rfl⟩, counted]
  exact checkedSub_eq_some.mpr ⟨used, rfl⟩

/-- Over every run the live allocations are apart, inside the arena and well formed, the count of
free bytes is exact, and an operation that fails changes nothing. -/
theorem allocations_sound {start stop : Word} {ops : List MemoryOp}
    (created : SystemMemory.new start stop = .ok memory) (run : Run Next memory ops memory') :
    (memory'.live.Pairwise fun a b => a.span.Apart b.span) ∧
      (∀ a ∈ memory'.live, start.toNat ≤ a.address ∧ a.stop ≤ stop.toNat ∧
        a.alignment ∣ a.address ∧ sysmemQuantum ∣ a.size ∧ a.size ≠ 0 ∧
        a.requestedSize ≤ a.size) ∧
      (∃ free, memory'.totalFree = some free ∧
        free + (memory'.live.map Allocation.size).sum = stop.toNat - start.toNat) ∧
      ∀ (op : MemoryOp) e memory'', op.perform.run memory' = .error e memory'' →
        memory'' = memory' := by
  obtain ⟨sound, range⟩ := sound_run created run
  obtain ⟨low, high⟩ := Prod.mk.inj range
  rw [← low, ← high]
  refine ⟨sound.apart, fun a member => ?_, sound.totalFree, fun op e memory'' failed => ?_⟩
  · have inside := sound.inside a member
    have formed := sound.formed a member
    exact ⟨inside.1, inside.2, formed.aligned, formed.quantum, formed.positive.ne', formed.enough⟩
  · obtain ⟨e', run'⟩ | ⟨after, run', -⟩ := op.perform_spec sound
    · rw [run'] at failed
      exact (EStateM.Result.error.inj failed).2.symm
    · rw [run'] at failed
      cases failed

/-- The state after a list of operations. -/
def after (memory : SystemMemory) (ops : List MemoryOp) : SystemMemory :=
  ops.foldl (fun memory op => leaves (op.perform.run memory)) memory

theorem run_after (memory : SystemMemory) (ops : List MemoryOp) :
    Run Next memory ops (memory.after ops) := by
  induction ops generalizing memory with
  | nil => exact .refl memory
  | cons op ops ih => exact (Run.single rfl).append (ih _)

/-- A block of each mode, one refused and one freed. -/
theorem allocations_sound_sample :
    let memory : SystemMemory := ⟨0x1000, 0x2000, .new⟩
    let memory' := memory.after [.allocate .first 1 0, .allocate .last 257 0,
      .allocate .address 0x100 0x1500, .allocateAligned .first 0x100 0 0x1000, .free 0x1000]
    memory'.live.map Allocation.address = [0x1e00, 0x1500] ∧
      memory'.live.Pairwise fun a b => a.span.Apart b.span := by
  intro memory memory'
  have created : SystemMemory.new 0x1000 0x2000 = .ok memory := rfl
  exact ⟨by decide +kernel, (allocations_sound created (run_after memory _)).1⟩

end SystemMemory

end Upse
