import Mathlib.Order.Bounds.Basic
import Upse.Bios.Allocations

/-!
# Where system memory places a block

The two searches find the lowest and the highest aligned interval that is free, wherever there is one,
and the walk over the gaps finds the length of the longest.
-/

namespace Upse

open ErrorState

namespace SystemMemory

variable {memory memory' : SystemMemory} {size alignment x : ℕ}

/-! ### The searches find what there is -/

theorem findFirstLoop_complete (power : alignment.isPowerOfTwo) (small : alignment < 2 ^ 32)
    (stop : memory.stop < 2 ^ 32) (dvd : alignment ∣ x) (inside : x + size ≤ memory.stop)
    {blocks : List Allocation} (clear : ∀ b ∈ blocks, x + size ≤ b.address ∨ b.stop ≤ x)
    {cursor : ℕ} (le : cursor ≤ x) :
    ∃ result, memory.findFirstLoop size alignment blocks cursor = some result ∧ result ≤ x := by
  induction blocks generalizing cursor with
  | nil =>
    have added : checkedAdd 32 cursor size = some (cursor + size) :=
      checkedAdd_eq_some.mpr ⟨by omega, rfl⟩
    refine ⟨cursor, ?_, le⟩
    show (checkedAdd 32 cursor size).bind _ = _
    rw [added, Option.bind_some, if_pos (by omega)]
  | cons a blocks ih =>
    have added : checkedAdd 32 cursor size = some (cursor + size) :=
      checkedAdd_eq_some.mpr ⟨by omega, rfl⟩
    by_cases fits : cursor + size ≤ a.address
    · refine ⟨cursor, ?_, le⟩
      show (checkedAdd 32 cursor size).bind _ = _
      rw [added, Option.bind_some, if_pos fits]
    · have past : a.stop ≤ x := by
        rcases clear a List.mem_cons_self with before | past
        · omega
        · exact past
      obtain ⟨next, raised, below⟩ := alignUp_least power small dvd (max_le le past) (by omega)
      obtain ⟨result, found, least⟩ := ih (fun b mem => clear b (List.mem_cons_of_mem _ mem)) below
      refine ⟨result, ?_, least⟩
      show (checkedAdd 32 cursor size).bind _ = _
      rw [added, Option.bind_some, if_neg fits, raised]
      exact found

theorem findLastLoop_complete (power : alignment.isPowerOfTwo) (dvd : alignment ∣ x)
    (inside : memory.start ≤ x) {blocks : List Allocation}
    (clear : ∀ b ∈ blocks, x + size ≤ b.address ∨ b.stop ≤ x) {boundary : ℕ}
    (stop : boundary < 2 ^ 32) (le : x + size ≤ boundary) :
    ∃ result, memory.findLastLoop size alignment blocks boundary = some result ∧ x ≤ result := by
  induction blocks generalizing boundary with
  | nil =>
    have left : checkedSub boundary size = some (boundary - size) :=
      checkedSub_eq_some.mpr ⟨by omega, rfl⟩
    have above : x ≤ alignDown (boundary - size) alignment :=
      le_alignDown power (by omega) dvd (by omega)
    refine ⟨_, ?_, above⟩
    show (checkedSub boundary size).bind _ = _
    rw [left, Option.bind_some, if_pos (by omega)]
  | cons a blocks ih =>
    have left : checkedSub boundary size = some (boundary - size) :=
      checkedSub_eq_some.mpr ⟨by omega, rfl⟩
    have above : x ≤ alignDown (boundary - size) alignment :=
      le_alignDown power (by omega) dvd (by omega)
    by_cases fits : a.stop ≤ alignDown (boundary - size) alignment
    · refine ⟨_, ?_, above⟩
      show (checkedSub boundary size).bind _ = _
      rw [left, Option.bind_some, if_pos fits]
    · have before : x + size ≤ a.address := by
        rcases clear a List.mem_cons_self with before | past
        · exact before
        · omega
      obtain ⟨result, found, greatest⟩ := ih (fun b mem => clear b (List.mem_cons_of_mem _ mem))
        (show min boundary a.address < 2 ^ 32 by omega) (le_min le before)
      refine ⟨result, ?_, greatest⟩
      show (checkedSub boundary size).bind _ = _
      rw [left, Option.bind_some, if_neg fits]
      exact found

/-- The addresses at which an aligned interval is free. -/
def places (memory : SystemMemory) (size alignment : ℕ) : Set ℕ :=
  {x | alignment ∣ x ∧ memory.Fits x size}

variable (size) in
theorem Sound.findFirst_isLeast (sound : memory.Sound) (power : alignment.isPowerOfTwo)
    (small : alignment < 2 ^ 32) :
    (∀ result, memory.findFirst size alignment = some result →
      IsLeast (memory.places size alignment) result) ∧
      ((memory.places size alignment).Nonempty → ∃ result,
        memory.findFirst size alignment = some result) := by
  have found {x : ℕ} (mem : x ∈ memory.places size alignment) :
      ∃ result, memory.findFirst size alignment = some result ∧ result ≤ x := by
    obtain ⟨dvd, start, stop, clear⟩ := mem
    have lt := sound.stop_lt
    obtain ⟨cursor, raised, below⟩ := alignUp_least power small dvd start (by omega)
    obtain ⟨result, found, least⟩ := findFirstLoop_complete power small lt dvd stop
      (fun b mem => clear b (memory.perm_sorted.mem_iff.mp mem)) below
    refine ⟨result, ?_, least⟩
    unfold SystemMemory.findFirst
    rw [raised]
    exact found
  refine ⟨fun result h => ⟨sound.findFirst power h, fun x mem => ?_⟩, fun ⟨x, mem⟩ => ?_⟩
  · obtain ⟨least, h', le⟩ := found mem
    rw [h] at h'
    exact Option.some.inj h' ▸ le
  · obtain ⟨result, h, -⟩ := found mem
    exact ⟨result, h⟩

variable (size) in
theorem Sound.findLast_isGreatest (sound : memory.Sound) (power : alignment.isPowerOfTwo) :
    (∀ result, memory.findLast size alignment = some result →
      IsGreatest (memory.places size alignment) result) ∧
      ((memory.places size alignment).Nonempty → ∃ result,
        memory.findLast size alignment = some result) := by
  have found {x : ℕ} (mem : x ∈ memory.places size alignment) :
      ∃ result, memory.findLast size alignment = some result ∧ x ≤ result := by
    obtain ⟨dvd, start, stop, clear⟩ := mem
    exact findLastLoop_complete power dvd start
      (fun b mem => clear b (memory.perm_sorted.mem_iff.mp (List.mem_reverse.mp mem)))
      sound.stop_lt stop
  refine ⟨fun result h => ⟨sound.findLast power h, fun x mem => ?_⟩, fun ⟨x, mem⟩ => ?_⟩
  · obtain ⟨greatest, h', le⟩ := found mem
    rw [h] at h'
    exact Option.some.inj h' ▸ le
  · obtain ⟨result, h, -⟩ := found mem
    exact ⟨result, h⟩

/-! ### The longest gap -/

theorem countP_lt {α : Type} {p q : α → Bool} {l : List α} {a : α}
    (subset : ∀ b ∈ l, q b = true → p b = true) (mem : a ∈ l) (here : p a = true)
    (gone : q a = false) : l.countP q < l.countP p := by
  have same : l.countP q = (l.filter p).countP q := by
    rw [List.countP_filter]
    refine List.countP_congr fun b inside => ?_
    rw [Bool.and_eq_true]
    exact ⟨fun h => ⟨h, subset b inside h⟩, And.left⟩
  rw [same, List.countP_eq_length_filter (p := p), List.countP_lt_length_iff]
  exact ⟨a, List.mem_filter.mpr ⟨mem, here⟩, gone⟩

/-- Every block begins on the grid of the arena. -/
structure Gridded (memory : SystemMemory) : Prop where
  start : sysmemQuantum ∣ memory.start
  address : ∀ a ∈ memory.live, sysmemQuantum ∣ a.address

/-- From a cursor that no block crosses, the walk finds the longest free interval that is left; it
begins on the grid. -/
theorem maximumFreeLoop_spec (sound : memory.Sound) (gridded : memory.Gridded) {rounds cursor : ℕ}
    (maximum : ℕ) (grid : sysmemQuantum ∣ cursor) (start : memory.start ≤ cursor)
    (behind : ∀ b ∈ memory.live, b.address < cursor → b.stop ≤ cursor)
    (enough : (memory.live.countP fun b => cursor ≤ b.address) < rounds) :
    let result := memory.maximumFreeLoop rounds cursor maximum
    maximum ≤ result ∧ (∀ x n, memory.Fits x n → cursor ≤ x → n ≤ result) ∧
      (result = maximum ∨ ∃ x, sysmemQuantum ∣ x ∧ memory.Fits x result) := by
  induction rounds generalizing cursor maximum with
  | zero => exact absurd enough (Nat.not_lt_zero _)
  | succ rounds ih =>
    unfold maximumFreeLoop
    by_cases more : cursor < memory.stop
    · rw [if_pos more]
      cases next : (memory.live.filter fun b => cursor ≤ b.address).argmin Allocation.address with
      | none =>
        -- No block is left, and the gap reaches to the end of the arena.
        have passed (b : Allocation) (mem : b ∈ memory.live) : b.stop ≤ cursor := by
          apply behind b mem
          by_contra ahead
          have member : b ∈ memory.live.filter fun b => cursor ≤ b.address :=
            List.mem_filter.mpr ⟨mem, decide_eq_true (not_lt.mp ahead)⟩
          rw [List.argmin_eq_none.mp next] at member
          cases member
        have gap : memory.Fits cursor (memory.stop - cursor) :=
          ⟨start, by omega, fun b mem => .inr (passed b mem)⟩
        refine ⟨le_max_left _ _, fun x n fits past => ?_, ?_⟩
        · have inside := fits.le_stop
          dsimp only
          omega
        · rcases max_cases maximum (memory.stop - cursor) with ⟨same, -⟩ | ⟨same, -⟩
          · exact .inl same
          · exact .inr ⟨cursor, grid, same.symm ▸ gap⟩
      | some a =>
        obtain ⟨member, least, -⟩ := List.argmin_eq_some_iff.mp next
        obtain ⟨live, ahead⟩ := List.mem_filter.mp member
        have ahead := of_decide_eq_true ahead
        have first (b : Allocation) (mem : b ∈ memory.live) (after : cursor ≤ b.address) :
            a.address ≤ b.address :=
          least b (List.mem_filter.mpr ⟨mem, decide_eq_true after⟩)
        have positive := (sound.formed a live).positive
        have inside := sound.inside a live
        have stop : a.stop = a.address + a.size := rfl
        -- No block crosses the end of the next one.
        have behind' : ∀ b ∈ memory.live, b.address < a.stop → b.stop ≤ a.stop := by
          intro b mem before
          by_cases past : b.address < cursor
          · have passed := behind b mem past
            omega
          · by_cases same : a = b
            · rw [same]
            · have later := first b mem (not_lt.mp past)
              have order := sound.ordered_of_ne live mem same
              have own : b.stop = b.address + b.size := rfl
              omega
        have fewer : (memory.live.countP fun b => a.stop ≤ b.address) < rounds := by
          have subset : ∀ b ∈ memory.live, (decide (a.stop ≤ b.address)) = true →
              decide (cursor ≤ b.address) = true := by
            intro b _ h
            have h := of_decide_eq_true h
            exact decide_eq_true (by omega)
          have strict := countP_lt subset live (decide_eq_true ahead) (decide_eq_false (by omega))
          omega
        have grid' : sysmemQuantum ∣ a.stop :=
          (Nat.dvd_add_right (gridded.address a live)).mpr (sound.formed a live).quantum
        obtain ⟨grows, covers, attained⟩ := @ih a.stop (max maximum (a.address - cursor)) grid'
          (show memory.start ≤ a.stop by omega) behind' fewer
        have gap : memory.Fits cursor (a.address - cursor) := by
          refine ⟨start, by omega, fun b mem => ?_⟩
          by_cases past : b.address < cursor
          · exact .inr (behind b mem past)
          · have later := first b mem (not_lt.mp past)
            exact .inl (by omega)
        refine ⟨(le_max_left _ _).trans grows, fun x n fits past => ?_, ?_⟩
        · rcases fits.clear a live with before | after
          · have reached := (le_max_right maximum (a.address - cursor)).trans grows
            dsimp only at reached ⊢
            omega
          · exact covers x n fits after
        · rcases attained with same | found
          · dsimp only at same ⊢
            rw [same]
            rcases max_cases maximum (a.address - cursor) with ⟨same, -⟩ | ⟨same, -⟩
            · exact .inl same
            · exact .inr ⟨cursor, grid, same.symm ▸ gap⟩
          · exact .inr found
    · rw [if_neg more]
      refine ⟨le_rfl, fun x n fits past => ?_, .inl rfl⟩
      have inside := fits.le_stop
      omega

theorem Sound.maximumFree (sound : memory.Sound) (gridded : memory.Gridded) :
    IsGreatest {n | ∃ x, memory.Fits x n} memory.maximumFree ∧
      (0 < memory.maximumFree →
        ∃ x, sysmemQuantum ∣ x ∧ memory.Fits x memory.maximumFree) := by
  have behind : ∀ b ∈ memory.live, b.address < memory.start → b.stop ≤ memory.start := by
    intro b mem before
    have inside := (sound.inside b mem).1
    omega
  have enough : (memory.live.countP fun b => memory.start ≤ b.address) < memory.live.length + 1 :=
    Nat.lt_succ_of_le List.countP_le_length
  obtain ⟨-, covers, attained⟩ :=
    maximumFreeLoop_spec sound gridded 0 gridded.start le_rfl behind enough
  have found : 0 < memory.maximumFree → ∃ x, sysmemQuantum ∣ x ∧ memory.Fits x memory.maximumFree := by
    intro positive
    rcases attained with zero | found
    · exact absurd zero positive.ne'
    · exact found
  refine ⟨⟨?_, fun n ⟨x, fits⟩ => covers x n fits fits.start_le⟩, found⟩
  rcases Nat.eq_zero_or_pos memory.maximumFree with zero | positive
  · -- The empty interval at the start is free.
    refine ⟨memory.start, le_rfl, ?_, fun b mem => .inl ?_⟩
    · rw [zero]
      exact sound.start_le
    · rw [zero]
      exact (sound.inside b mem).1
  · obtain ⟨x, -, fits⟩ := found positive
    exact ⟨x, fits⟩

/-! ### Runs of the allocator -/

theorem quantum_dvd (power : alignment.isPowerOfTwo) (strong : sysmemQuantum ≤ alignment) :
    sysmemQuantum ∣ alignment := by
  obtain ⟨k, rfl⟩ := power
  refine Nat.pow_dvd_pow 2 (m := 8) ?_
  by_contra short
  have less : 2 ^ k < 2 ^ 8 := Nat.pow_lt_pow_right (by decide) (by omega)
  unfold sysmemQuantum at strong
  omega

theorem run_allocateAligned {mode : AllocationMode} {address reserved : ℕ} {found : Option ℕ}
    (positive : size ≠ 0) (strong : sysmemQuantum ≤ alignment) (power : alignment.isPowerOfTwo)
    (slot : memory.allocations.nextId.isSome = true)
    (rounded : alignUp size sysmemQuantum = some reserved)
    (selection : memory.select mode reserved address alignment = .ok found) :
    match found with
    | none => (allocateAligned mode size address alignment).run memory = .error .noMemory memory
    | some selected => ∃ memory', (allocateAligned mode size address alignment).run memory =
        .ok ⟨selected, reserved, size, alignment⟩ memory' := by
  have proper : ¬ (alignment < sysmemQuantum ∨ ¬ alignment.isPowerOfTwo) :=
    not_or.mpr ⟨not_lt.mpr strong, not_not.mpr power⟩
  obtain ⟨id, next⟩ := Option.isSome_iff_exists.mp slot
  cases found with
  | none =>
    unfold allocateAligned
    simp [positive, proper, next, rounded, selection]
  | some selected =>
    obtain ⟨absent, low, high, -⟩ := FixedTable.nextId_eq_some next
    obtain ⟨table, inserted⟩ := FixedTable.insertAt_of_free
      (Allocation.mk selected reserved size alignment) absent low high
    have entered : memory.allocations.insert ⟨selected, reserved, size, alignment⟩ = .ok (id, table) := by
      unfold FixedTable.insert
      rw [next]
      show (memory.allocations.insertAt id _).map _ = _
      rw [inserted]
      rfl
    refine ⟨{ memory with allocations := table }, ?_⟩
    unfold allocateAligned
    simp [positive, proper, next, rounded, selection, entered]

theorem strong_of_ok {mode : AllocationMode} {address : ℕ} {a : Allocation}
    (run : (allocateAligned mode size address alignment).run memory = .ok a memory') :
    sysmemQuantum ≤ alignment := by
  by_contra weak
  have weak : alignment < sysmemQuantum ∨ ¬ alignment.isPowerOfTwo := .inl (not_le.mp weak)
  unfold allocateAligned at run
  by_cases empty : size = 0
  · simp [empty] at run
  · simp [empty, weak] at run

theorem Gridded.next (gridded : memory.Gridded) (sound : memory.Sound) {op : MemoryOp}
    (next : memory.Next op memory') : memory'.Gridded := by
  have allocated {mode : AllocationMode} {size address alignment : ℕ}
      (h : leaves ((allocateAligned mode size address alignment).run memory) = memory') :
      memory'.Gridded := by
    rcases allocateAligned_cases memory mode size address alignment with
      ⟨e, failed⟩ | ⟨reserved, selected, id, table, -, power, -, selection, inserted, ran⟩
    · rw [failed] at h
      exact h ▸ gridded
    · have strong := strong_of_ok ran
      rw [ran] at h
      subst h
      refine ⟨gridded.start, fun b mem => ?_⟩
      have perm := (FixedTable.perm_insert (by decide) inserted).map Prod.snd
      rcases List.mem_cons.mp (perm.mem_iff.mp mem) with rfl | old
      · exact (quantum_dvd power strong).trans (sound.select power selection).1
      · exact gridded.address b old
  unfold Next at next
  cases op with
  | allocate mode size address => exact allocated (by rw [← next, MemoryOp.perform, leaves_map]; rfl)
  | allocateAligned mode size address alignment =>
    exact allocated (by rw [← next, MemoryOp.perform, leaves_map])
  | free address =>
    rw [MemoryOp.perform, leaves_map] at next
    rcases free_cases memory address.toNat with ⟨e, failed⟩ | ⟨id, a, found, ran⟩
    · rw [failed] at next
      exact next ▸ gridded
    · rw [ran] at next
      subst next
      refine ⟨gridded.start, fun b mem => gridded.address b ?_⟩
      have perm := (FixedTable.perm_remove (by decide) found).map Prod.snd
      exact perm.mem_iff.mpr (List.mem_cons_of_mem _ mem)
  | reset =>
    subst next
    refine ⟨gridded.start, fun b mem => ?_⟩
    have none : live ⟨memory.start, memory.stop, .new⟩ = [] := live_new _ _
    have mem : b ∈ live ⟨memory.start, memory.stop, .new⟩ := mem
    rw [none] at mem
    cases mem

theorem gridded_run {start stop : Word} {ops : List MemoryOp}
    (created : SystemMemory.new start stop = .ok memory) (run : Run Next memory ops memory') :
    memory'.Gridded := by
  have both : memory'.Sound ∧ memory'.Gridded := by
    refine run.invariant (I := fun m => m.Sound ∧ m.Gridded) ?_ ?_
    · refine ⟨(sound_run created (.refl _)).1, ?_⟩
      unfold new at created
      split at created
      next => cases created
      next valid =>
        simp only [not_or, not_not] at valid
        cases created
        refine ⟨Nat.dvd_of_mod_eq_zero valid.2.2.1, fun b mem => ?_⟩
        rw [live_new] at mem
        cases mem
    · rintro before op after ⟨sound, gridded⟩ next
      exact ⟨(sound.next next).1, gridded.next sound next⟩
  exact both.2

/-- A request succeeds exactly where the mode finds a place, and then gets it. -/
theorem succeeds_iff (mode : AllocationMode) (address : ℕ) {reserved : ℕ} {found : Option ℕ}
    (positive : size ≠ 0) (strong : sysmemQuantum ≤ alignment) (power : alignment.isPowerOfTwo)
    (slot : memory.allocations.nextId.isSome = true)
    (rounded : alignUp size sysmemQuantum = some reserved)
    (selection : memory.select mode reserved address alignment = .ok found) (a : ℕ) :
    (∃ block memory', (allocateAligned mode size address alignment).run memory = .ok block memory' ∧
      block.address = a) ↔ found = some a := by
  have ran := run_allocateAligned positive strong power slot rounded selection
  cases found with
  | none =>
    refine ⟨fun ⟨block, memory', run, _⟩ => ?_, nofun⟩
    rw [ran] at run
    cases run
  | some selected =>
    obtain ⟨memory', ran⟩ := ran
    constructor
    · rintro ⟨block, after, run, rfl⟩
      rw [ran] at run
      cases run
      rfl
    · rintro ⟨⟩
      exact ⟨_, memory', ran, rfl⟩

theorem Sound.findFirst_eq_some (sound : memory.Sound) (power : alignment.isPowerOfTwo)
    (small : alignment < 2 ^ 32) (a : ℕ) :
    memory.findFirst size alignment = some a ↔ IsLeast (memory.places size alignment) a := by
  obtain ⟨least, complete⟩ := sound.findFirst_isLeast size power small
  refine ⟨least a, fun h => ?_⟩
  obtain ⟨result, found⟩ := complete ⟨a, h.1⟩
  rw [found, (least result found).unique h]

theorem Sound.findLast_eq_some (sound : memory.Sound) (power : alignment.isPowerOfTwo) (a : ℕ) :
    memory.findLast size alignment = some a ↔ IsGreatest (memory.places size alignment) a := by
  obtain ⟨greatest, complete⟩ := sound.findLast_isGreatest size power
  refine ⟨greatest a, fun h => ?_⟩
  obtain ⟨result, found⟩ := complete ⟨a, h.1⟩
  rw [found, (greatest result found).unique h]

theorem Sound.places_nonempty_iff (sound : memory.Sound) (gridded : memory.Gridded)
    (positive : 0 < size) : (memory.places size sysmemQuantum).Nonempty ↔ size ≤ memory.maximumFree := by
  obtain ⟨greatest, found⟩ := sound.maximumFree gridded
  constructor
  · rintro ⟨x, -, fits⟩
    exact greatest.2 ⟨x, fits⟩
  · intro le
    obtain ⟨x, grid, fits⟩ := found (lt_of_lt_of_le positive le)
    refine ⟨x, grid, fits.start_le, (Nat.add_le_add_left le x).trans fits.le_stop, fun b mem => ?_⟩
    have clear := fits.clear b mem
    omega

theorem run_allocateAligned_empty (mode : AllocationMode) (address alignment : ℕ) :
    (allocateAligned mode 0 address alignment).run memory = .error .illegalSize memory := rfl

/-- An empty request is refused.  Otherwise the lowest and the highest placement are the least and the
greatest aligned addresses at which the rounded size is free, and fail where there is none; the longest
free interval is reported, and is enough for a request of the standard alignment exactly where the
rounded size is no longer. -/
theorem placement_exact {start stop : Word} {ops : List MemoryOp}
    (created : SystemMemory.new start stop = .ok memory) (ran : Run Next memory ops memory')
    (size alignment address : Word) :
    (size = 0 → ∀ mode,
      (allocateAligned mode size.toNat address.toNat alignment.toNat).run memory' =
        .error .illegalSize memory' ∧
      (allocate mode size.toNat address.toNat).run memory' = .error .illegalSize memory') ∧
    ∀ reserved, size ≠ 0 → memory'.allocations.nextId.isSome = true →
      alignUp size.toNat sysmemQuantum = some reserved →
      sysmemQuantum ≤ alignment.toNat → alignment.toNat.isPowerOfTwo →
    (∀ a, (∃ block after, (allocateAligned .first size.toNat address.toNat alignment.toNat).run memory' =
        .ok block after ∧ block.address = a) ↔ IsLeast (memory'.places reserved alignment.toNat) a) ∧
      (∀ a, (∃ block after, (allocateAligned .last size.toNat address.toNat alignment.toNat).run memory' =
        .ok block after ∧ block.address = a) ↔
          IsGreatest (memory'.places reserved alignment.toNat) a) ∧
      ((memory'.places reserved alignment.toNat).Nonempty →
        (∃ a, IsLeast (memory'.places reserved alignment.toNat) a) ∧
          ∃ a, IsGreatest (memory'.places reserved alignment.toNat) a) ∧
      IsGreatest {n | ∃ x, memory'.Fits x n} memory'.maximumFree ∧
      ((∃ block after, (allocate .first size.toNat address.toNat).run memory' = .ok block after) ↔
        reserved ≤ memory'.maximumFree) ∧
      ((∃ block after, (allocate .last size.toNat address.toNat).run memory' = .ok block after) ↔
        reserved ≤ memory'.maximumFree) := by
  constructor
  · rintro rfl mode
    exact ⟨run_allocateAligned_empty _ _ _, run_allocateAligned_empty _ _ _⟩
  intro reserved positive slot rounded strong power
  have sound := (sound_run created ran).1
  have gridded := gridded_run created ran
  have positive : size.toNat ≠ 0 := fun zero => positive (BitVec.eq_of_toNat_eq zero)
  have reservedPositive : 0 < reserved :=
    lt_of_lt_of_le (Nat.pos_of_ne_zero positive) (alignUp_spec ⟨8, rfl⟩ rounded).2
  have quantumPower : sysmemQuantum.isPowerOfTwo := ⟨8, rfl⟩
  have first {a alignment : ℕ} (strong : sysmemQuantum ≤ alignment) (power : alignment.isPowerOfTwo)
      (small : alignment < 2 ^ 32) :=
    (succeeds_iff .first address.toNat positive strong power slot rounded rfl
      a).trans (sound.findFirst_eq_some power small a)
  have last {a alignment : ℕ} (strong : sysmemQuantum ≤ alignment) (power : alignment.isPowerOfTwo) :=
    (succeeds_iff .last address.toNat positive strong power slot rounded rfl
      a).trans (sound.findLast_eq_some power a)
  have exists_least {alignment : ℕ} (power : alignment.isPowerOfTwo) (small : alignment < 2 ^ 32)
      (some : (memory'.places reserved alignment).Nonempty) :
      ∃ a, IsLeast (memory'.places reserved alignment) a := by
    obtain ⟨least, complete⟩ := sound.findFirst_isLeast reserved power small
    obtain ⟨a, found⟩ := complete some
    exact ⟨a, least a found⟩
  have exists_greatest {alignment : ℕ} (power : alignment.isPowerOfTwo)
      (some : (memory'.places reserved alignment).Nonempty) :
      ∃ a, IsGreatest (memory'.places reserved alignment) a := by
    obtain ⟨greatest, complete⟩ := sound.findLast_isGreatest reserved power
    obtain ⟨a, found⟩ := complete some
    exact ⟨a, greatest a found⟩
  have fits := sound.places_nonempty_iff gridded reservedPositive
  refine ⟨fun a => first strong power alignment.isLt, fun a => last strong power,
    fun some => ⟨exists_least power alignment.isLt some, exists_greatest power some⟩,
    (sound.maximumFree gridded).1, ?_, ?_⟩
  · rw [← fits]
    constructor
    · rintro ⟨block, after, run⟩
      exact ⟨_, ((first le_rfl quantumPower (by decide)).mp ⟨block, after, run, rfl⟩).1⟩
    · intro some
      obtain ⟨a, least⟩ := exists_least quantumPower (by decide) some
      obtain ⟨block, after, run, -⟩ := (first le_rfl quantumPower (by decide)).mpr least
      exact ⟨block, after, run⟩
  · rw [← fits]
    constructor
    · rintro ⟨block, after, run⟩
      exact ⟨_, ((last le_rfl quantumPower).mp ⟨block, after, run, rfl⟩).1⟩
    · intro some
      obtain ⟨a, greatest⟩ := exists_greatest quantumPower some
      obtain ⟨block, after, run, -⟩ := (last le_rfl quantumPower).mpr greatest
      exact ⟨block, after, run⟩

/-- Three blocks, of which the one in the middle is freed again. -/
def holed : List MemoryOp :=
  [.allocate .first 0x300 0, .allocate .first 0x100 0, .allocate .first 0x200 0, .free 0x1300]

theorem exists_block {result : EStateM.Result KernelError SystemMemory Allocation} {a : ℕ}
    (h : (returned result).map Allocation.address = some a) :
    ∃ block after, result = .ok block after ∧ block.address = a := by
  obtain ⟨block, found, rfl⟩ := Option.map_eq_some_iff.mp h
  exact ⟨block, _, eq_ok_of_returned found, rfl⟩

/-- A small block goes into the hole or to the end of the arena, and the gap behind the last block is
the longest. -/
theorem placement_exact_sample : ∃ memory memory', SystemMemory.new 0x1000 0x2000 = .ok memory ∧
    Run Next memory holed memory' ∧ memory'.live.length = 2 ∧
    IsLeast (memory'.places 0x100 0x100) 0x1300 ∧ IsGreatest (memory'.places 0x100 0x100) 0x1f00 ∧
    IsGreatest {n | ∃ x, memory'.Fits x n} 0xa00 ∧
    (allocate .first 0 0).run memory' = .error .illegalSize memory' := by
  have created : SystemMemory.new 0x1000 0x2000 = .ok ⟨0x1000, 0x2000, .new⟩ := rfl
  have ran := Run.foldl (fun (memory : SystemMemory) (op : MemoryOp) => leaves (op.perform.run memory))
    ⟨0x1000, 0x2000, .new⟩ holed
  have power : (0x100 : Word).toNat.isPowerOfTwo := ⟨8, by decide⟩
  have rounded : alignUp (0x100 : Word).toNat sysmemQuantum = some 0x100 := by decide +kernel
  obtain ⟨first, last, -, longest, -⟩ := (placement_exact created ran 0x100 0x100 0).2 0x100
    (by decide) (by decide +kernel) rounded (by decide) power
  refine ⟨_, _, created, ran, by decide +kernel, (first _).mp ?_, (last _).mp ?_, ?_,
    ((placement_exact created ran 0 0 0).1 rfl .first).2⟩
  · exact exists_block (by decide +kernel)
  · exact exists_block (by decide +kernel)
  · rwa [show maximumFree _ = 0xa00 by decide +kernel] at longest

/-- An empty request has its place everywhere, and is refused. -/
theorem empty_request_refused :
    ∃ memory, SystemMemory.new 0x1000 0x2000 = .ok memory ∧ memory.allocations.nextId.isSome = true ∧
      alignUp 0 sysmemQuantum = some 0 ∧ (memory.places 0 sysmemQuantum).Nonempty ∧
      ¬ ∃ block after, (allocate .first 0 0).run memory = .ok block after := by
  have created : SystemMemory.new 0x1000 0x2000 = .ok ⟨0x1000, 0x2000, .new⟩ := rfl
  refine ⟨_, created, rfl, rfl, ⟨0x1000, by decide, by decide, by decide, ?_⟩, ?_⟩
  · intro b mem
    rw [live_new] at mem
    cases mem
  · rintro ⟨block, after, run⟩
    cases run

end SystemMemory

end Upse
