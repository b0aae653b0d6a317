import Upse.Bios.Ps1.Heap

/-!
# The live blocks of a PS1 heap

Over any run of the heap services the live blocks stay in order, apart, aligned and inside their
heap; an allocation takes the lowest address that fits and fails only where none does.
-/

namespace Upse.Ps1

open ErrorState

namespace Heap

variable {heap heap' : Heap}

/-! ### The invariant -/

/-- An aligned block inside the heap. -/
structure Formed (heap : Heap) (b : HeapBlock) : Prop where
  aligned : 8 ∣ b.address
  rounded : 8 ∣ b.size
  positive : 0 < b.size
  base_le : heap.base ≤ b.address
  le_stop : b.stop ≤ heap.stop

/-- The live blocks are in address order, apart, aligned and inside the heap. -/
structure Orderly (heap : Heap) : Prop where
  aligned : 8 ∣ heap.base
  base_le : heap.base ≤ heap.stop
  stop_lt : heap.stop < 2 ^ 32
  formed : ∀ b ∈ heap.blocks, heap.Formed b
  sorted : heap.blocks.Pairwise fun a b => a.stop ≤ b.address

/-- The interval lies in the heap and meets no live block. -/
structure Fits (heap : Heap) (size address : ℕ) : Prop where
  base_le : heap.base ≤ address
  le_stop : address + size ≤ heap.stop
  clear : ∀ b ∈ heap.blocks, address + size ≤ b.address ∨ b.stop ≤ address

/-- The size of the block for a request: at least one byte, rounded up to eight. -/
def rounded (size : ℕ) : ℕ := (max size 1 + 7) / 8 * 8

theorem rounded_pos (size : ℕ) : 0 < rounded size := by
  unfold rounded
  omega

theorem le_rounded (size : ℕ) : size ≤ rounded size := by
  unfold rounded
  omega

/-! ### The first gap -/

/-- The search returns the lowest address that meets no block, with its place in the order, and
fails only where every such interval passes the end of the address space. -/
theorem findGapLoop_spec {blocks : List HeapBlock} (size address index : ℕ)
    (above : ∀ b ∈ blocks, address ≤ b.address ∧ 0 < b.size ∧ b.stop < 2 ^ 32)
    (sorted : blocks.Pairwise fun a b => a.stop ≤ b.address) :
    match findGapLoop size blocks address index with
    | .ok (found, insertion) => ∃ before after, blocks = before ++ after ∧
        insertion = index + before.length ∧ address ≤ found ∧
        (found = address ∨ ∃ b ∈ before, found = b.stop) ∧
        (∀ b ∈ before, b.stop ≤ found) ∧ (∀ b ∈ after, found + size ≤ b.address) ∧
        ∀ x, address ≤ x → (∀ b ∈ blocks, x + size ≤ b.address ∨ b.stop ≤ x) → found ≤ x
    | .error e => e = .addressOverflow ∧
        ∀ x, address ≤ x → (∀ b ∈ blocks, x + size ≤ b.address ∨ b.stop ≤ x) → 2 ^ 32 ≤ x + size := by
  induction blocks generalizing address index with
  | nil => exact ⟨[], [], rfl, rfl, Nat.le_refl _, .inl rfl, nofun, nofun, fun x low _ => low⟩
  | cons block rest ih =>
    obtain ⟨low, live, inside⟩ := above block List.mem_cons_self
    obtain ⟨after, sorted⟩ := List.pairwise_cons.mp sorted
    rw [findGapLoop]
    cases candidate : checkedAdd 32 address size with
    | none =>
      have overflow := checkedAdd_eq_none.mp candidate
      exact ⟨rfl, fun x hx _ => by omega⟩
    | some candidateEnd =>
      obtain ⟨-, rfl⟩ := checkedAdd_eq_some.mp candidate
      simp only
      by_cases fits : address + size ≤ block.address
      · rw [if_pos fits]
        refine ⟨[], block :: rest, rfl, rfl, Nat.le_refl _, .inl rfl, nofun, ?_, fun x hx _ => hx⟩
        intro b member
        rcases List.mem_cons.mp member with rfl | later
        · exact fits
        · have next := after b later
          simp only [HeapBlock.stop] at next
          omega
      · have next : checkedAdd 32 block.address block.size = some block.stop :=
          checkedAdd_eq_some.mpr ⟨inside, rfl⟩
        rw [if_neg fits, next]
        simp only
        -- past the first block every free interval begins after it
        have beyond : ∀ x, address ≤ x → (∀ b ∈ block :: rest, x + size ≤ b.address ∨ b.stop ≤ x) →
            block.stop ≤ x ∧ ∀ b ∈ rest, x + size ≤ b.address ∨ b.stop ≤ x := by
          intro x hx clear
          have first := clear block List.mem_cons_self
          exact ⟨by omega, fun b member => clear b (List.mem_cons_of_mem _ member)⟩
        have spec := ih block.stop (index + 1)
          (fun b member => ⟨after b member, (above b (List.mem_cons_of_mem _ member)).2⟩) sorted
        cases ran : findGapLoop size rest block.stop (index + 1) with
        | error e =>
          rw [ran] at spec
          exact ⟨spec.1, fun x hx clear => spec.2 x (beyond x hx clear).1 (beyond x hx clear).2⟩
        | ok place =>
          rw [ran] at spec
          obtain ⟨before, behind, rfl, position, le, origin, past, ahead, least⟩ := spec
          have stop : address ≤ block.stop := by
            simp only [HeapBlock.stop]
            omega
          refine ⟨block :: before, behind, rfl, by rw [position, List.length_cons]; omega,
            le_trans stop le, .inr ?_, ?_, ahead,
            fun x hx clear => least x (beyond x hx clear).1 (beyond x hx clear).2⟩
          · rcases origin with same | ⟨b, member, same⟩
            · exact ⟨block, List.mem_cons_self, same⟩
            · exact ⟨b, List.mem_cons_of_mem _ member, same⟩
          · intro b member
            rcases List.mem_cons.mp member with rfl | later
            · exact le
            · exact past b later

theorem insertIdx_length {α : Type} (before after : List α) (x : α) :
    (before ++ after).insertIdx before.length x = before ++ x :: after := by
  induction before with
  | nil => rw [List.nil_append, List.length_nil, List.insertIdx_zero, List.nil_append]
  | cons b before ih =>
    rw [List.cons_append, List.length_cons, List.insertIdx_succ_cons, ih, List.cons_append]

theorem modify_length {α : Type} (before after : List α) (x : α) (f : α → α) :
    (before ++ x :: after).modify before.length f = before ++ f x :: after := by
  induction before with
  | nil => rw [List.nil_append, List.length_nil, List.modify_zero_cons, List.nil_append]
  | cons b before ih =>
    rw [List.cons_append, List.length_cons, List.modify_succ_cons, ih, List.cons_append]

theorem Orderly.above (orderly : heap.Orderly) :
    ∀ b ∈ heap.blocks, heap.base ≤ b.address ∧ 0 < b.size ∧ b.stop < 2 ^ 32 := by
  intro b member
  have formed := orderly.formed b member
  exact ⟨formed.base_le, formed.positive, lt_of_le_of_lt formed.le_stop orderly.stop_lt⟩

variable {before after : List HeapBlock}

theorem Orderly.insert (orderly : heap.Orderly) {b : HeapBlock}
    (split : heap.blocks = before ++ after) (formed : heap.Formed b)
    (past : ∀ c ∈ before, c.stop ≤ b.address) (ahead : ∀ c ∈ after, b.stop ≤ c.address) :
    Orderly { heap with blocks := before ++ b :: after } := by
  have sorted := orderly.sorted
  rw [split, List.pairwise_append] at sorted
  refine ⟨orderly.aligned, orderly.base_le, orderly.stop_lt, fun c member => ?_, ?_⟩
  · have known : c = b ∨ c ∈ heap.blocks := by
      rw [split]
      simp only [List.mem_append, List.mem_cons] at member ⊢
      tauto
    rcases known with rfl | old
    · exact ⟨formed.aligned, formed.rounded, formed.positive, formed.base_le, formed.le_stop⟩
    · have kept := orderly.formed c old
      exact ⟨kept.aligned, kept.rounded, kept.positive, kept.base_le, kept.le_stop⟩
  · refine List.pairwise_append.mpr ⟨sorted.1, List.pairwise_cons.mpr ⟨ahead, sorted.2.1⟩, ?_⟩
    intro c first d second
    rcases List.mem_cons.mp second with rfl | later
    · exact past c first
    · exact sorted.2.2 c first d later

/-- What a successful allocation does. -/
structure Allocates (heap : Heap) (size address : ℕ) (heap' : Heap) : Prop where
  least : IsLeast {x | heap.Fits (rounded size) x} address
  blocks : ∃ before after, heap.blocks = before ++ after ∧
    heap' = { heap with blocks := before ++ ⟨address, rounded size⟩ :: after }

theorem Orderly.allocateFromHeap (orderly : heap.Orderly) (size : ℕ) :
    match allocateFromHeap heap size with
    | .ok (address, heap') => Allocates heap size address heap' ∧ heap'.Orderly
    | .error e => (∀ x, ¬ heap.Fits (rounded size) x) ∧
        (e = .addressOverflow ∨ e = .outOfMemory size) := by
  have stop_lt := orderly.stop_lt
  unfold Ps1.allocateFromHeap
  cases aligned : alignUp (max size 1) 8 with
  | none =>
    have overflow := alignUp_eight_none aligned
    refine ⟨fun x fits => ?_, .inl rfl⟩
    have top := fits.le_stop
    have large : 2 ^ 32 ≤ rounded size := by
      unfold rounded
      omega
    omega
  | some allocationSize =>
    obtain rfl : allocationSize = rounded size := (alignUp_eight aligned).1
    have spec := findGapLoop_spec (rounded size) heap.base 0 orderly.above orderly.sorted
    simp only
    cases ran : findGapLoop (rounded size) heap.blocks heap.base 0 with
    | error e =>
      rw [ran] at spec
      refine ⟨fun x fits => ?_, .inl spec.1⟩
      have high := spec.2 x fits.base_le fits.clear
      have top := fits.le_stop
      omega
    | ok place =>
      obtain ⟨address, insertion⟩ := place
      rw [ran] at spec
      obtain ⟨before, after, split, rfl, low, origin, past, ahead, least⟩ := spec
      simp only
      cases added : checkedAdd 32 address (rounded size) with
      | none =>
        have overflow := checkedAdd_eq_none.mp added
        refine ⟨fun x fits => ?_, .inl rfl⟩
        have first := least x fits.base_le fits.clear
        have top := fits.le_stop
        omega
      | some allocationEnd =>
        obtain ⟨-, rfl⟩ := checkedAdd_eq_some.mp added
        simp only
        by_cases full : heap.stop < address + rounded size
        · rw [if_pos full]
          refine ⟨fun x fits => ?_, .inr rfl⟩
          have first := least x fits.base_le fits.clear
          have top := fits.le_stop
          omega
        · rw [if_neg full, Nat.zero_add, split, insertIdx_length]
          have fits : heap.Fits (rounded size) address := by
            refine ⟨low, by omega, fun b member => ?_⟩
            rw [split] at member
            rcases List.mem_append.mp member with first | second
            · exact .inr (past b first)
            · exact .inl (ahead b second)
          have aligned : 8 ∣ address := by
            rcases origin with rfl | ⟨b, member, rfl⟩
            · exact orderly.aligned
            · have formed := orderly.formed b (split ▸ List.mem_append_left _ member)
              exact (Nat.dvd_add formed.aligned formed.rounded)
          refine ⟨⟨⟨fits, fun x fits => least x fits.base_le fits.clear⟩, before, after, split, rfl⟩,
            orderly.insert split ⟨aligned, Nat.dvd_mul_left _ _, rounded_pos size, low, ?_⟩ past ahead⟩
          simp only [HeapBlock.stop]
          omega

/-! ### The block at an address -/

theorem position_eq_some {address index : ℕ} (h : heap.position address = some index) :
    ∃ before b after, heap.blocks = before ++ b :: after ∧ index = before.length ∧
      b.address = address ∧ ∀ c ∈ before, c.address ≠ address := by
  obtain ⟨bound, here, first⟩ := List.findIdx?_eq_some_iff_getElem.mp h
  refine ⟨heap.blocks.take index, heap.blocks[index], heap.blocks.drop (index + 1), ?_, ?_, ?_, ?_⟩
  · rw [← List.drop_eq_getElem_cons bound, List.take_append_drop]
  · rw [List.length_take, Nat.min_eq_left bound.le]
  · exact of_decide_eq_true here
  · intro c member
    obtain ⟨j, hj, rfl⟩ := List.mem_take_iff_getElem.mp member
    simpa using first j (by omega)

theorem position_eq_none {address : ℕ} (h : heap.position address = none) :
    ∀ b ∈ heap.blocks, b.address ≠ address := by
  intro b member
  simpa using List.findIdx?_eq_none_iff.mp h b member

theorem Orderly.sublist (orderly : heap.Orderly) {blocks : List HeapBlock}
    (sub : blocks.Sublist heap.blocks) : Orderly { heap with blocks := blocks } where
  aligned := orderly.aligned
  base_le := orderly.base_le
  stop_lt := orderly.stop_lt
  formed b member :=
    have kept := orderly.formed b (sub.mem member)
    ⟨kept.aligned, kept.rounded, kept.positive, kept.base_le, kept.le_stop⟩
  sorted := orderly.sorted.sublist sub

theorem Orderly.address_lt (orderly : heap.Orderly) {b c : HeapBlock}
    (split : heap.blocks = before ++ b :: after) (member : c ∈ after) : b.stop ≤ c.address := by
  have sorted := orderly.sorted
  rw [split, List.pairwise_append] at sorted
  exact (List.pairwise_cons.mp sorted.2.1).1 c member

/-- The heap without the block at an address. -/
def without (heap : Heap) (address : ℕ) : Heap :=
  { heap with blocks := heap.blocks.filter fun b => b.address != address }

theorem filter_ne_split (orderly : heap.Orderly) {b : HeapBlock}
    (split : heap.blocks = before ++ b :: after) (first : ∀ c ∈ before, c.address ≠ b.address) :
    (heap.blocks.filter fun c => c.address != b.address) = before ++ after := by
  have later : ∀ c ∈ after, c.address ≠ b.address := by
    intro c member
    have positive := (orderly.formed b (by rw [split]; simp)).positive
    have next := orderly.address_lt split member
    simp only [HeapBlock.stop] at next
    omega
  rw [split, List.filter_append, List.filter_cons_of_neg (by simp),
    List.filter_eq_self.mpr fun c member => by simpa using first c member,
    List.filter_eq_self.mpr fun c member => by simpa using later c member]

theorem Orderly.freeFromHeap (orderly : heap.Orderly) (address : ℕ) :
    freeFromHeap heap address =
      { heap with blocks := heap.blocks.filter fun b => b.address != address } := by
  unfold Ps1.freeFromHeap
  cases found : heap.position address with
  | none =>
    simp only
    rw [List.filter_eq_self.mpr fun b member => by simpa using position_eq_none found b member]
  | some index =>
    obtain ⟨before, b, after, split, rfl, rfl, first⟩ := position_eq_some found
    rw [filter_ne_split orderly split first]
    simp only [split]
    rw [List.eraseIdx_append_of_length_le (Nat.le_refl _), Nat.sub_self, List.eraseIdx_cons_zero]

theorem Orderly.free (orderly : heap.Orderly) (address : ℕ) :
    (Ps1.freeFromHeap heap address).Orderly := by
  rw [orderly.freeFromHeap]
  exact orderly.sublist List.filter_sublist

/-- What changing the size of a block, in place or by moving it, does to the heap. -/
structure Resizes (heap : Heap) (old size address : ℕ) (heap' : Heap) : Prop where
  base : heap'.base = heap.base
  stop : heap'.stop = heap.stop
  blocks : heap'.blocks.Perm (⟨address, rounded size⟩ :: (heap.without old).blocks)

theorem Orderly.resize (orderly : heap.Orderly) {b : HeapBlock}
    {size : ℕ} (split : heap.blocks = before ++ b :: after)
    (first : ∀ c ∈ before, c.address ≠ b.address)
    (room : b.address + rounded size ≤
      ((heap.blocks[before.length + 1]?).map HeapBlock.address).getD heap.stop) :
    let heap' := { heap with blocks := heap.blocks.modify before.length fun block =>
      { block with size := rounded size } }
    heap'.Orderly ∧ heap.Resizes b.address size b.address heap' := by
  have modified : (heap.blocks.modify before.length fun block =>
      { block with size := rounded size }) = before ++ ⟨b.address, rounded size⟩ :: after := by
    rw [split, modify_length]
  have next : (heap.blocks[before.length + 1]?).map HeapBlock.address =
      after.head?.map HeapBlock.address := by
    rw [split, List.getElem?_append_right (by omega)]
    cases after <;> simp
  rw [next] at room
  have formed := orderly.formed b (by rw [split]; simp)
  have sorted := orderly.sorted
  rw [split, List.pairwise_append] at sorted
  have ahead : ∀ c ∈ after, b.address + rounded size ≤ c.address := by
    cases after with
    | nil => exact nofun
    | cons d after =>
      intro c member
      rcases List.mem_cons.mp member with rfl | later
      · exact room
      · have follows := (List.pairwise_cons.mp (List.pairwise_cons.mp sorted.2.1).2).1 c later
        simp only [List.head?_cons, Option.map_some, Option.getD_some, HeapBlock.stop] at room follows
        omega
  have inside : b.address + rounded size ≤ heap.stop := by
    cases after with
    | nil => exact room
    | cons d after =>
      have bound := ahead d List.mem_cons_self
      have last := (orderly.formed d (by rw [split]; simp)).le_stop
      simp only [HeapBlock.stop] at last
      omega
  have shorter : Orderly { heap with blocks := before ++ after } :=
    orderly.sublist (by rw [split]; exact List.Sublist.append_left (List.sublist_cons_self _ _) _)
  simp only [modified]
  refine ⟨?_, rfl, rfl, ?_⟩
  · exact shorter.insert rfl
      ⟨formed.aligned, Nat.dvd_mul_left _ _, rounded_pos size, formed.base_le, inside⟩
      (fun c member => sorted.2.2 c member b List.mem_cons_self) ahead
  · rw [without, filter_ne_split orderly split first]
    exact List.perm_middle

theorem Orderly.move (orderly : heap.Orderly) {b : HeapBlock} (member : b ∈ heap.blocks)
    {size address : ℕ} {heap' : Heap} (allocates : heap.Allocates size address heap')
    (kept : heap'.Orderly) :
    heap.Resizes b.address size address (Ps1.freeFromHeap heap' b.address) := by
  obtain ⟨before, after, split, rfl⟩ := allocates.blocks
  have differ : address ≠ b.address := by
    have clear := allocates.least.1.clear b member
    have positive := (orderly.formed b member).positive
    have positive' := rounded_pos size
    simp only [HeapBlock.stop] at clear
    omega
  refine ⟨?_, ?_, ?_⟩
  · rw [kept.freeFromHeap]
  · rw [kept.freeFromHeap]
  · rw [kept.freeFromHeap, without, split, List.filter_append, List.filter_append,
      List.filter_cons_of_pos (by simpa using differ)]
    exact List.perm_middle

theorem orderly_newHeap {start size : ℕ} (h : newHeap start size = .ok heap) :
    heap.Orderly ∧ heap.blocks = [] := by
  unfold newHeap at h
  split at h
  next => cases h
  next base aligned =>
    split at h
    next => cases h
    next stop added =>
      obtain ⟨lt, rfl⟩ := checkedAdd_eq_some.mp added
      obtain ⟨rfl, -⟩ := alignUp_eight aligned
      split at h
      next => cases h
      next room =>
        cases h
        exact ⟨⟨Nat.dvd_mul_left _ _, not_lt.mp room, lt, nofun, .nil⟩, rfl⟩

end Heap

/-! ### What the services do -/

/-- The failures that leave the heap alone: no memory, an address past the end of the address space,
a size over the limit, or no heap. -/
def BiosError.Refuses : BiosError → Prop
  | .outOfMemory _ | .addressOverflow | .memoryOperationLimit _ _ | .heapUnavailable => True
  | _ => False

/-- Both heaps are orderly. -/
structure HeapsOrderly (bios : BiosHle) : Prop where
  heap : ∀ heap, bios.heap = some heap → heap.Orderly
  kernelHeap : bios.kernelHeap.Orderly

theorem heapsOrderly_new (limits : HleLimits) : HeapsOrderly (.new limits) :=
  ⟨nofun, ⟨show 8 ∣ kernelMemoryAddress by decide, Nat.le_add_right _ _,
    show kernelMemoryAddress + kernelMemorySize < 2 ^ 32 by decide, nofun, .nil⟩⟩

section Services

variable {M : Type} {s t : HleState M}

theorem HeapsOrderly.setHeap (orderly : HeapsOrderly s.bios) {heap : Heap} (h : heap.Orderly) :
    HeapsOrderly { s.bios with heap := some heap } :=
  ⟨fun _ same => Option.some.inj same ▸ h, orderly.kernelHeap⟩

/-- The value the guest finds in its result register. -/
def Returns (t : HleState M) (value : ℕ) : Prop :=
  t.context.register v0 = some (BitVec.ofNat 32 value)

instance (value : ℕ) : Decidable (Returns t value) :=
  inferInstanceAs (Decidable (t.context.register v0 = some (BitVec.ofNat 32 value)))

theorem returns_returnValue (value : ℕ) :
    Returns { s with context := s.context.returnValue value } value := by
  unfold Returns CpuContext.returnValue CpuContext.setRegister CpuContext.register
  rw [if_neg (by decide)]
  simp [v0]

theorem allocate_spec (orderly : HeapsOrderly s.bios) (size : ℕ) :
    match (allocate size).run s with
    | .ok address t => ∃ heap heap', s.bios.heap = some heap ∧ heap.Allocates size address heap' ∧
        heap'.Orderly ∧ t = { s with bios := { s.bios with heap := some heap' } }
    | .error e t => t = s ∧ e.Refuses ∧
        ∀ heap, s.bios.heap = some heap → ∀ x, ¬ heap.Fits (Heap.rounded size) x := by
  unfold allocate
  cases found : s.bios.heap with
  | none =>
    simp only [run_bind, run_get, found, run_okOr_none]
    exact ⟨trivial, trivial, nofun⟩
  | some heap =>
    have spec := (orderly.heap heap found).allocateFromHeap size
    cases ran : allocateFromHeap heap size with
    | error e =>
      rw [ran] at spec
      simp only [run_bind, run_get, found, run_okOr_some, ran, run_ofExcept_error]
      refine ⟨trivial, ?_, fun other same => Option.some.inj same ▸ spec.1⟩
      rcases spec.2 with rfl | rfl <;> trivial
    | ok place =>
      rw [ran] at spec
      simp only [run_bind, run_get, found, run_okOr_some, ran, run_ofExcept_ok]
      exact ⟨heap, place.2, rfl, spec.1, spec.2, rfl⟩

/-- A request for memory: the lowest block that fits, or none because there is none. -/
def Requests (s : HleState M) (size : ℕ) : EStateM.Result BiosError (HleState M) ℕ → Prop
  | .ok _ t => ∃ heap heap' address, s.bios.heap = some heap ∧ heap.Allocates size address heap' ∧
      t.bios = { s.bios with heap := some heap' } ∧ t.memory = s.memory ∧ Returns t address
  | .error e t => t = s ∧ e.Refuses ∧
      ∀ heap, s.bios.heap = some heap → ∀ x, ¬ heap.Fits (Heap.rounded size) x

theorem requests_allocate (orderly : HeapsOrderly s.bios) (size cycles : ℕ) :
    Requests s size ((do
      let address ← allocate size
      returnValue address
      return cycles : HleM M ℕ).run s) ∧
    HeapsOrderly (leaves ((do
      let address ← allocate size
      returnValue address
      return cycles : HleM M ℕ).run s)).bios := by
  have spec := allocate_spec orderly size
  rw [run_bind]
  cases ran : (allocate size).run s with
  | error e t =>
    rw [ran] at spec
    obtain ⟨rfl, refuses, none⟩ := spec
    exact ⟨⟨rfl, refuses, none⟩, orderly⟩
  | ok address t =>
    rw [ran] at spec
    obtain ⟨heap, heap', found, allocates, kept, rfl⟩ := spec
    exact ⟨⟨heap, heap', address, found, allocates, rfl, rfl, returns_returnValue address⟩,
      orderly.setHeap kept⟩

/-! ### Filling and copying -/

variable {ram : GuestBytes M} {byte : M → ℕ → BitVec 8}

/-- A memory access changes the memory at most. -/
def OnlyMemory (s t : HleState M) : Prop := t.bios = s.bios ∧ t.context = s.context

instance : Std.Refl (OnlyMemory : HleState M → HleState M → Prop) := ⟨fun _ => ⟨rfl, rfl⟩⟩

instance : IsTrans (HleState M) OnlyMemory :=
  ⟨fun _ _ _ h h' => ⟨h'.1.trans h.1, h'.2.trans h.2⟩⟩

theorem onlyMemory_readByte (base offset : ℕ) : Leads OnlyMemory s (readByte ram base offset) :=
  leads_okOr_bind fun _ _ => leads_zoom ⟨rfl, rfl⟩

theorem onlyMemory_writeByte (base offset : ℕ) (value : BitVec 8) :
    Leads OnlyMemory s (writeByte ram base offset value) :=
  leads_okOr_bind fun _ _ => leads_zoom ⟨rfl, rfl⟩

theorem onlyMemory_copyByte (source destination offset : ℕ) :
    Leads OnlyMemory s (copyByte ram source destination offset) :=
  (onlyMemory_readByte _ _).bind fun _ _ _ => onlyMemory_writeByte _ _ _

theorem fails_access {α : Type} {base offset : ℕ} {operation : MemoryOperation}
    {m : ℕ → EStateM GuestMemoryError M α} (fits : base + offset < 2 ^ 32) {e : BiosError}
    (run : (do
      let address ← okOr (checkedAdd 32 base offset) .addressOverflow
      onGuestMemory address operation (m address) : HleM M α).run s = .error e t) :
    ∃ address source, e = .guestMemory address operation source := by
  rw [checkedAdd_eq_some.mpr ⟨fits, rfl⟩] at run
  obtain ⟨source, _, -, rfl, -⟩ := run_zoom_error run
  exact ⟨_, source, rfl⟩

variable {base stop : ℕ}

theorem run_readByte (inRam : RamIn ram byte base stop) {source offset : ℕ}
    (low : base ≤ source + offset) (high : source + offset < stop) (lt : stop ≤ 2 ^ 32) :
    (readByte ram source offset).run s = .ok (byte s.memory (source + offset)) s := by
  unfold readByte
  rw [checkedAdd_eq_some.mpr ⟨lt_of_lt_of_le high lt, rfl⟩]
  exact run_zoom_ok.mpr ⟨_, inRam.reads s.memory _ low high, rfl⟩

theorem run_writeByte (inRam : RamIn ram byte base stop) (destination offset : ℕ)
    (value : BitVec 8) (low : base ≤ destination + offset) (high : destination + offset < stop)
    (lt : stop ≤ 2 ^ 32) : ∃ memory, (writeByte ram destination offset value).run s =
      .ok () { s with memory := memory } ∧ byte memory (destination + offset) = value ∧
        ∀ other, base ≤ other → other < stop → other ≠ destination + offset →
          byte memory other = byte s.memory other := by
  obtain ⟨memory, ran, here, others⟩ := inRam.writes s.memory _ value low high
  refine ⟨memory, ?_, here, others⟩
  unfold writeByte
  rw [checkedAdd_eq_some.mpr ⟨lt_of_lt_of_le high lt, rfl⟩]
  exact run_zoom_ok.mpr ⟨memory, ran, rfl⟩

theorem run_fill (inRam : RamIn ram byte base stop) {destination size : ℕ}
    (low : base ≤ destination) (high : destination + size ≤ stop) (lt : stop ≤ 2 ^ 32) :
    ∃ t, (forRange (fun offset => writeByte ram destination offset 0) 0 size).run s = .ok () t ∧
      ∀ i, i < size → byte t.memory (destination + i) = 0 := by
  obtain ⟨t, ran, zeros⟩ : ∃ t, (forRange (fun offset => writeByte ram destination offset 0) 0
      size).run s = .ok () t ∧ ∀ i, i < 0 + size → byte t.memory (destination + i) = 0 := by
    refine forRange_ok (fun n (a : HleState M) => ∀ i, i < n → byte a.memory (destination + i) = 0)
      (fun i hi => absurd hi (Nat.not_lt_zero i)) ?_
    intro j a _ bound zeros
    obtain ⟨memory, ran, here, others⟩ :=
      run_writeByte (s := a) inRam destination j 0 (by omega) (by omega) lt
    refine ⟨_, ran, fun i hi => ?_⟩
    rcases Nat.lt_succ_iff_lt_or_eq.mp hi with before | rfl
    · rw [← zeros i before]
      exact others _ (by omega) (by omega) (by omega)
    · exact here
  rw [Nat.zero_add] at zeros
  exact ⟨t, ran, zeros⟩

theorem run_copy (s : HleState M) (inRam : RamIn ram byte base stop)
    {source destination size : ℕ} (lowS : base ≤ source) (highS : source + size ≤ stop) (lowD : base ≤ destination)
    (highD : destination + size ≤ stop) (lt : stop ≤ 2 ^ 32)
    (apart : source + size ≤ destination ∨ destination + size ≤ source) :
    ∃ t, (forRange (copyByte ram source destination) 0 size).run s = .ok () t ∧
      ∀ i, i < size → byte t.memory (destination + i) = byte s.memory (source + i) := by
  obtain ⟨t, ran, copied⟩ : ∃ t, (forRange (copyByte ram source destination) 0 size).run s =
      .ok () t ∧ (∀ i, i < 0 + size →
        byte t.memory (destination + i) = byte s.memory (source + i)) ∧
      ∀ i, i < size → byte t.memory (source + i) = byte s.memory (source + i) := by
    refine forRange_ok (fun n (a : HleState M) =>
      (∀ i, i < n → byte a.memory (destination + i) = byte s.memory (source + i)) ∧
        ∀ i, i < size → byte a.memory (source + i) = byte s.memory (source + i))
      ⟨fun i hi => absurd hi (Nat.not_lt_zero i), fun _ _ => rfl⟩ ?_
    rintro j a - bound ⟨copied, kept⟩
    obtain ⟨memory, ran, here, others⟩ := run_writeByte (s := a) inRam destination j
      (byte a.memory (source + j)) (by omega) (by omega) lt
    refine ⟨{ a with memory := memory }, ?_, fun i hi => ?_, fun i hi => ?_⟩
    · unfold copyByte
      rw [run_bind, run_readByte inRam (by omega) (by omega) lt]
      exact ran
    · rcases Nat.lt_succ_iff_lt_or_eq.mp hi with before | rfl
      · rw [← copied i before]
        exact others _ (by omega) (by omega) (by omega)
      · exact here.trans (kept i (by omega))
    · rw [← kept i hi]
      exact others _ (by omega) (by omega) (by omega)
  rw [Nat.zero_add] at copied
  exact ⟨t, ran, copied.1⟩

/-! ### The services one by one -/

theorem run_malloc : malloc.run s = (do
    let address ← allocate (s.context.argument 0)
    returnValue address
    return 12 : HleM M ℕ).run s := rfl

/-- A failed call: the refusals change nothing the guest can see of its heap, and over readable and
writable memory there are no other failures. -/
structure FailsClean (ram : GuestBytes M) (byte : M → ℕ → BitVec 8) (s : HleState M) (e : BiosError)
    (t : HleState M) : Prop where
  unchanged : e.Refuses → t.bios = s.bios ∧ t.memory = s.memory
  refuses : (∀ heap, s.bios.heap = some heap → RamIn ram byte heap.base heap.stop) → e.Refuses

theorem FailsClean.of_refuses {e : BiosError} (bios : t.bios = s.bios) (memory : t.memory = s.memory)
    (refuses : e.Refuses) : FailsClean ram byte s e t :=
  ⟨fun _ => ⟨bios, memory⟩, fun _ => refuses⟩

theorem not_refuses_of_access {e : BiosError}
    (h : ∃ address operation source, e = .guestMemory address operation source) : ¬ e.Refuses := by
  obtain ⟨_, _, _, rfl⟩ := h
  exact id

/-- `calloc`: the lowest block that fits, whose requested bytes are zero. -/
def Zeroes (ram : GuestBytes M) (byte : M → ℕ → BitVec 8) (s : HleState M) (size : ℕ) :
    EStateM.Result BiosError (HleState M) ℕ → Prop
  | .ok _ t => ∃ heap heap' address, s.bios.heap = some heap ∧ heap.Allocates size address heap' ∧
      t.bios = { s.bios with heap := some heap' } ∧ Returns t address ∧
      (RamIn ram byte heap.base heap.stop → ∀ i, i < size → byte t.memory (address + i) = 0)
  | .error e t => FailsClean ram byte s e t

theorem Heap.Allocates.inside {heap heap' : Heap} {size address : ℕ}
    (h : heap.Allocates size address heap') : heap.base ≤ address ∧ address + size ≤ heap.stop := by
  have fits := h.least.1
  have low := fits.base_le
  have high := fits.le_stop
  have enough := Heap.le_rounded size
  omega

theorem argument_setRegister (context : CpuContext) {value : ℕ} (lt : value < 2 ^ 32) :
    (context.setRegister a0 (BitVec.ofNat 32 value)).argument 0 = value := by
  unfold CpuContext.argument CpuContext.register CpuContext.setRegister
  rw [if_neg (by decide)]
  simpa [a0] using lt

theorem calloc_spec (orderly : HeapsOrderly s.bios) :
    Zeroes ram byte s (s.context.argument 0 * s.context.argument 1) ((calloc ram).run s) ∧
      HeapsOrderly (leaves ((calloc ram).run s)).bios := by
  unfold calloc
  simp only [run_bind, argument, run_get, run_pure]
  cases product : checkedMul 32 (s.context.argument 0) (s.context.argument 1) with
  | none => exact ⟨.of_refuses rfl rfl trivial, orderly⟩
  | some size =>
    obtain ⟨lt, rfl⟩ := checkedMul_eq_some.mp product
    simp only [run_okOr_some, checkMemorySize, run_bind, run_get, run_throwIf]
    by_cases large : s.bios.limits.memoryOperationBytes <
        s.context.argument 0 * s.context.argument 1
    · rw [if_pos large]
      exact ⟨.of_refuses rfl rfl trivial, orderly⟩
    · rw [if_neg large]
      simp only [run_modify, run_map, run_malloc, argument_setRegister _ lt]
      generalize same : s.context.argument 0 * s.context.argument 1 = size at lt ⊢
      generalize s.context.setRegister a0 (BitVec.ofNat 32 size) = context
      have asked := requests_allocate (s := ⟨s.bios, context, s.memory⟩) orderly size 12
      generalize (do
        let address ← allocate size
        returnValue address
        return 12 : HleM M ℕ).run ⟨s.bios, context, s.memory⟩ = r at asked ⊢
      cases r with
      | error e t =>
        obtain ⟨⟨rfl, refuses, -⟩, orderly'⟩ := asked
        exact ⟨.of_refuses rfl rfl refuses, orderly'⟩
      | ok cycles u =>
        obtain ⟨⟨heap, heap', address, found, allocates, bios, memory, returns⟩, orderly'⟩ := asked
        have inside := allocates.inside
        have stop := (orderly.heap heap found).stop_lt
        have destination : ((u.context.register v0).getD 0).toNat = address := by
          rw [returns, Option.getD_some, BitVec.toNat_ofNat]
          exact Nat.mod_eq_of_lt (by omega)
        simp only [destination]
        have only : Leads OnlyMemory u (forRange (fun offset => writeByte ram address offset 0) 0
            size) := leads_forRange fun _ _ => onlyMemory_writeByte _ _ _
        cases filled : (forRange (fun offset => writeByte ram address offset 0) 0 size).run u with
        | ok _ v =>
          have kept := only.of_ok filled
          refine ⟨⟨heap, heap', address, found, allocates, kept.1.trans bios,
            returns_returnValue address, fun inRam i hi => ?_⟩, ?_⟩
          · obtain ⟨w, ran, zeros⟩ := run_fill (s := u) inRam inside.1 inside.2 stop.le
            rw [filled] at ran
            cases ran
            exact zeros i hi
          · change HeapsOrderly v.bios
            rw [kept.1]
            exact orderly'
        | error e v =>
          have kept : OnlyMemory u v := by
            have leads := only
            unfold Leads at leads
            rwa [filled] at leads
          obtain ⟨j, w, -, bound, failed⟩ := forRange_error filled
          obtain ⟨_, source, rfl⟩ := fails_access (by omega) failed
          refine ⟨⟨False.elim, fun inRam => ?_⟩, ?_⟩
          · obtain ⟨w, ran, -⟩ := run_fill (s := u) (inRam heap found) inside.1 inside.2 stop.le
            rw [filled] at ran
            cases ran
          · change HeapsOrderly v.bios
            rw [kept.1]
            exact orderly'

/-- `realloc`: an allocation without an old block, a release for no bytes, nothing for an address that
is no block's, or the block with its new size and its first bytes. -/
def Reallocates (ram : GuestBytes M) (byte : M → ℕ → BitVec 8) (s : HleState M) (old size : ℕ) :
    EStateM.Result BiosError (HleState M) ℕ → Prop
  | .error e t => FailsClean ram byte s e t
  | .ok _ t =>
    if old = 0 then
      ∃ heap heap' address, s.bios.heap = some heap ∧ heap.Allocates size address heap' ∧
        t.bios = { s.bios with heap := some heap' } ∧ Returns t address
    else if size = 0 then
      t.bios = { s.bios with heap := s.bios.heap.map (·.without old) } ∧ Returns t 0
    else ∃ heap, s.bios.heap = some heap ∧
      (((∀ b ∈ heap.blocks, b.address ≠ old) ∧ t.bios = s.bios ∧ t.memory = s.memory ∧
          Returns t 0) ∨
        ∃ b ∈ heap.blocks, b.address = old ∧ ∃ heap' address, heap.Resizes old size address heap' ∧
          t.bios = { s.bios with heap := some heap' } ∧ Returns t address ∧
          (RamIn ram byte heap.base heap.stop →
            ∀ i, i < min b.size size → byte t.memory (address + i) = byte s.memory (old + i)))

theorem run_free (orderly : HeapsOrderly s.bios) : free.run s = .ok 6 { s with
    bios := { s.bios with heap := s.bios.heap.map (·.without (s.context.argument 0)) } } := by
  have same : s.bios.heap.map (freeFromHeap · (s.context.argument 0)) =
      s.bios.heap.map (·.without (s.context.argument 0)) := by
    cases found : s.bios.heap with
    | none => rfl
    | some heap => exact congrArg some ((orderly.heap heap found).freeFromHeap _)
  rw [← same]
  rfl

theorem HeapsOrderly.without (orderly : HeapsOrderly s.bios) (address : ℕ) :
    HeapsOrderly { s.bios with heap := s.bios.heap.map (·.without address) } := by
  refine ⟨fun heap' found => ?_, orderly.kernelHeap⟩
  obtain ⟨heap, before, rfl⟩ := Option.map_eq_some_iff.mp found
  exact (orderly.heap heap before).sublist List.filter_sublist

variable (ram byte) in
theorem moveBlock_spec (orderly : HeapsOrderly s.bios) {heap : Heap} (found : s.bios.heap = some heap)
    {b : HeapBlock} (member : b ∈ heap.blocks) (size : ℕ) :
    (match (moveBlock ram b.address b.size size).run s with
      | .error e t => FailsClean ram byte s e t
      | .ok _ t => ∃ heap' address, heap.Resizes b.address size address heap' ∧
          t.bios = { s.bios with heap := some heap' } ∧ Returns t address ∧
          (RamIn ram byte heap.base heap.stop →
            ∀ i, i < min b.size size → byte t.memory (address + i) = byte s.memory (b.address + i))) ∧
      HeapsOrderly (leaves ((moveBlock ram b.address b.size size).run s)).bios := by
  have spec := allocate_spec orderly size
  unfold moveBlock
  rw [run_bind]
  cases ran : (allocate size).run s with
  | error e t =>
    rw [ran] at spec
    obtain ⟨rfl, refuses, -⟩ := spec
    exact ⟨.of_refuses rfl rfl refuses, orderly⟩
  | ok address u =>
    rw [ran] at spec
    obtain ⟨heap₁, heap', found', allocates, kept, rfl⟩ := spec
    obtain rfl := Option.some.inj (found.symm.trans found')
    have inside := allocates.inside
    have formed := (orderly.heap heap found).formed b member
    have stop := (orderly.heap heap found).stop_lt
    have low := formed.base_le
    have high := formed.le_stop
    have apart := allocates.least.1.clear b member
    have enough := Heap.le_rounded size
    simp only [HeapBlock.stop] at high apart
    simp only [run_bind]
    have only : Leads OnlyMemory { s with bios := { s.bios with heap := some heap' } }
        (forRange (copyByte ram b.address address) 0 (min b.size size)) :=
      leads_forRange fun _ _ => onlyMemory_copyByte _ _ _
    have copies (inRam : RamIn ram byte heap.base heap.stop) := run_copy
      { s with bios := { s.bios with heap := some heap' } } inRam low
      (by omega : b.address + min b.size size ≤ heap.stop) inside.1
      (by omega : address + min b.size size ≤ heap.stop) stop.le (by omega)
    cases copied : (forRange (copyByte ram b.address address) 0 (min b.size size)).run
        { s with bios := { s.bios with heap := some heap' } } with
    | ok _ v =>
      obtain ⟨bios, context⟩ := only.of_ok copied
      obtain ⟨vBios, vContext, memory⟩ := v
      simp only at bios context
      subst bios context
      have resizes := (orderly.heap heap found).move member allocates kept
      refine ⟨⟨_, address, resizes, rfl, returns_returnValue address, fun inRam i hi => ?_⟩, ?_⟩
      · obtain ⟨w, ran', bytes⟩ := copies inRam
        rw [copied] at ran'
        cases ran'
        exact bytes i hi
      · exact orderly.setHeap (kept.free b.address)
    | error e v =>
      have leads := only
      unfold Leads at leads
      rw [copied] at leads
      obtain ⟨j, w, -, bound, failed⟩ := forRange_error copied
      have access : ∃ address operation source, e = .guestMemory address operation source := by
        unfold copyByte at failed
        rw [run_bind] at failed
        cases read : (readByte ram b.address j).run w with
        | error e' w' =>
          rw [read] at failed
          cases failed
          obtain ⟨_, source, rfl⟩ := fails_access (by omega) read
          exact ⟨_, _, source, rfl⟩
        | ok value w' =>
          rw [read] at failed
          obtain ⟨_, source, rfl⟩ := fails_access (by omega) failed
          exact ⟨_, _, source, rfl⟩
      refine ⟨⟨fun refuses => absurd refuses (not_refuses_of_access access), fun inRam => ?_⟩, ?_⟩
      · obtain ⟨w, ran', -⟩ := copies (inRam heap found)
        rw [copied] at ran'
        cases ran'
      · have same : v.bios = { s.bios with heap := some heap' } := leads.1
        change HeapsOrderly v.bios
        rw [same]
        exact orderly.setHeap kept

theorem realloc_spec (orderly : HeapsOrderly s.bios) :
    Reallocates ram byte s (s.context.argument 0) (s.context.argument 1) ((realloc ram).run s) ∧
      HeapsOrderly (leaves ((realloc ram).run s)).bios := by
  unfold realloc
  simp only [run_bind, argument, run_get, run_pure, checkMemorySize,
    run_throwIf]
  generalize sizeIs : s.context.argument 1 = size
  generalize oldIs : s.context.argument 0 = old
  by_cases large : s.bios.limits.memoryOperationBytes < size
  · rw [if_pos large]
    exact ⟨.of_refuses rfl rfl trivial, orderly⟩
  rw [if_neg large]
  simp only [run_ite]
  by_cases fresh : old = 0
  · rw [if_pos fresh]
    have asked := requests_allocate orderly size 12
    generalize (do
      let address ← allocate size
      returnValue address
      return 12 : HleM M ℕ).run s = r at asked ⊢
    cases r with
    | error e t =>
      obtain ⟨⟨rfl, refuses, -⟩, orderly'⟩ := asked
      exact ⟨.of_refuses rfl rfl refuses, orderly'⟩
    | ok cycles u =>
      obtain ⟨⟨heap, heap', address, found, allocates, bios, -, returns⟩, orderly'⟩ := asked
      refine ⟨?_, orderly'⟩
      simp only [Reallocates, if_pos fresh]
      exact ⟨heap, heap', address, found, allocates, bios, returns⟩
  rw [if_neg fresh]
  by_cases empty : size = 0
  · rw [if_pos empty]
    simp only [run_bind, run_map, run_free orderly, oldIs]
    refine ⟨?_, orderly.without old⟩
    simp only [returnValue, run_modify, run_pure, Reallocates, if_neg fresh,
      if_pos empty, true_and]
    exact returns_returnValue 0
  rw [if_neg empty]
  simp only [run_bind]
  cases aligned : alignUp (max size 1) 8 with
  | none => exact ⟨.of_refuses rfl rfl trivial, orderly⟩
  | some allocationSize =>
    obtain rfl : allocationSize = Heap.rounded size := (alignUp_eight aligned).1
    simp only [run_okOr_some, run_get]
    cases found : s.bios.heap with
    | none => exact ⟨.of_refuses rfl rfl trivial, orderly⟩
    | some heap =>
      simp only [run_okOr_some]
      cases position : heap.position old with
      | none =>
        simp only [returnValue, run_bind, run_modify, run_pure, Reallocates,
          if_neg fresh, if_neg empty]
        exact ⟨⟨heap, found, .inl ⟨Heap.position_eq_none position, trivial, trivial,
          returns_returnValue 0⟩⟩, orderly⟩
      | some index =>
        obtain ⟨before, b, after, split, rfl, rfl, first⟩ := Heap.position_eq_some position
        have member : b ∈ heap.blocks := by
          rw [split]
          simp
        have here : heap.blocks[before.length]? = some b := by
          rw [split]
          simp
        simp only [here, Option.map_some, Option.getD_some, run_bind]
        cases added : checkedAdd 32 b.address (Heap.rounded size) with
        | none => exact ⟨.of_refuses rfl rfl trivial, orderly⟩
        | some newEnd =>
          obtain ⟨-, rfl⟩ := checkedAdd_eq_some.mp added
          simp only [run_okOr_some, run_ite]
          by_cases room : b.address + Heap.rounded size ≤
              ((heap.blocks[before.length + 1]?).map HeapBlock.address).getD heap.stop
          · rw [if_pos room]
            obtain ⟨kept, resizes⟩ := (orderly.heap heap found).resize split first room
            simp only [modifyBios, returnValue, run_bind, run_modify,
              run_pure, Reallocates, if_neg fresh, if_neg empty]
            exact ⟨⟨heap, found, .inr ⟨b, member, rfl, _, b.address, resizes, rfl,
              returns_returnValue b.address, fun _ _ _ => rfl⟩⟩, orderly.setHeap kept⟩
          · rw [if_neg room]
            have moved := moveBlock_spec ram byte orderly found member size
            refine ⟨?_, moved.2⟩
            cases ran : (moveBlock ram b.address b.size size).run s with
            | error e t =>
              rw [ran] at moved
              exact moved.1
            | ok cycles t =>
              rw [ran] at moved
              simp only [Reallocates, if_neg fresh, if_neg empty]
              exact ⟨heap, found, .inr ⟨b, member, rfl, moved.1⟩⟩

theorem initializeHeap_spec (orderly : HeapsOrderly s.bios) :
    (match initializeHeap.run s with
      | .ok _ t => ∃ heap, t.bios = { s.bios with heap := some heap } ∧ heap.blocks = [] ∧
          Returns t heap.base
      | .error _ t => t = s) ∧
      HeapsOrderly (leaves (initializeHeap.run s)).bios := by
  unfold initializeHeap
  simp only [run_bind, argument, run_get, run_pure]
  cases made : newHeap (s.context.argument 0) (s.context.argument 1) with
  | error e => exact ⟨rfl, orderly⟩
  | ok heap =>
    obtain ⟨kept, empty⟩ := Heap.orderly_newHeap made
    exact ⟨⟨heap, rfl, empty, returns_returnValue heap.base⟩, orderly.setHeap kept⟩

theorem initializeKernelHeap_spec (orderly : HeapsOrderly s.bios) :
    (match initializeKernelHeap.run s with
      | .ok _ t => ∃ heap, t.bios = { s.bios with kernelHeap := heap } ∧ heap.blocks = []
      | .error _ t => t = s) ∧
      HeapsOrderly (leaves (initializeKernelHeap.run s)).bios := by
  unfold initializeKernelHeap
  simp only [run_bind, argument, run_get, run_pure]
  cases made : newHeap (s.context.argument 0) (s.context.argument 1) with
  | error e => exact ⟨rfl, orderly⟩
  | ok heap =>
    obtain ⟨kept, empty⟩ := Heap.orderly_newHeap made
    exact ⟨⟨heap, rfl, empty⟩, orderly.heap, kept⟩

/-- The kernel's allocation: the lowest block that fits, or a report that there is none. -/
def KernelRequests (s : HleState M) (size : ℕ) : EStateM.Result BiosError (HleState M) ℕ → Prop
  | .ok _ t => (∃ heap' address, s.bios.kernelHeap.Allocates size address heap' ∧
      t.bios = { s.bios with kernelHeap := heap' } ∧ Returns t address) ∨
      (t.bios = s.bios ∧ Returns t u32Max ∧ ∀ x, ¬ s.bios.kernelHeap.Fits (Heap.rounded size) x)
  | .error _ t => t = s ∧ ∀ x, ¬ s.bios.kernelHeap.Fits (Heap.rounded size) x

theorem allocateKernelMemory_spec (orderly : HeapsOrderly s.bios) :
    KernelRequests s (s.context.argument 0) (allocateKernelMemory.run s) ∧
      HeapsOrderly (leaves (allocateKernelMemory.run s)).bios := by
  have spec := orderly.kernelHeap.allocateFromHeap (s.context.argument 0)
  unfold allocateKernelMemory
  simp only [run_bind, argument, run_get, run_pure]
  cases ran : allocateFromHeap s.bios.kernelHeap (s.context.argument 0) with
  | ok place =>
    rw [ran] at spec
    obtain ⟨allocates, kept⟩ := spec
    exact ⟨.inl ⟨place.2, place.1, allocates, rfl, returns_returnValue place.1⟩, orderly.heap, kept⟩
  | error e =>
    rw [ran] at spec
    obtain ⟨none, rfl | rfl⟩ := spec
    · exact ⟨⟨rfl, none⟩, orderly⟩
    · exact ⟨.inr ⟨rfl, returns_returnValue u32Max, none⟩, orderly⟩

theorem run_freeKernelMemory (orderly : HeapsOrderly s.bios) : freeKernelMemory.run s = .ok 6 { s with
    bios := { s.bios with kernelHeap := s.bios.kernelHeap.without (s.context.argument 0) } } := by
  have same := orderly.kernelHeap.freeFromHeap (s.context.argument 0)
  rw [Heap.without, ← same]
  rfl

end Services

/-! ### Runs -/

/-- A heap service. -/
inductive HeapCall where
  | initializeHeap
  | malloc
  | calloc
  | realloc
  | free
  | initializeKernelHeap
  | allocateKernelMemory
  | freeKernelMemory
  deriving DecidableEq, Repr

section Runs

variable {M : Type} {s t : HleState M}

/-- Runs one service. -/
def HeapCall.perform (ram : GuestBytes M) : HeapCall → HleM M ℕ
  | .initializeHeap => Ps1.initializeHeap
  | .malloc => Ps1.malloc
  | .calloc => Ps1.calloc ram
  | .realloc => Ps1.realloc ram
  | .free => Ps1.free
  | .initializeKernelHeap => Ps1.initializeKernelHeap
  | .allocateKernelMemory => Ps1.allocateKernelMemory
  | .freeKernelMemory => Ps1.freeKernelMemory

/-- A call with whatever registers and memory the guest has by then. -/
structure Arrival (M : Type) where
  call : HeapCall
  context : CpuContext
  memory : M

/-- The state in which a call begins. -/
def Arrival.entry (arrival : Arrival M) (s : HleState M) : HleState M :=
  ⟨s.bios, arrival.context, arrival.memory⟩

/-- One call leaves this state, whether it returned or failed. -/
def Serves (ram : GuestBytes M) (s : HleState M) (arrival : Arrival M) (t : HleState M) : Prop :=
  leaves ((arrival.call.perform ram).run (arrival.entry s)) = t

/-- What each service promises of the run of a call from `s`. -/
def HeapCall.Correct (ram : GuestBytes M) (byte : M → ℕ → BitVec 8) (s : HleState M) (call : HeapCall)
    (r : EStateM.Result BiosError (HleState M) ℕ) : Prop :=
  match call with
  | .malloc => Requests s (s.context.argument 0) r
  | .calloc => Zeroes ram byte s (s.context.argument 0 * s.context.argument 1) r
  | .realloc => Reallocates ram byte s (s.context.argument 0) (s.context.argument 1) r
  | .free => r = .ok 6 { s with
      bios := { s.bios with heap := s.bios.heap.map (·.without (s.context.argument 0)) } }
  | .allocateKernelMemory => KernelRequests s (s.context.argument 0) r
  | .freeKernelMemory => r = .ok 6 { s with
      bios := { s.bios with kernelHeap := s.bios.kernelHeap.without (s.context.argument 0) } }
  | .initializeHeap =>
    match r with
    | .ok _ t => ∃ heap, t.bios = { s.bios with heap := some heap } ∧ heap.blocks = [] ∧
        Returns t heap.base
    | .error _ t => t = s
  | .initializeKernelHeap =>
    match r with
    | .ok _ t => ∃ heap, t.bios = { s.bios with kernelHeap := heap } ∧ heap.blocks = []
    | .error _ t => t = s

/-- One call keeps both heaps orderly and does what the service promises. -/
theorem HeapCall.perform_spec (ram : GuestBytes M) (byte : M → ℕ → BitVec 8) (call : HeapCall)
    (orderly : HeapsOrderly s.bios) :
    call.Correct ram byte s ((call.perform ram).run s) ∧
      HeapsOrderly (leaves ((call.perform ram).run s)).bios := by
  cases call with
  | initializeHeap => exact initializeHeap_spec orderly
  | malloc => exact requests_allocate orderly (s.context.argument 0) 12
  | calloc => exact calloc_spec orderly
  | realloc => exact realloc_spec orderly
  | free =>
    have ran : (HeapCall.free.perform ram).run s = _ := run_free orderly
    rw [ran]
    exact ⟨rfl, orderly.without _⟩
  | initializeKernelHeap => exact initializeKernelHeap_spec orderly
  | allocateKernelMemory => exact allocateKernelMemory_spec orderly
  | freeKernelMemory =>
    have ran : (HeapCall.freeKernelMemory.perform ram).run s = _ := run_freeKernelMemory orderly
    rw [ran]
    exact ⟨rfl, orderly.heap, orderly.kernelHeap.sublist List.filter_sublist⟩

theorem heapsOrderly_run {ram : GuestBytes M} {limits : HleLimits} {context : CpuContext} {memory : M}
    {calls : List (Arrival M)} (run : Run (Serves ram) ⟨.new limits, context, memory⟩ calls s) :
    HeapsOrderly s.bios := by
  refine run.invariant (I := fun s => HeapsOrderly s.bios) (heapsOrderly_new limits) ?_
  rintro a arrival b held rfl
  exact (HeapCall.perform_spec ram (fun _ _ => 0) arrival.call
    (show HeapsOrderly (arrival.entry a).bios from held)).2

/-- In every state of every run of heap services both heaps are orderly, and every further call, with
any registers and memory, does what its service promises. -/
theorem heaps_orderly_and_correct {ram : GuestBytes M} {limits : HleLimits} {context : CpuContext}
    {memory : M} {calls : List (Arrival M)}
    (run : Run (Serves ram) ⟨.new limits, context, memory⟩ calls s) :
    HeapsOrderly s.bios ∧ ∀ (byte : M → ℕ → BitVec 8) (arrival : Arrival M),
      arrival.call.Correct ram byte (arrival.entry s)
        ((arrival.call.perform ram).run (arrival.entry s)) := by
  have orderly := heapsOrderly_run run
  exact ⟨orderly, fun byte arrival =>
    (HeapCall.perform_spec ram byte arrival.call (show HeapsOrderly (arrival.entry s).bios
      from orderly)).1⟩

end Runs

/-! ### The bytes past a request -/

/-- Memory that takes every access. -/
def flatRam : GuestBytes (ℕ → BitVec 8) where
  readU8 address := do return (← get) address
  writeU8 address value := modify fun memory other => if other = address then value else memory other

/-- Registers with two arguments. -/
def twoArguments (first second : Word) : CpuContext :=
  ((CpuContext.reset 0 0).setRegister a0 first).setRegister (a0 + 1) second

/-- Memory that holds ones everywhere. -/
def onesMemory : ℕ → BitVec 8 := fun _ => 0xff

/-- The firmware before any call, with two arguments. -/
def freshHle : HleState (ℕ → BitVec 8) := ⟨.new .default, twoArguments 0 0, onesMemory⟩

/-- A heap of 256 bytes from an unaligned start, and five zeroed bytes. -/
def callocFive : List (Arrival (ℕ → BitVec 8)) :=
  [⟨.initializeHeap, twoArguments 0x10003 0x100, onesMemory⟩,
    ⟨.calloc, twoArguments 5 1, onesMemory⟩]

/-- The state calls leave. -/
def afterCalls {M : Type} (ram : GuestBytes M) (s : HleState M) : List (Arrival M) → HleState M
  | [] => s
  | arrival :: calls =>
    afterCalls ram (leaves ((arrival.call.perform ram).run (arrival.entry s))) calls

theorem run_afterCalls {M : Type} (ram : GuestBytes M) (s : HleState M) (calls : List (Arrival M)) :
    Run (Serves ram) s calls (afterCalls ram s calls) := by
  induction calls generalizing s with
  | nil => exact .refl s
  | cons arrival calls ih => exact (Run.single rfl).append (ih _)

/-- The block of a zeroed allocation is not zero past the bytes that were asked for. -/
theorem calloc_keeps_padding : ∃ s, Run (Serves flatRam) freshHle callocFive s ∧
    Returns s 0x10008 ∧ s.bios.heap = some ⟨0x10008, 0x10103, [⟨0x10008, 8⟩]⟩ ∧
    (∀ i, i < 5 → s.memory (0x10008 + i) = 0) ∧ s.memory (0x10008 + 5) = 0xff :=
  ⟨_, run_afterCalls _ _ _, by decide +kernel, by decide +kernel, by decide +kernel,
    by decide +kernel⟩

theorem heaps_orderly_and_correct_sample :
    HeapsOrderly (afterCalls flatRam freshHle callocFive).bios ∧
      ∀ (byte : (ℕ → BitVec 8) → ℕ → BitVec 8) (arrival : Arrival (ℕ → BitVec 8)),
        arrival.call.Correct flatRam byte
          (arrival.entry (afterCalls flatRam freshHle callocFive))
          ((arrival.call.perform flatRam).run
            (arrival.entry (afterCalls flatRam freshHle callocFive))) :=
  heaps_orderly_and_correct (run_afterCalls flatRam freshHle callocFive)

end Upse.Ps1
