import Upse.Lib.Tiling
import Upse.Bios.Kernel.Pools

/-!
# How a pool divides its range

The free and the allocated blocks of a pool tile the range it was created over.  Each rewriting of
the lists (taking from the first region that fits, freeing with coalescing, handing a block over)
keeps the tiling.
-/

namespace Upse

/-! ### Ordered sets and association lists up to order -/

theorem SortedSet.perm_insert {a : ℕ} {s : SortedSet ℕ} (h : a ∉ s) :
    (s.insert a).toList.Perm (a :: s.toList) := by
  unfold SortedSet.insert
  rw [dif_neg (by simpa [SortedSet.mem_def] using h)]
  exact List.perm_orderedInsert (· ≤ ·) a s.toList

theorem SortedSet.perm_erase {a : ℕ} {s : SortedSet ℕ} (h : a ∈ s) :
    s.toList.Perm (a :: (s.erase a).toList) := by
  have nodup : s.toList.Nodup := s.sorted.imp ne_of_lt
  have erased : (s.erase a).toList = s.toList.erase a := by
    rw [nodup.erase_eq_filter]
    refine List.filter_congr fun b _ => ?_
    by_cases same : b = a <;> simp [same]
  rw [erased]
  exact List.perm_cons_erase h

theorem AList.perm_erase_of_lookup {s : AList fun _ : ℕ => ℕ} {a b : ℕ} (h : s.lookup a = some b) :
    s.entries.Perm (⟨a, b⟩ :: (s.erase a).entries) := by
  have found := AList.mem_lookup_iff.mp h
  obtain ⟨b', before, after, -, entries, erased⟩ :=
    List.exists_of_kerase (List.mem_keys_of_mem found)
  have same : b' = b := by
    have found' : (⟨a, b'⟩ : Sigma fun _ : ℕ => ℕ) ∈ s.entries := by rw [entries]; simp
    have h' := AList.mem_lookup_iff.mpr found'
    rw [Option.mem_def, h] at h'
    exact (Option.some.inj h').symm
  subst same
  change s.entries.Perm (⟨a, b'⟩ :: s.entries.kerase a)
  rw [erased, entries]
  exact List.perm_middle

/-! ### Fixed pools -/

/-- The size of the range a fixed pool is created over. -/
def FixedPoolSpec.size (spec : FixedPoolSpec) : ℕ := spec.blocks * spec.blockSize

/-- The blocks of a fixed pool. -/
def FixedPoolSpec.addresses (spec : FixedPoolSpec) : List ℕ :=
  (List.range spec.blocks).map fun index => spec.base + index * spec.blockSize

/-- The parameters of a fixed pool that was created over a validated range. -/
structure FixedPoolSpec.Valid (spec : FixedPoolSpec) : Prop where
  positive : 0 < spec.blockSize
  base_aligned : spec.base % 4 = 0
  size_aligned : spec.blockSize % 4 = 0
  fits : spec.base + spec.size < 2 ^ 32

/-- The blocks a fixed pool divides, free ones first. -/
def FixedPool.addresses (pool : FixedPool) : List ℕ := pool.free ++ pool.allocated.toList

/-- The pool and the blocks in hand are exactly the blocks it was created with. -/
structure FixedPool.Divides (pool : FixedPool) (spec : FixedPoolSpec) (held : List ℕ) : Prop where
  blockSize : pool.blockSize = spec.blockSize
  blocks : (held ++ pool.addresses).Perm spec.addresses

theorem FixedPoolSpec.nodup_addresses {spec : FixedPoolSpec} (positive : 0 < spec.blockSize) :
    spec.addresses.Nodup := by
  refine List.Nodup.map (fun i j same => ?_) List.nodup_range
  exact Nat.eq_of_mul_eq_mul_right positive (Nat.add_left_cancel same)

namespace FixedPool.Divides

variable {pool : FixedPool} {spec : FixedPoolSpec} {held : List ℕ} {address : ℕ}

theorem tiles (h : pool.Divides spec []) :
    Tiles (pool.addresses.map fun address => ⟨address, pool.blockSize⟩) ⟨spec.base, spec.size⟩ := by
  refine (tiles_progression spec.base spec.blockSize spec.blocks).perm ?_
  refine (h.blocks.map fun address => (⟨address, pool.blockSize⟩ : Span)).trans (.of_eq ?_)
  simp [FixedPoolSpec.addresses, h.blockSize, Function.comp_def]

theorem withWaiters (h : pool.Divides spec held) (waiters : List ℕ) :
    FixedPool.Divides { pool with waiters := waiters } spec held :=
  ⟨h.blockSize, h.blocks⟩

theorem take (h : pool.Divides spec held) {free : List ℕ} (head : pool.free = address :: free) :
    FixedPool.Divides { pool with free := free } spec (address :: held) := by
  refine ⟨h.blockSize, List.Perm.trans ?_ h.blocks⟩
  unfold addresses
  rw [head]
  exact List.perm_middle.symm

theorem release (h : pool.Divides spec held) (used : address ∈ pool.allocated) :
    FixedPool.Divides { pool with allocated := pool.allocated.erase address } spec
      (address :: held) := by
  refine ⟨h.blockSize, List.Perm.trans ?_ h.blocks⟩
  have entries := (SortedSet.perm_erase used).append_left (held ++ pool.free)
  simp only [addresses, ← List.append_assoc]
  exact (List.perm_middle.symm.trans (by simpa using entries.symm))

theorem putFree (h : pool.Divides spec (address :: held)) :
    FixedPool.Divides { pool with free := pool.free ++ [address] } spec held := by
  refine ⟨h.blockSize, List.Perm.trans ?_ h.blocks⟩
  have front : held ++ (pool.free ++ [address] ++ pool.allocated.toList) =
      (held ++ pool.free) ++ address :: pool.allocated.toList := by simp
  have back : address :: held ++ pool.addresses =
      address :: ((held ++ pool.free) ++ pool.allocated.toList) := by simp [addresses]
  unfold addresses at back ⊢
  rw [front, back]
  exact List.perm_middle

theorem putAllocated (h : pool.Divides spec (address :: held)) (positive : 0 < spec.blockSize) :
    FixedPool.Divides { pool with allocated := pool.allocated.insert address } spec held := by
  have fresh : address ∉ pool.allocated := by
    have nodup := h.blocks.nodup_iff.mpr (FixedPoolSpec.nodup_addresses positive)
    rw [List.cons_append, List.nodup_cons] at nodup
    exact fun member => nodup.1 (List.mem_append_right _ (List.mem_append_right _ member))
  refine ⟨h.blockSize, List.Perm.trans ?_ h.blocks⟩
  have entries := (SortedSet.perm_insert fresh).append_left (held ++ pool.free)
  simp only [addresses, ← List.append_assoc, List.cons_append]
  exact entries.trans List.perm_middle

end FixedPool.Divides

/-! ### Free regions -/

/-- The addresses of a region. -/
def FreeRegion.span (r : FreeRegion) : Span := ⟨r.address, r.size⟩

/-- A region that can be in a pool: not empty, aligned to four bytes, and addressable. -/
structure FreeRegion.Sound (r : FreeRegion) : Prop where
  positive : 0 < r.size
  address_aligned : r.address % 4 = 0
  size_aligned : r.size % 4 = 0
  fits : r.address + r.size < 2 ^ 32

/-- One region lies before another, with a gap between them. -/
def FreeRegion.Before (r r' : FreeRegion) : Prop := r.address + r.size < r'.address

/-- Appending a region that does not lie before the end of the list. -/
theorem pushRegion_spec {output : List FreeRegion} {r : FreeRegion}
    (separated : output.Pairwise FreeRegion.Before) (sound : ∀ a ∈ output, a.Sound) (new : r.Sound)
    (after : ∀ a ∈ output, a.address + a.size ≤ r.address) :
    (pushRegion output r).Pairwise FreeRegion.Before ∧ (∀ a ∈ pushRegion output r, a.Sound) ∧
      (∀ a ∈ pushRegion output r, a.address + a.size ≤ r.address + r.size) ∧
      ∀ x, coverage ((pushRegion output r).map (·.span)) x =
        coverage (output.map (·.span)) x + coverage [r.span] x := by
  rcases List.eq_nil_or_concat output with rfl | ⟨front, last, rfl⟩
  · simp [pushRegion, new]
  rw [List.concat_eq_append] at *
  have lastSound := sound last (by simp)
  have le := after last (by simp)
  obtain ⟨frontSeparated, -, before⟩ := List.pairwise_append.mp separated
  by_cases touch : last.address + last.size = r.address
  · have pushed : pushRegion (front ++ [last]) r =
        front ++ [{ last with size := last.size + r.size }] := by
      have fits := checkedAdd_eq_some.mpr ⟨lastSound.fits, rfl⟩
      simp only [pushRegion, List.getLast?_concat, fits, touch, if_true, List.dropLast_concat]
    rw [pushed]
    have := new.fits
    refine ⟨?_, ?_, ?_, fun x => ?_⟩
    · refine List.pairwise_append.mpr ⟨frontSeparated, List.pairwise_singleton _ _, ?_⟩
      intro a ha b hb
      rw [List.mem_singleton.mp hb]
      exact before a ha last (by simp)
    · intro a ha
      rcases List.mem_append.mp ha with ha | ha
      · exact sound a (List.mem_append_left _ ha)
      · rw [List.mem_singleton.mp ha]
        exact ⟨Nat.add_pos_left lastSound.positive _, lastSound.address_aligned,
          by have := lastSound.size_aligned; have := new.size_aligned; simp only; omega,
          by simp only; omega⟩
    · intro a ha
      rcases List.mem_append.mp ha with ha | ha
      · have := after a (List.mem_append_left _ ha)
        omega
      · rw [List.mem_singleton.mp ha]
        simp only
        omega
    · have merged := contains_split last.address last.size r.size x
      rw [touch] at merged
      simp [FreeRegion.span, merged, Nat.add_assoc]
  · have pushed : pushRegion (front ++ [last]) r = front ++ [last] ++ [r] := by
      have fits := checkedAdd_eq_some.mpr ⟨lastSound.fits, rfl⟩
      simp only [pushRegion, List.getLast?_concat, fits, Option.some.injEq, touch, if_false]
    rw [pushed]
    refine ⟨?_, ?_, ?_, fun x => ?_⟩
    · refine List.pairwise_append.mpr ⟨separated, List.pairwise_singleton _ _, ?_⟩
      intro a ha b hb
      rw [List.mem_singleton.mp hb]
      rcases List.mem_append.mp ha with ha | ha
      · have gap : a.address + a.size < last.address := before a ha last (by simp)
        unfold FreeRegion.Before
        omega
      · rw [List.mem_singleton.mp ha]
        unfold FreeRegion.Before
        omega
    · intro a ha
      rcases List.mem_append.mp ha with ha | ha
      · exact sound a ha
      · rw [List.mem_singleton.mp ha]
        exact new
    · intro a ha
      rcases List.mem_append.mp ha with ha | ha
      · have := after a ha
        omega
      · rw [List.mem_singleton.mp ha]
    · simp only [List.map_append, coverage_append, List.map_cons, List.map_nil]

theorem foldl_pushRegion_spec {regions output : List FreeRegion}
    (ascending : regions.Pairwise fun a b => a.address + a.size ≤ b.address)
    (separated : output.Pairwise FreeRegion.Before) (sound : ∀ a ∈ output, a.Sound)
    (new : ∀ r ∈ regions, r.Sound)
    (after : ∀ a ∈ output, ∀ r ∈ regions, a.address + a.size ≤ r.address) :
    (regions.foldl pushRegion output).Pairwise FreeRegion.Before ∧
      (∀ a ∈ regions.foldl pushRegion output, a.Sound) ∧
      ∀ x, coverage ((regions.foldl pushRegion output).map (·.span)) x =
        coverage (output.map (·.span)) x + coverage (regions.map (·.span)) x := by
  induction regions generalizing output with
  | nil => exact ⟨separated, sound, fun x => by simp⟩
  | cons r regions ih =>
    obtain ⟨first, ascending⟩ := List.pairwise_cons.mp ascending
    obtain ⟨separated', sound', last, covered⟩ := pushRegion_spec separated sound
      (new r List.mem_cons_self) fun a ha => after a ha r List.mem_cons_self
    obtain ⟨separated'', sound'', covered'⟩ := ih ascending separated' sound'
      (fun b hb => new b (List.mem_cons_of_mem _ hb))
      fun a ha b hb => (last a ha).trans (first b hb)
    refine ⟨separated'', sound'', fun x => ?_⟩
    rw [List.foldl_cons, covered', covered]
    simp
    omega

theorem coalesceRegions_spec {regions : List FreeRegion} (sound : ∀ r ∈ regions, r.Sound)
    (apart : regions.Pairwise fun a b => a.span.Apart b.span) :
    (coalesceRegions regions).Pairwise FreeRegion.Before ∧
      (∀ a ∈ coalesceRegions regions, a.Sound) ∧
      ∀ x, coverage ((coalesceRegions regions).map (·.span)) x =
        coverage (regions.map (·.span)) x := by
  let byAddress : FreeRegion → FreeRegion → Prop := fun a b => a.address ≤ b.address
  have perm : (regions.insertionSort byAddress).Perm regions := List.perm_insertionSort _ regions
  have total : Std.Total byAddress := ⟨fun a b => le_total a.address b.address⟩
  have transitive : IsTrans FreeRegion byAddress := ⟨fun a b c => le_trans⟩
  have sorted := List.pairwise_insertionSort byAddress regions
  have apart' : (regions.insertionSort byAddress).Pairwise fun a b => a.span.Apart b.span :=
    (perm.pairwise_iff fun h x hx hy => h x hy hx).mpr apart
  have sound' : ∀ r ∈ regions.insertionSort byAddress, r.Sound := fun r hr =>
    sound r (perm.mem_iff.mp hr)
  have ascending : (regions.insertionSort byAddress).Pairwise
      fun a b => a.address + a.size ≤ b.address := by
    refine (sorted.and apart').imp_of_mem fun {a b} ha hb both => ?_
    have ordered := both.2.ordered (sound' a ha).positive (sound' b hb).positive
    have first := (sound' b hb).positive
    have le : a.address ≤ b.address := both.1
    simp only [FreeRegion.span] at ordered
    omega
  obtain ⟨separated, merged, covered⟩ := foldl_pushRegion_spec ascending .nil (by simp) sound'
    (by simp)
  refine ⟨separated, merged, fun x => (covered x).trans ?_⟩
  rw [List.map_nil, coverage_nil, Nat.zero_add]
  exact coverage_perm (perm.map _) x

/-! ### Variable pools -/

/-- The parameters of a variable pool that was created over a validated range. -/
def VariablePoolSpec.Valid (spec : VariablePoolSpec) : Prop := FreeRegion.Sound ⟨spec.base, spec.size⟩

/-- The spans a variable pool divides, free ones first. -/
def VariablePool.spans (pool : VariablePool) : List Span :=
  pool.free.map (·.span) ++ pool.allocated.entries.map fun entry => ⟨entry.1, entry.2⟩

/-- The pool divides exactly the range it was created over: its regions and blocks tile the range,
the free regions ascend with a gap between any two, and every region and block is sound. -/
structure VariablePool.Divides (pool : VariablePool) (spec : VariablePoolSpec) : Prop where
  tiles : Tiles pool.spans ⟨spec.base, spec.size⟩
  separated : pool.free.Pairwise FreeRegion.Before
  free_sound : ∀ r ∈ pool.free, r.Sound
  allocated_sound : ∀ address size, pool.allocated.lookup address = some size →
    FreeRegion.Sound ⟨address, size⟩

theorem allocateRegion_eq_some {pool pool' : VariablePool} {size address : ℕ}
    (h : allocateRegion pool size = some (address, pool')) : ∃ before r after,
      pool.free = before ++ r :: after ∧ size ≤ r.size ∧ r.address + size < 2 ^ 32 ∧
      address = r.address ∧ pool' =
        { pool with
          free := before ++ (if r.size - size = 0 then []
            else [⟨r.address + size, r.size - size⟩]) ++ after
          allocated := pool.allocated.insert r.address size } := by
  unfold allocateRegion at h
  obtain ⟨index, found, h⟩ := Option.bind_eq_some_iff.mp h
  obtain ⟨r, slot, h⟩ := Option.bind_eq_some_iff.mp h
  obtain ⟨next, sum, h⟩ := Option.bind_eq_some_iff.mp h
  obtain ⟨fits, rfl⟩ := checkedAdd_eq_some.mp sum
  obtain ⟨bound, large, -⟩ := List.findIdx?_eq_some_iff_getElem.mp found
  obtain ⟨_, rfl⟩ := List.getElem?_eq_some_iff.mp slot
  cases h
  refine ⟨pool.free.take index, pool.free[index], pool.free.drop (index + 1), ?_,
    by simpa using large, fits, rfl, ?_⟩
  · rw [← List.drop_eq_getElem_cons bound, List.take_append_drop]
  · congr 1
    split
    · rw [List.eraseIdx_eq_take_drop_succ]
      simp
    · rw [List.set_eq_take_append_cons_drop, if_pos bound]
      simp

theorem allocateRegion_eq_none {pool : VariablePool} {size : ℕ}
    (sound : ∀ r ∈ pool.free, r.Sound) (h : allocateRegion pool size = none) :
    ∀ r ∈ pool.free, r.size < size := by
  cases found : pool.free.findIdx? fun region => size ≤ region.size with
  | none =>
    intro r hr
    have small := List.findIdx?_eq_none_iff.mp found r hr
    simpa using small
  | some index =>
    obtain ⟨bound, large, -⟩ := List.findIdx?_eq_some_iff_getElem.mp found
    have fits := (sound _ (List.getElem_mem bound)).fits
    have le : size ≤ pool.free[index].size := by simpa using large
    have sum := checkedAdd_eq_some (w := 32).mpr
      ⟨show pool.free[index].address + size < 2 ^ 32 by omega, rfl⟩
    simp [allocateRegion, found, List.getElem?_eq_getElem bound, sum] at h

namespace VariablePool.Divides

variable {pool pool' : VariablePool} {spec : VariablePoolSpec}

theorem withWaiters (h : pool.Divides spec) (waiters : List ℕ) :
    VariablePool.Divides { pool with waiters := waiters } spec :=
  ⟨h.tiles, h.separated, h.free_sound, h.allocated_sound⟩

theorem lookup_of_free (h : pool.Divides spec) {r : FreeRegion} (free : r ∈ pool.free) :
    pool.allocated.lookup r.address = none := by
  by_contra used
  obtain ⟨size, found⟩ := Option.ne_none_iff_exists'.mp used
  have positive : 0 < size := (h.allocated_sound _ _ found).positive
  obtain ⟨-, -, apart⟩ := List.pairwise_append.mp h.tiles.pairwise
  have clash := apart r.span (List.mem_map_of_mem free) ⟨r.address, size⟩
    (List.mem_map.mpr ⟨⟨r.address, size⟩, AList.mem_lookup_iff.mp found, rfl⟩)
  have room := (h.free_sound r free).positive
  exact clash r.address ⟨le_rfl, by simp only [FreeRegion.span]; omega⟩ ⟨le_rfl, by simp only; omega⟩

/-- First-fit allocation keeps the division and records the block. -/
theorem allocate (h : pool.Divides spec) {size address : ℕ} (positive : 0 < size)
    (aligned : size % 4 = 0) (taken : allocateRegion pool size = some (address, pool')) :
    pool'.Divides spec ∧ pool'.allocated.lookup address = some size ∧
      (∀ other n, pool.allocated.lookup other = some n → pool'.allocated.lookup other = some n) ∧
      pool'.waiters = pool.waiters ∧ ∀ r' ∈ pool'.free, ∃ r ∈ pool.free, r'.size ≤ r.size := by
  obtain ⟨before, r, after, free, large, fits, rfl, rfl⟩ := allocateRegion_eq_some taken
  have member : r ∈ pool.free := by rw [free]; simp
  have sound := h.free_sound r member
  have vacant := h.lookup_of_free member
  have entries : (pool.allocated.insert r.address size).entries =
      ⟨r.address, size⟩ :: pool.allocated.entries :=
    AList.entries_insert_of_notMem (AList.lookup_eq_none.mp vacant)
  have separated := h.separated
  rw [free] at separated
  obtain ⟨sepBefore, sepRest, cross⟩ := List.pairwise_append.mp separated
  obtain ⟨first, sepAfter⟩ := List.pairwise_cons.mp sepRest
  -- what is left of the region the block was taken from
  have rest : ∀ left ∈ (if r.size - size = 0 then []
      else [(⟨r.address + size, r.size - size⟩ : FreeRegion)]),
      left.Sound ∧ r.address < left.address ∧
        left.address + left.size = r.address + r.size ∧ left.size ≤ r.size := by
    intro left member
    split at member
    · cases member
    · rw [List.mem_singleton.mp member]
      have := sound.address_aligned
      have := sound.size_aligned
      have := sound.fits
      exact ⟨⟨by simp only; omega, by simp only; omega, by simp only; omega, by simp only; omega⟩,
        by simp only; omega, by simp only; omega, by simp only; omega⟩
  refine ⟨⟨?_, ?_, ?_, ?_⟩, ?_, ?_, rfl, ?_⟩
  · refine h.tiles.congr fun x => ?_
    have split := contains_split r.address size (r.size - size) x
    rw [Nat.add_sub_of_le large] at split
    simp only [spans, free, entries, List.map_append, List.map_cons, coverage_append, coverage_cons,
      FreeRegion.span] at split ⊢
    by_cases whole : r.size - size = 0
    · have none : ¬ (⟨r.address + size, r.size - size⟩ : Span).Contains x := by
        simp only [Span.Contains]
        omega
      rw [if_neg none] at split
      simp [whole]
      omega
    · simp [whole]
      omega
  · rw [List.append_assoc]
    refine List.pairwise_append.mpr ⟨sepBefore, List.pairwise_append.mpr ⟨?_, sepAfter, ?_⟩, ?_⟩
    · split
      · exact .nil
      · exact List.pairwise_singleton _ _
    · intro a ha b hb
      obtain ⟨-, -, stop, -⟩ := rest a ha
      have := first b hb
      unfold FreeRegion.Before at *
      omega
    · intro a ha b hb
      rcases List.mem_append.mp hb with hb | hb
      · obtain ⟨-, start, -, -⟩ := rest b hb
        have : a.Before r := cross a ha r List.mem_cons_self
        unfold FreeRegion.Before at *
        omega
      · exact cross a ha b (List.mem_cons_of_mem _ hb)
  · intro a ha
    rcases List.mem_append.mp ha with ha | ha
    · rcases List.mem_append.mp ha with ha | ha
      · exact h.free_sound a (by rw [free]; exact List.mem_append_left _ ha)
      · exact (rest a ha).1
    · exact h.free_sound a (by rw [free]; exact List.mem_append_right _ (List.mem_cons_of_mem _ ha))
  · intro other n found
    by_cases same : other = r.address
    · subst same
      rw [AList.lookup_insert] at found
      cases found
      exact ⟨positive, sound.address_aligned, aligned, fits⟩
    · rw [AList.lookup_insert_ne same] at found
      exact h.allocated_sound other n found
  · exact AList.lookup_insert _
  · intro other n found
    rw [AList.lookup_insert_ne]
    · exact found
    · rintro rfl
      rw [vacant] at found
      cases found
  · intro a ha
    rcases List.mem_append.mp ha with ha | ha
    · rcases List.mem_append.mp ha with ha | ha
      · exact ⟨a, by rw [free]; exact List.mem_append_left _ ha, le_rfl⟩
      · exact ⟨r, member, (rest a ha).2.2.2⟩
    · exact ⟨a, by rw [free]; exact List.mem_append_right _ (List.mem_cons_of_mem _ ha), le_rfl⟩

theorem release (h : pool.Divides spec) {address size : ℕ}
    (used : pool.allocated.lookup address = some size) (waiters : List ℕ) :
    VariablePool.Divides
      { pool with
        free := coalesceRegions (pool.free ++ [⟨address, size⟩])
        allocated := pool.allocated.erase address
        waiters := waiters } spec := by
  have entries := AList.perm_erase_of_lookup used
  have sound : ∀ r ∈ pool.free ++ [(⟨address, size⟩ : FreeRegion)], r.Sound := by
    intro r hr
    rcases List.mem_append.mp hr with hr | hr
    · exact h.free_sound r hr
    · rw [List.mem_singleton.mp hr]
      exact h.allocated_sound address size used
  have perm : pool.spans.Perm ((pool.free ++ [(⟨address, size⟩ : FreeRegion)]).map (·.span) ++
      (pool.allocated.erase address).entries.map fun entry => (⟨entry.1, entry.2⟩ : Span)) := by
    rw [List.map_append, List.append_assoc]
    exact (entries.map _).append_left _
  have apart : (pool.free ++ [(⟨address, size⟩ : FreeRegion)]).Pairwise
      fun a b => a.span.Apart b.span := by
    have tiles := h.tiles.perm perm.symm
    exact List.pairwise_map.mp (List.pairwise_append.mp tiles.pairwise).1
  obtain ⟨separated, merged, covered⟩ := coalesceRegions_spec sound apart
  refine ⟨?_, separated, merged, fun other n found => ?_⟩
  · refine h.tiles.congr fun x => ?_
    rw [coverage_perm perm, coverage_append, spans, coverage_append, covered]
  · by_cases same : other = address
    · subst same
      rw [AList.lookup_erase] at found
      cases found
    · rw [AList.lookup_erase_ne same] at found
      exact h.allocated_sound other n found

end VariablePool.Divides

theorem VariablePool.divides_new {spec : VariablePoolSpec} (attributes : Word)
    (valid : spec.Valid) :
    VariablePool.Divides ⟨attributes, [⟨spec.base, spec.size⟩], ∅, []⟩ spec where
  tiles x := by simp [spans, FreeRegion.span]
  separated := List.pairwise_singleton _ _
  free_sound r hr := by rw [List.mem_singleton.mp hr]; exact valid
  allocated_sound address size found := by simp at found

theorem FixedPool.divides_new (spec : FixedPoolSpec) (attributes : Word) :
    FixedPool.Divides ⟨attributes, spec.blockSize, spec.addresses, .empty, []⟩ spec [] where
  blockSize := rfl
  blocks := by simp [addresses]

end Upse
