import Upse.Bios.Ps1.HeapRuns

/-!
# Kernel allocations that fail

The kernel's allocation turns a full heap into a result for the guest, but not an address that
passes the end of the address space.  The search meets one only after it has passed every gap, so
the two failures are told apart by the end of the last block.
-/

namespace Upse.Ps1

open ErrorState

namespace Heap

variable {heap : Heap}

/-- The first address after the last block, where the search for a gap ends. -/
def top (heap : Heap) : ℕ := (heap.blocks.getLast?.map HeapBlock.stop).getD heap.base

theorem Orderly.stop_le_top (orderly : heap.Orderly) {b : HeapBlock} (member : b ∈ heap.blocks) :
    b.stop ≤ heap.top := by
  have sorted := orderly.sorted
  unfold top
  rcases List.eq_nil_or_concat heap.blocks with empty | ⟨before, last, split⟩
  · rw [empty] at member
    cases member
  · rw [split, List.concat_eq_append] at member sorted ⊢
    rw [List.getLast?_concat]
    show b.stop ≤ last.stop
    rcases List.mem_append.mp member with first | final
    · have apart := (List.pairwise_append.mp sorted).2.2 b first last (List.mem_singleton_self last)
      exact apart.trans (Nat.le_add_right _ _)
    · rw [List.mem_singleton.mp final]

theorem Orderly.base_le_top (orderly : heap.Orderly) : heap.base ≤ heap.top := by
  cases found : heap.blocks.getLast? with
  | none =>
    unfold top
    rw [found]
    exact Nat.le_refl _
  | some last =>
    have member := List.mem_of_getLast? found
    have low : heap.base ≤ last.stop :=
      (orderly.formed last member).base_le.trans (Nat.le_add_right _ _)
    exact low.trans (orderly.stop_le_top member)

/-- Nothing past every block begins before the end of the last one. -/
theorem top_le {address : ℕ} (low : heap.base ≤ address)
    (past : ∀ b ∈ heap.blocks, b.stop ≤ address) : heap.top ≤ address := by
  unfold top
  cases found : heap.blocks.getLast? with
  | none => exact low
  | some last => exact past last (List.mem_of_getLast? found)

theorem Orderly.overflow_iff (orderly : heap.Orderly) {size : ℕ} {e : BiosError}
    (failed : Ps1.allocateFromHeap heap size = .error e) :
    e = .addressOverflow ↔ 2 ^ 32 ≤ heap.top + rounded size := by
  have clear : ∀ b ∈ heap.blocks, heap.top + rounded size ≤ b.address ∨ b.stop ≤ heap.top :=
    fun b member => .inr (orderly.stop_le_top member)
  unfold Ps1.allocateFromHeap at failed
  cases aligned : alignUp (max size 1) 8 with
  | none =>
    rw [aligned] at failed
    obtain rfl := Except.error.inj failed
    have overflow := alignUp_eight_none aligned
    have large : 2 ^ 32 ≤ rounded size := by
      unfold rounded
      omega
    exact ⟨fun _ => large.trans (Nat.le_add_left _ _), fun _ => rfl⟩
  | some allocationSize =>
    obtain rfl : allocationSize = rounded size := (alignUp_eight aligned).1
    have spec := findGapLoop_spec (rounded size) heap.base 0 orderly.above orderly.sorted
    rw [aligned] at failed
    simp only at failed
    cases ran : findGapLoop (rounded size) heap.blocks heap.base 0 with
    | error e' =>
      rw [ran] at failed spec
      obtain rfl := Except.error.inj failed
      exact ⟨fun _ => spec.2 heap.top orderly.base_le_top clear, fun _ => spec.1⟩
    | ok place =>
      obtain ⟨address, insertion⟩ := place
      rw [ran] at failed spec
      obtain ⟨before, after, split, -, low, -, past, ahead, least⟩ := spec
      have first := least heap.top orderly.base_le_top clear
      simp only at failed
      cases added : checkedAdd 32 address (rounded size) with
      | none =>
        rw [added] at failed
        obtain rfl := Except.error.inj failed
        have overflow := checkedAdd_eq_none.mp added
        exact ⟨fun _ => by omega, fun _ => rfl⟩
      | some allocationEnd =>
        obtain ⟨below, rfl⟩ := checkedAdd_eq_some.mp added
        rw [added] at failed
        simp only at failed
        split at failed
        next full =>
          obtain rfl := Except.error.inj failed
          -- A block that passes the end of the heap lies in front of no other.
          have last : after = [] := by
            rw [List.eq_nil_iff_forall_not_mem]
            intro b member
            have next := ahead b member
            have inside := orderly.formed b (split ▸ List.mem_append_right _ member)
            have within : b.address ≤ heap.stop := (Nat.le_add_right _ _).trans inside.le_stop
            omega
          rw [last, List.append_nil] at split
          have ends : heap.top ≤ address := top_le low (split ▸ past)
          exact ⟨nofun, fun _ => by omega⟩
        next => cases failed

end Heap

section Reported

variable {M : Type} {s : HleState M}

/-- The guest learns what became of its request: the address of a new block that fits, or all ones,
and these exactly where no gap fits. -/
def Reported (s : HleState M) (size : ℕ) : EStateM.Result BiosError (HleState M) ℕ → Prop
  | .ok _ t => ((∃ heap' address, s.bios.kernelHeap.Allocates size address heap' ∧
        t.bios = { s.bios with kernelHeap := heap' } ∧ Returns t address) ∨
      (t.bios = s.bios ∧ Returns t u32Max)) ∧
      (Returns t u32Max ↔ ∀ x, ¬ s.bios.kernelHeap.Fits (Heap.rounded size) x)
  | .error _ _ => False

theorem Heap.Allocates.not_max {heap heap' : Heap} {size address : ℕ} {t : HleState M}
    (allocates : heap.Allocates size address heap') (orderly : heap.Orderly)
    (returned : Returns t address) : ¬ Returns t u32Max := by
  intro full
  have same : BitVec.ofNat 32 address = BitVec.ofNat 32 u32Max :=
    Option.some.inj (returned.symm.trans full)
  have equal := congrArg BitVec.toNat same
  simp only [BitVec.toNat_ofNat] at equal
  have fits := allocates.least.1
  have le_stop := fits.le_stop
  have stop_lt := orderly.stop_lt
  have positive := Heap.rounded_pos size
  have multiple : 8 ∣ Heap.rounded size := Nat.dvd_mul_left _ _
  have max : u32Max = 2 ^ 32 - 1 := rfl
  omega

/-- The kernel's allocation reports to the guest exactly where a gap fits, or the rounded size fits
behind the last block in the address space. -/
theorem reported_iff (orderly : HeapsOrderly s.bios) :
    Reported s (s.context.argument 0) (allocateKernelMemory.run s) ↔
      (∃ x, s.bios.kernelHeap.Fits (Heap.rounded (s.context.argument 0)) x) ∨
        s.bios.kernelHeap.top + Heap.rounded (s.context.argument 0) < 2 ^ 32 := by
  have spec := orderly.kernelHeap.allocateFromHeap (s.context.argument 0)
  unfold allocateKernelMemory
  simp only [run_bind, argument, run_get, run_pure]
  cases ran : allocateFromHeap s.bios.kernelHeap (s.context.argument 0) with
  | ok place =>
    rw [ran] at spec
    obtain ⟨allocates, -⟩ := spec
    have fits := allocates.least.1
    refine ⟨fun _ => .inl ⟨place.1, fits⟩, fun _ => ?_⟩
    have returned := returns_returnValue (s := { s with
      bios := { s.bios with kernelHeap := place.2 } }) place.1
    refine ⟨.inl ⟨place.2, place.1, allocates, rfl, returned⟩, ?_⟩
    exact ⟨fun full => absurd full (allocates.not_max orderly.kernelHeap returned),
      fun none => absurd fits (none place.1)⟩
  | error e =>
    rw [ran] at spec
    obtain ⟨none, reason⟩ := spec
    have overflow := orderly.kernelHeap.overflow_iff ran
    rcases reason with rfl | rfl
    · have past := overflow.mp rfl
      refine ⟨False.elim, fun h => ?_⟩
      rcases h with ⟨x, fits⟩ | small
      · exact none x fits
      · omega
    · have small : s.bios.kernelHeap.top + Heap.rounded (s.context.argument 0) < 2 ^ 32 :=
        Nat.lt_of_not_le fun past => by cases overflow.mpr past
      exact ⟨fun _ => .inr small, fun _ => ⟨.inr ⟨rfl, returns_returnValue u32Max⟩,
        fun _ => none, fun _ => returns_returnValue u32Max⟩⟩

/-- After any run of heap services, the kernel's allocation reports to the guest exactly where a gap
fits, or the rounded size fits behind the last block in the address space. -/
theorem kernel_allocation_reported_iff {ram : GuestBytes M} {limits : HleLimits}
    {context : CpuContext} {memory : M} {calls : List (Arrival M)}
    (run : Run (Serves ram) ⟨.new limits, context, memory⟩ calls s) (registers : CpuContext)
    (contents : M) :
    Reported ⟨s.bios, registers, contents⟩ (registers.argument 0)
        (allocateKernelMemory.run ⟨s.bios, registers, contents⟩) ↔
      (∃ x, s.bios.kernelHeap.Fits (Heap.rounded (registers.argument 0)) x) ∨
        s.bios.kernelHeap.top + Heap.rounded (registers.argument 0) < 2 ^ 32 := by
  have orderly : HeapsOrderly s.bios := heapsOrderly_run run
  exact reported_iff (s := ⟨s.bios, registers, contents⟩) orderly

end Reported

/-- Three allocations on the kernel's own heap, of which the second is freed again. -/
def kernelCalls : List (Arrival (ℕ → BitVec 8)) :=
  [⟨.allocateKernelMemory, twoArguments 0x1000 0, onesMemory⟩,
    ⟨.allocateKernelMemory, twoArguments 0x20 0, onesMemory⟩,
    ⟨.allocateKernelMemory, twoArguments 0x101 0, onesMemory⟩,
    ⟨.freeKernelMemory, twoArguments 0xa000f000 0, onesMemory⟩]

/-- With two live blocks a request for four thousand bytes and one is reported. -/
theorem kernel_allocation_reported_full :
    let s := afterCalls flatRam freshHle kernelCalls
    s.bios.kernelHeap.blocks = [⟨0xa000e000, 0x1000⟩, ⟨0xa000f020, 0x108⟩] ∧
      Reported ⟨s.bios, twoArguments 0x1001 0, onesMemory⟩ 0x1001
        (allocateKernelMemory.run ⟨s.bios, twoArguments 0x1001 0, onesMemory⟩) := by
  intro s
  have run : Run (Serves flatRam) freshHle kernelCalls s := run_afterCalls flatRam freshHle kernelCalls
  have small : s.bios.kernelHeap.top + Heap.rounded ((twoArguments 0x1001 0).argument 0) < 2 ^ 32 := by
    decide +kernel
  exact ⟨by decide +kernel,
    (kernel_allocation_reported_iff run (twoArguments 0x1001 0) onesMemory).mpr (.inr small)⟩

/-- A request for a gigabyte and a half stops the machine instead. -/
theorem kernel_allocation_overflows :
    ¬ Reported ⟨freshHle.bios, twoArguments 0x60000000 0, onesMemory⟩ 0x60000000
      (allocateKernelMemory.run ⟨freshHle.bios, twoArguments 0x60000000 0, onesMemory⟩) := by
  intro reported
  have failed : allocateKernelMemory.run ⟨freshHle.bios, twoArguments 0x60000000 0, onesMemory⟩ =
      .error .addressOverflow ⟨freshHle.bios, twoArguments 0x60000000 0, onesMemory⟩ := rfl
  rw [failed] at reported
  exact reported

end Upse.Ps1
