import Upse.Bios.Ps1.LibcCallbacks

/-!
# Sorting with a comparator of the guest

A comparator that compares contents by a total preorder makes `qsort` sort stably.  The suspended
service is an insertion sort between two comparisons.
-/

namespace Upse.Ps1.Libc

open ErrorState StableSort
open Strings (RamOn)

variable {M : Type} {ram : GuestBytes M} {byte : M → ℕ → BitVec 8} {region kept : ℕ → Prop}
  {le : List (BitVec 8) → List (BitVec 8) → Prop} [DecidableRel le]
  {compare : ℕ → LibcState M → LibcState M} {base elements width callback k outer inner : ℕ}
  {s₀ s t u : LibcState M}

/-- Two elements of an array. -/
def BothElements (base elements width left right : ℕ) : Prop :=
  ∃ i j, i < elements ∧ j < elements ∧ left = base + i * width ∧ right = base + j * width

/-! ### One result -/

section Advance

variable {result : ℤ} (small : outer < u32Max)
include small

theorem advance_qsort_arrived (inOrder : result ≤ 0) :
    ((LibcOperationKind.qsort base elements width outer inner).advance ram result).run s =
      .ok (.qsort base elements width (outer + 1) (outer + 1),
        if elements ≤ outer + 1 then some none else none) s := by
  have out : ¬ 0 < result := not_lt.mpr inOrder
  unfold LibcOperationKind.advance
  simp only [if_neg out, inOrder, true_or, if_true, Nat.min_eq_right (Nat.succ_le_of_lt small)]
  rfl

variable (out : 0 < result)
  (left : elementAddress base (inner - 1) width = .ok (base + (inner - 1) * width))
  (right : elementAddress base inner width = .ok (base + inner * width))
  (swapped : (forRange (swapByte ram (base + (inner - 1) * width) (base + inner * width)) 0 width).run s =
    .ok () u)
include out left right swapped

theorem advance_qsort_swapped (elements : ℕ) : ((LibcOperationKind.qsort base elements width outer inner).advance ram
      result).run s =
    .ok (if inner - 1 = 0 then .qsort base elements width (outer + 1) (outer + 1)
        else .qsort base elements width outer (inner - 1),
      if elements ≤ (if inner - 1 = 0 then outer + 1 else outer) then some none else none) u := by
  have more : ¬ result ≤ 0 := not_le.mpr out
  unfold LibcOperationKind.advance
  simp only [if_pos out, more, false_or, Nat.min_eq_right (Nat.succ_le_of_lt small)]
  rw [run_ofExcept_bind left, run_ofExcept_bind right, run_bind_of_ok swapped]
  by_cases first : inner - 1 = 0
  · simp only [if_pos first]
    rfl
  · simp only [if_neg first]
    rfl

end Advance

/-! ### Between two comparisons -/

/-- The contents of an array, in the order of its elements. -/
def contents (byte : M → ℕ → BitVec 8) (m : M) (base elements width : ℕ) : List (List (BitVec 8)) :=
  listed (element byte m base width) elements

/-- Memory that the comparator leaves alone is unchanged outside the array. -/
def Untouched (byte : M → ℕ → BitVec 8) (region kept : ℕ → Prop) (base elements width : ℕ) (m m' : M) :
    Prop :=
  ∀ address, kept address → region address → ¬ InArray base elements width address →
    byte m' address = byte m address

/-- The caller of `qsort` goes on with a sorted array and its own registers. -/
structure Sorted (le : List (BitVec 8) → List (BitVec 8) → Prop) [DecidableRel le]
    (byte : M → ℕ → BitVec 8) (region kept : ℕ → Prop) (base elements width : ℕ) (s t : LibcState M) :
    Prop where
  bios : t.bios = s.bios
  context : t.context = returnToCaller s.context
  sorts : Sorts le (contents byte s.memory base elements width) (contents byte t.memory base elements width)
  untouched : Untouched byte region kept base elements width s.memory t.memory

/-- `qsort` waits for its comparator in the middle of an insertion. -/
structure Sorting (le : List (BitVec 8) → List (BitVec 8) → Prop) [DecidableRel le]
    (byte : M → ℕ → BitVec 8) (region kept : ℕ → Prop) (base elements width callback : ℕ)
    (s₀ : LibcState M) (k outer inner : ℕ) (s : LibcState M) : Prop where
  suspended : Suspended s₀ callback k (.qsort base elements width outer inner)
    (base + (inner - 1) * width) (base + inner * width) s
  inserting : Inserting le (contents byte s₀.memory base elements width) elements
    (element byte s.memory base width) outer inner
  untouched : Untouched byte region kept base elements width s₀.memory s.memory
  few : k ≤ comparisons outer inner

/-- `qsort` waits with a number of comparisons behind it. -/
def SortWaits (le : List (BitVec 8) → List (BitVec 8) → Prop) [DecidableRel le]
    (byte : M → ℕ → BitVec 8) (region kept : ℕ → Prop) (base elements width callback : ℕ)
    (s₀ : LibcState M) (k spent : ℕ) (s : LibcState M) : Prop :=
  ∃ outer inner, spent = comparisons outer inner ∧
    Sorting le byte region kept base elements width callback s₀ k outer inner s

theorem Inserting.congr {original : List (List (BitVec 8))} {c c' : ℕ → List (BitVec 8)} {n : ℕ}
    (h : Inserting le original n c outer inner) (same : ∀ i < n, c' i = c i) :
    Inserting le original n c' outer inner := by
  have listed_same : listed c' n = listed c n :=
    List.map_congr_left fun i member => same i (List.mem_range.mp member)
  refine ⟨by rw [listed_same]; exact h.rearranged, h.positive, h.inner_le, h.outer_lt, ?_⟩
  intro i j below last other
  have := h.outer_lt
  rw [same i (by omega), same j (by omega)]
  exact h.ordered i j below last other

section Steps

variable (ramOn : RamOn ram byte region) (placed : Placed region s₀.bios.limits base elements width)

include ramOn placed in
theorem compared_qsort (outer : ℕ) {inner : ℕ} (le : inner ≤ elements) :
    (LibcOperationKind.qsort base elements width outer inner).compared =
      .ok (base + (inner - 1) * width, base + inner * width) := by
  have fits := placed.fits ramOn
  have left := elementAddress_eq fits (show inner - 1 ≤ elements by omega)
  have right := elementAddress_eq fits le
  show (do
    let left ← elementAddress base (inner - 1) width
    let right ← elementAddress base inner width
    return (left, right)) = _
  rw [left, right]
  rfl

variable (idle : s₀.bios.libcOperation = none)
  (step : Sorting le byte region kept base elements width callback s₀ k outer inner s)
  (bios : t.bios = s.bios) {memory : M}

include ramOn placed step bios in
theorem Sorting.follows {outer' inner' : ℕ}
    (advanced : ((LibcOperationKind.qsort base elements width outer inner).advance ram t.result).run t.taken =
      .ok (.qsort base elements width outer' inner', none) { t.taken with memory := memory })
    (inserting : Inserting le (contents byte s₀.memory base elements width) elements
      (element byte memory base width) outer' inner')
    (untouched : Untouched byte region kept base elements width s₀.memory memory)
    (more : comparisons outer inner < comparisons outer' inner') :
    Follows ram s₀.bios.limits.libcCallbackCalls (elements * (elements - 1) / 2)
      (SortWaits le byte region kept base elements width callback s₀)
      (Sorted le byte region kept base elements width s₀) k (comparisons outer inner) t := by
  have below := comparisons_lt_bound inserting.positive inserting.inner_le inserting.outer_lt
  have few := step.few
  have outer_lt := inserting.outer_lt
  have inner_le := inserting.inner_le
  have compared := compared_qsort ramOn placed outer' (show inner' ≤ elements by omega)
  rcases step.suspended.continues bios advanced compared with ⟨u, ran, rfl, suspended⟩ | ⟨full, u, failed⟩
  · refine .inr (.inl ⟨_, u, more, ran, outer', inner', rfl, ?_⟩)
    exact ⟨suspended, inserting, untouched, by omega⟩
  · exact .inr (.inr ⟨full, by omega, u, failed⟩)

include ramOn placed idle step bios in
theorem Sorting.follows_round
    (advanced : ((LibcOperationKind.qsort base elements width outer inner).advance ram t.result).run t.taken =
      .ok (.qsort base elements width (outer + 1) (outer + 1),
        if elements ≤ outer + 1 then some none else none) { t.taken with memory := memory })
    (ordered : Ordered le (element byte memory base width) (outer + 1))
    (rearranges : Rearranges le (contents byte s₀.memory base elements width)
      (contents byte memory base elements width))
    (untouched : Untouched byte region kept base elements width s₀.memory memory) :
    Follows ram s₀.bios.limits.libcCallbackCalls (elements * (elements - 1) / 2)
      (SortWaits le byte region kept base elements width callback s₀)
      (Sorted le byte region kept base elements width s₀) k (comparisons outer inner) t := by
  have outer_lt := step.inserting.outer_lt
  rcases Nat.lt_or_ge (outer + 1) elements with more | last
  · rw [if_neg (Nat.not_le_of_lt more)] at advanced
    refine step.follows ramOn placed bios advanced
      (ordered.inserting rearranges (Nat.succ_pos outer) more) untouched ?_
    rw [comparisons_next]
    have positive := step.inserting.positive
    have inner_le := step.inserting.inner_le
    unfold comparisons
    omega
  · obtain rfl : outer + 1 = elements := by omega
    rw [if_pos last] at advanced
    refine .inl ⟨_, step.suspended.returns bios advanced, ?_, rfl, ⟨rearranges, ordered.pairwise⟩, untouched⟩
    show LibcHle.mk s₀.bios.limits none = s₀.bios
    rw [← idle]

variable [Std.Total le] [IsTrans _ le] (elements_lt : elements < 2 ^ 32)
  (comparator : Comparator le byte kept width callback (BothElements base elements width) compare)
  (keeps : ∀ address, InArray base elements width address → kept address)
include ramOn placed idle step elements_lt comparator keeps

theorem Sorting.resumed : Follows ram s₀.bios.limits.libcCallbackCalls (elements * (elements - 1) / 2)
    (SortWaits le byte region kept base elements width callback s₀)
    (Sorted le byte region kept base elements width s₀) k (comparisons outer inner) (compare k s) := by
  have positive := step.inserting.positive
  have inner_le := step.inserting.inner_le
  have outer_lt := step.inserting.outer_lt
  have fits := placed.fits ramOn
  have small : outer < u32Max := by
    unfold u32Max
    omega
  have left := elementAddress_eq fits (show inner - 1 ≤ elements by omega)
  have right := elementAddress_eq fits (show inner ≤ elements by omega)
  have bounds (i : ℕ) (le : i ≤ elements) : base + i * width < 2 ^ 32 := by
    have := Nat.mul_le_mul_right width le
    omega
  have compared := Comparator.compared (k := k) ⟨s₀.context, callback, k + 1, _⟩ comparator
    ⟨inner - 1, inner, by omega, by omega, rfl, rfl⟩ (bounds _ (by omega)) (bounds _ (by omega))
    step.suspended.context
  have same : ∀ i < elements,
      element byte (compare k s).memory base width i = element byte s.memory base width i :=
    fun i lt => element_congr lt fun address inside => compared.kept address (keeps address inside)
  have inserting := Inserting.congr step.inserting same
  have sign : 0 < (compare k s).result ↔ ¬ le (element byte (compare k s).memory base width (inner - 1))
      (element byte (compare k s).memory base width inner) := by
    rw [same _ (by omega), same _ (by omega)]
    exact compared.positive
  have untouched : Untouched byte region kept base elements width s₀.memory (compare k s).memory :=
    fun address keep known outside =>
      (compared.kept address keep).trans (step.untouched address keep known outside)
  by_cases place : le (element byte (compare k s).memory base width (inner - 1))
      (element byte (compare k s).memory base width inner)
  · have arrived := not_lt.mp fun more => sign.mp more place
    exact step.follows_round ramOn placed idle compared.bios (advance_qsort_arrived small arrived)
      (inserting.arrived place) inserting.rearranged untouched
  · obtain ⟨memory, swapped, exchanged, others⟩ :=
      run_exchange (s := (compare k s).taken) ramOn placed.within positive (show inner < elements by omega)
    have advanced := advance_qsort_swapped small (sign.mpr place) left right swapped elements
    have passed := inserting.pass place exchanged
    have rearranges := inserting.rearranges_pass place exchanged
    have untouched' : Untouched byte region kept base elements width s₀.memory memory :=
      fun address keep known outside =>
        (others address known outside).trans (untouched address keep known outside)
    by_cases first : inner - 1 = 0
    · simp only [if_pos first] at advanced
      refine step.follows_round ramOn placed idle compared.bios advanced ?_ rearranges untouched'
      exact fun i j below last => passed i j below (by omega) (by omega)
    · simp only [if_neg first, if_neg (Nat.not_le_of_lt outer_lt)] at advanced
      refine step.follows ramOn placed compared.bios advanced ?_ untouched' (comparisons_lt inner_le positive)
      exact ⟨rearranges, by omega, by omega, outer_lt, passed⟩

end Steps

/-! ### The call -/

section Call

variable (ramOn : RamOn ram byte region) (idle : s.bios.libcOperation = none)
  (placed : Placed region s.bios.limits base elements width)

include ramOn placed in
theorem run_checkArray : (checkArray base elements width).run s = .ok () s := by
  have fits := placed.fits ramOn
  have allowed : ¬ s.bios.limits.memoryOperationBytes < elements * width := Nat.not_lt.mpr placed.allowed
  have product : checkedMul 32 elements width = some (elements * width) :=
    checkedMul_eq_some.mpr ⟨by omega, rfl⟩
  have sum : checkedAdd 32 base (elements * width) = some (base + elements * width) :=
    checkedAdd_eq_some.mpr ⟨fits, rfl⟩
  have size : (checkMemorySize (elements * width)).run s = .ok () s := by
    unfold checkMemorySize
    rw [run_get_bind, run_throwIf, if_neg allowed]
  unfold checkArray
  rw [run_okOr_bind product, run_bind_of_ok size, run_okOr_bind sum]
  rfl

theorem run_argument (index : ℕ) :
    (argument index : LibcM M ℕ).run s = .ok (s.context.argument index) s := rfl

/-- The arguments of a call of `qsort`. -/
structure CallsQsort (base elements width callback : ℕ) (context : CpuContext) : Prop where
  base : context.argument 0 = base
  elements : context.argument 1 = elements
  width : context.argument 2 = width
  callback : context.argument 3 = callback

variable (call : CallsQsort base elements width callback s.context)

include ramOn placed call in
theorem run_startQsort : (startQsort : LibcM M Bool).run s =
    (if elements < 2 ∨ width = 0 then return false
      else do
        startLibcOperation callback (.qsort base elements width 1 1)
        return true : LibcM M Bool).run s := by
  unfold startQsort
  rw [run_bind_of_ok (run_argument 0), run_bind_of_ok (run_argument 1), run_bind_of_ok (run_argument 2),
    call.base, call.elements, call.width, run_bind_of_ok (run_checkArray ramOn placed)]
  split
  · rfl
  · rw [run_bind_of_ok (run_argument 3), call.callback]

theorem sorts_few [Std.Total le] (few : elements < 2 ∨ width = 0) (m : M) :
    Sorts le (contents byte m base elements width) (contents byte m base elements width) := by
  refine ⟨.refl _, Ordered.pairwise fun i j below last => ?_⟩
  rcases few with few | rfl
  · omega
  · exact (Std.Total.total (r := le) [] []).elim id id

variable [Std.Total le] [IsTrans _ le]
  (comparator : Comparator le byte kept width callback (BothElements base elements width) compare)
  (keeps : ∀ address, InArray base elements width address → kept address)
include ramOn idle placed call comparator keeps

/-- `qsort` sorts stably with at most `n * (n - 1) / 2` comparisons, if the firmware allows as many as it
needs. -/
theorem qsort_sorts : Ends s.bios.limits.libcCallbackCalls (elements * (elements - 1) / 2)
    (Sorted le byte region kept base elements width s)
    fun rounds => (serve ram startQsort compare rounds).run s := by
  have elements_lt : elements < 2 ^ 32 := call.elements ▸ argument_lt s.context 1
  have started := run_startQsort ramOn placed call
  by_cases few : elements < 2 ∨ width = 0
  · rw [if_pos few] at started
    exact ends_of_idle started ⟨rfl, rfl, sorts_few few s.memory, fun _ _ _ _ => rfl⟩
  rw [if_neg few] at started
  have inserting : Inserting le (contents byte s.memory base elements width) elements
      (element byte s.memory base width) 1 1 :=
    Ordered.inserting (fun i j below last => by omega) (.refl _) (by decide) (by omega)
  have progress : Progress ram compare s.bios.limits.libcCallbackCalls (elements * (elements - 1) / 2)
      (SortWaits le byte region kept base elements width callback s)
      (Sorted le byte region kept base elements width s) := by
    constructor
    · rintro k _ u ⟨outer, inner, rfl, step⟩
      exact ⟨step.few, comparisons_lt_bound step.inserting.positive step.inserting.inner_le
        step.inserting.outer_lt, step.suspended.fits⟩
    · rintro k _ u ⟨outer, inner, rfl, step⟩
      exact step.resumed ramOn placed idle elements_lt comparator keeps
  rcases run_start idle callback (compared_qsort ramOn placed 1 (show 1 ≤ elements by omega)) with
    ⟨u, ran, memory, suspended⟩ | ⟨none', u, failed⟩
  · rw [run_bind_of_ok ran] at started
    have waits : SortWaits le byte region kept base elements width callback s 0 (comparisons 1 1) u := by
      refine ⟨1, 1, rfl, suspended, ?_, ?_, Nat.zero_le _⟩
      · rw [memory]
        exact inserting
      · rw [memory]
        exact fun _ _ _ _ => rfl
    exact progress.ends started waits
  · rw [run_bind_of_error failed] at started
    rw [none']
    refine ends_of_refused started ?_
    have some_comparison := comparisons_lt_bound inserting.positive inserting.inner_le inserting.outer_lt
    omega

end Call

end Upse.Ps1.Libc
