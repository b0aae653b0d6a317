import Mathlib.Data.Nat.Bitwise
import Upse.Support.Integers

/-!
# Rounding to a power of two

`align_down` and the checked `align_up` of 32-bit addresses and sizes.
-/

namespace Upse

/-- `value & !(alignment - 1)` on 32-bit values. -/
def alignDown (value alignment : ℕ) : ℕ := value &&& (2 ^ 32 - (alignment - 1 + 1))

/-- Rounds up to a power of two, or fails past the largest 32-bit value. -/
def alignUp (value alignment : ℕ) : Option ℕ :=
  (checkedAdd 32 value (alignment - 1)).map fun value => alignDown value alignment

theorem alignDown_le (value alignment : ℕ) : alignDown value alignment ≤ value := Nat.and_le_left

theorem alignDown_two_pow {value k : ℕ} (h : value < 2 ^ 32) :
    alignDown value (2 ^ k) = value / 2 ^ k * 2 ^ k := by
  unfold alignDown
  by_cases hk : k < 32
  · have mask : 2 ^ k - 1 < 2 ^ 32 := by
      have := Nat.pow_lt_pow_right (a := 2) (by omega) hk
      omega
    apply Nat.eq_of_testBit_eq
    intro i
    rw [Nat.testBit_and, Nat.testBit_two_pow_sub_succ mask, Nat.testBit_two_pow_sub_one,
      Nat.testBit_mul_two_pow, Nat.testBit_div_two_pow]
    by_cases low : i < k
    · simp [low]
    · rw [Nat.sub_add_cancel (by omega)]
      by_cases high : i < 32
      · simp [low, high, Nat.le_of_not_lt low]
      · have small : value < 2 ^ i := lt_of_lt_of_le h (Nat.pow_le_pow_right (by omega) (by omega))
        simp [Nat.testBit_lt_two_pow small]
  · have wide : 2 ^ 32 ≤ 2 ^ k := Nat.pow_le_pow_right (by omega) (by omega)
    rw [Nat.div_eq_of_lt (by omega), Nat.sub_eq_zero_of_le (by omega)]
    simp

theorem dvd_alignDown {value alignment : ℕ} (power : alignment.isPowerOfTwo)
    (h : value < 2 ^ 32) : alignment ∣ alignDown value alignment := by
  obtain ⟨k, rfl⟩ := power
  rw [alignDown_two_pow h]
  exact Nat.dvd_mul_left _ _

theorem alignUp_spec {value alignment result : ℕ} (power : alignment.isPowerOfTwo)
    (h : alignUp value alignment = some result) : alignment ∣ result ∧ value ≤ result := by
  obtain ⟨sum, added, rfl⟩ := Option.map_eq_some_iff.mp h
  obtain ⟨fits, rfl⟩ := checkedAdd_eq_some.mp added
  refine ⟨dvd_alignDown power fits, ?_⟩
  obtain ⟨k, rfl⟩ := power
  rw [alignDown_two_pow fits]
  have split := Nat.div_add_mod (value + (2 ^ k - 1)) (2 ^ k)
  have small := Nat.mod_lt (value + (2 ^ k - 1)) (Nat.two_pow_pos k)
  rw [Nat.mul_comm] at split
  omega

theorem le_alignDown {value alignment x : ℕ} (power : alignment.isPowerOfTwo) (h : value < 2 ^ 32)
    (dvd : alignment ∣ x) (le : x ≤ value) : x ≤ alignDown value alignment := by
  obtain ⟨k, rfl⟩ := power
  obtain ⟨m, rfl⟩ := dvd
  rw [alignDown_two_pow h, Nat.mul_comm]
  apply Nat.mul_le_mul_right
  rw [Nat.le_div_iff_mul_le (Nat.two_pow_pos k), Nat.mul_comm]
  exact le

/-- Rounding up gives the least multiple that is no smaller, where a 32-bit value can be one. -/
theorem alignUp_least {value alignment x : ℕ} (power : alignment.isPowerOfTwo)
    (small : alignment < 2 ^ 32) (dvd : alignment ∣ x) (le : value ≤ x) (fits : x < 2 ^ 32) :
    ∃ result, alignUp value alignment = some result ∧ result ≤ x := by
  obtain ⟨k, rfl⟩ := power
  have whole : 2 ^ k ∣ 2 ^ 32 := Nat.pow_dvd_pow 2 (Nat.pow_lt_pow_iff_right (by decide)|>.mp small).le
  -- The next multiple after `x` is at most `2 ^ 32`.
  obtain ⟨m, rfl⟩ := dvd
  obtain ⟨n, total⟩ := whole
  have positive := Nat.two_pow_pos k
  have next : m + 1 ≤ n := by
    by_contra more
    have below : 2 ^ k * n ≤ 2 ^ k * m := Nat.mul_le_mul_left _ (by omega)
    omega
  have room : 2 ^ k * (m + 1) ≤ 2 ^ k * n := Nat.mul_le_mul_left _ next
  rw [Nat.mul_add, Nat.mul_one] at room
  have sum : value + (2 ^ k - 1) < 2 ^ 32 := by omega
  refine ⟨alignDown (value + (2 ^ k - 1)) (2 ^ k), ?_, ?_⟩
  · unfold alignUp
    rw [checkedAdd_eq_some.mpr ⟨sum, rfl⟩]
    rfl
  · rw [alignDown_two_pow sum, Nat.mul_comm]
    apply Nat.mul_le_mul_left
    rw [← Nat.lt_succ_iff, Nat.div_lt_iff_lt_mul positive, Nat.succ_mul, Nat.mul_comm m]
    omega

theorem alignUp_eight {value result : ℕ} (h : alignUp value 8 = some result) :
    result = (value + 7) / 8 * 8 ∧ value + 7 < 2 ^ 32 := by
  obtain ⟨sum, added, rfl⟩ := Option.map_eq_some_iff.mp h
  obtain ⟨fits, rfl⟩ := checkedAdd_eq_some.mp added
  exact ⟨alignDown_two_pow (k := 3) fits, fits⟩

theorem alignUp_eight_none {value : ℕ} (h : alignUp value 8 = none) : 2 ^ 32 ≤ value + 7 :=
  checkedAdd_eq_none.mp (Option.map_eq_none_iff.mp h)

end Upse
