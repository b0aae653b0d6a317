import Mathlib.Algebra.Group.Int.Defs
import Mathlib.Algebra.GroupWithZero.Nat
import Mathlib.Data.Nat.Notation

/-!
# Checked machine arithmetic

Counts, addresses and times are natural numbers; the checked operations of the source carry the
width of their type, and a result that does not fit is `none`.  Bit patterns and register contents
are words.
-/

namespace Upse

-- banks of two and three channels and files of 32 registers have a first member
instance neZero_two : NeZero 2 := ⟨by decide⟩

instance neZero_three : NeZero 3 := ⟨by decide⟩

instance neZero_registers : NeZero 32 := ⟨by decide⟩

/-- A 32-bit register value or bit pattern. -/
abbrev Word := BitVec 32

/-- Largest 32-bit value. -/
def u32Max : ℕ := 2 ^ 32 - 1

/-- Largest 64-bit value. -/
def u64Max : ℕ := 2 ^ 64 - 1

/-- `checked_add` at the width `w`. -/
def checkedAdd (w a b : ℕ) : Option ℕ := if a + b < 2 ^ w then some (a + b) else none

/-- `checked_sub`, which does not depend on the width. -/
def checkedSub (a b : ℕ) : Option ℕ := if b ≤ a then some (a - b) else none

/-- `checked_mul` at the width `w`. -/
def checkedMul (w a b : ℕ) : Option ℕ := if a * b < 2 ^ w then some (a * b) else none

theorem checkedAdd_eq_some {w a b c : ℕ} : checkedAdd w a b = some c ↔ a + b < 2 ^ w ∧ c = a + b := by
  unfold checkedAdd
  split <;> simp <;> omega

theorem checkedAdd_eq_none {w a b : ℕ} : checkedAdd w a b = none ↔ 2 ^ w ≤ a + b := by
  unfold checkedAdd
  split <;> simp_all

theorem checkedSub_eq_some {a b c : ℕ} : checkedSub a b = some c ↔ b ≤ a ∧ c = a - b := by
  unfold checkedSub
  split <;> simp <;> omega

theorem checkedMul_eq_some {w a b c : ℕ} : checkedMul w a b = some c ↔ a * b < 2 ^ w ∧ c = a * b := by
  unfold checkedMul
  split <;> simp <;> omega

/-!
## Emulated time

Durations and absolute timestamps are 64-bit counts; advancing a timestamp is checked.
-/

/-- A count of elapsed ticks. -/
abbrev Ticks := ℕ

/-- An absolute timestamp. -/
abbrev Deadline := ℕ

/-- Failure from checked clock arithmetic. -/
inductive ClockError where
  | zeroRate
  | overflow
  deriving DecidableEq, Repr

/-- Advances a timestamp by a tick count. -/
def Deadline.checkedAdvance (deadline : Deadline) (ticks : Ticks) : Except ClockError Deadline :=
  match checkedAdd 64 deadline ticks with
  | some result => .ok result
  | none => .error .overflow

theorem Deadline.checkedAdvance_eq_ok {deadline ticks result : ℕ} :
    Deadline.checkedAdvance deadline ticks = .ok result ↔
      deadline + ticks < 2 ^ 64 ∧ result = deadline + ticks := by
  rw [Deadline.checkedAdvance, ← checkedAdd_eq_some]
  cases checkedAdd 64 deadline ticks <;> simp

theorem Deadline.checkedAdvance_of_lt {deadline ticks : ℕ} (h : deadline + ticks < 2 ^ 64) :
    Deadline.checkedAdvance deadline ticks = .ok (deadline + ticks) :=
  Deadline.checkedAdvance_eq_ok.mpr ⟨h, rfl⟩

theorem Deadline.checkedAdvance_of_le {deadline ticks : ℕ} (h : 2 ^ 64 ≤ deadline + ticks) :
    Deadline.checkedAdvance deadline ticks = .error .overflow := by
  rw [Deadline.checkedAdvance, checkedAdd_eq_none.mpr h]

end Upse
