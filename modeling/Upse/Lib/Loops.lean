import Mathlib.Data.Nat.Notation
import Upse.Lib.ErrorState

/-!
# Unbounded loops

`whileLoop` runs `while cond { body }` for a bounded number of rounds and reports whether the loop
ended; `Loops` is the loop itself, as the relation between the states before and after it.
-/

namespace ErrorState

variable {ε σ : Type} (cond : σ → Bool) (body : EStateM ε σ Unit)

/-- The loop for at most `fuel` rounds; `true` when it ended. -/
def whileLoop : ℕ → EStateM ε σ Bool
  | 0 => do return !cond (← get)
  | fuel + 1 => do
    if cond (← get) then
      body
      whileLoop fuel
    else return true

/-- The loop leads from one state to another. -/
inductive Loops : σ → σ → Prop
  | done {s : σ} : cond s = false → Loops s s
  | next {s t u : σ} : cond s = true → body.run s = .ok () t → Loops t u → Loops s u

variable {cond body}

theorem Loops.ended {s t : σ} (h : Loops cond body s t) : cond t = false := by
  induction h with
  | done stop => exact stop
  | next _ _ _ ih => exact ih

theorem Loops.invariant {I : σ → Prop} {s t : σ} (h : Loops cond body s t)
    (round : ∀ a b, body.run a = .ok () b → I a → I b) (start : I s) : I t := by
  induction h with
  | done _ => exact start
  | next _ run _ ih => exact ih (round _ _ run start)

theorem run_whileLoop_zero {s : σ} : (whileLoop cond body 0).run s = .ok (!cond s) s := rfl

theorem run_whileLoop_stop {s : σ} (h : cond s = false) (fuel : ℕ) :
    (whileLoop cond body fuel).run s = .ok true s := by
  cases fuel with
  | zero => rw [run_whileLoop_zero, h]; rfl
  | succ fuel => simp [whileLoop, h]

theorem run_whileLoop_step {s : σ} (h : cond s = true) (fuel : ℕ) :
    (whileLoop cond body (fuel + 1)).run s =
      (do body; whileLoop cond body fuel : EStateM ε σ Bool).run s := by
  simp [whileLoop, h]

/-- A loop that ends within some number of rounds is the loop, and conversely. -/
theorem exists_whileLoop_iff {s t : σ} :
    (∃ fuel, (whileLoop cond body fuel).run s = .ok true t) ↔ Loops cond body s t := by
  constructor
  · rintro ⟨fuel, h⟩
    induction fuel generalizing s with
    | zero =>
      rw [run_whileLoop_zero] at h
      simp only [EStateM.Result.ok.injEq, Bool.not_eq_true'] at h
      obtain ⟨stop, rfl⟩ := h
      exact .done stop
    | succ fuel ih =>
      by_cases go : cond s = true
      · rw [run_whileLoop_step go, run_bind_ok] at h
        obtain ⟨⟨⟩, u, step, rest⟩ := h
        exact .next go step (ih rest)
      · have stop := Bool.eq_false_iff.mpr go
        rw [run_whileLoop_stop stop] at h
        cases h
        exact .done stop
  · intro h
    induction h with
    | done stop => exact ⟨0, run_whileLoop_stop stop 0⟩
    | next go step _ ih =>
      obtain ⟨fuel, ended⟩ := ih
      exact ⟨fuel + 1, by rw [run_whileLoop_step go, run_bind_ok]; exact ⟨(), _, step, ended⟩⟩

theorem run_whileLoop_mono {s t : σ} {fuel fuel' : ℕ} (le : fuel ≤ fuel')
    (h : (whileLoop cond body fuel).run s = .ok true t) :
    (whileLoop cond body fuel').run s = .ok true t := by
  induction fuel generalizing s fuel' with
  | zero =>
    rw [run_whileLoop_zero] at h
    simp only [EStateM.Result.ok.injEq, Bool.not_eq_true'] at h
    obtain ⟨stop, rfl⟩ := h
    exact run_whileLoop_stop stop fuel'
  | succ fuel ih =>
    obtain ⟨fuel', rfl⟩ : ∃ n, fuel' = n + 1 := ⟨fuel' - 1, by omega⟩
    by_cases go : cond s = true
    · rw [run_whileLoop_step go, run_bind_ok] at h ⊢
      obtain ⟨a, u, step, rest⟩ := h
      exact ⟨a, u, step, ih (by omega) rest⟩
    · rw [run_whileLoop_stop (Bool.eq_false_iff.mpr go)] at h ⊢
      exact h

/-- What every round of a loop preserves, failures included, holds where the loop stops. -/
theorem leads_whileLoop {R : σ → σ → Prop} [Std.Refl R] [IsTrans σ R]
    (step : ∀ s, cond s = true → Leads R s body) (fuel : ℕ) (s : σ) :
    Leads R s (whileLoop cond body fuel) := by
  induction fuel generalizing s with
  | zero => exact Std.Refl.refl s
  | succ fuel ih =>
    unfold whileLoop
    apply leads_get_bind
    apply Leads.ite
    · intro go
      exact (step s go).bind fun _ t _ => ih t
    · intro _
      exact leads_pure true

/-! ### Counted loops -/

section Counted

variable {α : Type}

/-- `for i in start..start + n { body(i) }`. -/
def forRange (body : ℕ → EStateM ε σ Unit) : ℕ → ℕ → EStateM ε σ Unit
  | _, 0 => pure ()
  | i, n + 1 => do
    body i
    forRange body (i + 1) n

variable {body : ℕ → EStateM ε σ Unit}

/-- Where every round succeeds and carries the invariant on, so does the loop. -/
theorem forRange_ok (I : ℕ → σ → Prop) {i n : ℕ} {s : σ} (start : I i s)
    (round : ∀ j a, i ≤ j → j < i + n → I j a → ∃ b, (body j).run a = .ok () b ∧ I (j + 1) b) :
    ∃ t, (forRange body i n).run s = .ok () t ∧ I (i + n) t := by
  induction n generalizing i s with
  | zero => exact ⟨s, rfl, start⟩
  | succ n ih =>
    obtain ⟨a, ran, held⟩ := round i s (Nat.le_refl _) (by omega) start
    obtain ⟨t, rest, last⟩ := ih held fun j b low high => round j b (by omega) (by omega)
    refine ⟨t, ?_, by rwa [Nat.add_right_comm, Nat.add_assoc] at last⟩
    rw [forRange, run_bind, ran]
    exact rest

/-- A loop that fails does so in one of its rounds. -/
theorem forRange_error {i n : ℕ} {s t : σ} {e : ε} (run : (forRange body i n).run s = .error e t) :
    ∃ j a, i ≤ j ∧ j < i + n ∧ (body j).run a = .error e t := by
  induction n generalizing i s with
  | zero => cases run
  | succ n ih =>
    rw [forRange, run_bind] at run
    cases ran : (body i).run s with
    | ok _ a =>
      rw [ran] at run
      obtain ⟨j, b, low, high, failed⟩ := ih run
      exact ⟨j, b, by omega, by omega, failed⟩
    | error e' a =>
      rw [ran] at run
      cases run
      exact ⟨i, s, Nat.le_refl _, by omega, ran⟩

theorem leads_forRange {R : σ → σ → Prop} [Std.Refl R] [IsTrans σ R] {i n : ℕ} {s : σ}
    (round : ∀ j a, Leads R a (body j)) : Leads R s (forRange body i n) := by
  induction n generalizing i s with
  | zero => exact leads_pure ()
  | succ n ih => exact (round i s).bind fun _ _ _ => ih

end Counted

end ErrorState
