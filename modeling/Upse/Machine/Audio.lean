import Upse.Lib.Pulled
import Upse.Support.Integers

/-!
# Rendering and advancing a machine

Both machines produce audio frames as a side effect of their steps and hand them out alike: a render
takes samples from the queue, an advance drops whole frames.  The two differ in how they treat the
frames a step produces beyond what was asked for, and meet again at the end of each call.
-/

namespace Upse

open ErrorState Pulled

variable {ε κ α β : Type}

section Calls

variable (step : EStateM ε (Pulled κ α) Unit) (overflow : ε) (outputSize : ℕ → ℕ → ε)

/-- Fills an output of `length` samples with `frames` frames; `none` when `fuel` steps do not suffice
for a sample. -/
def renderOutput (fuel frames length : ℕ) : EStateM ε (Pulled κ α) (Option (List α)) := do
  let expected ← okOr (checkedMul 64 frames 2) (outputSize u64Max length)
  throwIf (length ≠ expected) (outputSize expected length)
  pull step overflow fuel length

/-- Advances over `frames` frames without retaining them. -/
def advanceFrames (fuel frames : ℕ) : EStateM ε (Pulled κ α) Bool := do
  let queued := min ((← get).pending.length / 2) frames
  let queuedSamples ← okOr (checkedMul 64 queued 2) overflow
  modify fun s => { s with pending := s.pending.drop queuedSamples }
  let remaining := frames - queued
  if remaining = 0 then return true
  else
    modify fun s => { s with discard := remaining }
    whileLoop (fun s => s.discard != 0) (stepOrForgive step) fuel

/-- A render of `frames` frames into an output of the right size returns `out` and leaves `t`. -/
def Renders (frames : ℕ) (s : Pulled κ α) (out : List α) (t : Pulled κ α) : Prop :=
  ∃ fuel, (renderOutput step overflow outputSize fuel frames (2 * frames)).run s = .ok (some out) t

/-- An advance over `frames` frames returns and leaves `t`. -/
def Advances (frames : ℕ) (s t : Pulled κ α) : Prop :=
  ∃ fuel, (advanceFrames step overflow fuel frames).run s = .ok true t

end Calls

variable {step : EStateM ε (Pulled κ α) Unit} {overflow : ε} {outputSize : ℕ → ℕ → ε}
  {s t u : Pulled κ α} {frames : ℕ}

theorem renders_iff {out : List α} : Renders step overflow outputSize frames s out t ↔
    frames * 2 < 2 ^ 64 ∧ out.length = frames * 2 ∧ Pulls step s out t := by
  rw [← exists_pull_iff overflow, Nat.mul_comm frames 2]
  unfold Renders renderOutput
  simp only [run_bind_ok, run_okOr_ok, run_throwIf_ok]
  constructor
  · rintro ⟨fuel, expected, _, ⟨checked, rfl⟩, _, _, ⟨-, rfl⟩, pulled⟩
    exact ⟨Nat.mul_comm frames 2 ▸ (checkedMul_eq_some.mp checked).1, fuel, pulled⟩
  · rintro ⟨fits, fuel, pulled⟩
    refine ⟨fuel, 2 * frames, s, ⟨checkedMul_eq_some.mpr ⟨?_, ?_⟩, rfl⟩, (), s, ⟨by simp, rfl⟩,
      pulled⟩
    · rwa [Nat.mul_comm]
    · rw [Nat.mul_comm]

theorem advances_iff : Advances step overflow frames s t ↔
    min (s.pending.length / 2) frames * 2 < 2 ^ 64 ∧ Skipped step frames s t := by
  unfold Advances advanceFrames Skipped
  simp only [run_bind_ok, run_get_ok, run_okOr_ok, run_modify_ok, checkedMul_eq_some]
  constructor
  · rintro ⟨fuel, _, _, ⟨rfl, rfl⟩, _, _, ⟨⟨fits, rfl⟩, rfl⟩, _, _, rfl, rest⟩
    refine ⟨fits, ?_⟩
    split at rest
    next all =>
      rw [run_pure_ok] at rest
      rw [if_pos all, ← rest.2]
    next some =>
      rw [if_neg some]
      simp only [run_bind_ok, run_modify_ok] at rest
      obtain ⟨_, _, rfl, loop⟩ := rest
      exact exists_whileLoop_iff.mp ⟨fuel, loop⟩
  · rintro ⟨fits, skipped⟩
    split at skipped
    next all =>
      subst skipped
      refine ⟨0, s, s, ⟨rfl, rfl⟩, _, s, ⟨⟨fits, rfl⟩, rfl⟩, ⟨⟩, _, rfl, ?_⟩
      rw [if_pos all]
      rfl
    next some =>
      obtain ⟨fuel, loop⟩ := exists_whileLoop_iff.mpr skipped
      refine ⟨fuel, s, s, ⟨rfl, rfl⟩, _, s, ⟨⟨fits, rfl⟩, rfl⟩, ⟨⟩, _, rfl, ?_⟩
      rw [if_neg some]
      simp only [run_bind_ok, run_modify_ok]
      exact ⟨⟨⟩, _, rfl, loop⟩

theorem advances_iff_renders (outputSize : ℕ → ℕ → ε) (hstep : Oblivious step)
    (settled : s.Settled) (fits : frames * 2 < 2 ^ 64) : Advances step overflow frames s t ↔
      ∃ scratch, Renders step overflow outputSize frames s scratch t := by
  have small : min (s.pending.length / 2) frames * 2 < 2 ^ 64 := by omega
  rw [advances_iff, skipped_iff_pulls hstep settled]
  simp only [renders_iff, fits, small, true_and]

theorem renders_add {a b : ℕ} {out : List α} : Renders step overflow outputSize (a + b) s out t ↔
    (a + b) * 2 < 2 ^ 64 ∧ ∃ x y u, Renders step overflow outputSize a s x u ∧
      Renders step overflow outputSize b u y t ∧ out = x ++ y := by
  simp only [renders_iff]
  constructor
  · rintro ⟨fits, length, pulls⟩
    refine ⟨fits, out.take (a * 2), out.drop (a * 2), ?_⟩
    rw [← List.take_append_drop (a * 2) out] at pulls
    obtain ⟨u, first, second⟩ := pulls.split
    refine ⟨u, ⟨by omega, ?_, first⟩, ⟨by omega, ?_, second⟩, (List.take_append_drop _ _).symm⟩
    · rw [List.length_take]
      omega
    · rw [List.length_drop]
      omega
  · rintro ⟨fits, x, y, u, ⟨-, lengthX, first⟩, ⟨-, lengthY, second⟩, rfl⟩
    refine ⟨fits, ?_, first.append second⟩
    rw [List.length_append]
    omega

/-- How the audio of a machine state may be pulled makes no difference. -/
structure PullIndependent (step : EStateM ε (Pulled κ α) Unit) (overflow : ε)
    (outputSize : ℕ → ℕ → ε) (s : Pulled κ α) : Prop where
  advance_render : ∀ a b out t, a * 2 < 2 ^ 64 →
    ((∃ u, Advances step overflow a s u ∧ Renders step overflow outputSize b u out t) ↔
      ∃ scratch u, Renders step overflow outputSize a s scratch u ∧
        Renders step overflow outputSize b u out t)
  render_render : ∀ a b out t, Renders step overflow outputSize (a + b) s out t ↔
    (a + b) * 2 < 2 ^ 64 ∧ ∃ x y u, Renders step overflow outputSize a s x u ∧
      Renders step overflow outputSize b u y t ∧ out = x ++ y
  whole_frames : Even s.pending.length
  nothing_owed : s.discard = 0

/-- From a settled state of a machine that does not look at its queue, the audio is independent of
how it is pulled. -/
theorem pullIndependent (hstep : Oblivious step) (settled : s.Settled) :
    PullIndependent step overflow outputSize s where
  advance_render a b out t fits := by
    simp only [advances_iff_renders outputSize hstep settled fits]
    constructor
    · rintro ⟨u, ⟨scratch, first⟩, second⟩
      exact ⟨scratch, u, first, second⟩
    · rintro ⟨scratch, u, first, second⟩
      exact ⟨u, ⟨scratch, first⟩, second⟩
  render_render _ _ _ _ := renders_add
  whole_frames := settled.whole
  nothing_owed := settled.nothing_owed

/-! ### Between calls -/

/-- A render that returns or fails leaves whole frames queued and none owed; one that runs out of
fuel has done neither. -/
theorem settled_renderOutput (hstep : Oblivious step) (settled : s.Settled) {fuel frames length : ℕ}
    {r : EStateM.Result ε (Pulled κ α) (Option (List α))}
    (run : (renderOutput step overflow outputSize fuel frames length).run s = r)
    (ended : ∀ t, r ≠ .ok none t) : (leaves r).Settled := by
  unfold renderOutput at run
  cases checked : checkedMul 64 frames 2 with
  | none =>
    rw [checked] at run
    exact run ▸ settled
  | some expected =>
    obtain ⟨-, rfl⟩ := checkedMul_eq_some.mp checked
    simp only [checked, run_bind, run_okOr_some, run_throwIf] at run
    by_cases size : length ≠ frames * 2
    · rw [if_pos size] at run
      exact run ▸ settled
    · rw [if_neg size] at run
      have even : Even length := by rw [not_not.mp size]; exact ⟨frames, by omega⟩
      have kept := hstep.settled_pull overflow fuel settled.nothing_owed
        (show Even s.pending.length ↔ Even length by simp [settled.whole, even])
      rw [show (pull step overflow fuel length).run s = r from run] at kept
      exact kept.resolve_left (ended _)

theorem settled_advanceFrames (hstep : Oblivious step) (settled : s.Settled) {fuel frames : ℕ}
    {r : EStateM.Result ε (Pulled κ α) Bool}
    (run : (advanceFrames step overflow fuel frames).run s = r) (ended : ∀ t, r ≠ .ok false t) :
    (leaves r).Settled := by
  obtain ⟨n, size⟩ := settled.whole
  unfold advanceFrames at run
  simp only [run_bind, run_get] at run
  cases checked : checkedMul 64 (min (s.pending.length / 2) frames) 2 with
  | none =>
    rw [checked] at run
    exact run ▸ settled
  | some samples =>
    obtain ⟨-, rfl⟩ := checkedMul_eq_some.mp checked
    simp only [checked, run_okOr_some, run_modify] at run
    split at run
    next all =>
      rw [← run]
      refine ⟨?_, settled.nothing_owed⟩
      show Even (s.pending.drop (min (s.pending.length / 2) frames * 2)).length
      rw [List.length_drop, size]
      exact ⟨n - min ((n + n) / 2) frames, by omega⟩
    next some =>
      simp only [run_bind, run_modify] at run
      have drained : s.pending.drop (min (s.pending.length / 2) frames * 2) = [] :=
        List.drop_eq_nil_of_le (by omega)
      have owing : Owing { s with
          pending := s.pending.drop (min (s.pending.length / 2) frames * 2)
          discard := frames - min (s.pending.length / 2) frames } :=
        ⟨by simp [drained], fun _ => drained⟩
      have kept := hstep.settled_skip fuel owing
      rw [run] at kept
      exact kept.resolve_left (ended _)

/-- Queueing a chunk of whole frames after the ones an advance still owes does not look at the queue
otherwise. -/
theorem oblivious_queue {samples : List α} {frames chunk : ℕ} (size : samples.length = chunk * 2)
    (le : chunk ≤ frames) :
    Oblivious (modify fun s =>
      let discarded := min (min frames s.discard) chunk
      { s with
        discard := s.discard - discarded
        pending := s.pending ++ samples.drop (discarded * 2) } : EStateM ε (Pulled κ α) PUnit) := by
  have queued : (fun s : Pulled κ α =>
      let discarded := min (min frames s.discard) chunk
      { s with
        discard := s.discard - discarded
        pending := s.pending ++ samples.drop (discarded * 2) }) = Pulled.deliver samples := by
    funext s
    have discarded : min (min frames s.discard) chunk = min (samples.length / 2) s.discard := by
      omega
    unfold Pulled.deliver
    simp only [discarded]
  rw [queued]
  exact oblivious_deliver _ ⟨chunk, by omega⟩

/-! ### What the steps keep -/

theorem renderOutput_keeps {I : κ → Prop} {fuel length : ℕ} {out : List α}
    (round : ∀ a b, step.run a = .ok () b → I a.core → I b.core)
    (run : (renderOutput step overflow outputSize fuel frames length).run s = .ok (some out) t)
    (start : I s.core) : I t.core := by
  unfold renderOutput at run
  simp only [run_bind_ok, run_okOr_ok, run_throwIf_ok] at run
  obtain ⟨expected, _, ⟨-, rfl⟩, _, _, ⟨-, rfl⟩, pulled⟩ := run
  exact ((exists_pull_iff _).mp ⟨fuel, pulled⟩).2.invariant round start

theorem advanceFrames_keeps {I : κ → Prop} {fuel : ℕ}
    (round : ∀ a b, step.run a = .ok () b → I a.core → I b.core)
    (run : (advanceFrames step overflow fuel frames).run s = .ok true t) (start : I s.core) :
    I t.core := by
  have skipped := (advances_iff.mp ⟨fuel, run⟩).2
  unfold Skipped at skipped
  simp only at skipped
  split at skipped
  · rw [skipped]
    exact start
  · exact skipped.invariant (I := fun s => I s.core)
      (fun a b step => round a b (run_stepOrForgive_ok.mp step)) start

end Upse
