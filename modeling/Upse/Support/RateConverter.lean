import Mathlib.Data.Nat.ModEq
import Upse.Lib.ErrorState
import Upse.Lib.Runs
import Upse.Support.Integers

/-!
# Conversion between clock domains

A converter turns elapsed ticks of one integer-rate domain into ticks of another and keeps the
division remainder, so that partitioning an interval never changes the total.
-/

namespace Upse

open ErrorState

/-- Converts elapsed ticks from one integer-rate domain to another. -/
structure RateConverter where
  sourceHz : ℕ
  targetHz : ℕ
  remainder : ℕ
  source_pos : 0 < sourceHz
  target_pos : 0 < targetHz
  remainder_lt : remainder < sourceHz
  deriving DecidableEq

namespace RateConverter

/-- A conversion between two rates. -/
def new (sourceHz targetHz : ℕ) : Except ClockError RateConverter :=
  if h : 0 < sourceHz ∧ 0 < targetHz then .ok ⟨sourceHz, targetHz, 0, h.1, h.2, h.1⟩
  else .error .zeroRate

/-- Keeps the fractional part of a numerator. -/
def retain (c : RateConverter) (total : ℕ) : RateConverter :=
  { c with remainder := total % c.sourceHz, remainder_lt := Nat.mod_lt _ c.source_pos }

/-- Converts an elapsed source interval and preserves its fractional result.  The remainder is
replaced before the whole part is known to fit. -/
def advance (sourceTicks : Ticks) : EStateM ClockError RateConverter Ticks := do
  let c ← get
  let product ← okOr (checkedMul 128 sourceTicks c.targetHz) .overflow
  let total ← okOr (checkedAdd 128 product c.remainder) .overflow
  let whole := total / c.sourceHz
  throwIf (2 ^ 64 ≤ total % c.sourceHz) .overflow
  set (c.retain total)
  throwIf (2 ^ 64 ≤ whole) .overflow
  return whole

/-- Converts one complete interval without a converter. -/
def convertFloor (sourceTicks : Ticks) (sourceHz targetHz : ℕ) : Except ClockError Ticks :=
  if sourceHz = 0 ∨ targetHz = 0 then .error .zeroRate
  else
    match checkedMul 128 sourceTicks targetHz with
    | none => .error .overflow
    | some product =>
      if product / sourceHz < 2 ^ 64 then .ok (product / sourceHz) else .error .overflow

variable {c c' : RateConverter}

theorem advance_spec {sourceTicks whole : ℕ}
    (h : (advance sourceTicks).run c = .ok whole c') :
    c' = c.retain (sourceTicks * c.targetHz + c.remainder) ∧
      whole = (sourceTicks * c.targetHz + c.remainder) / c.sourceHz := by
  simp only [advance, run_bind_ok, run_get_ok, run_okOr_ok, run_throwIf_ok, run_set_ok,
    run_pure_ok] at h
  obtain ⟨_, _, ⟨rfl, rfl⟩, product, _, ⟨multiplied, rfl⟩, total, _, ⟨added, rfl⟩, _, _, ⟨-, rfl⟩, _,
    _, rfl, _, _, ⟨-, rfl⟩, rfl, rfl⟩ := h
  obtain ⟨-, rfl⟩ := checkedMul_eq_some.mp multiplied
  obtain ⟨-, rfl⟩ := checkedAdd_eq_some.mp added
  exact ⟨rfl, rfl⟩

/-! ### Exactness over any partition -/

/-- The converter has turned `elapsed` source ticks into `produced` target ticks exactly: `produced`
is the floor of the exact quotient, and the remainder is what is left of it. -/
structure Tracks (c : RateConverter) (elapsed produced : ℕ) : Prop where
  produced_eq : produced = elapsed * c.targetHz / c.sourceHz
  remainder_eq : c.remainder = elapsed * c.targetHz % c.sourceHz

variable {c : RateConverter}

theorem tracks_new {sourceHz targetHz : ℕ} (h : new sourceHz targetHz = .ok c) :
    c.Tracks 0 0 := by
  unfold new at h
  split at h <;> cases h
  exact ⟨by simp, by simp⟩

/-- A successful conversion stays exact, however the interval before it was partitioned. -/
theorem Tracks.advance {elapsed produced sourceTicks whole : ℕ}
    (h : c.Tracks elapsed produced) (run : (advance sourceTicks).run c = .ok whole c') :
    c'.Tracks (elapsed + sourceTicks) (produced + whole) := by
  obtain ⟨rfl, rfl⟩ := advance_spec run
  have split_total : (elapsed + sourceTicks) * c.targetHz =
      sourceTicks * c.targetHz + c.remainder + c.sourceHz * produced := by
    have exact_split := Nat.div_add_mod (elapsed * c.targetHz) c.sourceHz
    rw [← h.produced_eq, ← h.remainder_eq] at exact_split
    rw [Nat.add_mul, ← exact_split]
    omega
  constructor
  · show produced + _ = (elapsed + sourceTicks) * c.targetHz / c.sourceHz
    rw [split_total, Nat.add_mul_div_left _ _ c.source_pos, Nat.add_comm]
  · show (sourceTicks * c.targetHz + c.remainder) % c.sourceHz =
      (elapsed + sourceTicks) * c.targetHz % c.sourceHz
    rw [split_total, Nat.add_mul_mod_self_left]

theorem advance_rates {sourceTicks whole : ℕ}
    (h : (advance sourceTicks).run c = .ok whole c') :
    c'.sourceHz = c.sourceHz ∧ c'.targetHz = c.targetHz := by
  obtain ⟨rfl, -⟩ := advance_spec h
  exact ⟨rfl, rfl⟩

/-! ### Any sequence of conversions -/

/-- Consecutive conversions, and what each returns. -/
def advances : List Ticks → EStateM ClockError RateConverter (List Ticks)
  | [] => return []
  | ticks :: rest => do
    let whole ← advance ticks
    let wholes ← advances rest
    return whole :: wholes

theorem Tracks.advances {ticks wholes : List ℕ} {elapsed produced : ℕ}
    (h : c.Tracks elapsed produced) (run : (advances ticks).run c = .ok wholes c') :
    c'.Tracks (elapsed + ticks.sum) (produced + wholes.sum) ∧
      c'.sourceHz = c.sourceHz ∧ c'.targetHz = c.targetHz := by
  induction ticks generalizing c wholes elapsed produced with
  | nil =>
    obtain ⟨rfl, rfl⟩ := run_pure_ok.mp run
    exact ⟨h, rfl, rfl⟩
  | cons n rest ih =>
    obtain ⟨whole, d, first, run⟩ := run_bind_ok.mp run
    obtain ⟨others, e, second, run⟩ := run_bind_ok.mp run
    obtain ⟨rfl, rfl⟩ := run_pure_ok.mp run
    obtain ⟨source, target⟩ := advance_rates first
    obtain ⟨tracks, source', target'⟩ := ih (h.advance first) second
    rw [List.sum_cons, List.sum_cons, ← Nat.add_assoc, ← Nat.add_assoc]
    exact ⟨tracks, source'.trans source, target'.trans target⟩

theorem numerator_fits {n : ℕ} (source : c.sourceHz < 2 ^ 64)
    (target : c.targetHz < 2 ^ 64) (ticks : n < 2 ^ 64) :
    (checkedMul 128 n c.targetHz).bind (checkedAdd 128 · c.remainder) =
      some (n * c.targetHz + c.remainder) := by
  have product : n * c.targetHz ≤ (2 ^ 64 - 1) * (2 ^ 64 - 1) := Nat.mul_le_mul (by omega) (by omega)
  have remainder := c.remainder_lt
  rw [checkedMul_eq_some.mpr ⟨by omega, rfl⟩]
  exact checkedAdd_eq_some.mpr ⟨by omega, rfl⟩

/-- However an interval is split into conversions of a fresh converter, the total is the floor of the
exact quotient and the remainder is what is left; the numerator of a further one fits. -/
theorem advances_exact {sourceHz targetHz : ℕ} {fresh c : RateConverter} {ticks wholes : List ℕ}
    (source : sourceHz < 2 ^ 64) (target : targetHz < 2 ^ 64)
    (created : new sourceHz targetHz = .ok fresh) (run : (advances ticks).run fresh = .ok wholes c) :
    wholes.sum = ticks.sum * targetHz / sourceHz ∧
      c.remainder = ticks.sum * targetHz % sourceHz ∧ c.remainder < sourceHz ∧
      (∀ n < 2 ^ 64, (checkedMul 128 n c.targetHz).bind (checkedAdd 128 · c.remainder) =
        some (n * targetHz + c.remainder)) ∧
      ∀ ticks' wholes' c', ticks'.sum = ticks.sum →
        (advances ticks').run fresh = .ok wholes' c' → wholes'.sum = wholes.sum ∧ c' = c := by
  have rates : fresh.sourceHz = sourceHz ∧ fresh.targetHz = targetHz := by
    unfold new at created
    split at created <;> cases created
    exact ⟨rfl, rfl⟩
  -- What every split of an interval comes to.
  have total : ∀ ticks wholes c, (advances ticks).run fresh = .ok wholes c →
      wholes.sum = ticks.sum * targetHz / sourceHz ∧ c.remainder = ticks.sum * targetHz % sourceHz ∧
        c.sourceHz = sourceHz ∧ c.targetHz = targetHz := by
    intro ticks wholes c run
    obtain ⟨tracks, source', target'⟩ := (tracks_new created).advances run
    rw [rates.1] at source'
    rw [rates.2] at target'
    have produced := tracks.produced_eq
    have remainder := tracks.remainder_eq
    rw [source', target', Nat.zero_add] at produced remainder
    rw [Nat.zero_add] at produced
    exact ⟨produced, remainder, source', target'⟩
  obtain ⟨produced, remainder, source', target'⟩ := total ticks wholes c run
  refine ⟨produced, remainder, source' ▸ c.remainder_lt, ?_, ?_⟩
  · intro n fits
    rw [numerator_fits (by omega) (by omega) fits, target']
  · intro ticks' wholes' c' same run'
    obtain ⟨produced', remainder', source'', target''⟩ := total ticks' wholes' c' run'
    refine ⟨by rw [produced', produced, same], ?_⟩
    have remainders : c'.remainder = c.remainder := by rw [remainder', remainder, same]
    cases c
    cases c'
    simp only [mk.injEq] at *
    exact ⟨source''.trans source'.symm, target''.trans target'.symm, remainders⟩

/-- Samples of 44.1 kHz out of uneven pieces of a second of CPU time. -/
theorem advances_exact_sample : ∃ fresh c, new 33868800 44100 = .ok fresh ∧
    (advances [1, 33868798, 1]).run fresh = .ok [0, 44099, 1] c ∧
    [0, 44099, 1].sum = [1, 33868798, 1].sum * 44100 / 33868800 ∧ c.remainder = 0 := by
  obtain ⟨fresh, created⟩ : ∃ fresh, new 33868800 44100 = .ok fresh := ⟨_, rfl⟩
  have returns : ∀ fresh, new 33868800 44100 = .ok fresh →
      returned ((advances [1, 33868798, 1]).run fresh) = some [0, 44099, 1] := by
    intro fresh h
    cases h
    decide +kernel
  have run := eq_ok_of_returned (returns fresh created)
  obtain ⟨produced, remainder, -⟩ := advances_exact (by decide) (by decide) created run
  exact ⟨fresh, _, created, run, produced, remainder⟩

/-! ### Conversions that fail -/

/-- A conversion between 64-bit rates: whether the whole part fits decides the outcome, and the
fraction is replaced in either case. -/
theorem advance_eq {n : ℕ} (source : c.sourceHz < 2 ^ 64)
    (target : c.targetHz < 2 ^ 64) (ticks : n < 2 ^ 64) :
    (advance n).run c =
      if (n * c.targetHz + c.remainder) / c.sourceHz < 2 ^ 64 then
        .ok ((n * c.targetHz + c.remainder) / c.sourceHz) (c.retain (n * c.targetHz + c.remainder))
      else .error .overflow (c.retain (n * c.targetHz + c.remainder)) := by
  have fits := numerator_fits source target ticks
  cases multiplied : checkedMul 128 n c.targetHz with
  | none => simp [multiplied] at fits
  | some product =>
    obtain ⟨-, rfl⟩ := checkedMul_eq_some.mp multiplied
    rw [multiplied, Option.bind_some] at fits
    have small : ¬ 2 ^ 64 ≤ (n * c.targetHz + c.remainder) % c.sourceHz := by
      have := Nat.mod_lt (n * c.targetHz + c.remainder) c.source_pos
      omega
    simp only [advance, run_bind, run_get, multiplied, run_okOr_some, fits,
      run_throwIf, if_neg small, run_set, run_pure]
    by_cases whole : (n * c.targetHz + c.remainder) / c.sourceHz < 2 ^ 64
    · rw [if_neg (Nat.not_le.mpr whole), if_pos whole]
    · rw [if_pos (Nat.not_lt.mp whole), if_neg whole]

/-- A conversion that fits, or one that would leave the fraction as it is. -/
def Harmless (c : RateConverter) (n : Ticks) : Prop :=
  (n * c.targetHz + c.remainder) / c.sourceHz < 2 ^ 64 ∨ c.sourceHz ∣ n * c.targetHz

theorem retain_eq_self_iff {product : ℕ} :
    c.retain (product + c.remainder) = c ↔ c.sourceHz ∣ product := by
  have small : c.remainder % c.sourceHz = c.remainder := Nat.mod_eq_of_lt c.remainder_lt
  constructor
  · intro same
    have kept : (product + c.remainder) % c.sourceHz = c.remainder := congrArg remainder same
    have equal : product + c.remainder ≡ 0 + c.remainder [MOD c.sourceHz] := by
      show _ % _ = _ % _
      rw [kept, Nat.zero_add, small]
    exact Nat.modEq_zero_iff_dvd.mp (Nat.ModEq.add_right_cancel' c.remainder equal)
  · rintro ⟨k, rfl⟩
    have kept : (c.sourceHz * k + c.remainder) % c.sourceHz = c.remainder := by
      rw [Nat.mul_add_mod, small]
    cases c
    simp only [retain, mk.injEq, true_and]
    exact kept

theorem rates_leaves (c : RateConverter) (n : Ticks) :
    (leaves ((advance n).run c)).sourceHz = c.sourceHz ∧
      (leaves ((advance n).run c)).targetHz = c.targetHz := by
  simp only [advance, run_bind, run_get]
  cases checkedMul 128 n c.targetHz with
  | none => exact ⟨rfl, rfl⟩
  | some product =>
    simp only [run_okOr_some]
    cases checkedAdd 128 product c.remainder with
    | none => exact ⟨rfl, rfl⟩
    | some total =>
      simp only [run_okOr_some, run_throwIf]
      by_cases wide : 2 ^ 64 ≤ total % c.sourceHz
      · rw [if_pos wide]
        exact ⟨rfl, rfl⟩
      · rw [if_neg wide]
        by_cases large : 2 ^ 64 ≤ total / c.sourceHz
        · simp only [run_set, if_pos large]
          exact ⟨rfl, rfl⟩
        · simp only [run_set, if_neg large]
          exact ⟨rfl, rfl⟩

/-- What one call leaves and returns, a failed one included. -/
def Attempt (c : RateConverter) (call : Ticks × Option Ticks) (c' : RateConverter) : Prop :=
  c' = leaves ((advance call.1).run c) ∧ call.2 = returned ((advance call.1).run c)

/-- The ticks of the calls that returned. -/
def converted (calls : List (Ticks × Option Ticks)) : ℕ :=
  (calls.map fun call => if call.2.isSome then call.1 else 0).sum

/-- What these calls returned. -/
def produced (calls : List (Ticks × Option Ticks)) : ℕ := (calls.map fun call => call.2.getD 0).sum

theorem converted_snoc (calls : List (Ticks × Option Ticks)) (call : Ticks × Option Ticks) :
    converted (calls ++ [call]) = converted calls + if call.2.isSome then call.1 else 0 := by
  unfold converted
  rw [List.map_append, List.sum_append, List.map_singleton, List.sum_singleton]

theorem produced_snoc (calls : List (Ticks × Option Ticks)) (call : Ticks × Option Ticks) :
    produced (calls ++ [call]) = produced calls + call.2.getD 0 := by
  unfold produced
  rw [List.map_append, List.sum_append, List.map_singleton, List.sum_singleton]

/-- A harmless call keeps the count exact, whether it returns or fails. -/
theorem Tracks.attempt {elapsed output : ℕ} {call : Ticks × Option Ticks}
    (h : c.Tracks elapsed output) (source : c.sourceHz < 2 ^ 64) (target : c.targetHz < 2 ^ 64)
    (ticks : call.1 < 2 ^ 64) (harmless : c.Harmless call.1) (attempt : c.Attempt call c') :
    c'.Tracks (elapsed + if call.2.isSome then call.1 else 0) (output + call.2.getD 0) ∧
      c'.sourceHz = c.sourceHz ∧ c'.targetHz = c.targetHz := by
  obtain ⟨n, outcome⟩ := call
  obtain ⟨left, out⟩ := attempt
  simp only at left out ticks harmless
  have run := advance_eq source target ticks
  by_cases whole : (n * c.targetHz + c.remainder) / c.sourceHz < 2 ^ 64
  · rw [if_pos whole] at run
    rw [run] at left out
    have kept : c' = c.retain (n * c.targetHz + c.remainder) := left
    subst out kept
    exact ⟨h.advance run, rfl, rfl⟩
  · rw [if_neg whole] at run
    rw [run] at left out
    have same : c' = c := left.trans (retain_eq_self_iff.mpr (harmless.resolve_left whole))
    subst out same
    exact ⟨h, rfl, rfl⟩

/-- A converter of two seconds' ticks into 2⁶⁴ - 1: an interval that does not fit is refused, but its
fraction stays, and the next tick is converted to one more than its share. -/
theorem failed_advance_disturbs : ∃ fresh failed c, new 2 (2 ^ 64 - 1) = .ok fresh ∧
    (advance (2 ^ 64 - 1)).run fresh = .error .overflow failed ∧ failed ≠ fresh ∧
    (advance 1).run failed = .ok (2 ^ 63) c ∧ 2 ^ 63 ≠ 1 * (2 ^ 64 - 1) / 2 := by
  obtain ⟨fresh, created⟩ : ∃ fresh, new 2 (2 ^ 64 - 1) = .ok fresh := ⟨_, rfl⟩
  cases created
  refine ⟨_, _, _, rfl, rfl, ?_, rfl, by decide⟩
  intro same
  exact absurd (congrArg remainder same) (by decide)

/-- A failed conversion leaves the converter as it was exactly where the source rate divides the
product that did not fit; and in every run of calls that all fit or are of this kind, the calls that
returned have converted their ticks exactly. -/
theorem failures_harmless_iff {sourceHz targetHz : ℕ} {fresh : RateConverter}
    (source : sourceHz < 2 ^ 64) (target : targetHz < 2 ^ 64)
    (created : new sourceHz targetHz = .ok fresh) :
    (∀ calls c, Run Attempt fresh calls c → ∀ n < 2 ^ 64,
      ((∀ c', (advance n).run c = .error .overflow c' → c' = c) ↔ c.Harmless n)) ∧
    ∀ calls c,
      Run (fun c call c' => call.1 < 2 ^ 64 ∧ c.Harmless call.1 ∧ Attempt c call c') fresh calls c →
      produced calls = converted calls * targetHz / sourceHz := by
  have rates : fresh.sourceHz = sourceHz ∧ fresh.targetHz = targetHz := by
    unfold new at created
    split at created <;> cases created
    exact ⟨rfl, rfl⟩
  constructor
  · intro calls c run n ticks
    have kept := run.invariant (I := fun c => c.sourceHz = sourceHz ∧ c.targetHz = targetHz) rates
      fun a call b same attempt => by
        obtain ⟨left, -⟩ := attempt
        obtain ⟨source', target'⟩ := rates_leaves a call.1
        rw [left]
        exact ⟨source'.trans same.1, target'.trans same.2⟩
    have outcome := advance_eq (c := c) (by omega) (by omega) ticks
    by_cases whole : (n * c.targetHz + c.remainder) / c.sourceHz < 2 ^ 64
    · rw [if_pos whole] at outcome
      refine ⟨fun _ => .inl whole, fun _ c' failed => ?_⟩
      rw [outcome] at failed
      cases failed
    · rw [if_neg whole] at outcome
      constructor
      · intro atomic
        exact .inr (retain_eq_self_iff.mp (atomic _ outcome))
      · intro harmless c' failed
        rw [outcome] at failed
        cases failed
        exact retain_eq_self_iff.mpr (harmless.resolve_left whole)
  · intro calls c run
    have exact_ := run.history
      (H := fun calls c => c.Tracks (converted calls) (produced calls) ∧
        c.sourceHz = sourceHz ∧ c.targetHz = targetHz)
      ⟨tracks_new created, rates⟩ fun calls a call b same next => by
        obtain ⟨ticks, harmless, attempt⟩ := next
        obtain ⟨tracks, source', target'⟩ := same
        obtain ⟨tracks', source'', target''⟩ :=
          tracks.attempt (by omega) (by omega) ticks harmless attempt
        rw [converted_snoc, produced_snoc]
        exact ⟨tracks', source''.trans source', target''.trans target'⟩
    obtain ⟨tracks, source', target'⟩ := exact_
    have total := tracks.produced_eq
    rwa [source', target'] at total

/-- A refused interval that the source rate divides, between two ticks. -/
theorem failures_harmless_iff_sample : ∃ fresh, new 2 (2 ^ 64 - 2) = .ok fresh ∧
    ∃ c, (advance (2 ^ 64 - 1)).run fresh = .error .overflow c ∧ c = fresh := by
  obtain ⟨fresh, created⟩ : ∃ fresh, new 2 (2 ^ 64 - 2) = .ok fresh := ⟨_, rfl⟩
  have harmless : fresh.Harmless (2 ^ 64 - 1) := by
    cases created
    exact .inr ⟨(2 ^ 64 - 1) * (2 ^ 63 - 1), by decide⟩
  obtain ⟨atomic, -⟩ := failures_harmless_iff (by decide) (by decide) created
  have unchanged := (atomic [] fresh (.refl fresh) (2 ^ 64 - 1) (by decide)).mpr harmless
  obtain ⟨c, failed⟩ : ∃ c, (advance (2 ^ 64 - 1)).run fresh = .error .overflow c := by
    cases created
    exact ⟨_, rfl⟩
  exact ⟨fresh, created, c, failed, unchanged c failed⟩

/-! ### One conversion at once -/

theorem convertFloor_eq {sourceHz targetHz n : ℕ} {fresh : RateConverter} (target : targetHz < 2 ^ 64)
    (ticks : n < 2 ^ 64) (created : new sourceHz targetHz = .ok fresh) :
    fresh.sourceHz = sourceHz ∧ fresh.targetHz = targetHz ∧ convertFloor n sourceHz targetHz =
      if n * targetHz / sourceHz < 2 ^ 64 then .ok (n * targetHz / sourceHz) else .error .overflow := by
  unfold new at created
  split at created <;> cases created
  next positive =>
    have product : n * targetHz ≤ (2 ^ 64 - 1) * (2 ^ 64 - 1) := Nat.mul_le_mul (by omega) (by omega)
    refine ⟨rfl, rfl, ?_⟩
    rw [convertFloor, if_neg (by omega), checkedMul_eq_some.mpr ⟨by omega, rfl⟩]

theorem Tracks.advances_returns {ticks : List ℕ} {elapsed output : ℕ}
    (h : c.Tracks elapsed output) (source : c.sourceHz < 2 ^ 64) (target : c.targetHz < 2 ^ 64)
    (interval : ticks.sum < 2 ^ 64) (fits : (elapsed + ticks.sum) * c.targetHz / c.sourceHz < 2 ^ 64) :
    ∃ wholes c', (RateConverter.advances ticks).run c = .ok wholes c' := by
  induction ticks generalizing c elapsed output with
  | nil => exact ⟨[], c, rfl⟩
  | cons n rest ih =>
    rw [List.sum_cons] at interval fits
    have part : (n * c.targetHz + c.remainder) / c.sourceHz < 2 ^ 64 := by
      refine lt_of_le_of_lt (Nat.div_le_div_right ?_) fits
      have piece : c.remainder ≤ elapsed * c.targetHz := h.remainder_eq ▸ Nat.mod_le _ _
      rw [Nat.add_mul, Nat.add_mul]
      omega
    have first := (advance_eq source target (show n < 2 ^ 64 by omega)).trans (if_pos part)
    obtain ⟨wholes, c', second⟩ := ih (h.advance first) source target (by omega) (by rwa [Nat.add_assoc])
    exact ⟨_, c', run_bind_ok.mpr ⟨_, _, first, run_bind_ok.mpr ⟨_, _, second, rfl⟩⟩⟩

/-- One conversion of an interval agrees with every split of it: it is the sum of what a split returns,
where that fits, and where it returns every split does. -/
theorem convertFloor_splits {sourceHz targetHz : ℕ} {fresh : RateConverter} {ticks : List ℕ}
    (source : sourceHz < 2 ^ 64) (target : targetHz < 2 ^ 64) (interval : ticks.sum < 2 ^ 64)
    (created : new sourceHz targetHz = .ok fresh) :
    (∀ wholes c, (advances ticks).run fresh = .ok wholes c → convertFloor ticks.sum sourceHz targetHz =
      if wholes.sum < 2 ^ 64 then .ok wholes.sum else .error .overflow) ∧
    ∀ whole, convertFloor ticks.sum sourceHz targetHz = .ok whole →
      ∃ wholes c, (advances ticks).run fresh = .ok wholes c ∧ wholes.sum = whole := by
  obtain ⟨rfl, rfl, once⟩ := convertFloor_eq target interval created
  have sum {wholes c} (run : (advances ticks).run fresh = .ok wholes c) :
      wholes.sum = ticks.sum * fresh.targetHz / fresh.sourceHz := by
    obtain ⟨tracks, source', target'⟩ := (tracks_new created).advances run
    have total := tracks.produced_eq
    rwa [source', target', Nat.zero_add, Nat.zero_add] at total
  refine ⟨fun wholes c run => by rw [once, sum run], fun whole returns => ?_⟩
  rw [once] at returns
  split at returns <;> cases returns
  next fits =>
    obtain ⟨wholes, c, run⟩ :=
      (tracks_new created).advances_returns source target interval (by rwa [Nat.zero_add])
    exact ⟨wholes, c, run, sum run⟩

/-- A second of CPU time in two pieces is a second of samples. -/
theorem convertFloor_splits_sample : ∃ fresh wholes c, new 33868800 44100 = .ok fresh ∧
    (advances [1, 33868799]).run fresh = .ok wholes c ∧ wholes.sum = 44100 := by
  obtain ⟨fresh, created⟩ : ∃ fresh, new 33868800 44100 = .ok fresh := ⟨_, rfl⟩
  have interval : [1, 33868799].sum < 2 ^ 64 := by decide
  obtain ⟨-, splits⟩ := convertFloor_splits (by decide) (by decide) interval created
  obtain ⟨wholes, c, run, total⟩ := splits 44100 (by decide)
  exact ⟨fresh, wholes, c, created, run, total⟩

end RateConverter

end Upse
