import Upse.Hw.Ps2.Timers

/-!
# The PS2 refresh clock

Vertical blanks as a phase in units that divide a CPU cycle and a frame both: the phase of a frame
grows by the rate's numerator every cycle, and the blank is its last tenth.
-/

namespace Upse.Iop

open ErrorState

/-- Nominal IOP clock. -/
def cpuHz : ℕ := 36864000

/-- Video refresh standard. -/
inductive VideoStandard where
  | ntsc
  | pal
  deriving DecidableEq, Repr

/-- The refresh rate, as numerator and denominator. -/
def VideoStandard.rate : VideoStandard → ℕ × ℕ
  | .ntsc => (60000, 1001)
  | .pal => (50, 1)

/-- How an advance stops early: with an error, or at an arithmetic overflow. -/
inductive RefreshFault where
  | refreshOverflow
  | panic
  deriving DecidableEq, Repr

/-- Deterministic start/end `VBlank` event source, with what it tells the observer and the interrupt
sink. -/
structure RefreshClock where
  standard : VideoStandard
  phaseUnits : ℕ
  inVblank : Bool
  events : List TimingEvent
  requests : List InterruptSource
  deriving DecidableEq, Repr

namespace RefreshClock

/-- A refresh clock at the selected video standard. -/
def new (standard : VideoStandard) : RefreshClock := ⟨standard, 0, false, [], []⟩

/-- Crosses the boundary ahead: the end of a blank where the clock is in one, else its start. -/
def cross (blankStart : ℕ) (clock : RefreshClock) : RefreshClock :=
  if clock.inVblank then
    { clock with
      phaseUnits := 0
      inVblank := false
      events := clock.events ++ [.vBlankEnd]
      requests := clock.requests ++ [.vBlankEnd] }
  else
    { clock with
      phaseUnits := blankStart
      inVblank := true
      events := clock.events ++ [.vBlankStart]
      requests := clock.requests ++ [.vBlank] }

/-- The loop of `advance`; every round but the last takes at least one unit, so as many rounds as
there are units are enough. -/
def advanceLoop (frameUnits blankStart : ℕ) : ℕ → ℕ → EStateM RefreshFault RefreshClock Unit
  | 0, _ => return
  | rounds + 1, remaining => do
    if remaining = 0 then return
    let clock ← get
    let boundary := if clock.inVblank then frameUnits else blankStart
    let distance ← okOr (checkedSub boundary clock.phaseUnits) .panic
    if remaining < distance then
      throwIf (2 ^ 64 ≤ remaining) .refreshOverflow
      let phaseUnits ← okOr (checkedAdd 64 clock.phaseUnits remaining) .panic
      set { clock with phaseUnits := phaseUnits }
    else
      set (clock.cross blankStart)
      advanceLoop frameUnits blankStart rounds (remaining - distance)

/-- Advances refresh time and emits start before end for crossed boundaries. -/
def advance (cycles : ℕ) : EStateM RefreshFault RefreshClock Unit := do
  let (rateNumerator, rateDenominator) := (← get).standard.rate
  let frameUnits ← okOr (checkedMul 64 cpuHz rateDenominator) .refreshOverflow
  let tenth := frameUnits / 10
  let blankStart ← okOr (checkedSub frameUnits tenth) .panic
  let added ← okOr (checkedMul 128 cycles rateNumerator) .panic
  advanceLoop frameUnits blankStart added added

/-- Consecutive advances. -/
def advances (calls : List ℕ) : EStateM RefreshFault RefreshClock Unit := calls.forM advance

end RefreshClock

/-! ### The closed form -/

namespace VideoStandard

/-- The units of a frame. -/
def frame (standard : VideoStandard) : ℕ := cpuHz * standard.rate.2

/-- The units of a blank. -/
def tenth (standard : VideoStandard) : ℕ := standard.frame / 10

/-- The blanks that have started after so many units. -/
def starts (standard : VideoStandard) (units : ℕ) : ℕ := (units + standard.tenth) / standard.frame

/-- The blanks that have ended. -/
def ends (standard : VideoStandard) (units : ℕ) : ℕ := units / standard.frame

end VideoStandard

/-- Starts and ends by turns, a start first. -/
def alternating (n : ℕ) : List TimingEvent :=
  (List.range n).map fun i => if i % 2 = 0 then .vBlankStart else .vBlankEnd

/-- The interrupt of a blank's boundary. -/
def blankInterrupt : TimingEvent → InterruptSource
  | .vBlankStart => .vBlank
  | _ => .vBlankEnd

theorem alternating_succ (n : ℕ) :
    alternating (n + 1) = alternating n ++ [if n % 2 = 0 then .vBlankStart else .vBlankEnd] := by
  unfold alternating
  rw [List.range_succ, List.map_append, List.map_singleton]

theorem count_alternating (n : ℕ) :
    (alternating n).count .vBlankStart = (n + 1) / 2 ∧ (alternating n).count .vBlankEnd = n / 2 := by
  induction n with
  | zero => exact ⟨rfl, rfl⟩
  | succ n ih =>
    rw [alternating_succ, List.count_append, List.count_append, ih.1, ih.2]
    split
    · exact ⟨show (n + 1) / 2 + 1 = _ by omega, show n / 2 + 0 = _ by omega⟩
    · exact ⟨show (n + 1) / 2 + 0 = _ by omega, show n / 2 + 1 = _ by omega⟩

namespace RefreshClock

/-- The clock so many units after its start. -/
def after (standard : VideoStandard) (units : ℕ) : RefreshClock where
  standard := standard
  phaseUnits := units % standard.frame
  inVblank := decide (standard.frame - standard.tenth ≤ units % standard.frame)
  events := alternating (standard.starts units + standard.ends units)
  requests := (alternating (standard.starts units + standard.ends units)).map blankInterrupt

variable {standard : VideoStandard} {units : ℕ}

theorem after_zero (standard : VideoStandard) : after standard 0 = new standard := by
  cases standard <;> rfl

/-- The units to the next boundary. -/
def distance (standard : VideoStandard) (units : ℕ) : ℕ :=
  (if standard.frame - standard.tenth ≤ units % standard.frame then standard.frame
    else standard.frame - standard.tenth) - units % standard.frame

theorem distance_pos (standard : VideoStandard) (units : ℕ) : 0 < distance standard units := by
  unfold distance
  split
  next =>
    cases standard <;> simp only [VideoStandard.frame, VideoStandard.rate, cpuHz] <;> omega
  next visible =>
    cases standard <;>
      simp only [VideoStandard.tenth, VideoStandard.frame, VideoStandard.rate, cpuHz] at visible ⊢ <;>
      omega

theorem after_add {more : ℕ} (short : more < distance standard units) :
    after standard (units + more) =
      { after standard units with phaseUnits := units % standard.frame + more } := by
  have quiet : (units + more) % standard.frame = units % standard.frame + more ∧
      (standard.frame - standard.tenth ≤ units % standard.frame + more ↔
        standard.frame - standard.tenth ≤ units % standard.frame) ∧
      standard.starts (units + more) = standard.starts units ∧
      standard.ends (units + more) = standard.ends units := by
    unfold distance at short
    split at short
    next blank =>
      cases standard <;>
        simp only [VideoStandard.starts, VideoStandard.ends, VideoStandard.tenth, VideoStandard.frame,
          VideoStandard.rate, cpuHz] at blank short ⊢ <;> omega
    next visible =>
      cases standard <;>
        simp only [VideoStandard.starts, VideoStandard.ends, VideoStandard.tenth, VideoStandard.frame,
          VideoStandard.rate, cpuHz] at visible short ⊢ <;> omega
  obtain ⟨phase, blank, starts, ends⟩ := quiet
  unfold after
  rw [phase, starts, ends, decide_eq_decide.mpr blank]

theorem ends_starts (standard : VideoStandard) (units : ℕ) :
    standard.ends units ≤ standard.starts units ∧
      standard.starts units ≤ standard.ends units + 1 := by
  cases standard <;>
    simp only [VideoStandard.starts, VideoStandard.ends, VideoStandard.tenth, VideoStandard.frame,
      VideoStandard.rate, cpuHz] <;> omega

theorem units_at_end (blank : standard.frame - standard.tenth ≤ units % standard.frame) :
    (units + distance standard units) % standard.frame = 0 ∧
      standard.starts (units + distance standard units) = standard.starts units ∧
      standard.ends (units + distance standard units) = standard.ends units + 1 ∧
      (standard.starts units + standard.ends units) % 2 = 1 := by
  unfold distance
  rw [if_pos blank]
  cases standard <;>
    simp only [VideoStandard.starts, VideoStandard.ends, VideoStandard.tenth, VideoStandard.frame,
      VideoStandard.rate, cpuHz] at blank ⊢ <;> omega

theorem units_at_start (visible : ¬ standard.frame - standard.tenth ≤ units % standard.frame) :
    (units + distance standard units) % standard.frame = standard.frame - standard.tenth ∧
      standard.starts (units + distance standard units) = standard.starts units + 1 ∧
      standard.ends (units + distance standard units) = standard.ends units ∧
      (standard.starts units + standard.ends units) % 2 = 0 := by
  unfold distance
  rw [if_neg visible]
  cases standard <;>
    simp only [VideoStandard.starts, VideoStandard.ends, VideoStandard.tenth, VideoStandard.frame,
      VideoStandard.rate, cpuHz] at visible ⊢ <;> omega

theorem after_distance (standard : VideoStandard) (units : ℕ) :
    after standard (units + distance standard units) =
      (after standard units).cross (standard.frame - standard.tenth) := by
  by_cases blank : standard.frame - standard.tenth ≤ units % standard.frame
  · obtain ⟨phase, starts, ends, odd⟩ := units_at_end blank
    have small : ¬ standard.frame - standard.tenth ≤ 0 := by cases standard <;> decide
    unfold after cross
    simp only [phase, starts, ends, ← Nat.add_assoc, alternating_succ, List.map_append,
      List.map_singleton, odd, blank, small, decide_true, decide_false, if_true,
      Nat.one_ne_zero, if_false, blankInterrupt]
  · obtain ⟨phase, starts, ends, even⟩ := units_at_start blank
    unfold after cross
    simp only [phase, starts, ends, Nat.add_right_comm _ 1, alternating_succ, List.map_append,
      List.map_singleton, even, blank, Nat.le_refl, decide_true, decide_false, if_true,
      Bool.false_eq_true, if_false, blankInterrupt]

theorem run_advanceLoop {rounds more : ℕ} (enough : more ≤ rounds) :
    (advanceLoop standard.frame (standard.frame - standard.tenth) rounds more).run
      (after standard units) = .ok () (after standard (units + more)) := by
  induction rounds generalizing units more with
  | zero =>
    obtain rfl := Nat.le_zero.mp enough
    rfl
  | succ rounds ih =>
    by_cases done : more = 0
    · subst done
      rfl
    have progress := distance_pos standard units
    have left : checkedSub (if (after standard units).inVblank then standard.frame
        else standard.frame - standard.tenth) (after standard units).phaseUnits =
        some (distance standard units) := by
      have positive := progress
      unfold distance at positive
      simp only [after, decide_eq_true_eq]
      exact checkedSub_eq_some.mpr ⟨by omega, rfl⟩
    simp only [advanceLoop, if_neg done, run_bind, run_get, left, run_okOr_some]
    by_cases short : more < distance standard units
    · have bound : distance standard units ≤ standard.frame := by
        unfold distance
        split <;> omega
      have frame : standard.frame < 2 ^ 63 := by cases standard <;> decide
      have phase : units % standard.frame < standard.frame :=
        Nat.mod_lt _ (by cases standard <;> decide)
      have fits : checkedAdd 64 (after standard units).phaseUnits more =
          some (units % standard.frame + more) := checkedAdd_eq_some.mpr ⟨by simp only [after]; omega, rfl⟩
      have narrow : ¬ 2 ^ 64 ≤ more := by omega
      simp only [if_pos short, run_bind, run_throwIf, if_neg narrow, fits, run_okOr_some,
        run_set, after_add short]
    · have rest := @ih (units + distance standard units) (more - distance standard units) (by omega)
      rw [Nat.add_assoc, Nat.add_sub_cancel' (Nat.not_lt.mp short), after_distance] at rest
      simp only [if_neg short, run_bind, run_set]
      exact rest

theorem run_advance {cycles : ℕ} (narrow : cycles < 2 ^ 64) :
    (advance cycles).run (after standard units) =
      .ok () (after standard (units + cycles * standard.rate.1)) := by
  have frame : checkedMul 64 cpuHz standard.rate.2 = some standard.frame := by
    cases standard <;> decide
  have blank : checkedSub standard.frame (standard.frame / 10) =
      some (standard.frame - standard.tenth) := checkedSub_eq_some.mpr ⟨Nat.div_le_self _ _, rfl⟩
  have rate : standard.rate.1 ≤ 60000 := by cases standard <;> decide
  have added : checkedMul 128 cycles standard.rate.1 = some (cycles * standard.rate.1) := by
    have := Nat.mul_le_mul (Nat.le_of_lt narrow) rate
    exact checkedMul_eq_some.mpr ⟨by omega, rfl⟩
  have same : (after standard units).standard = standard := rfl
  simp only [advance, run_bind, run_get, same, frame, blank, added, run_okOr_some]
  exact run_advanceLoop (Nat.le_refl _)

theorem run_advances {calls : List ℕ} (narrow : ∀ cycles ∈ calls, cycles < 2 ^ 64) :
    (advances calls).run (after standard units) =
      .ok () (after standard (units + calls.sum * standard.rate.1)) := by
  induction calls generalizing units with
  | nil =>
    rw [List.sum_nil, Nat.zero_mul]
    rfl
  | cons cycles calls ih =>
    have first : (advance cycles).run (after standard units) = _ :=
      run_advance (narrow cycles List.mem_cons_self)
    have rest : (advances calls).run (after standard (units + cycles * standard.rate.1)) = _ :=
      ih fun c mem => narrow c (List.mem_cons_of_mem _ mem)
    have split : advances (cycles :: calls) = (do advance cycles; advances calls) := List.forM_cons
    rw [split, run_bind, first, List.sum_cons, Nat.add_mul, ← Nat.add_assoc]
    exact rest

/-- Every sequence of advances returns, with starts and ends by turns and as many as the total number
of cycles says, whatever its parts; the clock is in a blank in the last tenth of a frame. -/
theorem refresh_exact (standard : VideoStandard) {calls : List ℕ}
    (narrow : ∀ cycles ∈ calls, cycles < 2 ^ 64) :
    ∃ clock, (advances calls).run (new standard) = .ok () clock ∧
      let units := calls.sum * standard.rate.1
      clock.events.count .vBlankStart = (units + standard.tenth) / standard.frame ∧
      clock.events.count .vBlankEnd = units / standard.frame ∧
      clock.events = alternating clock.events.length ∧
      clock.requests = clock.events.map blankInterrupt ∧
      clock.phaseUnits = units % standard.frame ∧
      (clock.inVblank = true ↔ standard.frame - standard.tenth ≤ units % standard.frame) ∧
      ∀ calls' : List ℕ, (∀ cycles ∈ calls', cycles < 2 ^ 64) → calls'.sum = calls.sum →
        (advances calls').run (new standard) = .ok () clock := by
  have total : ∀ calls' : List ℕ, (∀ cycles ∈ calls', cycles < 2 ^ 64) →
      (advances calls').run (new standard) =
        .ok () (after standard (calls'.sum * standard.rate.1)) := by
    intro calls' narrow'
    have run : (advances calls').run (after standard 0) = _ := run_advances narrow'
    rwa [Nat.zero_add, after_zero] at run
  obtain ⟨ended, started⟩ := ends_starts standard (calls.sum * standard.rate.1)
  refine ⟨_, total calls narrow, ?_, ?_, ?_, rfl, rfl, decide_eq_true_iff, ?_⟩
  · simp only [after]
    rw [(count_alternating _).1]
    show _ = standard.starts _
    omega
  · simp only [after]
    rw [(count_alternating _).2]
    show _ = standard.ends _
    omega
  · simp only [after]
    unfold alternating
    rw [List.length_map, List.length_range]
  · intro calls' narrow' same
    rw [total calls' narrow', same]

/-- One second and a cycle in two advances. -/
theorem refresh_exact_sample :
    ∃ clock, (advances [36863999, 2]).run (new .pal) = .ok () clock ∧
      clock.events.count .vBlankStart = (36864001 * 50 + 3686400) / 36864000 := by
  have narrow : ∀ cycles ∈ [36863999, 2], cycles < 2 ^ 64 := by decide
  obtain ⟨clock, run, starts, -⟩ := refresh_exact .pal narrow
  exact ⟨clock, run, starts⟩

end RefreshClock

end Upse.Iop
