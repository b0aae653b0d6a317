import Mathlib.Logic.Function.Iterate
import Upse.Hw.Ps1.Timers

/-!
# Counting root-counter ticks in parts

A bulk advance jumps from boundary to boundary.  A jump that is cut short resumes where it stopped,
and the pulse of a boundary is settled by the next tick whoever delivers it, so an advance is the
advances of its parts.
-/

namespace Upse.Ps1

open ErrorState

namespace Counter

variable {c c' : Counter} {id : TimerId} {S : Type} {request : InterruptSource → S → S} {sink : S}

/-! ### What a tick leaves alone -/

/-- What ticks leave alone: the writable mode bits and the synchronisation inputs. -/
structure Kin (c c' : Counter) : Prop where
  control : c'.mode &&& modeWritable = c.mode &&& modeWritable
  blank : c'.blank = c.blank
  syncStarted : c'.syncStarted = c.syncStarted

theorem Kin.refl (c : Counter) : c.Kin c := ⟨rfl, rfl, rfl⟩

theorem Kin.trans {a b c : Counter} (h : a.Kin b) (h' : b.Kin c) : a.Kin c :=
  ⟨h'.control.trans h.control, h'.blank.trans h.blank, h'.syncStarted.trans h.syncStarted⟩

theorem Kin.mask (kin : c.Kin c') {mask : CounterMode} (part : modeWritable &&& mask = mask) :
    c'.mode &&& mask = c.mode &&& mask := by
  calc c'.mode &&& mask = c'.mode &&& modeWritable &&& mask := by rw [BitVec.and_assoc, part]
    _ = c.mode &&& mask := by rw [kin.control, BitVec.and_assoc, part]

theorem Kin.clockBits (kin : c.Kin c') : c'.clockBits = c.clockBits := by
  unfold Counter.clockBits
  rw [kin.mask (by decide)]

theorem Kin.syncMode (kin : c.Kin c') : c'.syncMode = c.syncMode := by
  have shifted (mode : CounterMode) : mode >>> 1 &&& (3 : CounterMode) = (mode &&& (6 : CounterMode)) >>> 1 := by
    rw [BitVec.ushiftRight_and_distrib]
    rfl
  unfold Counter.syncMode
  rw [shifted, shifted, kin.mask (by decide)]

theorem Kin.paused (kin : c.Kin c') (id : TimerId) : c'.paused id = c.paused id := by
  unfold Counter.paused
  rw [kin.mask (by decide), kin.syncMode, kin.blank, kin.syncStarted]

/-- The counter with this divider remainder. -/
def withRemainder (c : Counter) (r : ℕ) : Counter := { c with dividerRemainder := r }

theorem withRemainder_self (c : Counter) : c.withRemainder c.dividerRemainder = c := rfl

@[simp] theorem withRemainder_withRemainder (c : Counter) (r r' : ℕ) :
    (c.withRemainder r).withRemainder r' = c.withRemainder r' := rfl

/-- A part of a tick leaves a counter of the same kin and requests the counter's own interrupt some
number of times, whatever the divider remainder and the sink are. -/
def Acts (id : TimerId) (c : Counter)
    (f : (S : Type) → (InterruptSource → S → S) → Counter → S → Counter × S) : Prop :=
  ∃ c' n, c.Kin c' ∧ ∀ (S : Type) (request : InterruptSource → S → S) (sink : S) (r : ℕ),
    f S request (c.withRemainder r) sink = (c'.withRemainder r, (request id.interrupt)^[n] sink)

theorem acts_move {f : Counter → Counter} (kin : c.Kin (f c))
    (commutes : ∀ r, f (c.withRemainder r) = (f c).withRemainder r) :
    Acts id c fun _ _ c sink => (f c, sink) :=
  ⟨f c, 0, kin, fun _ _ _ r => Prod.ext (commutes r) rfl⟩

/-! ### Boundaries -/

/-- The counter as many ticks later, where these pass no boundary. -/
def moved (c : Counter) (ticks : ℕ) : Counter :=
  { c with value := BitVec.ofNat 16 (c.value.toNat + ticks) }

/-- The reached flags of a counter at a boundary, and its reset. -/
def flagged (c : Counter) (hitTarget hitOverflow : Bool) : Counter :=
  let counter := if hitTarget then
      { c with
        mode := c.mode ||| modeReachedTarget
        value := if c.mode &&& modeResetTarget ≠ 0 then 0 else c.value }
    else c
  if hitOverflow then { counter with mode := counter.mode ||| modeReachedOverflow } else counter

/-- The boundary's interrupt is enabled. -/
def Asks (c : Counter) (hitTarget hitOverflow : Bool) : Prop :=
  (hitTarget ∧ c.mode &&& modeIrqTarget ≠ 0) ∨ (hitOverflow ∧ c.mode &&& modeIrqOverflow ≠ 0)

instance (c : Counter) (hitTarget hitOverflow : Bool) : Decidable (c.Asks hitTarget hitOverflow) :=
  inferInstanceAs (Decidable (_ ∨ _))

/-- The flags of a boundary and its interrupt, on a counter that has moved there. -/
def arrive (request : InterruptSource → S → S) (id : TimerId) (hitTarget hitOverflow : Bool)
    (c : Counter) (sink : S) : Counter × S :=
  let c := c.flagged hitTarget hitOverflow
  if c.Asks hitTarget hitOverflow then c.fireIrq request id sink else (c, sink)

theorem reachBoundary_eq (c : Counter) :
    c.reachBoundary request id sink =
      arrive request id c.boundary.2.1 c.boundary.2.2 (c.moved c.boundary.1) sink := rfl

theorem control_or {mode flag : CounterMode} (apart : flag &&& modeWritable = 0) :
    (mode ||| flag) &&& modeWritable = mode &&& modeWritable := by
  rw [BitVec.and_comm, BitVec.and_or_distrib_left, BitVec.and_comm modeWritable flag, apart,
    BitVec.and_comm]
  exact BitVec.or_zero

theorem kin_flagged (c : Counter) (hitTarget hitOverflow : Bool) :
    c.Kin (c.flagged hitTarget hitOverflow) := by
  have target (mode : CounterMode) : (mode ||| modeReachedTarget) &&& modeWritable =
      mode &&& modeWritable := control_or (by decide)
  have overflow (mode : CounterMode) : (mode ||| modeReachedOverflow) &&& modeWritable =
      mode &&& modeWritable := control_or (by decide)
  unfold flagged
  cases hitTarget <;> cases hitOverflow <;> exact ⟨by simp [target, overflow], rfl, rfl⟩

theorem flagged_withRemainder (c : Counter) (hitTarget hitOverflow : Bool) (r : ℕ) :
    (c.withRemainder r).flagged hitTarget hitOverflow =
      (c.flagged hitTarget hitOverflow).withRemainder r := by
  cases hitTarget <;> cases hitOverflow <;> rfl

theorem acts_fireIrq (c : Counter) (id : TimerId) :
    Acts id c fun _ request c sink => c.fireIrq request id sink := by
  by_cases fired : c.mode &&& modeIrqRepeat = 0 ∧ c.irqFired
  · exact ⟨c, 0, .refl c, fun _ _ _ _ => if_pos fired⟩
  by_cases toggles : c.mode &&& modeIrqToggle ≠ 0
  · refine ⟨{ c with irqFired := true, irqRequestHigh := !c.irqRequestHigh },
      if !c.irqRequestHigh then 0 else 1, ⟨rfl, rfl, rfl⟩, fun S request sink r => ?_⟩
    refine ((if_neg fired).trans (if_pos toggles)).trans ?_
    cases c with
    | mk _ _ _ _ _ high => cases high <;> rfl
  · exact ⟨{ c with irqFired := true, irqRequestHigh := false, pulsePending := true }, 1,
      ⟨rfl, rfl, rfl⟩, fun S request sink r => (if_neg fired).trans (if_neg toggles)⟩

theorem acts_arrive (c : Counter) (id : TimerId) (hitTarget hitOverflow : Bool) :
    Acts id c fun _ request c sink => arrive request id hitTarget hitOverflow c sink := by
  by_cases asks : (c.flagged hitTarget hitOverflow).Asks hitTarget hitOverflow
  · obtain ⟨c', n, kin, acts⟩ := acts_fireIrq (c.flagged hitTarget hitOverflow) id
    refine ⟨c', n, (kin_flagged c hitTarget hitOverflow).trans kin, fun S request sink r => ?_⟩
    rw [← acts]
    beta_reduce
    unfold arrive
    rw [flagged_withRemainder]
    exact if_pos asks
  · refine ⟨c.flagged hitTarget hitOverflow, 0, kin_flagged c hitTarget hitOverflow,
      fun S request sink r => ?_⟩
    beta_reduce
    unfold arrive
    rw [flagged_withRemainder]
    exact if_neg asks

theorem acts_reachBoundary (c : Counter) (id : TimerId) :
    Acts id c fun _ request c sink => c.reachBoundary request id sink := by
  obtain ⟨c', n, kin, acts⟩ :=
    acts_arrive (c.moved c.boundary.1) id c.boundary.2.1 c.boundary.2.2
  exact ⟨c', n, ⟨kin.control, kin.blank, kin.syncStarted⟩, acts⟩

/-! ### The loop -/

theorem kin_settlePulse (c : Counter) : c.Kin c.settlePulse := by
  unfold settlePulse
  split
  · exact ⟨rfl, rfl, rfl⟩
  · exact .refl c

theorem settlePulse_withRemainder (c : Counter) (r : ℕ) :
    (c.withRemainder r).settlePulse = c.settlePulse.withRemainder r := by
  unfold settlePulse withRemainder
  split <;> rfl

theorem pulsePending_settlePulse (c : Counter) : c.settlePulse.pulsePending = false := by
  unfold settlePulse
  split
  · rfl
  next pending => exact eq_false_of_ne_true pending

theorem settlePulse_eq (settled : c.pulsePending = false) : c.settlePulse = c := by
  unfold settlePulse
  rw [settled]
  rfl

variable {ticks : ℕ}

theorem tickLoop_succ (c : Counter) (rounds : ℕ) (more : ticks ≠ 0) :
    tickLoop request id (rounds + 1) c ticks sink =
      if ticks < c.boundary.1 then (c.moved ticks, sink)
      else
        let reached := c.reachBoundary request id sink
        tickLoop request id rounds
          (if ticks - c.boundary.1 ≠ 0 then reached.1.settlePulse else reached.1)
          (ticks - c.boundary.1) reached.2 := by
  rw [tickLoop, if_neg more]
  rfl

theorem tickLoop_self (c : Counter) (more : ticks ≠ 0) :
    tickLoop request id ticks c ticks sink =
      if ticks < c.boundary.1 then (c.moved ticks, sink)
      else
        let reached := c.reachBoundary request id sink
        tickLoop request id (ticks - 1)
          (if ticks - c.boundary.1 ≠ 0 then reached.1.settlePulse else reached.1)
          (ticks - c.boundary.1) reached.2 := by
  cases ticks with
  | zero => exact absurd rfl more
  | succ rounds => exact tickLoop_succ c rounds more

@[simp] theorem tickLoop_zero (c : Counter) (rounds : ℕ) :
    tickLoop request id rounds c 0 sink = (c, sink) := by
  cases rounds <;> rfl

theorem acts_tickLoop (c : Counter) (id : TimerId) (rounds ticks : ℕ) :
    Acts id c fun _ request c sink => tickLoop request id rounds c ticks sink := by
  induction rounds generalizing c ticks with
  | zero => exact acts_move (.refl c) fun _ => rfl
  | succ rounds ih =>
    by_cases done : ticks = 0
    · subst done
      simp only [tickLoop_zero]
      exact acts_move (.refl c) fun _ => rfl
    by_cases quiet : ticks < c.boundary.1
    · refine ⟨c.moved ticks, 0, ⟨rfl, rfl, rfl⟩, fun S request sink r => ?_⟩
      beta_reduce
      rw [tickLoop_succ _ _ done]
      exact if_pos quiet
    obtain ⟨c', n, kin, acts⟩ := acts_reachBoundary c id
    obtain ⟨next, next_eq⟩ : ∃ next, next =
      if ticks - c.boundary.1 ≠ 0 then c'.settlePulse else c' := ⟨_, rfl⟩
    have kin' : c'.Kin next := by
      rw [next_eq]
      split
      · exact kin_settlePulse c'
      · exact .refl c'
    obtain ⟨c'', n', kin'', acts'⟩ := ih next (ticks - c.boundary.1)
    refine ⟨c'', n' + n, (kin.trans kin').trans kin'', fun S request sink r => ?_⟩
    have settled : (if ticks - c.boundary.1 ≠ 0 then (c'.withRemainder r).settlePulse
        else c'.withRemainder r) = next.withRemainder r := by
      rw [next_eq, settlePulse_withRemainder]
      split <;> rfl
    beta_reduce
    rw [tickLoop_succ _ _ done, if_neg (show ¬ ticks < (c.withRemainder r).boundary.1 from quiet)]
    simp only [acts]
    rw [show (c.withRemainder r).boundary = c.boundary from rfl, settled, Function.iterate_add_apply]
    exact acts' S request _ r

theorem tick_of_pos (c : Counter) (pos : ticks ≠ 0) :
    c.tick request id ticks sink =
      if c.settlePulse.paused id then (c.settlePulse, sink)
      else tickLoop request id ticks c.settlePulse ticks sink := by
  unfold tick
  rw [if_neg pos]

@[simp] theorem tick_zero (c : Counter) : c.tick request id 0 sink = (c, sink) := rfl

theorem acts_tick (c : Counter) (id : TimerId) (ticks : ℕ) :
    Acts id c fun _ request c sink => c.tick request id ticks sink := by
  by_cases none : ticks = 0
  · subst none
    exact acts_move (.refl c) fun _ => rfl
  by_cases paused : c.settlePulse.paused id
  · refine ⟨c.settlePulse, 0, kin_settlePulse c, fun S request sink r => ?_⟩
    beta_reduce
    rw [tick_of_pos _ none, settlePulse_withRemainder]
    exact if_pos paused
  · obtain ⟨c', n, kin, acts⟩ := acts_tickLoop c.settlePulse id ticks ticks
    refine ⟨c', n, (kin_settlePulse c).trans kin, fun S request sink r => ?_⟩
    beta_reduce
    rw [tick_of_pos _ none, settlePulse_withRemainder, ← acts]
    exact if_neg paused

/-! ### Ticks in parts -/

/-- The ticks until the counter wraps. -/
def toOverflow (c : Counter) : ℕ := 0x10000 - c.value.toNat

/-- The ticks until the counter reaches its target. -/
def toTarget (c : Counter) : ℕ :=
  if c.value.toNat < c.target.toNat then c.target.toNat - c.value.toNat
  else 0x10000 - c.value.toNat + c.target.toNat

theorem boundary_eq (c : Counter) :
    c.boundary = (min c.toOverflow c.toTarget, min c.toOverflow c.toTarget == c.toTarget,
      min c.toOverflow c.toTarget == c.toOverflow) := rfl

theorem boundary_pos (c : Counter) : 0 < c.boundary.1 := by
  have := c.value.isLt
  show 0 < min c.toOverflow c.toTarget
  unfold toOverflow toTarget
  split <;> omega

theorem toNat_moved (short : ticks < c.boundary.1) :
    (c.moved ticks).value.toNat = c.value.toNat + ticks := by
  have within : ticks < c.toOverflow := lt_of_lt_of_le short (min_le_left _ _)
  unfold toOverflow at within
  show (BitVec.ofNat 16 (c.value.toNat + ticks)).toNat = _
  rw [BitVec.toNat_ofNat, Nat.mod_eq_of_lt (by omega)]

/-- Short of a boundary, the rest of the way leads to the same one. -/
theorem boundary_moved (short : ticks < c.boundary.1) :
    (c.moved ticks).boundary = (c.boundary.1 - ticks, c.boundary.2) := by
  have value := toNat_moved short
  have overflow : (c.moved ticks).toOverflow = c.toOverflow - ticks := by
    unfold toOverflow
    omega
  have target : (c.moved ticks).toTarget = c.toTarget - ticks := by
    have within : ticks < c.toTarget := lt_of_lt_of_le short (min_le_right _ _)
    have same : (c.moved ticks).target = c.target := rfl
    unfold toTarget at within ⊢
    rw [value, same]
    split at within <;> split <;> omega
  have short' : ticks < min c.toOverflow c.toTarget := short
  rw [boundary_eq, boundary_eq, overflow, target]
  refine Prod.ext (by simp only; omega) (Prod.ext ?_ ?_)
  · exact Bool.eq_iff_iff.mpr (by simp only [beq_iff_eq]; omega)
  · exact Bool.eq_iff_iff.mpr (by simp only [beq_iff_eq]; omega)

theorem moved_moved (short : ticks < c.boundary.1) (more : ℕ) :
    (c.moved ticks).moved more = c.moved (ticks + more) := by
  show ({ c with value := BitVec.ofNat 16 ((c.moved ticks).value.toNat + more) } : Counter) = _
  rw [toNat_moved short, Nat.add_assoc]
  rfl

theorem reachBoundary_moved (short : ticks < c.boundary.1) :
    (c.moved ticks).reachBoundary request id sink = c.reachBoundary request id sink := by
  rw [reachBoundary_eq, reachBoundary_eq, boundary_moved short, moved_moved short,
    Nat.add_sub_cancel' short.le]

theorem tickLoop_enough {rounds rounds' ticks : ℕ} (enough : ticks ≤ rounds)
    (enough' : ticks ≤ rounds') :
    tickLoop request id rounds c ticks sink = tickLoop request id rounds' c ticks sink := by
  induction rounds generalizing c rounds' ticks sink with
  | zero =>
    obtain rfl := Nat.le_zero.mp enough
    rw [tickLoop_zero, tickLoop_zero]
  | succ rounds ih =>
    by_cases done : ticks = 0
    · rw [done, tickLoop_zero, tickLoop_zero]
    obtain ⟨rounds', rfl⟩ := Nat.exists_eq_succ_of_ne_zero (show rounds' ≠ 0 by omega)
    rw [tickLoop_succ _ _ done, tickLoop_succ _ _ done]
    have progress := boundary_pos c
    split
    · rfl
    · exact ih (by omega) (by omega)

/-- A loop is the loops of its parts, with the pulse settled between them. -/
theorem tickLoop_add {a b rounds : ℕ} (settled : c.pulsePending = false) (enough : a ≤ rounds)
    (some : a ≠ 0) (more : b ≠ 0) :
    tickLoop request id (a + b) c (a + b) sink =
      tickLoop request id b (tickLoop request id rounds c a sink).1.settlePulse b
        (tickLoop request id rounds c a sink).2 := by
  induction rounds generalizing c a sink with
  | zero => exact absurd (Nat.le_zero.mp enough) some
  | succ rounds ih =>
    have progress := boundary_pos c
    rw [tickLoop_succ _ _ some, tickLoop_self c (show a + b ≠ 0 by omega)]
    by_cases short : a < c.boundary.1
    · -- the first part stops on the way, and the second goes on from there
      have settled' : (c.moved a).settlePulse = c.moved a := settlePulse_eq settled
      have left : a + b - c.boundary.1 = b - (c.boundary.1 - a) := by omega
      rw [if_pos short]
      simp only
      rw [settled', tickLoop_self _ more, boundary_moved short, reachBoundary_moved short,
        moved_moved short]
      dsimp only
      by_cases quiet : a + b < c.boundary.1
      · rw [if_pos quiet, if_pos (show b < c.boundary.1 - a by omega)]
      · rw [if_neg quiet, if_neg (show ¬ b < c.boundary.1 - a by omega), left]
        exact tickLoop_enough (by omega) (by omega)
    · have pending := pulsePending_settlePulse (c.reachBoundary request id sink).1
      rw [if_neg short, if_neg (by omega)]
      simp only
      rw [if_pos (by omega)]
      by_cases exact_ : a = c.boundary.1
      · -- the first part ends at the boundary, and leaves its pulse to the second
        rw [if_neg (by omega), ← exact_, Nat.sub_self, Nat.add_sub_cancel_left]
        simp only [tickLoop_zero]
        exact tickLoop_enough (by omega) le_rfl
      · rw [if_pos (by omega), ← ih pending (by omega) (by omega),
          show a + b - c.boundary.1 = a - c.boundary.1 + b by omega]
        exact tickLoop_enough (by omega) le_rfl

/-- Ticks are the ticks of their parts. -/
theorem tick_add (c : Counter) (id : TimerId) (a b : ℕ) :
    (c.tick request id a sink).1.tick request id b (c.tick request id a sink).2 =
      c.tick request id (a + b) sink := by
  by_cases none : a = 0
  · rw [none, Nat.zero_add, tick_zero]
  by_cases last : b = 0
  · rw [last, tick_zero]
    rfl
  rw [tick_of_pos c none, tick_of_pos _ last, tick_of_pos c (by omega)]
  have pending := pulsePending_settlePulse c
  by_cases paused : c.settlePulse.paused id
  · rw [if_pos paused, settlePulse_eq pending, if_pos paused, if_pos paused]
  · obtain ⟨c', n, kin, acts⟩ := acts_tickLoop c.settlePulse id a a
    have ran := acts S request sink c.settlePulse.dividerRemainder
    rw [withRemainder_self] at ran
    have runs : ¬ (tickLoop request id a c.settlePulse a sink).1.settlePulse.paused id := by
      beta_reduce at ran
      rw [(kin_settlePulse _).paused, ran]
      exact fun on => paused ((kin.paused id).symm.trans on)
    rw [if_neg paused, if_neg paused, if_neg runs]
    exact (tickLoop_add pending le_rfl none last).symm

end Counter

end Upse.Ps1
