import Mathlib.Algebra.Group.Nat.Even
import Mathlib.Data.List.Basic
import Upse.Lib.Loops
import Upse.Lib.Simulation

/-!
# Items pulled from a stepped producer

A producer queues whole frames of two items as a side effect of its steps.  Its consumer either
pulls items, stepping the producer while the queue is empty, or advances over frames, dropping what
is queued and stepping until the frames still owed have been discarded.  A producer that does not
look at its queue or at the number of frames it owes (`Oblivious`) cannot tell the two apart:
advancing leaves the state that pulling the same number of frames leaves.
-/

open ErrorState

/-- A producer with the items it has queued and the frames it has still to discard. -/
structure Pulled (κ α : Type) where
  core : κ
  pending : List α
  discard : ℕ

namespace Pulled

variable {ε κ α β : Type}

/-- Runs a program of the producer. -/
def onCore (m : EStateM ε κ β) : EStateM ε (Pulled κ α) β :=
  zoom Pulled.core (fun core s => { s with core := core }) id m

/-- Queues a chunk of whole frames after dropping the frames still owed from its front. -/
def deliver (chunk : List α) (s : Pulled κ α) : Pulled κ α :=
  let discarded := min (chunk.length / 2) s.discard
  { s with
    discard := s.discard - discarded
    pending := s.pending ++ chunk.drop (discarded * 2) }

section Consumer

variable (step : EStateM ε (Pulled κ α) Unit)

/-- Pulls items one by one, stepping while none is queued (at most `fuel` steps for each); `none`
when the steps did not suffice. -/
def pull (overflow : ε) (fuel : ℕ) : ℕ → EStateM ε (Pulled κ α) (Option (List α))
  | 0 => pure (some [])
  | count + 1 => do
    if ← whileLoop (fun s => s.pending.isEmpty) step fuel then
      let item ← okOr (← get).pending.head? overflow
      modify fun s => { s with pending := s.pending.tail }
      return (← pull overflow fuel count).map (item :: ·)
    else return none

/-- A step that owes no frames when it fails. -/
def stepOrForgive : EStateM ε (Pulled κ α) Unit := fun s =>
  match step.run s with
  | .ok a t => .ok a t
  | .error e t => .error e { t with discard := 0 }

/-- Pulling items leads from one state to another. -/
inductive Pulls : Pulled κ α → List α → Pulled κ α → Prop
  | nil (s : Pulled κ α) : Pulls s [] s
  | cons {s t u : Pulled κ α} {item : α} {rest items : List α} :
      Loops (fun s => s.pending.isEmpty) step s t → t.pending = item :: rest →
      Pulls { t with pending := rest } items u → Pulls s (item :: items) u

/-- Advancing over frames leads from one state to another: the queued frames are dropped, and the
producer steps until it has discarded the rest. -/
def Skipped (frames : ℕ) (s t : Pulled κ α) : Prop :=
  let queued := min (s.pending.length / 2) frames
  let dropped := { s with pending := s.pending.drop (queued * 2) }
  if frames - queued = 0 then t = dropped
  else Loops (fun s => s.discard != 0) (stepOrForgive step)
    { dropped with discard := frames - queued } t

end Consumer

variable {step : EStateM ε (Pulled κ α) Unit} {overflow : ε} {s t u : Pulled κ α}
  {items popped : List α} {frames : ℕ}

theorem run_stepOrForgive (s : Pulled κ α) : (stepOrForgive step).run s =
    match step.run s with
    | .ok a t => .ok a t
    | .error e t => .error e { t with discard := 0 } := rfl

theorem run_stepOrForgive_ok : (stepOrForgive step).run s = .ok () t ↔ step.run s = .ok () t := by
  rw [run_stepOrForgive]
  cases step.run s <;> simp

/-! ### Pulling -/

theorem run_pull_succ_ok {fuel count : ℕ} {out : List α} :
    (pull step overflow fuel (count + 1)).run s = .ok (some out) t ↔
      ∃ u item rest items, (whileLoop (fun s => s.pending.isEmpty) step fuel).run s = .ok true u ∧
        u.pending = item :: rest ∧
        (pull step overflow fuel count).run { u with pending := rest } = .ok (some items) t ∧
        out = item :: items := by
  rw [pull, run_bind_ok]
  constructor
  · rintro ⟨filled, u, loop, rest⟩
    cases filled with
    | false => simp at rest
    | true =>
      simp only [if_true, run_bind_ok, run_get_ok, run_okOr_ok, run_modify_ok, run_pure_ok] at rest
      obtain ⟨_, _, ⟨rfl, rfl⟩, item, _, ⟨front, rfl⟩, _, _, rfl, items, _, pulled, mapped, rfl⟩ :=
        rest
      obtain ⟨more, pending⟩ := List.head?_eq_some_iff.mp front
      rw [pending, List.tail_cons] at pulled
      cases items with
      | none => cases mapped
      | some items => cases mapped; exact ⟨u, item, more, items, loop, pending, pulled, rfl⟩
  · rintro ⟨u, item, rest, items, loop, pending, pulled, rfl⟩
    refine ⟨true, u, loop, ?_⟩
    simp only [if_true, run_bind_ok, run_get_ok, run_okOr_ok, run_modify_ok, run_pure_ok]
    refine ⟨u, u, ⟨rfl, rfl⟩, item, u, ⟨by rw [pending]; rfl, rfl⟩, ⟨⟩, _, rfl, some items, t, ?_,
      rfl, rfl⟩
    rw [pending]
    exact pulled

theorem run_pull_mono {fuel fuel' count : ℕ} {out : List α} (le : fuel ≤ fuel')
    (h : (pull step overflow fuel count).run s = .ok (some out) t) :
    (pull step overflow fuel' count).run s = .ok (some out) t := by
  induction count generalizing s out with
  | zero => exact h
  | succ count ih =>
    obtain ⟨u, item, rest, items, loop, pending, pulled, rfl⟩ := run_pull_succ_ok.mp h
    exact run_pull_succ_ok.mpr
      ⟨u, item, rest, items, run_whileLoop_mono le loop, pending, ih pulled, rfl⟩

theorem exists_pull_iff (overflow : ε) {count : ℕ} {out : List α} :
    (∃ fuel, (pull step overflow fuel count).run s = .ok (some out) t) ↔
      out.length = count ∧ Pulls step s out t := by
  induction count generalizing s out with
  | zero =>
    constructor
    · rintro ⟨fuel, h⟩
      cases h
      exact ⟨rfl, .nil _⟩
    · rintro ⟨length, h⟩
      cases List.length_eq_zero_iff.mp length
      cases h
      exact ⟨0, rfl⟩
  | succ count ih =>
    constructor
    · rintro ⟨fuel, h⟩
      obtain ⟨u, item, rest, items, loop, pending, pulled, rfl⟩ := run_pull_succ_ok.mp h
      obtain ⟨length, pulls⟩ := ih.mp ⟨fuel, pulled⟩
      exact ⟨by simpa using length, .cons (exists_whileLoop_iff.mp ⟨fuel, loop⟩) pending pulls⟩
    · rintro ⟨length, h⟩
      cases h with
      | nil => simp at length
      | @cons _ u _ item rest items loop pending pulls =>
        obtain ⟨fuel, ended⟩ := exists_whileLoop_iff.mpr loop
        obtain ⟨fuel', pulled⟩ := ih.mpr ⟨by simpa using length, pulls⟩
        exact ⟨max fuel fuel', run_pull_succ_ok.mpr ⟨u, item, rest, items,
          run_whileLoop_mono (le_max_left _ _) ended, pending,
          run_pull_mono (le_max_right _ _) pulled, rfl⟩⟩

theorem Pulls.append {out out' : List α} (h : Pulls step s out t) (h' : Pulls step t out' u) :
    Pulls step s (out ++ out') u := by
  induction h with
  | nil => exact h'
  | cons loop pending _ ih => exact .cons loop pending (ih h')

theorem Pulls.invariant {I : κ → Prop} {out : List α} (h : Pulls step s out t)
    (round : ∀ a b, step.run a = .ok () b → I a.core → I b.core) (start : I s.core) :
    I t.core := by
  induction h with
  | nil => exact start
  | cons loop _ _ ih => exact ih (loop.invariant (I := fun s => I s.core) round start)

/-- A pull splits at any of its items. -/
theorem Pulls.split {out out' : List α} (h : Pulls step s (out ++ out') u) :
    ∃ t, Pulls step s out t ∧ Pulls step t out' u := by
  induction out generalizing s with
  | nil => exact ⟨s, .nil s, h⟩
  | cons item out ih =>
    cases h with
    | cons loop pending rest =>
      obtain ⟨t, first, second⟩ := ih rest
      exact ⟨t, .cons loop pending first, second⟩

theorem pulls_queued (h : s.pending = items ++ popped) :
    Pulls step s items { s with pending := popped } := by
  induction items generalizing s with
  | nil =>
    rw [List.nil_append] at h
    rw [← h]
    exact .nil s
  | cons item items ih =>
    have stop : s.pending.isEmpty = false := by rw [h]; rfl
    exact .cons (.done stop) h (ih rfl)

theorem Pulls.of_step (empty : s.pending = []) (run : step.run s = .ok () t)
    (h : Pulls step t items u) (nonempty : items ≠ []) : Pulls step s items u := by
  cases h with
  | nil => exact absurd rfl nonempty
  | cons loop pending rest => exact .cons (.next (by rw [empty]; rfl) run loop) pending rest

/-! ### A producer that does not look -/

/-- The run on the left keeps every item and has had `popped` pulled from it; the run on the right
skips `r` frames: it queues what follows them and owes those not yet produced. -/
structure Skips (popped : List α) (r : ℕ) (s t : Pulled κ α) : Prop where
  core : s.core = t.core
  kept : s.discard = 0
  whole : Even (popped ++ s.pending).length
  pending : t.pending = (popped ++ s.pending).drop (r * 2)
  discard : t.discard = r - (popped ++ s.pending).length / 2

/-- The producer's steps do not depend on what is queued or owed. -/
def Oblivious (step : EStateM ε (Pulled κ α) β) : Prop :=
  ∀ popped r, Simulates (Skips popped r) step step

theorem oblivious_pure (b : β) : Oblivious (pure b : EStateM ε (Pulled κ α) β) :=
  fun _ _ => simulates_pure b

variable {m : EStateM ε (Pulled κ α) β} {r : ℕ}

theorem Oblivious.bind {γ : Type}
    {f : β → EStateM ε (Pulled κ α) γ} (hm : Oblivious m) (hf : ∀ b, Oblivious (f b)) :
    Oblivious (m >>= f) :=
  fun popped r => (hm popped r).bind fun b => hf b popped r

theorem Oblivious.map {γ : Type} (hm : Oblivious m) (f : β → γ) :
    Oblivious (f <$> m) :=
  fun popped r => (hm popped r).map f

theorem oblivious_onCore (m : EStateM ε κ β) :
    Oblivious (onCore m : EStateM ε (Pulled κ α) β) := by
  intro popped r
  apply simulates_zoom m
  · intro s t h
    exact h.core
  · intro core s t h
    exact ⟨rfl, h.kept, h.whole, h.pending, h.discard⟩

theorem Skips.deliver (h : Skips popped r s t) {chunk : List α}
    (whole : Even chunk.length) : Skips popped r (s.deliver chunk) (t.deliver chunk) := by
  obtain ⟨m, produced⟩ := h.whole
  obtain ⟨n, size⟩ := whole
  have all : (s.deliver chunk).pending = s.pending ++ chunk := by
    simp [Pulled.deliver, h.kept]
  have owed := h.discard
  rw [produced] at owed
  constructor
  · exact h.core
  · simp [Pulled.deliver, h.kept]
  · rw [all, ← List.append_assoc, List.length_append, produced, size]
    exact ⟨m + n, by omega⟩
  · rw [all, ← List.append_assoc, List.drop_append, produced]
    show t.pending ++ chunk.drop (min (chunk.length / 2) t.discard * 2) = _
    rw [h.pending, size, owed]
    congr 1
    rcases Nat.le_total ((n + n) / 2) (r - (m + m) / 2) with few | many
    · rw [List.drop_eq_nil_of_le (by omega), List.drop_eq_nil_of_le (by omega)]
    · congr 1
      omega
  · show t.discard - min (chunk.length / 2) t.discard = _
    rw [all, ← List.append_assoc, List.length_append, produced, size, owed]
    omega

theorem oblivious_deliver (chunk : List α) (whole : Even chunk.length) :
    Oblivious (modify (deliver chunk) : EStateM ε (Pulled κ α) PUnit) :=
  fun _ _ => simulates_modify fun _ _ h => h.deliver whole

/-- Between calls: whole frames are queued, and none is owed. -/
structure Settled (s : Pulled κ α) : Prop where
  whole : Even s.pending.length
  nothing_owed : s.discard = 0

theorem skips_self : Skips [] 0 s s ↔ s.Settled := by
  constructor
  · intro h
    exact ⟨h.whole, h.kept⟩
  · intro h
    exact ⟨rfl, h.nothing_owed, h.whole, by simp, by rw [h.nothing_owed]; simp⟩

/-- A step keeps the producer settled, also when it fails. -/
theorem Oblivious.settled (h : Oblivious m) (settled : s.Settled) :
    (leaves (m.run s)).Settled :=
  skips_self.mp ((h [] 0).leaves (skips_self.mpr settled))

/-- While frames are discarded: whole frames are queued, and none while some are still owed. -/
structure Owing (s : Pulled κ α) : Prop where
  whole : Even s.pending.length
  empty : s.discard ≠ 0 → s.pending = []

theorem Settled.owing (h : s.Settled) : s.Owing := ⟨h.whole, fun owed => absurd h.nothing_owed owed⟩

theorem Owing.settled (h : s.Owing) (none : s.discard = 0) : s.Settled := ⟨h.whole, none⟩

/-- A step that discards frames queues the next ones only when all owed are discarded. -/
theorem Oblivious.owing (h : Oblivious m) (owing : s.Owing) :
    (leaves (m.run s)).Owing := by
  by_cases owed : s.discard = 0
  · exact (h.settled (owing.settled owed)).owing
  · have start : Skips [] s.discard { s with discard := 0 } s := by
      have empty := owing.empty owed
      exact ⟨rfl, rfl, by simp [empty], by simp [empty], by simp [empty]⟩
    have reached := (h [] s.discard).leaves start
    obtain ⟨n, size⟩ := reached.whole
    have pending := reached.pending
    have discard := reached.discard
    rw [List.nil_append] at size pending discard
    constructor
    · rw [pending, List.length_drop, size]
      exact ⟨n - s.discard, by omega⟩
    · intro still
      rw [pending]
      apply List.drop_eq_nil_of_le
      omega

/-- The loop that fills the queue keeps a settled producer settled, also when it fails. -/
theorem Oblivious.settled_fill (hstep : Oblivious step) (fuel : ℕ) (settled : s.Settled) :
    (leaves ((whileLoop (fun s => s.pending.isEmpty) step fuel).run s)).Settled :=
  leads_whileLoop (R := Keeps Settled) (fun _ _ => hstep.settled) fuel s settled

/-- A pull returns or fails with whole frames queued, when its count makes up a whole frame with
what is queued; `none` is not a return. -/
theorem Oblivious.settled_pull (hstep : Oblivious step) (overflow : ε) (fuel : ℕ) {count : ℕ}
    (nothing_owed : s.discard = 0) (parity : Even s.pending.length ↔ Even count) :
    (pull step overflow fuel count).run s = .ok none (leaves ((pull step overflow fuel count).run s))
      ∨ (leaves ((pull step overflow fuel count).run s)).Settled := by
  induction count generalizing s with
  | zero => exact .inr ⟨parity.mpr (by simp), nothing_owed⟩
  | succ count ih =>
    -- With an odd count something is queued, and the filling loop does not step.
    have filled : (∃ b, (whileLoop (fun s => s.pending.isEmpty) step fuel).run s = .ok b s) ∨
        (Even (count + 1) ∧ s.Settled) := by
      by_cases even : Even (count + 1)
      · exact .inr ⟨even, parity.mpr even, nothing_owed⟩
      · refine .inl ⟨true, run_whileLoop_stop ?_ fuel⟩
        cases pending : s.pending with
        | nil => rw [pending] at parity; exact absurd (parity.mp (by simp)) even
        | cons => rfl
    have after : ∀ b v, (whileLoop (fun s => s.pending.isEmpty) step fuel).run s = .ok b v →
        v.discard = 0 ∧ (Even v.pending.length ↔ Even (count + 1)) := by
      intro b v loop
      rcases filled with ⟨b', same⟩ | ⟨even, settled⟩
      · rw [same] at loop
        cases loop
        exact ⟨nothing_owed, parity⟩
      · have reached := hstep.settled_fill fuel settled
        rw [loop] at reached
        exact ⟨reached.nothing_owed, fun _ => even, fun _ => reached.whole⟩
    rw [pull, run_bind]
    cases loop : (whileLoop (fun s => s.pending.isEmpty) step fuel).run s with
    | error e v =>
      rcases filled with ⟨b', same⟩ | ⟨-, settled⟩
      · rw [same] at loop; cases loop
      · have reached := hstep.settled_fill fuel settled
        rw [loop] at reached
        exact .inr reached
    | ok b v =>
      obtain ⟨owed, parity⟩ := after b v loop
      cases b with
      | false => exact .inl rfl
      | true =>
        cases pending : v.pending with
        | nil =>
          have stop := (exists_whileLoop_iff.mp ⟨fuel, loop⟩).ended
          rw [pending] at stop
          cases stop
        | cons item rest =>
          have popped : Even rest.length ↔ Even count := by
            rw [pending, List.length_cons, Nat.even_add_one, Nat.even_add_one] at parity
            exact not_iff_not.mp parity
          have tail := ih (s := { v with pending := rest }) owed popped
          simp only [if_true, run_bind, run_get, pending, List.head?_cons,
            run_okOr_some, run_modify, List.tail_cons, run_pure]
          cases run : (pull step overflow fuel count).run { v with pending := rest } with
          | error e w => rw [run] at tail; exact .inr (tail.resolve_left (by simp))
          | ok items w =>
            rw [run] at tail
            cases items with
            | none => exact .inl rfl
            | some items => exact .inr (tail.resolve_left (by simp))

/-- The loop that discards frames ends or fails with the producer settled. -/
theorem Oblivious.settled_skip (hstep : Oblivious step) (fuel : ℕ) (owing : s.Owing) :
    (whileLoop (fun s => s.discard != 0) (stepOrForgive step) fuel).run s = .ok false
        (leaves ((whileLoop (fun s => s.discard != 0) (stepOrForgive step) fuel).run s)) ∨
      (leaves ((whileLoop (fun s => s.discard != 0) (stepOrForgive step) fuel).run s)).Settled := by
  induction fuel generalizing s with
  | zero =>
    rw [run_whileLoop_zero]
    by_cases owed : s.discard = 0
    · exact .inr (owing.settled owed)
    · left
      simp [owed]
  | succ fuel ih =>
    by_cases owed : s.discard = 0
    · rw [run_whileLoop_stop (by simp [owed])]
      exact .inr (owing.settled owed)
    · rw [run_whileLoop_step (by simp [owed]), run_bind]
      have reached := hstep.owing owing
      rw [run_stepOrForgive]
      cases run : step.run s with
      | ok a t => rw [run] at reached; exact ih reached
      | error e t => rw [run] at reached; exact .inr ⟨reached.whole, rfl⟩

/-! ### Advancing is pulling without the items -/

/-- When everything skipped has been pulled, the two runs have met. -/
theorem Skips.meet (h : Skips popped r s t) (all : popped.length = r * 2) : t = s := by
  obtain ⟨m, size⟩ := h.whole
  have pending := h.pending
  rw [← all, List.drop_left] at pending
  have discard := h.discard
  rw [List.length_append] at size discard
  have nothing : t.discard = s.discard := by
    rw [discard, h.kept]
    omega
  cases s
  cases t
  simp only [mk.injEq]
  exact ⟨h.core.symm, pending, nothing⟩

theorem Skips.pull_queued {queued rest : List α} (h : Skips popped r s t)
    (pending : s.pending = queued ++ rest) :
    Skips (popped ++ queued) r { s with pending := rest } t := by
  have same : popped ++ queued ++ rest = popped ++ s.pending := by
    rw [pending, List.append_assoc]
  constructor
  · exact h.core
  · exact h.kept
  · rw [same]; exact h.whole
  · rw [same]; exact h.pending
  · rw [same]; exact h.discard

/-- While the pulling run steps from an empty queue, the skipping run still owes frames and takes
the same step. -/
theorem Skips.follow (hstep : Oblivious step) (h : Skips popped r s t)
    (empty : s.pending = []) (few : popped.length < r * 2) (run : step.run s = .ok () u) :
    ∃ t', t.discard ≠ 0 ∧ step.run t = .ok () t' ∧ Skips popped r u t' := by
  obtain ⟨t', run', related⟩ := (hstep popped r).ok_left h run
  have owed := h.discard
  rw [empty, List.append_nil] at owed
  exact ⟨t', by omega, run', related⟩

/-- While the pulling run fills its queue, the skipping run goes through the same steps. -/
theorem Skips.follow_fill (hstep : Oblivious step)
    (loop : Loops (fun s => s.pending.isEmpty) step s u) (h : Skips popped r s t)
    (few : popped.length < r * 2) :
    ∃ t', Skips popped r u t' ∧ ∀ v, Loops (fun s => s.discard != 0) (stepOrForgive step) t' v →
      Loops (fun s => s.discard != 0) (stepOrForgive step) t v := by
  induction loop generalizing t with
  | done => exact ⟨t, h, fun _ => id⟩
  | next empty run _ ih =>
    obtain ⟨t', owed, run', related⟩ := h.follow hstep (List.isEmpty_iff.mp empty) few run
    obtain ⟨t'', met, rest⟩ := ih related
    exact ⟨t'', met, fun v ends =>
      .next (by simpa using owed) (run_stepOrForgive_ok.mpr run') (rest v ends)⟩

/-- Where a pull leads, the skipping run follows. -/
theorem Skips.of_pulls (hstep : Oblivious step) (pulls : Pulls step s items u)
    (h : Skips popped r s t) (count : popped.length + items.length = r * 2) :
    Loops (fun s => s.discard != 0) (stepOrForgive step) t u := by
  induction pulls generalizing popped t with
  | nil s =>
    have met := h.meet (by simpa using count)
    subst met
    exact .done (by simp [h.kept])
  | @cons s v u item rest items loop pending _ ih =>
    rw [List.length_cons] at count
    obtain ⟨t', related, back⟩ := h.follow_fill hstep loop (by omega)
    apply back
    have pulled : Skips (popped ++ [item]) r { v with pending := rest } t' :=
      related.pull_queued pending
    apply ih pulled
    rw [List.length_append, List.length_singleton]
    omega

/-- Where the skipping run leads, a pull of the skipped items leads too. -/
theorem Skips.of_loops (hstep : Oblivious step)
    (loop : Loops (fun s => s.discard != 0) (stepOrForgive step) t u) (h : Skips popped r s t)
    (few : popped.length ≤ r * 2) :
    ∃ items, popped.length + items.length = r * 2 ∧ Pulls step s items u := by
  induction loop generalizing popped s with
  | @done t stop =>
    -- Everything still to be pulled is queued.
    have owed := h.discard
    simp only [bne_eq_false_iff_eq] at stop
    obtain ⟨m, size⟩ := h.whole
    rw [List.length_append] at size owed
    have enough : r * 2 - popped.length ≤ s.pending.length := by omega
    let items := s.pending.take (r * 2 - popped.length)
    have pending : s.pending = items ++ s.pending.drop (r * 2 - popped.length) :=
      (List.take_append_drop _ _).symm
    have length : items.length = r * 2 - popped.length := by simp [items, enough]
    have met := (h.pull_queued pending).meet (by rw [List.length_append, length]; omega)
    exact ⟨items, by omega, met ▸ pulls_queued pending⟩
  | @next t t' u owes run _ ih =>
    have owed := h.discard
    simp only [bne_iff_ne] at owes
    obtain ⟨m, size⟩ := h.whole
    rw [List.length_append] at size owed
    -- The pulling run empties its queue, and takes the step from there.
    have drained := h.pull_queued (List.append_nil s.pending).symm
    obtain ⟨v, run', related⟩ := (hstep _ r).ok_right drained (run_stepOrForgive_ok.mp run)
    obtain ⟨items, count, pulls⟩ := ih related (by rw [List.length_append]; omega)
    rw [List.length_append] at count
    refine ⟨s.pending ++ items, by rw [List.length_append]; omega, ?_⟩
    apply (pulls_queued (List.append_nil s.pending).symm).append
    apply pulls.of_step rfl run'
    rintro rfl
    simp only [List.length_nil] at count
    omega

/-- Advancing over frames leaves what pulling the same number of frames leaves. -/
theorem skipped_iff_pulls (hstep : Oblivious step) (settled : s.Settled) :
    Skipped step frames s t ↔ ∃ items, items.length = frames * 2 ∧ Pulls step s items t := by
  obtain ⟨n, size⟩ := settled.whole
  by_cases enough : frames ≤ n
  · -- The queue holds all the frames.
    have queued : min (s.pending.length / 2) frames = frames := by omega
    have length : (s.pending.take (frames * 2)).length = frames * 2 := by
      rw [List.length_take]
      omega
    have first : Pulls step s _ _ := pulls_queued
      (List.take_append_drop (frames * 2) s.pending).symm
    simp only [Skipped, queued, Nat.sub_self, if_true]
    constructor
    · rintro rfl
      exact ⟨_, length, first⟩
    · rintro ⟨items, count, pulls⟩
      have start : Skips [] frames s { s with pending := s.pending.drop (frames * 2) } := by
        refine ⟨rfl, settled.nothing_owed, settled.whole, rfl, ?_⟩
        show s.discard = frames - s.pending.length / 2
        rw [settled.nothing_owed]
        omega
      cases start.of_pulls hstep pulls (by simpa using count) with
      | done => rfl
      | next owes => simp [settled.nothing_owed] at owes
  · -- The queue is dropped, and the rest is owed.
    have queued : min (s.pending.length / 2) frames = n := by omega
    have start : Skips [] frames s
        { s with pending := s.pending.drop (n * 2), discard := frames - n } := by
      refine ⟨rfl, settled.nothing_owed, settled.whole, ?_, ?_⟩
      · show s.pending.drop (n * 2) = s.pending.drop (frames * 2)
        rw [List.drop_eq_nil_of_le (by omega), List.drop_eq_nil_of_le (by omega)]
      · show frames - n = frames - s.pending.length / 2
        omega
    simp only [Skipped, queued, if_neg (show frames - n ≠ 0 by omega)]
    constructor
    · intro loop
      obtain ⟨items, count, pulls⟩ := start.of_loops hstep loop (by simp)
      exact ⟨items, by simpa using count, pulls⟩
    · rintro ⟨items, count, pulls⟩
      exact start.of_pulls hstep pulls (by simpa using count)

end Pulled
