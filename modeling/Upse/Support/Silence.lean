import Mathlib.Data.List.DropRight
import Upse.Support.Audio

/-!
# What the silence detector delivers

Whatever the blocks and the drains between them, the detector delivers the frames before the first
confirmed silence, and until then everything but the quiet frames it still withholds.
-/

namespace Upse

open ErrorState Tape

/-! ### Silence in a sequence -/

section Silence

variable {α : Type} {p : α → Bool} {r : ℕ} {items more : List α} {e : ℕ}

/-- A run of `r` quiet items begins at `e`, somewhere after an audible one. -/
structure SilentAt (p : α → Bool) (r : ℕ) (items : List α) (e : ℕ) : Prop where
  heard : ∃ j < e, ∃ x, items[j]? = some x ∧ p x = false
  inside : e + r ≤ items.length
  quiet : ∀ k, e ≤ k → k < e + r → ∀ x, items[k]? = some x → p x = true

/-- The first such run. -/
def FirstSilence (p : α → Bool) (r : ℕ) (items : List α) (e : ℕ) : Prop :=
  SilentAt p r items e ∧ ∀ e' < e, ¬ SilentAt p r items e'

/-- The quiet items after the last audible one, if there is one. -/
def withheld (p : α → Bool) (items : List α) : List α :=
  if items.all p then [] else items.rtakeWhile p

theorem SilentAt.append (h : SilentAt p r items e) : SilentAt p r (items ++ more) e := by
  have inside := h.inside
  have known (k : ℕ) (lt : k < items.length) : (items ++ more)[k]? = items[k]? :=
    List.getElem?_append_left lt
  obtain ⟨j, lt, x, found, audible⟩ := h.heard
  refine ⟨⟨j, lt, x, ?_, audible⟩, ?_, ?_⟩
  · rw [known j (by omega), found]
  · rw [List.length_append]
    omega
  · intro k low high x found
    rw [known k (by omega)] at found
    exact h.quiet k low high x found

theorem SilentAt.of_append (h : SilentAt p r (items ++ more) e) (inside : e + r ≤ items.length) :
    SilentAt p r items e := by
  have known (k : ℕ) (lt : k < items.length) : (items ++ more)[k]? = items[k]? :=
    List.getElem?_append_left lt
  obtain ⟨j, lt, x, found, audible⟩ := h.heard
  refine ⟨⟨j, lt, x, ?_, audible⟩, inside, ?_⟩
  · rw [← known j (by omega), found]
  · intro k low high x found
    rw [← known k (by omega)] at found
    exact h.quiet k low high x found

theorem FirstSilence.append (h : FirstSilence p r items e) : FirstSilence p r (items ++ more) e := by
  refine ⟨h.1.append, fun e' lt silent => h.2 e' lt (silent.of_append ?_)⟩
  have inside := h.1.inside
  omega

theorem FirstSilence.unique {e' : ℕ} (h : FirstSilence p r items e) (h' : FirstSilence p r items e') :
    e = e' := by
  rcases lt_trichotomy e e' with lt | same | lt
  · exact absurd h.1 (h'.2 e lt)
  · exact same
  · exact absurd h'.1 (h.2 e' lt)

theorem SilentAt.ends {x : α} (none : ∀ e, ¬ SilentAt p r items e)
    (h : SilentAt p r (items ++ [x]) e) : e + r = items.length + 1 := by
  have inside := h.inside
  rw [List.length_append, List.length_singleton] at inside
  by_contra other
  exact none e (h.of_append (by omega))

theorem SilentAt.quiet_at {init tail : List α} {x : α} (h : SilentAt p r (init ++ x :: tail) e)
    (low : e ≤ init.length) (high : init.length < e + r) : p x = true :=
  h.quiet init.length low high x (by rw [List.getElem?_append_right (le_refl _)]; simp)

theorem withheld_append {init tail : List α} {x : α} (audible : p x = false)
    (quiet : ∀ y ∈ tail, p y = true) : withheld p (init ++ x :: tail) = tail := by
  have someone : (init ++ x :: tail).all p = false := by simp [audible]
  unfold withheld
  rw [someone, if_neg (by decide)]
  induction tail using List.reverseRecOn with
  | nil =>
    rw [List.rtakeWhile_concat_neg]
    simp [audible]
  | append_singleton tail y ih =>
    rw [← List.cons_append, ← List.append_assoc, List.rtakeWhile_concat_pos _ _ _ (quiet y (by simp))]
    rw [ih (fun z mem => quiet z (List.mem_append_left _ mem)) (by simp [audible])]

end Silence

/-! ### One frame after another -/

namespace SilenceDetector

variable {F : Type} {quiet : F → Bool} {r : ℕ} {frames : List (F × F)} {drained : List F}
  {detector : SilenceDetector F}

/-- Both samples of a frame are quiet. -/
def quietFrame (quiet : F → Bool) (frame : F × F) : Bool := quiet frame.1 && quiet frame.2

/-- What a detector of this policy holds after some frames, `drained` having been delivered. -/
inductive Detects (quiet : F → Bool) (r : ℕ) (frames : List (F × F)) (drained : List F) :
    SilenceDetector F → Prop
  | listening (ready : List F) :
      (∀ frame ∈ frames, quietFrame quiet frame = true) → drained ++ ready = interleave frames →
      Detects quiet r frames drained ⟨quiet, r, false, false, [], ready⟩
  | withholding (init tail : List (F × F)) (last : F × F) (ready : List F) :
      frames = init ++ last :: tail → quietFrame quiet last = false →
      (∀ frame ∈ tail, quietFrame quiet frame = true) → tail.length < r →
      (∀ e, ¬ SilentAt (quietFrame quiet) r frames e) →
      drained ++ ready = interleave (init ++ [last]) →
      Detects quiet r frames drained ⟨quiet, r, true, false, interleave tail, ready⟩
  | ended (e : ℕ) (ready : List F) : FirstSilence (quietFrame quiet) r frames e →
      drained ++ ready = interleave (frames.take e) →
      Detects quiet r frames drained ⟨quiet, r, true, true, [], ready⟩

theorem not_silentAt_of_quiet {e : ℕ} (all : ∀ frame ∈ frames, quietFrame quiet frame = true) :
    ¬ SilentAt (quietFrame quiet) r frames e := by
  rintro ⟨⟨j, -, frame, found, audible⟩, -, -⟩
  rw [all frame (List.mem_of_getElem? found)] at audible
  cases audible

theorem not_silentAt_audible {frame : F × F} {e : ℕ} (pos : 0 < r)
    (none : ∀ e, ¬ SilentAt (quietFrame quiet) r frames e) (audible : quietFrame quiet frame = false) :
    ¬ SilentAt (quietFrame quiet) r (frames ++ [frame]) e := by
  intro silent
  have ends := silent.ends none
  rw [silent.quiet_at (by omega) (by omega)] at audible
  cases audible

theorem silentAt_of_tail {init tail : List (F × F)} {last frame : F × F}
    (audible : quietFrame quiet last = false) (all : ∀ frame ∈ tail, quietFrame quiet frame = true)
    (none : ∀ e, ¬ SilentAt (quietFrame quiet) r (init ++ last :: tail) e)
    (also : quietFrame quiet frame = true) :
    (tail.length + 1 = r →
        FirstSilence (quietFrame quiet) r (init ++ last :: tail ++ [frame]) (init.length + 1)) ∧
      (tail.length + 1 < r →
        ∀ e, ¬ SilentAt (quietFrame quiet) r (init ++ last :: tail ++ [frame]) e) := by
  have length : (init ++ last :: tail).length = init.length + 1 + tail.length := by
    rw [List.length_append, List.length_cons]
    omega
  constructor
  · intro enough
    refine ⟨⟨⟨init.length, by omega, last, ?_, audible⟩, ?_, ?_⟩, ?_⟩
    · rw [List.append_assoc, List.getElem?_append_right (le_refl _)]
      simp
    · rw [List.length_append, length, List.length_singleton]
      omega
    · intro k low high x found
      rw [List.append_assoc, List.getElem?_append_right (by omega), List.cons_append,
        List.getElem?_cons, if_neg (by omega)] at found
      rcases List.mem_append.mp (List.mem_of_getElem? found) with mem | mem
      · exact all x mem
      · rw [List.mem_singleton.mp mem]
        exact also
    · intro e lt silent
      have ends := silent.ends none
      rw [length] at ends
      omega
  · intro few e silent
    have ends := silent.ends none
    rw [length] at ends
    rw [List.append_assoc, List.cons_append] at silent
    rw [silent.quiet_at (by omega) (by omega)] at audible
    cases audible

theorem Detects.append_ended {more : List (F × F)} (h : Detects quiet r frames drained detector)
    (ended : detector.ended = true) : Detects quiet r (frames ++ more) drained detector := by
  cases h with
  | listening => cases ended
  | withholding => cases ended
  | ended e ready first delivered =>
    refine .ended e ready first.append ?_
    have inside := first.1.inside
    rw [delivered, List.take_append_of_le_length (by omega)]

theorem Detects.classify {more : List (F × F)} (pos : 0 < r)
    (h : Detects quiet r frames drained detector) (running : detector.ended = false) :
    Detects quiet r (frames ++ more) drained (detector.classify (interleave more)) := by
  induction more generalizing frames detector with
  | nil => rwa [List.append_nil]
  | cons frame more ih =>
    rw [interleave_cons, SilenceDetector.classify, List.append_cons]
    cases h with
    | ended => cases running
    | listening ready all delivered =>
      rw [if_pos rfl]
      cases loud : quietFrame quiet frame with
      | true =>
        have same : (quiet frame.1 && quiet frame.2) = true := loud
        simp only [same, Bool.not_true]
        refine ih (.listening _ ?_ ?_) rfl
        · intro other mem
          rcases List.mem_append.mp mem with mem | mem
          · exact all other mem
          · rwa [List.mem_singleton.mp mem]
        · rw [← List.append_assoc, delivered, interleave_append]
          rfl
      | false =>
        have same : (quiet frame.1 && quiet frame.2) = false := loud
        simp only [same, Bool.not_false]
        refine ih (.withholding frames [] frame _ rfl loud nofun pos ?_ ?_) rfl
        · exact fun e => not_silentAt_audible pos (fun e => not_silentAt_of_quiet all) loud
        · rw [← List.append_assoc, delivered, interleave_append]
          rfl
    | withholding init tail last ready split audible all few none delivered =>
      rw [if_neg (by simp)]
      cases loud : quietFrame quiet frame with
      | true =>
        have same : (quiet frame.1 && quiet frame.2) = true := loud
        have grown : interleave tail ++ [frame.1, frame.2] = interleave (tail ++ [frame]) := by
          rw [interleave_append]
          rfl
        have length : (interleave (tail ++ [frame])).length / 2 = tail.length + 1 := by
          rw [length_interleave, List.length_append, List.length_singleton]
          omega
        simp only [same, if_true, grown, length]
        subst split
        obtain ⟨enough, notEnough⟩ := silentAt_of_tail audible all none loud
        split
        next confirmed =>
          have first := enough (by omega)
          refine Detects.append_ended (.ended _ _ first ?_) rfl
          have parts : init ++ last :: tail ++ [frame] = (init ++ [last]) ++ (tail ++ [frame]) := by simp
          rw [delivered, parts, List.take_left' (by simp)]
        next =>
          refine ih (.withholding init (tail ++ [frame]) last ready ?_ audible ?_ ?_ ?_ delivered) rfl
          · rw [List.append_assoc]
            rfl
          · intro other mem
            rcases List.mem_append.mp mem with mem | mem
            · exact all other mem
            · rwa [List.mem_singleton.mp mem]
          · rw [List.length_append, List.length_singleton]
            omega
          · exact notEnough (by omega)
      | false =>
        have same : (quiet frame.1 && quiet frame.2) = false := loud
        simp only [same, Bool.false_eq_true, if_false]
        refine ih (.withholding frames [] frame _ rfl loud nofun pos ?_ ?_) rfl
        · exact fun e => not_silentAt_audible pos none loud
        · show drained ++ (ready ++ interleave tail ++ [frame.1, frame.2]) = _
          rw [← List.append_assoc, ← List.append_assoc, delivered, split]
          simp

/-! ### Any sequence of calls -/

/-- One call while a detector is fed. -/
inductive SilenceCall (F : Type) where
  | push (frames : List (F × F))
  | drain (frames : ℕ)

/-- Calls in order, and what they drain. -/
def perform : List (SilenceCall F) → EStateM SilenceError (SilenceDetector F) (List F)
  | [] => return []
  | .push frames :: rest => do
    push (interleave frames)
    perform rest
  | .drain frames :: rest => do
    let drained ← drain (frames * 2)
    let more ← perform rest
    return drained ++ more

/-- The frames some calls push, in order. -/
def pushed : List (SilenceCall F) → List (F × F)
  | [] => []
  | .push frames :: rest => frames ++ pushed rest
  | .drain _ :: rest => pushed rest

theorem Detects.push {more : List (F × F)} (pos : 0 < r)
    (h : Detects quiet r frames drained detector) :
    ∃ detector', (SilenceDetector.push (interleave more)).run detector = .ok () detector' ∧
      Detects quiet r (frames ++ more) drained detector' := by
  have even : ¬ (interleave more).length % 2 ≠ 0 := by
    rw [length_interleave]
    omega
  unfold SilenceDetector.push
  rw [run_bind, run_throwIf, if_neg even]
  dsimp only
  rw [run_bind, run_get]
  dsimp only
  split
  next idle =>
    refine ⟨detector, rfl, ?_⟩
    rcases Bool.or_eq_true _ _ |>.mp idle with ended | empty
    · exact h.append_ended ended
    · rw [interleave_eq_nil.mp (List.isEmpty_iff.mp empty), List.append_nil]
      exact h
  next active =>
    refine ⟨_, rfl, h.classify pos ?_⟩
    simp only [Bool.or_eq_true, not_or, Bool.not_eq_true] at active
    exact active.1

theorem Detects.drain {count : ℕ} (h : Detects quiet r frames drained detector) :
    ∃ out detector', (SilenceDetector.drain (count * 2)).run detector = .ok out detector' ∧
      Detects quiet r frames (drained ++ out) detector' := by
  have even : ¬ count * 2 % 2 ≠ 0 := by omega
  unfold SilenceDetector.drain
  rw [run_bind, run_throwIf, if_neg even]
  dsimp only
  rw [run_bind, run_get]
  refine ⟨_, _, rfl, ?_⟩
  have kept (ready : List F) (n : ℕ) :
      drained ++ ready.take n ++ ready.drop n = drained ++ ready := by
    rw [List.append_assoc, List.take_append_drop]
  cases h with
  | listening ready all delivered => exact .listening _ all ((kept _ _).trans delivered)
  | withholding init tail last ready split audible all few none delivered =>
    exact .withholding init tail last _ split audible all few none ((kept _ _).trans delivered)
  | ended e ready first delivered => exact .ended e _ first ((kept _ _).trans delivered)

theorem Detects.perform {calls : List (SilenceCall F)} (pos : 0 < r)
    (h : Detects quiet r frames drained detector) :
    ∃ out detector', (perform calls).run detector = .ok out detector' ∧
      Detects quiet r (frames ++ pushed calls) (drained ++ out) detector' := by
  induction calls generalizing frames drained detector with
  | nil =>
    refine ⟨[], detector, rfl, ?_⟩
    rwa [pushed, List.append_nil, List.append_nil]
  | cons call rest ih =>
    cases call with
    | push more =>
      obtain ⟨middle, first, h⟩ := h.push pos
      obtain ⟨out, detector', second, h⟩ := ih h
      refine ⟨out, detector', run_bind_ok.mpr ⟨(), middle, first, second⟩, ?_⟩
      rwa [pushed, ← List.append_assoc]
    | drain count =>
      obtain ⟨front, middle, first, h⟩ := h.drain
      obtain ⟨out, detector', second, h⟩ := ih h
      refine ⟨front ++ out, detector',
        run_bind_ok.mpr ⟨front, middle, first, run_bind_ok.mpr ⟨out, _, second, rfl⟩⟩, ?_⟩
      rwa [pushed, ← List.append_assoc]

/-- However the frames are split into blocks and the drains lie between them, the detector has
delivered or holds ready the frames before the first confirmed silence, or before one all but those
it withholds; finishing releases the withheld ones and nothing else. -/
theorem perform_exact (calls : List (SilenceCall F)) (created : new quiet r = .ok detector) :
    ∃ out detector', (perform calls).run detector = .ok out detector' ∧
      (detector'.ended = true ↔ ∃ e, SilentAt (quietFrame quiet) r (pushed calls) e) ∧
      (∀ e, FirstSilence (quietFrame quiet) r (pushed calls) e →
        out ++ detector'.ready = interleave ((pushed calls).take e) ∧ detector'.finish = detector') ∧
      (detector'.ended = false →
        out ++ detector'.ready ++ interleave (withheld (quietFrame quiet) (pushed calls)) =
            interleave (pushed calls) ∧
          detector'.finish.ready =
            detector'.ready ++ interleave (withheld (quietFrame quiet) (pushed calls)) ∧
          detector'.finish.candidate = []) := by
  have pos : 0 < r ∧ detector = ⟨quiet, r, false, false, [], []⟩ := by
    unfold new at created
    split at created
    · cases created
    next positive => exact ⟨by omega, (Except.ok.inj created).symm⟩
  obtain ⟨positive, rfl⟩ := pos
  have start : Detects quiet r [] [] ⟨quiet, r, false, false, [], []⟩ := .listening [] nofun rfl
  obtain ⟨out, detector', ran, h⟩ := start.perform positive
  rw [List.nil_append, List.nil_append] at h
  refine ⟨out, detector', ran, ?_⟩
  cases h with
  | listening ready all delivered =>
    have none : ∀ e, ¬ SilentAt (quietFrame quiet) r (pushed calls) e :=
      fun e => not_silentAt_of_quiet all
    have nothing : withheld (quietFrame quiet) (pushed calls) = [] := by
      unfold withheld
      rw [if_pos (List.all_eq_true.mpr all)]
    refine ⟨⟨nofun, fun ⟨e, silent⟩ => absurd silent (none e)⟩,
      fun e first => absurd first.1 (none e), fun _ => ?_⟩
    rw [nothing]
    exact ⟨by rw [interleave_nil, List.append_nil, delivered], rfl, rfl⟩
  | withholding init tail last ready split audible all few none delivered =>
    have kept : withheld (quietFrame quiet) (pushed calls) = tail := by
      rw [split]
      exact withheld_append audible all
    refine ⟨⟨nofun, fun ⟨e, silent⟩ => absurd silent (none e)⟩,
      fun e first => absurd first.1 (none e), fun _ => ?_⟩
    rw [kept]
    refine ⟨?_, rfl, rfl⟩
    rw [delivered, split, ← interleave_append, List.append_assoc]
    rfl
  | ended e ready first delivered =>
    refine ⟨⟨fun _ => ⟨e, first.1⟩, fun _ => rfl⟩, ?_, nofun⟩
    intro e' other
    rw [other.unique first]
    exact ⟨delivered, rfl⟩

/-- An audible frame and a silence of two, over three blocks with a drain between them. -/
theorem perform_exact_sample : ∃ (detector detector' : SilenceDetector ℕ) (out : List ℕ),
    new (· ≤ 1) 2 = .ok detector ∧
      (perform [.push [(0, 0), (5, 5)], .drain 1, .push [(1, 0)], .push [(1, 1), (7, 7)]]).run
        detector = .ok out detector' ∧
      detector'.ended = true ∧ out ++ detector'.ready = [0, 0, 5, 5] := by
  obtain ⟨detector, created⟩ : ∃ detector, new (fun sample : ℕ => sample ≤ 1) 2 = .ok detector :=
    ⟨_, rfl⟩
  obtain ⟨out, detector', ran, ended, silence, -⟩ := perform_exact
    [.push [(0, 0), (5, 5)], .drain 1, .push [(1, 0)], .push [(1, 1), (7, 7)]] created
  have first : FirstSilence (quietFrame fun sample : ℕ => sample ≤ 1) 2
      [(0, 0), (5, 5), (1, 0), (1, 1), (7, 7)] 2 := by
    refine ⟨⟨⟨1, by decide, (5, 5), rfl, rfl⟩, by decide, ?_⟩, ?_⟩
    · intro k low high x found
      obtain rfl | rfl : k = 2 ∨ k = 3 := by omega
      · cases found
        rfl
      · cases found
        rfl
    · rintro e lt ⟨⟨j, below, x, found, audible⟩, -, -⟩
      obtain rfl : j = 0 := by omega
      cases found
      cases audible
  exact ⟨detector, detector', out, created, ran, ended.mpr ⟨2, first.1⟩, (silence 2 first).1⟩

end SilenceDetector

end Upse
