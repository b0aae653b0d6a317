import Upse.Api.Timeline

/-!
# Advancing with silence detection

A render with detection runs ahead of what it delivers: the frames it has generated beyond that are
held by the detector.  An advance restarts the detector and goes on from where the machine is, so
that it keeps the position exactly when nothing was held.
-/

namespace Upse

open ErrorState Tape

namespace SilenceDetector

variable {F : Type} {detector : SilenceDetector F}

/-- The samples held for a later delivery. -/
def held (detector : SilenceDetector F) : List F := detector.ready ++ detector.candidate

/-- The detector holds whole frames, and withholds none before it has heard one. -/
structure Whole (detector : SilenceDetector F) : Prop where
  ready : detector.ready.length % 2 = 0
  candidate : detector.candidate.length % 2 = 0
  unheard : detector.heardAudio = false → detector.candidate = []

theorem whole_reset : detector.reset.Whole := ⟨rfl, rfl, fun _ => rfl⟩

theorem held_finish : detector.finish.held = detector.held := by
  unfold finish
  split
  · rfl
  · simp [held, commitCandidate]

theorem ended_finish : detector.finish.ended = detector.ended := by
  unfold finish
  split <;> rfl

theorem Whole.finish (whole : detector.Whole) : detector.finish.Whole := by
  unfold SilenceDetector.finish
  split
  · exact whole
  · have ready := whole.ready
    have candidate := whole.candidate
    refine ⟨?_, rfl, fun _ => rfl⟩
    show (detector.ready ++ detector.candidate).length % 2 = 0
    rw [List.length_append]
    omega

@[simp] theorem classify_nil : detector.classify [] = detector := by
  rw [classify]
  exact nofun

/-- What classifying frames makes of a running detector: the frames are held in order, up to a
confirmed ending. -/
structure Classified (detector : SilenceDetector F) (frames : List (F × F)) (lost : List F)
    (detector' : SilenceDetector F) : Prop where
  samples : detector'.held ++ lost = detector.held ++ interleave frames
  running : detector'.ended = false → lost = []
  stopped : detector'.ended = true → 2 ≤ lost.length
  whole : detector'.Whole

theorem Classified.cons {detector₁ detector' : SilenceDetector F} {frame : F × F}
    {frames : List (F × F)} {lost : List F} (h : Classified detector₁ frames lost detector')
    (held : detector₁.held = detector.held ++ [frame.1, frame.2]) :
    Classified detector (frame :: frames) lost detector' := by
  refine ⟨?_, h.running, h.stopped, h.whole⟩
  rw [h.samples, held, interleave_cons, List.append_assoc]
  rfl

theorem classified_classify (frames : List (F × F)) (running : detector.ended = false)
    (whole : detector.Whole) :
    ∃ lost, Classified detector frames lost (detector.classify (interleave frames)) := by
  induction frames generalizing detector with
  | nil =>
    refine ⟨[], ?_⟩
    rw [interleave_nil, classify_nil]
    exact ⟨rfl, fun _ => rfl, fun stopped => by simp [running] at stopped, whole⟩
  | cons frame frames ih =>
    obtain ⟨ready, candidate, unheard⟩ := whole
    rw [interleave_cons, classify]
    simp only
    split
    next leading =>
      -- Leading frames are ready at once.
      have empty := unheard leading
      obtain ⟨lost, classified⟩ := ih (show ended { detector with
        ready := detector.ready ++ [frame.1, frame.2]
        heardAudio := !(detector.quiet frame.1 && detector.quiet frame.2) } = false from running)
        ⟨by simp only [List.length_append, List.length_cons, List.length_nil]; omega, candidate,
          fun _ => empty⟩
      exact ⟨lost, classified.cons (by simp [held, empty])⟩
    next heard =>
      split
      next =>
        split
        next =>
          -- The ending is confirmed: the candidate and the rest of the block are lost.
          refine ⟨detector.candidate ++ frame.1 :: frame.2 :: interleave frames, ?_, nofun, ?_, ready,
            rfl, fun _ => rfl⟩
          · simp [held]
          · intro _
            simp only [List.length_append, List.length_cons]
            omega
        next =>
          obtain ⟨lost, classified⟩ := ih (show ended { detector with
            candidate := detector.candidate ++ [frame.1, frame.2] } = false from running)
            ⟨ready, by simp only [List.length_append, List.length_cons, List.length_nil]; omega,
              fun leading => absurd leading heard⟩
          exact ⟨lost, classified.cons (by simp [held])⟩
      next =>
        obtain ⟨lost, classified⟩ := ih (show ended { detector.commitCandidate with
          ready := detector.commitCandidate.ready ++ [frame.1, frame.2] } = false from running)
          ⟨by
            simp only [commitCandidate, List.length_append, List.length_cons, List.length_nil]
            omega, rfl, fun _ => rfl⟩
        exact ⟨lost, classified.cons (by simp [held, commitCandidate])⟩

theorem run_push_ok {frames : List (F × F)} {a : Unit} {detector' : SilenceDetector F}
    (running : detector.ended = false) :
    (push (interleave frames)).run detector = .ok a detector' ↔
      detector' = detector.classify (interleave frames) := by
  have even : ¬(interleave frames).length % 2 ≠ 0 := by
    rw [length_interleave]
    omega
  simp only [push, run_bind_ok, run_throwIf_ok, run_get_ok]
  constructor
  · rintro ⟨_, _, ⟨-, rfl⟩, _, _, ⟨rfl, rfl⟩, rest⟩
    cases frames with
    | nil =>
      simp only [running, interleave_nil, List.isEmpty_nil, Bool.or_true, if_true] at rest
      rw [interleave_nil, classify_nil]
      exact (run_pure_ok.mp rest).2.symm
    | cons frame frames =>
      simp only [running, interleave_cons, List.isEmpty_cons, Bool.or_self, Bool.false_eq_true,
        if_false] at rest
      exact (run_set_ok.mp rest).symm
  · rintro rfl
    refine ⟨⟨⟩, _, ⟨even, rfl⟩, _, _, ⟨rfl, rfl⟩, ?_⟩
    cases frames with
    | nil => simp [running]
    | cons frame frames => simp [running]

theorem run_drain_ok {frames : ℕ} {samples : List F} {detector' : SilenceDetector F}
    (le : frames ≤ detector.readyFrames) :
    (drain (frames * 2)).run detector = .ok samples detector' ↔
      samples = detector.ready.take (frames * 2) ∧
        detector' = { detector with ready := detector.ready.drop (frames * 2) } := by
  have all : min (frames * 2) detector.ready.length / 2 * 2 = frames * 2 := by
    unfold readyFrames at le
    omega
  simp only [drain, run_bind_ok, run_throwIf_ok, run_get_ok, run_set_ok, run_pure_ok]
  constructor
  · rintro ⟨_, _, ⟨-, rfl⟩, _, _, ⟨rfl, rfl⟩, _, _, rfl, rfl, rfl⟩
    rw [all]
    exact ⟨rfl, rfl⟩
  · rintro ⟨rfl, rfl⟩
    refine ⟨⟨⟩, _, ⟨by omega, rfl⟩, _, _, ⟨rfl, rfl⟩, ⟨⟩, _, rfl, ?_, ?_⟩ <;> rw [all]

end SilenceDetector

namespace Player

variable {σ E G F : Type} {source : FrameSource σ E} {amplitudes : Amplitudes G F}
  {q p t : Player σ G F} {d₀ d d' : SilenceDetector F} {raw more : List (Pcm × Pcm)}
  {blocks : List (List F)} {lost : List F}

theorem run_onDetector_ok {α : Type} {m : EStateM SilenceError (SilenceDetector F) α} {a : α}
    (found : p.silenceDetector = some d) :
    (onDetector m : PlayerM σ E G F α).run p = .ok a t ↔
      ∃ d', m.run d = .ok a d' ∧ t = { p with silenceDetector := some d' } := by
  simp only [onDetector, run_bind_ok, run_get_ok, run_okOr_ok, run_zoom_ok]
  constructor
  · rintro ⟨_, _, ⟨rfl, rfl⟩, _, _, ⟨same, rfl⟩, d', run, rfl⟩
    cases found.symm.trans same
    exact ⟨d', run, rfl⟩
  · rintro ⟨d', run, rfl⟩
    exact ⟨_, _, ⟨rfl, rfl⟩, d, _, ⟨found, rfl⟩, d', run, rfl⟩

theorem unrefused_onDetector {α : Type} {m : EStateM SilenceError (SilenceDetector F) α} :
    Unrefused p (onDetector m : PlayerM σ E G F α) := by
  unfold onDetector
  apply unrefused_get.bind
  intro _ _ _
  apply (unrefused_okOr _ fun _ => by exact nofun).bind
  intro _ _ _
  exact unrefused_zoom fun _ _ => by exact nofun

/-! ### What a render with detection has done since it began -/

/-- A player `p` with the detector `d` within a call that began at `q` with the detector `d₀`: what
was held and what was generated since is delivered, held, or lost to a confirmed ending. -/
structure Ahead (source : FrameSource σ E) (amplitudes : Amplitudes G F) (q : Player σ G F)
    (d₀ : SilenceDetector F) (raw : List (Pcm × Pcm)) (blocks : List (List F)) (lost : List F)
    (d : SilenceDetector F) (p : Player σ G F) : Prop where
  found : p.silenceDetector = some d
  plays : Plays source q.machine raw p.machine
  postMix : p.postMix = q.postMix.forward raw.length
  heard : p.heard = q.heard ++ blocks
  even : blocks.flatten.length % 2 = 0
  deliveredFrames : p.deliveredFrames = q.deliveredFrames + blocks.flatten.length / 2
  samples : blocks.flatten ++ d.held ++ lost =
    d₀.held ++ interleave (q.postMix.mixed amplitudes q.postMix.position raw)
  whole : d.Whole
  running : d.ended = false → d₀.ended = false ∧ lost = []
  stopped : d.ended = true → d₀.ended = false → 2 ≤ lost.length
  silenced : d₀.ended = true → raw = [] ∧ lost = []

namespace Ahead

theorem start (found : q.silenceDetector = some d₀) (whole : d₀.Whole) :
    Ahead source amplitudes q d₀ [] [] [] d₀ q :=
  ⟨found, .nil _, rfl, (List.append_nil _).symm, rfl, by simp, by simp [PostMixer.mixed], whole,
    fun running => ⟨running, rfl⟩, fun stopped running => by simp [running] at stopped,
    fun _ => ⟨rfl, rfl⟩⟩

variable (h : Ahead source amplitudes q d₀ raw blocks lost d p)

include h

theorem finish : Ahead source amplitudes q d₀ raw blocks lost d.finish
    { p with silenceDetector := some d.finish } := by
  refine ⟨rfl, h.plays, h.postMix, h.heard, h.even, h.deliveredFrames, ?_, h.whole.finish, ?_, ?_,
    h.silenced⟩
  · rw [SilenceDetector.held_finish]
    exact h.samples
  · rw [SilenceDetector.ended_finish]
    exact h.running
  · rw [SilenceDetector.ended_finish]
    exact h.stopped

theorem drain {frames : ℕ} (le : frames ≤ d.readyFrames) :
    Ahead source amplitudes q d₀ raw (blocks ++ [d.ready.take (frames * 2)]) lost
      { d with ready := d.ready.drop (frames * 2) }
      { p with
        silenceDetector := some { d with ready := d.ready.drop (frames * 2) }
        deliveredFrames := p.deliveredFrames + frames
        heard := p.heard ++ [d.ready.take (frames * 2)] } := by
  have length : (d.ready.take (frames * 2)).length = frames * 2 :=
    List.length_take_of_le (by unfold SilenceDetector.readyFrames at le; omega)
  have even := h.even
  have ready := h.whole.ready
  have flat : (blocks ++ [d.ready.take (frames * 2)]).flatten =
      blocks.flatten ++ d.ready.take (frames * 2) := by simp
  refine ⟨rfl, h.plays, h.postMix, ?_, ?_, ?_, ?_, ⟨?_, h.whole.candidate, h.whole.unheard⟩,
    h.running, h.stopped, h.silenced⟩
  · rw [h.heard, List.append_assoc]
  · rw [flat, List.length_append, length]
    omega
  · rw [flat, List.length_append, length]
    show p.deliveredFrames + frames = _
    rw [h.deliveredFrames]
    omega
  · rw [flat, ← h.samples]
    simp only [SilenceDetector.held, List.append_assoc]
    rw [← List.append_assoc (d.ready.take _), List.take_append_drop]
  · show (d.ready.drop (frames * 2)).length % 2 = 0
    rw [List.length_drop]
    omega

theorem push {machine : σ} (running : d.ended = false)
    (plays : Plays source p.machine more machine) :
    ∃ lost d', d' = d.classify
        (interleave (p.postMix.mixed amplitudes p.postMix.position more)) ∧
      Ahead source amplitudes q d₀ (raw ++ more) blocks lost d'
        { p with
          machine := machine
          postMix := p.postMix.forward more.length
          silenceDetector := some d' } := by
  obtain ⟨began, rfl⟩ := h.running running
  obtain ⟨lost, classified⟩ := SilenceDetector.classified_classify
    (p.postMix.mixed amplitudes p.postMix.position more) running h.whole
  refine ⟨lost, _, rfl, rfl, h.plays.append plays, ?_, h.heard, h.even, h.deliveredFrames, ?_,
    classified.whole, fun running => ⟨began, classified.running running⟩,
    fun stopped _ => classified.stopped stopped, fun silenced => by simp [began] at silenced⟩
  · show p.postMix.forward more.length = _
    rw [h.postMix, PostMixer.forward_forward, List.length_append]
  · have before := h.samples
    rw [List.append_nil] at before
    rw [List.append_assoc, classified.samples, ← List.append_assoc, before, List.append_assoc,
      PostMixer.mixed_append, interleave_append, h.postMix, PostMixer.mixed_forward,
      PostMixer.position_forward]

end Ahead

/-- What a render reports: an outcome, or a block its callback refused. -/
def reported : EStateM.Result (PlayerError E) (Player σ G F) (Option RenderOutcome) →
    Option (ℕ × Player σ G F)
  | .ok (some outcome) t => some (outcome.frames, t)
  | .error (.callback frames) t => some (frames, t)
  | _ => none

theorem reported_bind {α : Type} {m : PlayerM σ E G F α}
    {f : α → PlayerM σ E G F (Option RenderOutcome)} {n : ℕ} (hm : Unrefused p m)
    (run : reported ((m >>= f).run p) = some (n, t)) :
    ∃ a u, m.run p = .ok a u ∧ reported ((f a).run u) = some (n, t) := by
  rw [run_bind] at run
  cases ran : m.run p with
  | ok a u =>
    rw [ran] at run
    exact ⟨a, u, rfl, run⟩
  | error e u =>
    rw [ran] at run
    cases e with
    | callback frames => exact absurd ran (hm _ _)
    | machine e => cases run
    | postMix e => cases run
    | silence e => cases run
    | missingDetector => cases run

/-- A call that began at `q` has delivered `n` frames and leaves `t`. -/
def Delivers (source : FrameSource σ E) (amplitudes : Amplitudes G F) (q : Player σ G F)
    (d₀ : SilenceDetector F) (n : ℕ) (t : Player σ G F) : Prop :=
  ∃ raw blocks lost d, Ahead source amplitudes q d₀ raw blocks lost d t ∧
    blocks.flatten.length = n * 2

theorem run_finishTimeline_ok (h : Ahead source amplitudes q d₀ raw blocks lost d p)
    (run : (finishTimeline : PlayerM σ E G F Unit).run p = .ok () t) :
    ∃ d', Ahead source amplitudes q d₀ raw blocks lost d' t := by
  unfold finishTimeline at run
  rw [run_bind_ok] at run
  obtain ⟨_, _, same, run⟩ := run
  obtain ⟨rfl, rfl⟩ := run_get_ok.mp same
  split at run
  · obtain ⟨d', modified, rfl⟩ := (run_onDetector_ok h.found).mp run
    obtain rfl := run_modify_ok.mp modified
    exact ⟨_, h.finish⟩
  · obtain rfl := (run_pure_ok.mp run).2
    exact ⟨_, h⟩

theorem unrefused_finishTimeline : Unrefused p (finishTimeline : PlayerM σ E G F Unit) := by
  unfold finishTimeline
  apply unrefused_get.bind
  intro _ _ _
  split
  · exact unrefused_onDetector
  · exact unrefused_pure _

theorem unrefused_finishDetected {delivered : ℕ} :
    Unrefused p (finishDetected delivered : PlayerM σ E G F RenderOutcome) := by
  unfold finishDetected
  apply unrefused_finishTimeline.bind
  intro _ _ _
  apply unrefused_get.bind
  intro _ _ _
  apply unrefused_onDetector.bind
  intro _ _ _
  split <;> exact unrefused_pure _

theorem finishDetected_delivers {delivered n : ℕ}
    (h : Ahead source amplitudes q d₀ raw blocks lost d p)
    (count : blocks.flatten.length = delivered * 2)
    (run : reported ((some <$> finishDetected delivered :
      PlayerM σ E G F (Option RenderOutcome)).run p) = some (n, t)) :
    Delivers source amplitudes q d₀ n t := by
  rw [run_map] at run
  cases ran : (finishDetected delivered : PlayerM σ E G F RenderOutcome).run p with
  | error e u =>
    rw [ran] at run
    cases e with
    | callback frames => exact absurd ran (unrefused_finishDetected _ _)
    | machine e => cases run
    | postMix e => cases run
    | silence e => cases run
    | missingDetector => cases run
  | ok outcome u =>
    rw [ran] at run
    cases run
    unfold finishDetected at ran
    simp only [run_bind_ok] at ran
    obtain ⟨_, v, finished, _, _, got, _, w, found, rest⟩ := ran
    obtain ⟨d, h⟩ := run_finishTimeline_ok h finished
    obtain ⟨rfl, rfl⟩ := run_get_ok.mp got
    obtain ⟨_, same, rfl⟩ := (run_onDetector_ok h.found).mp found
    obtain ⟨rfl, rfl⟩ := run_get_ok.mp same
    have unchanged : { v with silenceDetector := some d } = v := by rw [← h.found]
    rw [unchanged] at rest
    split at rest
    all_goals
      obtain ⟨rfl, rfl⟩ := run_pure_ok.mp rest
      exact ⟨_, _, _, _, h, count⟩

theorem detectedRounds_delivers {rounds maxFrames delivered n : ℕ}
    (h : Ahead source amplitudes q d₀ raw blocks lost d p)
    (count : blocks.flatten.length = delivered * 2)
    (run : reported ((detectedRounds source amplitudes maxFrames rounds delivered).run p) =
      some (n, t)) : Delivers source amplitudes q d₀ n t := by
  induction rounds generalizing p d raw blocks lost delivered with
  | zero => cases run
  | succ rounds ih =>
    rw [detectedRounds] at run
    split at run
    · obtain ⟨_, u, finished, run⟩ := reported_bind unrefused_finishTimeline run
      obtain ⟨d, h⟩ := run_finishTimeline_ok h finished
      obtain ⟨_, _, same, run⟩ := reported_bind unrefused_get run
      obtain ⟨rfl, rfl⟩ := run_get_ok.mp same
      obtain ⟨detector, _, found, run⟩ := reported_bind unrefused_onDetector run
      obtain ⟨_, same, rfl⟩ := (run_onDetector_ok h.found).mp found
      obtain ⟨rfl, rfl⟩ := run_get_ok.mp same
      have unchanged : { u with silenceDetector := some d } = u := by rw [← h.found]
      rw [unchanged] at run
      simp only at run
      split at run
      next =>
        -- Ready frames are delivered.
        obtain ⟨samples, _, doubled, run⟩ :=
          reported_bind (unrefused_okOr _ fun _ => by exact nofun) run
        obtain ⟨twice, rfl⟩ := run_okOr_ok.mp doubled
        obtain ⟨small, rfl⟩ := checkedMul_eq_some.mp twice
        have le : min (min d.readyFrames (maxFrames - delivered)) u.quantum.frames ≤
            d.readyFrames := Nat.le_trans (Nat.min_le_left _ _) (Nat.min_le_left _ _)
        generalize min (min d.readyFrames (maxFrames - delivered)) u.quantum.frames = frames at *
        obtain ⟨drained, _, drains, run⟩ := reported_bind unrefused_onDetector run
        obtain ⟨_, taken, rfl⟩ := (run_onDetector_ok h.found).mp drains
        obtain ⟨rfl, rfl⟩ := (SilenceDetector.run_drain_ok le).mp taken
        obtain ⟨_, _, added, run⟩ := reported_bind (unrefused_okOr _ fun _ => by exact nofun) run
        obtain ⟨sum, rfl⟩ := run_okOr_ok.mp added
        obtain ⟨-, rfl⟩ := checkedAdd_eq_some.mp sum
        have length : (d.ready.take (frames * 2)).length = frames * 2 :=
          List.length_take_of_le (by unfold SilenceDetector.readyFrames at le; omega)
        obtain ⟨action, _, delivers, run⟩ := reported_bind unrefused_deliverBlock run
        obtain ⟨-, -, rfl⟩ := (run_deliverBlock_ok small length).mp delivers
        have count' : (blocks ++ [d.ready.take (frames * 2)]).flatten.length =
            (delivered + frames) * 2 := by
          rw [List.flatten_append, List.flatten_singleton, List.length_append, length, count]
          omega
        cases action with
        | «continue» => exact ih (h.drain le) count' run
        | stop =>
          cases run
          exact ⟨_, _, _, _, h.drain le, count'⟩
        | error =>
          cases run
          exact ⟨_, _, _, _, h.drain le, count'⟩
      next =>
        split at run
        next =>
          cases run
          exact ⟨_, _, _, _, h, count⟩
        next going =>
          have running : d.ended = false := by
            by_contra ended
            exact going (.inl (eq_true_of_ne_false ended))
          split at run
          next => exact ih h count run
          next =>
            -- A quantum is rendered ahead.
            obtain ⟨samples, _, generated, run⟩ := reported_bind unrefused_generate run
            obtain ⟨more, machine, length, plays, -, -, -, rfl, rfl⟩ := run_generate_ok.mp generated
            obtain ⟨lost', d', pushed, h'⟩ := h.push running plays
            obtain ⟨_, _, pushes, run⟩ := reported_bind unrefused_onDetector run
            obtain ⟨d'', classified, rfl⟩ := (run_onDetector_ok (d := d) (by exact h.found)).mp pushes
            obtain rfl := (SilenceDetector.run_push_ok running).mp classified
            subst pushed
            rw [← length] at run
            exact ih h' count run
    · exact finishDetected_delivers h count run

/-! ### Histories with detection -/

namespace Call

/-- Whether a call left nothing behind that was generated before it: an advance does when the
detector is not idle. -/
def keeps : Call F → Bool
  | .advance _ _ idle => idle
  | .render _ _ _ | .refused _ _ _ => true

/-- The samples a call delivered. -/
def samples : Call F → List F
  | .render _ _ samples | .refused _ _ samples => samples
  | .advance _ _ _ => []

end Call

variable {call : Call F} {calls : List (Call F)} {u : Player σ G F}

/-- Where a history with detection has brought a player: of the samples generated so far, the ones
not accounted for by the calls are `dropped` by advances, `lost` to a confirmed ending, or held. -/
structure Reached (source : FrameSource σ E) (q : Player σ G F) (calls : List (Call F))
    (raw : List (Pcm × Pcm)) (dropped lost : ℕ) (d : SilenceDetector F) (p : Player σ G F) : Prop where
  found : p.silenceDetector = some d
  plays : Plays source q.machine raw p.machine
  postMix : p.postMix = q.postMix.forward raw.length
  whole : d.Whole
  count : raw.length * 2 = Call.total calls * 2 + dropped + lost + d.held.length
  kept : dropped = 0 ↔ ∀ call ∈ calls, call.keeps = true
  running : d.ended = false → lost = 0
  stopped : d.ended = true → 0 < lost

theorem Delivers.reached {dropped lost n : ℕ} (h : Reached source q calls raw dropped lost d p)
    (delivers : Delivers source amplitudes p d n t) (frames : call.frames = n)
    (keeps : call.keeps = true) :
    ∃ raw lost d, Reached source q (calls ++ [call]) raw dropped lost d t := by
  obtain ⟨more, blocks, lost', d', ahead, delivered⟩ := delivers
  have samples := congrArg List.length ahead.samples
  simp only [List.length_append, length_interleave, PostMixer.length_mixed] at samples
  have count := h.count
  refine ⟨raw ++ more, lost + lost'.length, d', ahead.found, h.plays.append ahead.plays, ?_,
    ahead.whole, ?_, ?_, ?_, ?_⟩
  · rw [ahead.postMix, h.postMix, PostMixer.forward_forward, List.length_append]
  · rw [Call.total_snoc, frames, List.length_append]
    omega
  · rw [h.kept]
    simp only [List.mem_append, List.mem_singleton, or_imp, forall_and, forall_eq, keeps, and_true]
  · intro running
    obtain ⟨before, rfl⟩ := ahead.running running
    exact h.running before
  · intro stopped
    cases before : d.ended with
    | true =>
      have := h.stopped before
      omega
    | false =>
      have := ahead.stopped stopped before
      omega

theorem idle_iff (found : p.silenceDetector = some d) :
    p.idle = true ↔ d.held = [] ∧ d.ended = false := by
  unfold idle SilenceDetector.held
  rw [found]
  simp [List.isEmpty_iff, and_assoc]

theorem run_render_detected {rounds maxFrames : ℕ} (found : p.silenceDetector = some d) :
    (Player.render source amplitudes rounds maxFrames).run p =
      (detectedRounds source amplitudes maxFrames rounds 0).run p := by
  unfold Player.render
  rw [run_bind, run_get]
  simp only [found]
  rfl

theorem Next.reached {dropped lost : ℕ} (h : Reached source q calls raw dropped lost d p)
    (next : Next source amplitudes p call t) :
    ∃ raw dropped lost d, Reached source q (calls ++ [call]) raw dropped lost d t := by
  cases next with
  | @render _ _ requested outcome blocks small run heard =>
    rw [run_render_detected h.found] at run
    obtain ⟨raw, lost, d, reached⟩ : ∃ raw lost d,
        Reached source q (calls ++ [.render requested outcome blocks.flatten]) raw dropped lost d t :=
      (detectedRounds_delivers (.start h.found h.whole) rfl (congrArg reported run)).reached h rfl rfl
    exact ⟨raw, dropped, lost, d, reached⟩
  | @refused _ _ requested frames blocks small run heard =>
    rw [run_render_detected h.found] at run
    obtain ⟨raw, lost, d, reached⟩ : ∃ raw lost d,
        Reached source q (calls ++ [.refused requested frames blocks.flatten]) raw dropped lost d t :=
      (detectedRounds_delivers (.start h.found h.whole) rfl (congrArg reported run)).reached h rfl rfl
    exact ⟨raw, dropped, lost, d, reached⟩
  | advance small run =>
    obtain ⟨more, machine, plays, length, fits, left, rfl⟩ := run_advance_ok.mp run
    have count := h.count
    refine ⟨raw ++ more, dropped + lost + d.held.length, 0, d.reset, ?_, ?_, ?_,
      SilenceDetector.whole_reset, ?_, ?_, fun _ => rfl, nofun⟩
    · rw [left, h.found]
      rfl
    · rw [left]
      exact h.plays.append plays
    · rw [left, h.postMix, PostMixer.forward_forward, List.length_append]
    · rw [Call.total_snoc, List.length_append]
      show _ = (_ + (t.settle more.length).frames) * 2 + _ + 0 + 0
      rw [frames_settle]
      omega
    · have kept := h.kept
      have lostIff : lost = 0 ↔ d.ended = false := by
        have running := h.running
        have stopped := h.stopped
        cases ended : d.ended with
        | true =>
          have some := stopped ended
          simp only [Bool.true_eq_false, iff_false]
          omega
        | false => exact iff_of_true (running ended) rfl
      have idle := idle_iff h.found
      rw [← List.length_eq_zero_iff, ← lostIff] at idle
      simp only [List.mem_append, List.mem_singleton, or_imp, forall_and, forall_eq, ← kept]
      show _ ↔ dropped = 0 ∧ p.idle = true
      rw [idle]
      omega

/-! ### When an advance keeps the position -/

/-- The frame of the timeline at a position of an uninterrupted playback from the start. -/
def FrameAt (source : FrameSource σ E) (amplitudes : Amplitudes G F) (q : Player σ G F)
    (position : ℕ) (left right : F) : Prop :=
  ∃ before frame machine, Plays source q.machine (before ++ [frame]) machine ∧
    before.length = position ∧ left = q.postMix.mix amplitudes position frame.1 ∧
    right = q.postMix.mix amplitudes position frame.2

theorem Delivers.first {dropped lost n : ℕ} {left right : F} {rest : List F} {blocks : List (List F)}
    (h : Reached source q calls raw dropped lost d p) (fresh : q.postMix.position = 0)
    (empty : d.held = []) (delivers : Delivers source amplitudes p d n t)
    (heard : t.heard = p.heard ++ blocks) (samples : blocks.flatten = left :: right :: rest) :
    FrameAt source amplitudes q raw.length left right := by
  obtain ⟨more, blocks', lost', d', ahead, -⟩ := delivers
  obtain rfl : blocks = blocks' := List.append_cancel_left (heard.symm.trans ahead.heard)
  have played := ahead.samples
  rw [empty, List.nil_append, samples, h.postMix, PostMixer.mixed_forward,
    PostMixer.position_forward, fresh, Nat.zero_add] at played
  cases more with
  | nil => cases played
  | cons frame more =>
    have plays : Plays source p.machine ([frame] ++ more) t.machine := ahead.plays
    obtain ⟨middle, first, -⟩ := plays.split
    rw [PostMixer.mixed, interleave_cons] at played
    injection played with first' played
    injection played with second' played
    exact ⟨raw, frame, middle, h.plays.append first, rfl, first', second'⟩

theorem Next.first {dropped lost : ℕ} {left right : F} {rest : List F}
    (h : Reached source q calls raw dropped lost d p) (fresh : q.postMix.position = 0)
    (empty : d.held = []) (next : Next source amplitudes p call t)
    (samples : call.samples = left :: right :: rest) :
    FrameAt source amplitudes q raw.length left right := by
  cases next with
  | render rounds small run heard =>
    rw [run_render_detected h.found] at run
    exact (detectedRounds_delivers (.start h.found h.whole) rfl (congrArg reported run)).first h fresh
      empty heard samples
  | refused rounds small run heard =>
    rw [run_render_detected h.found] at run
    exact (detectedRounds_delivers (.start h.found h.whole) rfl (congrArg reported run)).first h fresh
      empty heard samples
  | advance small run => cases samples

theorem Next.advanced {n : ℕ} {outcome : RenderOutcome} {idle : Bool}
    (h : Next source amplitudes p (.advance n outcome idle) t) :
    idle = p.idle ∧ t.deliveredFrames = t.postMix.position ∧
      ∀ d, t.silenceDetector = some d → d.held = [] ∧ d.ended = false := by
  cases h with
  | advance small run =>
    obtain ⟨more, machine, plays, length, fits, rfl, rfl⟩ := run_advance_ok.mp run
    refine ⟨rfl, rfl, fun d found => ?_⟩
    obtain ⟨before, -, rfl⟩ := Option.map_eq_some_iff.mp found
    exact ⟨rfl, rfl⟩

theorem reached_opened {machine : σ} {postMix : PostMixer G} {quiet : F → Bool} {required : ℕ}
    {callback : List (List F) → AudioBlock F → AudioAction} {quantum : Quantum}
    (made : SilenceDetector.new quiet required = .ok d₀) :
    Reached source (opened machine postMix (some d₀) callback quantum) [] [] 0 0 d₀
      (opened machine postMix (some d₀) callback quantum) := by
  unfold SilenceDetector.new at made
  split at made
  · cases made
  · cases made
    exact ⟨rfl, .nil _, rfl, ⟨rfl, rfl, fun _ => rfl⟩, rfl, iff_of_true rfl nofun, fun _ => rfl, nofun⟩

variable (source amplitudes) in
/-- With silence detection, an advance that skips the frames asked for counts them from the frames
delivered or skipped before, and goes on at their end, exactly when the detector held nothing at
this advance nor at any before it. -/
theorem advance_keeps_position_iff (machine : σ) (volume : G) (length : Option ℕ) (fade : ℕ)
    (callback : List (List F) → AudioBlock F → AudioAction) (quantum : Quantum)
    (quiet : F → Bool) (required : ℕ) (made : SilenceDetector.new quiet required = .ok d₀)
    (run : Run (Next source amplitudes)
      (opened machine (.new volume length fade) (some d₀) callback quantum) calls p)
    {n : ℕ} {outcome : RenderOutcome} {idle : Bool}
    (advances : Next source amplitudes p (.advance n outcome idle) t) (skips : outcome.frames = n) :
    (t.framesRendered = Call.total calls + n ∧
      ∀ call u left right rest, Next source amplitudes t call u →
        call.samples = left :: right :: rest →
        FrameAt source amplitudes
          (opened machine (.new volume length fade) (some d₀) callback quantum)
          (Call.total calls + n) left right) ↔
      (∀ call ∈ calls, call.keeps = true) ∧ p.idle = true := by
  have history : ∃ raw dropped lost d, Reached source
      (opened machine (.new volume length fade) (some d₀) callback quantum) calls raw dropped lost d p :=
    run.history (H := fun calls p => ∃ raw dropped lost d, Reached source _ calls raw dropped lost d p)
      ⟨_, _, _, _, reached_opened made⟩ fun _ _ _ _ ⟨_, _, _, _, reached⟩ next => next.reached reached
  obtain ⟨raw, dropped, lost, d, reached⟩ := history
  obtain ⟨raw', dropped', lost', d', reached'⟩ := advances.reached reached
  obtain ⟨same, position, settled⟩ := advances.advanced
  obtain ⟨empty, running⟩ := settled d' reached'.found
  obtain rfl := reached'.running running
  have count := reached'.count
  rw [Call.total_snoc, empty] at count
  have frames : t.framesRendered = raw'.length := by
    rw [framesRendered, position, reached'.postMix, PostMixer.position_forward]
    exact Nat.zero_add _
  have kept := reached'.kept
  simp only [List.mem_append, List.mem_singleton, or_imp, forall_and, forall_eq] at kept
  rw [show (Call.advance n outcome idle : Call F).keeps = p.idle from same] at kept
  rw [show (Call.advance n outcome idle : Call F).frames = n from skips] at count
  rw [← kept, frames]
  constructor
  · rintro ⟨whole, -⟩
    simp only [List.length_nil] at count
    omega
  · intro none
    have whole : raw'.length = Call.total calls + n := by
      simp only [List.length_nil] at count
      omega
    refine ⟨whole, fun call u left right rest next samples => ?_⟩
    rw [← whole]
    exact next.first reached' rfl empty samples

/-- A loud timeline, played in blocks of four frames with detection. -/
def countingDetected : Player ℕ ℕ (Pcm × ℕ) :=
  opened 0 (.new 1 none 0) (some ⟨fun _ => false, 1, false, false, [], []⟩) (fun _ _ => .continue)
    ⟨4, by decide, by decide⟩

/-- The player after a render, which takes at most nine rounds. -/
def countingAfter (n : ℕ) : Player ℕ ℕ (Pcm × ℕ) :=
  leaves ((Player.render counting tagging 9 n).run countingDetected)

theorem run_countingAfter {n : ℕ} (blocks : List (List (Pcm × ℕ))) (small : n < 2 ^ 64)
    (completes : returned ((Player.render counting tagging 9 n).run countingDetected) =
      some (some (.complete n)))
    (heard : (countingAfter n).heard = [] ++ blocks) :
    Run (Next counting tagging) countingDetected [.render n (.complete n) blocks.flatten]
      (countingAfter n) :=
  .single (.render 9 small (eq_ok_of_returned completes) heard)

/-- With one frame delivered of a block of four, an advance over one frame counts five, not two. -/
theorem advance_drops_held_frames : ∃ p t, Run (Next counting tagging) countingDetected
    [.render 1 (.complete 1) [(0, 1), (0, 1)]] p ∧
      Next counting tagging p (.advance 1 (.complete 1) p.idle) t ∧
      t.framesRendered ≠ Call.total [(.render 1 (.complete 1) [(0, 1), (0, 1)] : Call (Pcm × ℕ))] + 1 :=
  ⟨countingAfter 1, leaves ((Player.advance counting 1).run (countingAfter 1)),
    run_countingAfter [[(0, 1), (0, 1)]] (by decide) (by decide +kernel) (by decide +kernel),
    .advance (by decide) (eq_ok_of_returned (by decide +kernel)), by decide +kernel⟩

/-- With the whole block delivered, it counts what it skips and goes on there. -/
theorem advance_keeps_position_sample :
    (leaves ((Player.advance counting 2).run (countingAfter 4))).framesRendered = 6 := by
  have run := run_countingAfter (n := 4)
    [[(0, 1), (0, 1), (1, 1), (1, 1), (2, 1), (2, 1), (3, 1), (3, 1)]] (by decide) (by decide +kernel)
    (by decide +kernel)
  have advances : Next counting tagging (countingAfter 4) (.advance 2 (.complete 2) _)
      (leaves ((Player.advance counting 2).run (countingAfter 4))) :=
    .advance (by decide) (eq_ok_of_returned (by decide +kernel))
  have idle : (countingAfter 4).idle = true := by decide +kernel
  have keeps := advance_keeps_position_iff counting tagging 0 1 none 0 (fun _ _ => .continue)
    ⟨4, by decide, by decide⟩ (fun _ => false) 1 rfl run advances rfl
  exact (keeps.mpr ⟨by decide, idle⟩).1

end Player

end Upse
