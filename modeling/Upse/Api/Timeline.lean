import Upse.Api.Player
import Upse.Lib.Runs

/-!
# Playback as a stretch of one tape

A successful render plays the next frames of the machine and hands them, mixed at their places in the
timeline, to the callback; an advance plays them unheard.  However a timeline is cut into calls, each
delivered sample is therefore the one an uninterrupted render delivers at its place.
-/

namespace Upse

open ErrorState Tape

namespace PostMixer

variable {G F : Type} {amplitudes : Amplitudes G F} {mixer mixer' : PostMixer G}
  {raw : List (Pcm × Pcm)} {frames : ℕ}

/-- The mixer further along its timeline. -/
def forward (mixer : PostMixer G) (frames : ℕ) : PostMixer G :=
  { mixer with position := mixer.position + frames }

@[simp] theorem forward_forward (a b : ℕ) : (mixer.forward a).forward b = mixer.forward (a + b) := by
  simp [forward, Nat.add_assoc]

@[simp] theorem position_forward (frames : ℕ) :
    (mixer.forward frames).position = mixer.position + frames := rfl

theorem mixed_forward (frames position : ℕ) :
    (mixer.forward frames).mixed amplitudes position raw = mixer.mixed amplitudes position raw :=
  mixer.mixed_atPosition amplitudes _ _ _

theorem availableFrames_of_none (endless : mixer.endFrame = none) (n : ℕ) :
    mixer.availableFrames n = n := by
  rw [availableFrames, endless]

theorem availableFrames_of_some {stop : ℕ} (ends : mixer.endFrame = some stop) (n : ℕ) :
    mixer.availableFrames n = min n (stop - mixer.position) := by
  rw [availableFrames, ends]

theorem available_forward {n k : ℕ} (available : mixer.availableFrames n = n) (le : k + frames ≤ n) :
    (mixer.forward frames).availableFrames k = k := by
  have same : (mixer.forward frames).endFrame = mixer.endFrame := rfl
  cases ends : mixer.endFrame with
  | none => exact availableFrames_of_none (same.trans ends) k
  | some stop =>
    rw [availableFrames_of_some ends] at available
    rw [availableFrames_of_some (same.trans ends), position_forward]
    omega

theorem available_add {a b : ℕ} (first : mixer.availableFrames a = a)
    (second : (mixer.forward a).availableFrames b = b) : mixer.availableFrames (a + b) = a + b := by
  have same : (mixer.forward a).endFrame = mixer.endFrame := rfl
  cases ends : mixer.endFrame with
  | none => exact availableFrames_of_none ends (a + b)
  | some stop =>
    rw [availableFrames_of_some ends] at first
    rw [availableFrames_of_some (same.trans ends), position_forward] at second
    rw [availableFrames_of_some ends]
    omega

theorem availableFrames_eq_of_unended {requested : ℕ}
    (unended : (mixer.forward (mixer.availableFrames requested)).ended = false) :
    mixer.availableFrames requested = requested := by
  revert unended
  unfold ended availableFrames
  show Option.any _ mixer.endFrame = false → _
  cases mixer.endFrame with
  | none => exact fun _ => rfl
  | some stop =>
    intro unended
    have past : ¬stop ≤ mixer.position + min requested (stop - mixer.position) :=
      of_decide_eq_false unended
    show min requested (stop - mixer.position) = requested
    omega

theorem run_process_ok {out : List F} {length : ℕ} :
    (process amplitudes (interleave raw) length).run mixer = .ok out mixer' ↔
      length = raw.length * 2 ∧ mixer.availableFrames raw.length = raw.length ∧
        mixer.position + raw.length < 2 ^ 64 ∧
        out = interleave (mixer.mixed amplitudes mixer.position raw) ∧
        mixer' = mixer.forward raw.length := by
  have half : raw.length * 2 / 2 = raw.length := by omega
  simp only [process, run_bind_ok, run_throwIf_ok, run_get_ok, run_okOr_ok, run_set_ok, run_pure_ok,
    length_interleave, half, mixSamples_interleave, checkedAdd_eq_some]
  constructor
  · rintro ⟨_, _, ⟨-, rfl⟩, _, _, ⟨size, rfl⟩, _, _, ⟨rfl, rfl⟩, _, _, ⟨available, rfl⟩, _, _,
      ⟨⟨fits, rfl⟩, rfl⟩, _, _, rfl, rfl, rfl⟩
    exact ⟨(not_not.mp size).symm, not_not.mp available, fits, rfl, rfl⟩
  · rintro ⟨rfl, available, fits, rfl, rfl⟩
    exact ⟨⟨⟩, _, ⟨by omega, rfl⟩, ⟨⟩, _, ⟨fun h => h rfl, rfl⟩, _, _, ⟨rfl, rfl⟩, ⟨⟩, _,
      ⟨fun h => h available, rfl⟩, _, _, ⟨⟨fits, rfl⟩, rfl⟩, ⟨⟩, _, rfl, rfl, rfl⟩

theorem run_advance_ok {requested frames : ℕ} :
    (advance requested).run mixer = .ok frames mixer' ↔
      frames = mixer.availableFrames requested ∧ mixer.position + frames < 2 ^ 64 ∧
        mixer' = mixer.forward frames := by
  simp only [advance, run_bind_ok, run_get_ok, run_okOr_ok, run_set_ok, run_pure_ok,
    checkedAdd_eq_some]
  constructor
  · rintro ⟨_, _, ⟨rfl, rfl⟩, _, _, ⟨⟨fits, rfl⟩, rfl⟩, _, _, rfl, rfl, rfl⟩
    exact ⟨rfl, fits, rfl⟩
  · rintro ⟨rfl, fits, rfl⟩
    exact ⟨_, _, ⟨rfl, rfl⟩, _, _, ⟨⟨fits, rfl⟩, rfl⟩, ⟨⟩, _, rfl, rfl, rfl⟩

end PostMixer

theorem FrameSource.run_render_ok {σ E : Type} {source : FrameSource σ E} {frames : ℕ}
    {samples : List Pcm} {s t : σ} : (source.render frames).run s = .ok samples t ↔
      ∃ raw, raw.length = frames ∧ Plays source s raw t ∧ samples = interleave raw := by
  unfold render
  rw [run_map]
  cases ran : (collect source frames).run s with
  | error e u =>
    constructor
    · exact nofun
    · rintro ⟨raw, length, plays, -⟩
      rw [run_collect_ok.mpr ⟨length, plays⟩] at ran
      cases ran
  | ok raw u =>
    obtain ⟨length, plays⟩ := run_collect_ok.mp ran
    constructor
    · rintro ⟨⟩
      exact ⟨raw, length, plays, rfl⟩
    · rintro ⟨raw', length', plays', rfl⟩
      obtain ⟨rfl, rfl⟩ := plays.unique plays' (length.trans length'.symm)
      rfl

namespace Player

variable {σ E G F : Type} {source : FrameSource σ E} {amplitudes : Amplitudes G F}
  {p t u : Player σ G F} {raw more : List (Pcm × Pcm)} {samples : List F} {frames : ℕ}

theorem run_generate_ok : (generate source amplitudes frames).run p = .ok samples t ↔
    ∃ raw machine, raw.length = frames ∧ Plays source p.machine raw machine ∧
      frames * 2 < 2 ^ 64 ∧ p.postMix.availableFrames frames = frames ∧
      p.postMix.position + frames < 2 ^ 64 ∧
      samples = interleave (p.postMix.mixed amplitudes p.postMix.position raw) ∧
      t = { p with machine := machine, postMix := p.postMix.forward frames } := by
  simp only [generate, onMachine, onPostMix, run_bind_ok, run_okOr_ok, run_zoom_ok,
    FrameSource.run_render_ok, checkedMul_eq_some]
  constructor
  · rintro ⟨_, _, ⟨⟨small, rfl⟩, rfl⟩, _, _, ⟨machine, ⟨raw, rfl, plays, rfl⟩, rfl⟩, mixer, mixes, rfl⟩
    obtain ⟨-, available, fits, rfl, rfl⟩ := PostMixer.run_process_ok.mp mixes
    exact ⟨raw, machine, rfl, plays, small, available, fits, rfl, rfl⟩
  · rintro ⟨raw, machine, rfl, plays, small, available, fits, rfl, rfl⟩
    exact ⟨_, _, ⟨⟨small, rfl⟩, rfl⟩, _, _, ⟨machine, ⟨raw, rfl, plays, rfl⟩, rfl⟩, _,
      PostMixer.run_process_ok.mpr ⟨rfl, available, fits, rfl, rfl⟩, rfl⟩

theorem run_deliverBlock_ok {action : AudioAction} (small : frames * 2 < 2 ^ 64)
    (length : samples.length = frames * 2) :
    (deliverBlock samples frames : PlayerM σ E G F AudioAction).run p = .ok action t ↔
      p.deliveredFrames + frames < 2 ^ 64 ∧ action = p.callback p.heard ⟨samples, frames⟩ ∧
        t = { p with
          deliveredFrames := p.deliveredFrames + frames
          heard := p.heard ++ [samples] } := by
  have block : AudioBlock.new samples frames = some ⟨samples, frames⟩ :=
    if_pos (checkedMul_eq_some.mpr ⟨small, length⟩)
  simp only [deliverBlock, run_bind_ok, run_get_ok, run_okOr_ok, run_set_ok, run_modify_ok,
    run_pure_ok, checkedAdd_eq_some, block]
  constructor
  · rintro ⟨_, _, ⟨rfl, rfl⟩, _, _, ⟨⟨fits, rfl⟩, rfl⟩, _, _, rfl, _, _, ⟨⟨⟩, rfl⟩, _, _, rfl, rfl, rfl⟩
    exact ⟨fits, rfl, rfl⟩
  · rintro ⟨fits, rfl, rfl⟩
    exact ⟨_, _, ⟨rfl, rfl⟩, _, _, ⟨⟨fits, rfl⟩, rfl⟩, ⟨⟩, _, rfl, _, _, ⟨rfl, rfl⟩, ⟨⟩, _, rfl, rfl,
      rfl⟩

/-! ### What a call plays -/

/-- A player has played frames of its machine and handed them, mixed at their places, to its
callback. -/
structure Rendered (source : FrameSource σ E) (amplitudes : Amplitudes G F) (p : Player σ G F)
    (raw : List (Pcm × Pcm)) (t : Player σ G F) : Prop where
  plays : Plays source p.machine raw t.machine
  postMix : t.postMix = p.postMix.forward raw.length
  deliveredFrames : t.deliveredFrames = p.deliveredFrames + raw.length
  heard : ∃ blocks, t.heard = p.heard ++ blocks ∧
    blocks.flatten = interleave (p.postMix.mixed amplitudes p.postMix.position raw)
  silenceDetector : t.silenceDetector = p.silenceDetector
  callback : t.callback = p.callback
  quantum : t.quantum = p.quantum
  available : p.postMix.availableFrames raw.length = raw.length
  fits : p.postMix.position < 2 ^ 64 → p.postMix.position + raw.length < 2 ^ 64

/-- The player after one block was generated and delivered. -/
def delivering (amplitudes : Amplitudes G F) (p : Player σ G F) (raw : List (Pcm × Pcm))
    (machine : σ) : Player σ G F :=
  { p with
    machine := machine
    postMix := p.postMix.forward raw.length
    deliveredFrames := p.deliveredFrames + raw.length
    heard := p.heard ++ [interleave (p.postMix.mixed amplitudes p.postMix.position raw)] }

namespace Rendered

theorem refl (p : Player σ G F) : Rendered source amplitudes p [] p :=
  ⟨.nil _, rfl, rfl, ⟨[], (List.append_nil _).symm, rfl⟩, rfl, rfl, rfl,
    Nat.le_zero.mp (PostMixer.availableFrames_le _), id⟩

theorem trans (h : Rendered source amplitudes p raw t) (h' : Rendered source amplitudes t more u) :
    Rendered source amplitudes p (raw ++ more) u := by
  obtain ⟨blocks, heard, samples⟩ := h.heard
  obtain ⟨blocks', heard', samples'⟩ := h'.heard
  refine ⟨h.plays.append h'.plays, ?_, ?_, ⟨blocks ++ blocks', ?_, ?_⟩,
    h'.silenceDetector.trans h.silenceDetector, h'.callback.trans h.callback,
    h'.quantum.trans h.quantum, ?_, ?_⟩
  · rw [h'.postMix, h.postMix, PostMixer.forward_forward, List.length_append]
  · rw [h'.deliveredFrames, h.deliveredFrames, List.length_append, Nat.add_assoc]
  · rw [heard', heard, List.append_assoc]
  · rw [List.flatten_append, samples, samples', h.postMix, PostMixer.mixed_forward,
      PostMixer.position_forward, PostMixer.mixed_append, interleave_append]
  · rw [List.length_append]
    exact PostMixer.available_add h.available (h.postMix ▸ h'.available)
  · intro small
    have fits := h'.fits
    rw [h.postMix, PostMixer.position_forward] at fits
    rw [List.length_append, ← Nat.add_assoc]
    exact fits (h.fits small)

theorem block {machine : σ} (plays : Plays source p.machine raw machine)
    (available : p.postMix.availableFrames raw.length = raw.length)
    (fits : p.postMix.position + raw.length < 2 ^ 64) :
    Rendered source amplitudes p raw (p.delivering amplitudes raw machine) :=
  ⟨plays, rfl, rfl, ⟨_, rfl, List.flatten_singleton⟩, rfl, rfl, rfl, available, fun _ => fits⟩

end Rendered

/-! ### Direct rendering -/

variable {outcome : RenderOutcome} {maxFrames rounds delivered : ℕ}

/-- The outcome of a call that was not cut short. -/
def settle (p : Player σ G F) (frames : ℕ) : RenderOutcome :=
  if p.postMix.ended then .ended frames else .complete frames

@[simp] theorem frames_settle (p : Player σ G F) (frames : ℕ) : (p.settle frames).frames = frames := by
  unfold settle
  split <;> rfl

@[simp] theorem isEnd_settle (p : Player σ G F) (frames : ℕ) :
    (p.settle frames).isEnd = p.postMix.ended := by
  unfold settle
  cases p.postMix.ended <;> rfl

theorem run_finishCall : (finishCall delivered : PlayerM σ E G F RenderOutcome).run p =
    .ok (p.settle delivered) p := by
  unfold finishCall settle
  simp only [run_bind, run_get]
  split <;> rfl

theorem blockFrames_le {wanted : ℕ} : p.blockFrames wanted ≤ wanted :=
  Nat.le_trans (PostMixer.availableFrames_le _) (Nat.min_le_left _ _)

theorem blockFrames_small {wanted : ℕ} : p.blockFrames wanted * 2 < 2 ^ 64 := by
  have le : p.blockFrames wanted ≤ p.quantum.frames :=
    
    Nat.le_trans (PostMixer.availableFrames_le _) (Nat.min_le_right _ _)
  have fits := p.quantum.fits
  omega

theorem blockFrames_eq_zero {wanted : ℕ} (pos : 0 < wanted) :
    p.blockFrames wanted = 0 ↔ p.postMix.ended = true :=
  (PostMixer.ended_iff (Nat.lt_min.mpr ⟨pos, p.quantum.pos⟩)).symm

theorem run_directRounds_succ_ok (continues : ∀ heard block, p.callback heard block = .continue)
    (room : delivered < maxFrames) :
    (directRounds source amplitudes maxFrames (rounds + 1) delivered).run p = .ok outcome t ↔
      p.postMix.ended = true ∧ outcome = .ended delivered ∧ t = p ∨
      p.postMix.ended = false ∧ ∃ raw machine, Plays source p.machine raw machine ∧
        raw.length = p.blockFrames (maxFrames - delivered) ∧
        p.postMix.position + raw.length < 2 ^ 64 ∧ p.deliveredFrames + raw.length < 2 ^ 64 ∧
        delivered + raw.length < 2 ^ 64 ∧
        (directRounds source amplitudes maxFrames rounds (delivered + raw.length)).run
          (p.delivering amplitudes raw machine) = .ok outcome t := by
  have wanted : 0 < maxFrames - delivered := by omega
  rw [directRounds, if_pos room, run_bind_ok]
  simp only [run_get_ok]
  by_cases ended : p.postMix.ended = true
  · constructor
    · rintro ⟨_, _, ⟨rfl, rfl⟩, rest⟩
      rw [if_pos ended, run_pure_ok] at rest
      exact .inl ⟨ended, rest.1.symm, rest.2.symm⟩
    · rintro (⟨-, rfl, rfl⟩ | ⟨unended, -⟩)
      · refine ⟨_, _, ⟨rfl, rfl⟩, ?_⟩
        rw [if_pos ended]
        rfl
      · rw [ended] at unended
        cases unended
  · have some : ¬p.blockFrames (maxFrames - delivered) = 0 := fun h =>
      ended ((blockFrames_eq_zero wanted).mp h)
    have within : p.postMix.availableFrames (p.blockFrames (maxFrames - delivered)) =
        p.blockFrames (maxFrames - delivered) := PostMixer.availableFrames_eq_self (Nat.le_refl _)
    constructor
    · rintro ⟨_, _, ⟨rfl, rfl⟩, rest⟩
      rw [if_neg ended, if_neg some] at rest
      simp only [run_bind_ok, run_okOr_ok, checkedAdd_eq_some] at rest
      obtain ⟨samples, _, generated, _, _, ⟨⟨small, rfl⟩, rfl⟩, action, _, delivers, rest⟩ := rest
      obtain ⟨raw, machine, length, plays, fits, -, room', rfl, rfl⟩ := run_generate_ok.mp generated
      rw [run_deliverBlock_ok fits (by simp [length])] at delivers
      obtain ⟨countable, rfl, rfl⟩ := delivers
      refine .inr ⟨Bool.eq_false_iff.mpr ended, raw, machine, plays, length, length ▸ room',
        length ▸ countable, length ▸ small, ?_⟩
      rw [continues] at rest
      rw [delivering, length]
      exact rest
    · rintro (⟨h, -⟩ | ⟨-, raw, machine, plays, length, room', countable, small, rest⟩)
      · exact absurd h ended
      · rw [length] at room' countable small rest
        refine ⟨_, _, ⟨rfl, rfl⟩, ?_⟩
        rw [if_neg ended, if_neg some]
        simp only [run_bind_ok, run_okOr_ok, checkedAdd_eq_some]
        refine ⟨_, _, run_generate_ok.mpr ⟨raw, machine, length, plays, blockFrames_small, within,
          room', rfl, rfl⟩, _, _, ⟨⟨small, rfl⟩, rfl⟩, _, _,
          (run_deliverBlock_ok blockFrames_small (by simp [length])).mpr ⟨countable, rfl, rfl⟩, ?_⟩
        rw [continues]
        rw [delivering, length] at rest
        exact rest

theorem directRounds_sound (continues : ∀ heard block, p.callback heard block = .continue)
    (le : delivered ≤ maxFrames) (enough : maxFrames ≤ delivered + rounds)
    (run : (directRounds source amplitudes maxFrames rounds delivered).run p = .ok outcome t) :
    ∃ raw, Rendered source amplitudes p raw t ∧ delivered + raw.length ≤ maxFrames ∧
      outcome = t.settle (delivered + raw.length) ∧
      (t.postMix.ended = false → delivered + raw.length = maxFrames) := by
  have finished : delivered = maxFrames → (finishCall delivered : PlayerM σ E G F _).run p =
      .ok outcome t → ∃ raw, Rendered source amplitudes p raw t ∧
        delivered + raw.length ≤ maxFrames ∧ outcome = t.settle (delivered + raw.length) ∧
        (t.postMix.ended = false → delivered + raw.length = maxFrames) := by
    rintro rfl finish
    rw [run_finishCall] at finish
    cases finish
    exact ⟨[], .refl p, Nat.le_refl _, rfl, fun _ => rfl⟩
  induction rounds generalizing p delivered with
  | zero => exact finished (by omega) run
  | succ rounds ih =>
    by_cases room : delivered < maxFrames
    · obtain ⟨ended, rfl, rfl⟩ | ⟨unended, raw, machine, plays, length, fits, -, -, rest⟩ :=
        (run_directRounds_succ_ok continues room).mp run
      · refine ⟨[], .refl t, le, ?_, fun unended => ?_⟩
        · rw [settle, if_pos ended]
          rfl
        · rw [ended] at unended
          cases unended
      · have some : p.blockFrames (maxFrames - delivered) ≠ 0 := fun none => by
          rw [(blockFrames_eq_zero (by omega)).mp none] at unended
          cases unended
        have within : p.blockFrames (maxFrames - delivered) ≤ maxFrames - delivered := blockFrames_le
        obtain ⟨more, rendered, bound, settled, full⟩ :=
          ih (p := p.delivering amplitudes raw machine) continues (by omega) (by omega) rest
            (fun same finish => by
              rw [run_finishCall] at finish
              cases finish
              exact ⟨[], .refl _, by rw [same]; exact Nat.le_refl _, rfl, fun _ => same⟩)
        have available : p.postMix.availableFrames raw.length = raw.length :=
          PostMixer.availableFrames_eq_self (Nat.le_of_eq length)
        refine ⟨raw ++ more, (Rendered.block plays available fits).trans rendered, ?_, ?_, ?_⟩
        · rw [List.length_append]
          omega
        · rw [settled, List.length_append, Nat.add_assoc]
        · intro unended
          rw [List.length_append, ← Nat.add_assoc, full unended]
    · rw [directRounds, if_neg room] at run
      exact finished (by omega) run

/-- A direct render plays at most what was asked for, and all of it unless the timeline ends. -/
theorem renderDirect_sound (continues : ∀ heard block, p.callback heard block = .continue)
    (run : (renderDirect source amplitudes maxFrames).run p = .ok outcome t) :
    ∃ raw, Rendered source amplitudes p raw t ∧ raw.length ≤ maxFrames ∧
      outcome = t.settle raw.length ∧ (t.postMix.ended = false → raw.length = maxFrames) := by
  have sound := directRounds_sound continues (Nat.zero_le _) (by omega) run
  simpa only [Nat.zero_add] using sound

theorem directRounds_complete {machine : σ}
    (continues : ∀ heard block, p.callback heard block = .continue)
    (plays : Plays source p.machine raw machine) (count : delivered + raw.length = maxFrames)
    (available : p.postMix.availableFrames raw.length = raw.length)
    (fits : p.postMix.position + raw.length < 2 ^ 64)
    (countable : p.deliveredFrames + raw.length < 2 ^ 64) (small : maxFrames < 2 ^ 64)
    (enough : maxFrames ≤ delivered + rounds) :
    ∃ outcome t, (directRounds source amplitudes maxFrames rounds delivered).run p =
      .ok outcome t := by
  induction rounds generalizing p delivered raw with
  | zero => exact ⟨_, _, run_finishCall⟩
  | succ rounds ih =>
    by_cases room : delivered < maxFrames
    · have wanted : raw.length = maxFrames - delivered := by omega
      have pos : 0 < raw.length := by omega
      have unended : p.postMix.ended = false := by
        by_contra ended
        have none := (PostMixer.ended_iff pos).mp (eq_true_of_ne_false ended)
        omega
      have le : p.blockFrames (maxFrames - delivered) ≤ raw.length := wanted ▸ blockFrames_le
      have some : p.blockFrames (maxFrames - delivered) ≠ 0 := fun none => by
        rw [(blockFrames_eq_zero (by omega)).mp none] at unended
        cases unended
      obtain ⟨block, rest, rfl, length⟩ : ∃ block rest, raw = block ++ rest ∧
          block.length = p.blockFrames (maxFrames - delivered) :=
        ⟨_, _, (List.take_append_drop _ raw).symm, List.length_take_of_le le⟩
      obtain ⟨middle, first, second⟩ := plays.split
      rw [List.length_append] at *
      obtain ⟨outcome, t, run⟩ := ih (p := p.delivering amplitudes block middle)
        continues second (by omega : delivered + block.length + rest.length = maxFrames)
        (PostMixer.available_forward available (by omega)) (by
          show p.postMix.position + _ + _ < _
          omega) (by
          show p.deliveredFrames + _ + _ < _
          omega) (by omega)
      exact ⟨outcome, t, (run_directRounds_succ_ok continues room).mpr (.inr ⟨unended, block, middle,
        first, length, by omega, by omega, by omega, run⟩)⟩
    · rw [directRounds, if_neg room]
      exact ⟨_, _, run_finishCall⟩

/-! ### Advancing -/

theorem run_advanceChunks_ok :
    (advanceChunks source frames : PlayerM σ E G F Unit).run p = .ok () t ↔
      ∃ raw machine, raw.length = frames ∧ Plays source p.machine raw machine ∧
        t = { p with machine := machine } := by
  unfold advanceChunks
  split
  next none =>
    rw [none, run_pure_ok]
    constructor
    · rintro ⟨-, rfl⟩
      exact ⟨[], _, rfl, .nil _, rfl⟩
    · rintro ⟨raw, machine, empty, plays, rfl⟩
      obtain rfl := List.eq_nil_of_length_eq_zero empty
      cases plays
      exact ⟨rfl, rfl⟩
  next =>
    simp only [onMachine, FrameSource.advance, run_zoom_ok, run_skip_ok]
    constructor
    · rintro ⟨machine, ⟨raw, length, plays⟩, rfl⟩
      exact ⟨raw, machine, length, plays, rfl⟩
    · rintro ⟨raw, machine, length, plays, rfl⟩
      exact ⟨machine, ⟨raw, length, plays⟩, rfl⟩

theorem run_advance_ok {requested : ℕ} :
    (advance source requested : PlayerM σ E G F RenderOutcome).run p = .ok outcome t ↔
      ∃ raw machine, Plays source p.machine raw machine ∧
        raw.length = p.postMix.availableFrames requested ∧
        p.postMix.position + raw.length < 2 ^ 64 ∧
        t = { p with
          silenceDetector := p.silenceDetector.map SilenceDetector.reset
          machine := machine
          postMix := p.postMix.forward raw.length
          deliveredFrames := p.postMix.position + raw.length } ∧
        outcome = t.settle raw.length := by
  have again (n : ℕ) (h : n = p.postMix.availableFrames requested) :
      p.postMix.availableFrames n = n := PostMixer.availableFrames_eq_self (Nat.le_of_eq h)
  unfold advance
  simp only [run_bind_ok, run_modify_ok, run_get_ok, onPostMix, run_zoom_ok,
    PostMixer.run_advance_ok, run_finishCall]
  constructor
  · rintro ⟨_, _, rfl, _, _, ⟨rfl, rfl⟩, _, q, chunks, _, _, ⟨_, ⟨rfl, fits, rfl⟩, rfl⟩, _, _, rfl,
      rest⟩
    obtain ⟨raw, machine, length, plays, rfl⟩ := run_advanceChunks_ok.mp chunks
    simp only [← length, again _ length] at fits rest
    cases rest
    exact ⟨raw, machine, plays, length, fits, rfl, rfl⟩
  · rintro ⟨raw, machine, plays, length, fits, rfl, rfl⟩
    refine ⟨⟨⟩, _, rfl, _, _, ⟨rfl, rfl⟩, ⟨⟩, _, run_advanceChunks_ok.mpr
      ⟨raw, machine, length, plays, rfl⟩, _, _, ⟨_, ⟨rfl, ?_, rfl⟩, rfl⟩, ⟨⟩, _, rfl, ?_⟩
    · simp only [← length, again _ length]
      exact fits
    · simp only [← length, again _ length]
      rfl

/-! ### Calls refused by the callback -/

/-- A program does not report a refusal of the callback. -/
def Unrefused {α : Type} (p : Player σ G F) (m : PlayerM σ E G F α) : Prop :=
  ∀ n t, m.run p ≠ .error (.callback n) t

section Unrefused

variable {α β : Type} {m : PlayerM σ E G F α} {f : α → PlayerM σ E G F β} {n : ℕ}

theorem unrefused_pure (a : α) : Unrefused p (pure a : PlayerM σ E G F α) := nofun

theorem unrefused_get : Unrefused p (get : PlayerM σ E G F (Player σ G F)) := fun _ _ run => by
  cases run

theorem unrefused_set (q : Player σ G F) : Unrefused p (set q : PlayerM σ E G F PUnit) :=
  fun _ _ run => by cases run

theorem unrefused_modify (g : Player σ G F → Player σ G F) :
    Unrefused p (modify g : PlayerM σ E G F PUnit) := fun _ _ run => by cases run

theorem unrefused_okOr {e : PlayerError E} (o : Option α) (other : ∀ n, e ≠ .callback n) :
    Unrefused p (okOr o e : PlayerM σ E G F α) := by
  intro n t run
  cases o with
  | none => exact other n (EStateM.Result.error.inj run).1
  | some a => cases run

theorem unrefused_zoom {τ φ : Type} {component : Player σ G F → τ}
    {replace : τ → Player σ G F → Player σ G F} {embed : φ → PlayerError E} {m : EStateM φ τ α}
    (other : ∀ e n, embed e ≠ .callback n) :
    Unrefused p (zoom component replace embed m : PlayerM σ E G F α) := by
  intro n t run
  obtain ⟨e, _, _, same, -⟩ := run_zoom_error run
  exact other e n same.symm

theorem refused_bind (hm : Unrefused p m) (run : (m >>= f).run p = .error (.callback n) t) :
    ∃ a u, m.run p = .ok a u ∧ (f a).run u = .error (.callback n) t := by
  rw [run_bind] at run
  cases ran : m.run p with
  | ok a u =>
    rw [ran] at run
    exact ⟨a, u, rfl, run⟩
  | error e u =>
    rw [ran] at run
    cases run
    exact absurd ran (hm n t)

theorem Unrefused.bind (hm : Unrefused p m) (hf : ∀ a u, m.run p = .ok a u → Unrefused u (f a)) :
    Unrefused p (m >>= f) := by
  intro n t run
  obtain ⟨a, u, first, second⟩ := refused_bind hm run
  exact hf a u first n t second

end Unrefused

theorem unrefused_generate : Unrefused p (generate source amplitudes frames : PlayerM σ E G F _) := by
  unfold generate
  apply (unrefused_okOr _ fun _ => by exact nofun).bind
  intro _ _ _
  apply (unrefused_zoom fun _ _ => by exact nofun).bind
  intro _ _ _
  exact unrefused_zoom fun _ _ => by exact nofun

theorem unrefused_deliverBlock :
    Unrefused p (deliverBlock samples frames : PlayerM σ E G F AudioAction) := by
  unfold deliverBlock
  apply unrefused_get.bind
  intro _ _ _
  apply (unrefused_okOr _ fun _ => by exact nofun).bind
  intro _ _ _
  apply (unrefused_set _).bind
  intro _ _ _
  apply (unrefused_okOr _ fun _ => by exact nofun).bind
  intro _ _ _
  exact (unrefused_modify _).bind fun _ _ _ => unrefused_pure _

theorem unrefused_finishCall : Unrefused p (finishCall delivered : PlayerM σ E G F _) := by
  intro n t run
  rw [run_finishCall] at run
  cases run

theorem unrefused_directRounds (continues : ∀ heard block, p.callback heard block = .continue) :
    Unrefused p (directRounds source amplitudes maxFrames rounds delivered) := by
  induction rounds generalizing p delivered with
  | zero => exact unrefused_finishCall
  | succ rounds ih =>
    intro n t run
    rw [directRounds] at run
    split at run
    · obtain ⟨_, _, same, run⟩ := refused_bind unrefused_get run
      obtain ⟨rfl, rfl⟩ := run_get_ok.mp same
      simp only at run
      split at run
      · cases run
      · split at run
        · cases run
        · obtain ⟨samples, u, generated, run⟩ := refused_bind unrefused_generate run
          obtain ⟨raw, machine, length, -, small, -, -, rfl, rfl⟩ := run_generate_ok.mp generated
          obtain ⟨_, _, added, run⟩ := refused_bind (unrefused_okOr _ fun _ => by exact nofun) run
          obtain ⟨-, rfl⟩ := run_okOr_ok.mp added
          obtain ⟨action, _, delivers, run⟩ := refused_bind unrefused_deliverBlock run
          rw [run_deliverBlock_ok small (by simp [length])] at delivers
          obtain ⟨-, rfl, rfl⟩ := delivers
          rw [continues] at run
          refine ih ?_ n t run
          exact continues
    · exact unrefused_finishCall n t run

end Player

/-! ### Histories of calls -/

namespace Player

variable {σ E G F : Type}

/-- A call as its caller sees it; `idle` tells whether the silence detector held nothing back. -/
inductive Call (F : Type) where
  | render (requested : ℕ) (outcome : RenderOutcome) (samples : List F)
  | refused (requested frames : ℕ) (samples : List F)
  | advance (requested : ℕ) (outcome : RenderOutcome) (idle : Bool)

namespace Call

/-- The frames a call asks for. -/
def requested : Call F → ℕ
  | .render requested _ _ | .refused requested _ _ | .advance requested _ _ => requested

/-- The frames a call delivered or skipped. -/
def frames : Call F → ℕ
  | .render _ outcome _ | .advance _ outcome _ => outcome.frames
  | .refused _ frames _ => frames

/-- Whether a call reported the end of the track. -/
def ended : Call F → Bool
  | .render _ outcome _ | .advance _ outcome _ => outcome.isEnd
  | .refused _ _ _ => false

/-- The samples of the stretch a call covers, as far as it delivered them. -/
def covers : Call F → List (Option F)
  | .render _ _ samples | .refused _ _ samples => samples.map some
  | .advance _ outcome _ => List.replicate (outcome.frames * 2) none

/-- The frames a history delivered or skipped. -/
def total (calls : List (Call F)) : ℕ := (calls.map frames).sum

@[simp] theorem total_snoc (calls : List (Call F)) (call : Call F) :
    total (calls ++ [call]) = total calls + call.frames := by
  simp [total]

end Call

section History

variable (source : FrameSource σ E) (amplitudes : Amplitudes G F)

/-- The silence detector, if there is one, holds no frame and has not confirmed an ending. -/
def idle (p : Player σ G F) : Bool :=
  p.silenceDetector.all fun detector =>
    detector.ready.isEmpty && detector.candidate.isEmpty && !detector.ended

/-- One call: a render, a render its callback refused, or an advance. -/
inductive Next (p : Player σ G F) : Call F → Player σ G F → Prop
  | render {t : Player σ G F} (rounds : ℕ) {requested : ℕ} {outcome : RenderOutcome}
      {blocks : List (List F)} : requested < 2 ^ 64 →
      (render source amplitudes rounds requested).run p = .ok (some outcome) t →
      t.heard = p.heard ++ blocks → Next p (.render requested outcome blocks.flatten) t
  | refused {t : Player σ G F} (rounds : ℕ) {requested frames : ℕ} {blocks : List (List F)} :
      requested < 2 ^ 64 →
      (Player.render source amplitudes rounds requested).run p = .error (.callback frames) t →
      t.heard = p.heard ++ blocks → Next p (.refused requested frames blocks.flatten) t
  | advance {t : Player σ G F} {requested : ℕ} {outcome : RenderOutcome} : requested < 2 ^ 64 →
      (Player.advance source requested).run p = .ok outcome t →
      Next p (.advance requested outcome p.idle) t

end History

variable {source : FrameSource σ E} {amplitudes : Amplitudes G F} {p t : Player σ G F}
  {call : Call F} {calls : List (Call F)}

theorem run_render_direct {rounds maxFrames : ℕ} (direct : p.silenceDetector = none) :
    (render source amplitudes rounds maxFrames).run p =
      (some <$> renderDirect source amplitudes maxFrames).run p := by
  unfold render
  rw [run_bind, run_get]
  simp only [direct]
  rfl

theorem Next.rendered (h : Next source amplitudes p call t) (direct : p.silenceDetector = none)
    (continues : ∀ heard block, p.callback heard block = .continue)
    (position : p.deliveredFrames = p.postMix.position) :
    ∃ raw, Plays source p.machine raw t.machine ∧ raw.length = call.frames ∧
      t.postMix = p.postMix.forward raw.length ∧
      p.postMix.availableFrames raw.length = raw.length ∧
      (p.postMix.position < 2 ^ 64 → p.postMix.position + raw.length < 2 ^ 64) ∧
      t.deliveredFrames = p.deliveredFrames + raw.length ∧ t.silenceDetector = none ∧
      t.callback = p.callback ∧ call.frames ≤ call.requested ∧ call.ended = t.postMix.ended ∧
      (call.ended = false → call.frames = call.requested) ∧
      Agrees call.covers (interleave (p.postMix.mixed amplitudes p.postMix.position raw)) := by
  cases h with
  | @render _ _ requested outcome blocks small run heard =>
    rw [run_render_direct direct, run_map] at run
    cases ran : (renderDirect source amplitudes requested).run p with
    | error e u => rw [ran] at run; cases run
    | ok outcome' u =>
      rw [ran] at run
      cases run
      obtain ⟨raw, rendered, le, rfl, full⟩ := renderDirect_sound continues ran
      obtain ⟨blocks', heard', samples⟩ := rendered.heard
      obtain rfl : blocks = blocks' := List.append_cancel_left (heard.symm.trans heard')
      refine ⟨raw, rendered.plays, (frames_settle _ _).symm, rendered.postMix, rendered.available,
        rendered.fits, rendered.deliveredFrames, rendered.silenceDetector.trans direct,
        rendered.callback, ?_, isEnd_settle _ _, fun unended => ?_, ?_⟩
      · show (t.settle raw.length).frames ≤ requested
        rwa [frames_settle]
      · show (t.settle raw.length).frames = requested
        rw [frames_settle]
        exact full ((isEnd_settle t _).symm.trans unended)
      · rw [← samples]
        exact .known _
  | refused _ small run heard =>
    rw [run_render_direct direct, run_map] at run
    cases ran : (renderDirect source amplitudes _).run p with
    | ok outcome u => rw [ran] at run; cases run
    | error e u =>
      rw [ran] at run
      cases run
      exact absurd ran (unrefused_directRounds continues _ _)
  | @advance _ requested outcome small run =>
    obtain ⟨raw, machine, plays, length, fits, left, rfl⟩ := run_advance_ok.mp run
    have postMix : t.postMix = p.postMix.forward raw.length := by rw [left]
    refine ⟨raw, by rw [left]; exact plays, (frames_settle _ _).symm, postMix,
      PostMixer.availableFrames_eq_self (Nat.le_of_eq length), fun _ => fits, ?_, ?_, ?_, ?_,
      isEnd_settle _ _, fun unended => ?_, ?_⟩
    · rw [left, position]
    · rw [left, direct]
      rfl
    · rw [left]
    · show (t.settle raw.length).frames ≤ requested
      rw [frames_settle, length]
      exact PostMixer.availableFrames_le _
    · show (t.settle raw.length).frames = requested
      rw [frames_settle, length]
      exact PostMixer.availableFrames_eq_of_unended (by
        rw [← length, ← postMix]
        exact (isEnd_settle t _).symm.trans unended)
    · show Agrees (List.replicate ((t.settle raw.length).frames * 2) none) _
      rw [frames_settle]
      have unheard := Agrees.unknown
        (interleave (p.postMix.mixed amplitudes p.postMix.position raw))
      rwa [length_interleave, PostMixer.length_mixed] at unheard

/-! ### Independence of how a player is driven -/

/-- The declared timeline is over after a number of frames. -/
def Exhausted (length : Option ℕ) (fade frames : ℕ) : Prop :=
  ∃ declared, length = some declared ∧ saturatingAdd declared fade ≤ frames

theorem ended_forward_iff {volume : G} {length : Option ℕ} {fade frames : ℕ} :
    ((PostMixer.new volume length fade).forward frames).ended = true ↔
      Exhausted length fade frames := by
  cases length with
  | none => exact ⟨nofun, fun ⟨_, declared, _⟩ => by cases declared⟩
  | some declared =>
    show decide (saturatingAdd declared fade ≤ 0 + frames) = true ↔ _
    rw [decide_eq_true_iff, Nat.zero_add]
    exact ⟨fun h => ⟨declared, rfl, h⟩, fun ⟨_, same, h⟩ => Option.some.inj same ▸ h⟩

/-- What a history without a detector has played from the start of the timeline. -/
structure Played (source : FrameSource σ E) (amplitudes : Amplitudes G F) (p : Player σ G F)
    (calls : List (Call F)) (raw : List (Pcm × Pcm)) (t : Player σ G F) : Prop where
  plays : Plays source p.machine raw t.machine
  length : raw.length = Call.total calls
  postMix : t.postMix = p.postMix.forward raw.length
  available : p.postMix.availableFrames raw.length = raw.length
  fits : raw.length < 2 ^ 64
  deliveredFrames : t.deliveredFrames = raw.length
  silenceDetector : t.silenceDetector = none
  callback : t.callback = p.callback
  agrees : Agrees (calls.flatMap Call.covers) (interleave (p.postMix.mixed amplitudes 0 raw))

theorem Played.snoc {raw : List (Pcm × Pcm)} {u : Player σ G F} (start : p.postMix.position = 0)
    (continues : ∀ heard block, p.callback heard block = .continue)
    (h : Played source amplitudes p calls raw t) (next : Next source amplitudes t call u) :
    (∃ more, Played source amplitudes p (calls ++ [call]) (raw ++ more) u) ∧
      call.frames ≤ call.requested ∧ call.ended = u.postMix.ended ∧
      (call.ended = false → call.frames = call.requested) := by
  have position : t.postMix.position = raw.length := by
    rw [h.postMix, PostMixer.position_forward, start, Nat.zero_add]
  obtain ⟨more, plays, length, postMix, available, fits, deliveredFrames, silenceDetector, callback,
    le, ended, full, agrees⟩ := next.rendered h.silenceDetector
      (fun heard block => by rw [h.callback, continues]) (h.deliveredFrames.trans position.symm)
  refine ⟨⟨more, h.plays.append plays, ?_, ?_, ?_, ?_, ?_, silenceDetector,
    callback.trans h.callback, ?_⟩, le, ended, full⟩
  · rw [List.length_append, h.length, length, Call.total_snoc]
  · rw [postMix, h.postMix, PostMixer.forward_forward, List.length_append]
  · rw [List.length_append]
    exact PostMixer.available_add h.available (h.postMix ▸ available)
  · rw [List.length_append]
    exact position ▸ fits (position ▸ h.fits)
  · rw [deliveredFrames, h.deliveredFrames, List.length_append]
  · rw [List.flatMap_append, List.flatMap_singleton, PostMixer.mixed_append, interleave_append,
      Nat.zero_add]
    apply h.agrees.append
    rw [position, h.postMix, PostMixer.mixed_forward] at agrees
    exact agrees

theorem exists_render {raw : List (Pcm × Pcm)} {machine : σ} (start : p.postMix.position = 0)
    (fresh : p.deliveredFrames = 0) (direct : p.silenceDetector = none)
    (continues : ∀ heard block, p.callback heard block = .continue)
    (plays : Plays source p.machine raw machine)
    (available : p.postMix.availableFrames raw.length = raw.length) (fits : raw.length < 2 ^ 64) :
    ∃ outcome u, outcome.frames = raw.length ∧ Next source amplitudes p
      (.render raw.length outcome (interleave (p.postMix.mixed amplitudes 0 raw))) u := by
  obtain ⟨outcome, u, ran⟩ : ∃ outcome u,
      (renderDirect source amplitudes raw.length).run p = .ok outcome u :=
    directRounds_complete continues plays (Nat.zero_add _) available (by omega) (by omega) fits
      (by omega)
  obtain ⟨raw', rendered, le, rfl, full⟩ := renderDirect_sound continues ran
  have whole : raw'.length = raw.length := by
    by_contra short
    have left : (p.postMix.forward raw'.length).availableFrames (raw.length - raw'.length) =
        raw.length - raw'.length := PostMixer.available_forward available (by omega)
    have ended : u.postMix.ended = true := by
      by_contra unended
      exact short (full (Bool.eq_false_iff.mpr unended))
    rw [rendered.postMix, PostMixer.ended_iff (by omega : 0 < raw.length - raw'.length)] at ended
    omega
  obtain ⟨rfl, -⟩ := rendered.plays.unique plays whole
  obtain ⟨blocks, heard, samples⟩ := rendered.heard
  refine ⟨u.settle raw'.length, u, frames_settle _ _, ?_⟩
  rw [start] at samples
  rw [← samples]
  refine .render 0 fits ?_ heard
  rw [run_render_direct direct, run_map, ran]

variable (source amplitudes) in
/-- However a timeline is cut into renders and advances, and whatever the quantum, the frames a
caller is told of are the frames played, no call exceeds its request, the end is reported exactly
when the timeline is exhausted, and each delivered sample is the one that a single render of the
same stretch delivers at its place. -/
theorem output_independent (machine : σ) (volume : G) (length : Option ℕ) (fade : ℕ)
    (callback : List (List F) → AudioBlock F → AudioAction) (quantum : Quantum)
    (continues : ∀ heard block, callback heard block = .continue)
    (run : Run (Next source amplitudes)
      (opened machine (.new volume length fade) none callback quantum) calls t) :
    t.framesRendered = Call.total calls ∧
      (∀ before call after, calls = before ++ call :: after →
        call.frames ≤ call.requested ∧
          (call.ended = true ↔ Exhausted length fade (Call.total (before ++ [call]))) ∧
          (call.ended = false → call.frames = call.requested)) ∧
      ∀ quantum' callback', (∀ heard block, callback' heard block = .continue) →
        ∃ outcome samples u, Next source amplitudes
          (opened machine (.new volume length fade) none callback' quantum')
          (.render (Call.total calls) outcome samples) u ∧
          outcome.frames = Call.total calls ∧ Agrees (calls.flatMap Call.covers) samples := by
  have history := run.history
    (H := fun calls t => (∃ raw, Played source amplitudes
      (opened machine (.new volume length fade) none callback quantum) calls raw t) ∧
      ∀ before call after, calls = before ++ call :: after →
        call.frames ≤ call.requested ∧
          (call.ended = true ↔ Exhausted length fade (Call.total (before ++ [call]))) ∧
          (call.ended = false → call.frames = call.requested))
    ⟨⟨[], .nil _, rfl, rfl, Nat.le_zero.mp (PostMixer.availableFrames_le _), by decide, rfl, rfl, rfl,
      .nil⟩, fun before call after none => absurd none.symm (by simp)⟩ ?_
  · obtain ⟨⟨raw, played⟩, each⟩ := history
    refine ⟨played.deliveredFrames.trans played.length, each, fun quantum' callback' continues' => ?_⟩
    obtain ⟨outcome, u, frames, renders⟩ : ∃ outcome u, outcome.frames = raw.length ∧
        Next source amplitudes (opened machine (.new volume length fade) none callback' quantum')
          (.render raw.length outcome _) u :=
      exists_render (p := opened machine _ none callback' quantum') rfl rfl rfl continues' played.plays
        played.available played.fits
    exact ⟨outcome, _, u, played.length ▸ renders, frames.trans played.length, played.agrees⟩
  · rintro calls t call u ⟨⟨raw, played⟩, each⟩ next
    obtain ⟨⟨more, played'⟩, le, ended, full⟩ := played.snoc rfl continues next
    refine ⟨⟨_, played'⟩, fun before c after split => ?_⟩
    rcases List.eq_nil_or_concat after with rfl | ⟨after, last, rfl⟩
    · obtain ⟨rfl, same⟩ := List.append_inj' split rfl
      cases same
      refine ⟨le, ?_, full⟩
      rw [ended, played'.postMix, played'.length]
      exact ended_forward_iff
    · rw [List.concat_eq_append, ← List.cons_append, ← List.append_assoc] at split
      exact each before c after (List.append_inj' split rfl).1

/-! ### A counting machine -/

/-- A machine whose frames count up. -/
def counting : FrameSource ℕ Empty := fun n => .ok (BitVec.ofNat 16 n, BitVec.ofNat 16 n) (n + 1)

/-- Amplitudes that keep a sample and remember its gain. -/
def tagging : Amplitudes ℕ (Pcm × ℕ) := ⟨1, 0, fun remaining _ => remaining, fun a b => a * b, .mk⟩

/-- A timeline of four frames and a fade of two. -/
def countingPlayer (frames : Quantum) : Player ℕ ℕ (Pcm × ℕ) :=
  opened 0 (.new 1 (some 4) 2) none (fun _ _ => .continue) frames

/-- Three frames delivered and two skipped, against a render of five in blocks of one. -/
theorem output_independent_sample : ∃ outcome samples u,
    Next counting tagging (countingPlayer ⟨1, by decide, by decide⟩) (.render 5 outcome samples) u ∧
      outcome.frames = 5 ∧
      Agrees ([(0, 1), (0, 1), (1, 1), (1, 1), (2, 1), (2, 1)].map some ++ List.replicate 4 none)
        samples := by
  have first : (render counting tagging 0 3).run (countingPlayer ⟨2, by decide, by decide⟩) =
      .ok (some (.complete 3)) _ := eq_ok_of_returned (by decide +kernel)
  have second : (advance counting 2).run (leaves ((render counting tagging 0 3).run
      (countingPlayer ⟨2, by decide, by decide⟩))) = .ok (.complete 2) _ :=
    eq_ok_of_returned (by decide +kernel)
  have heard : (leaves ((render counting tagging 0 3).run
      (countingPlayer ⟨2, by decide, by decide⟩))).heard =
        [] ++ [[(0, 1), (0, 1), (1, 1), (1, 1)], [(2, 1), (2, 1)]] := by decide +kernel
  have run := (Run.single (Next.render 0 (by decide) first heard)).snoc (.advance (by decide) second)
  exact (output_independent counting tagging 0 1 (some 4) 2 (fun _ _ => .continue) _ (fun _ _ => rfl)
    run).2.2 ⟨1, by decide, by decide⟩ _ fun _ _ => rfl

end Player

end Upse
