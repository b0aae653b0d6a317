import Upse.Lib.Tape
import Upse.Support.Integers

/-!
# Post-mixing and silence detection

The last stage before delivery: signed samples are scaled by the configured volume and by the fade of
their place in the timeline, and an optional detector withholds quiet frames until it knows whether
they belong to a trailing silence.  The arithmetic of gains and amplitudes is a parameter.
-/

namespace Upse

open ErrorState Tape

/-- A signed sample as the machines produce it. -/
abbrev Pcm := BitVec 16

/-- The arithmetic of gains `G` and of delivered amplitudes `F`. -/
structure Amplitudes (G F : Type) where
  unity : G
  silent : G
  ratio : ℕ → ℕ → G
  mul : G → G → G
  scale : Pcm → G → F

/-- `saturating_add` of 64-bit counts. -/
def saturatingAdd (a b : ℕ) : ℕ := min (a + b) u64Max

/-! ### The timeline -/

/-- Why a mix failed. -/
inductive PostMixError where
  | oddInput
  | outputSize
  | crossesEnd
  | positionOverflow
  deriving DecidableEq, Repr

/-- Chunk-independent gain, length and fade state. -/
structure PostMixer (G : Type) where
  volume : G
  lengthFrames : Option ℕ
  fadeFrames : ℕ
  position : ℕ

namespace PostMixer

variable {G F : Type} (mixer : PostMixer G)

/-- A timeline at frame zero. -/
def new (volume : G) (lengthFrames : Option ℕ) (fadeFrames : ℕ) : PostMixer G :=
  ⟨volume, lengthFrames, fadeFrames, 0⟩

/-- The exclusive end frame, or no automatic ending. -/
def endFrame : Option ℕ := mixer.lengthFrames.map (saturatingAdd · mixer.fadeFrames)

/-- Whether the declared timeline has ended. -/
def ended : Bool := mixer.endFrame.any (· ≤ mixer.position)

/-- Limits a requested block to the declared timeline boundary. -/
def availableFrames (requested : ℕ) : ℕ :=
  match mixer.endFrame with
  | some stop => min requested (stop - mixer.position)
  | none => requested

/-- Advances the timeline without converting samples. -/
def advance (requested : ℕ) : EStateM PostMixError (PostMixer G) ℕ := do
  let mixer ← get
  let frames := mixer.availableFrames requested
  let position ← okOr (checkedAdd 64 mixer.position frames) .positionOverflow
  set { mixer with position := position }
  return frames

variable (amplitudes : Amplitudes G F)

/-- The gain of a frame. -/
def fadeGain (position : ℕ) : G :=
  match mixer.lengthFrames with
  | none => amplitudes.unity
  | some length =>
    if position < length then amplitudes.unity
    else if mixer.fadeFrames = 0 then amplitudes.silent
    else amplitudes.ratio (mixer.fadeFrames - (position - length)) mixer.fadeFrames

/-- A sample at a position of the timeline. -/
def mix (position : ℕ) (sample : Pcm) : F :=
  amplitudes.scale sample (amplitudes.mul mixer.volume (mixer.fadeGain amplitudes position))

/-- Interleaved samples from a position on, two for each frame. -/
def mixSamples (position : ℕ) : List Pcm → List F
  | left :: right :: rest =>
    mixer.mix amplitudes position left :: mixer.mix amplitudes position right ::
      mixSamples (position + 1) rest
  | _ => []

/-- Converts interleaved samples into an output of `length` scalars.  A frame whose position does not
fit fails as the whole block then does, so that the position is checked once. -/
def process (input : List Pcm) (length : ℕ) : EStateM PostMixError (PostMixer G) (List F) := do
  throwIf (input.length % 2 ≠ 0) .oddInput
  throwIf (input.length ≠ length) .outputSize
  let mixer ← get
  let frames := input.length / 2
  throwIf (mixer.availableFrames frames ≠ frames) .crossesEnd
  let position ← okOr (checkedAdd 64 mixer.position frames) .positionOverflow
  set { mixer with position := position }
  return mixer.mixSamples amplitudes mixer.position input

/-! ### Mixed frames -/

/-- Frames from a position of the timeline on. -/
def mixed (position : ℕ) : List (Pcm × Pcm) → List (F × F)
  | [] => []
  | frame :: frames =>
    (mixer.mix amplitudes position frame.1, mixer.mix amplitudes position frame.2) ::
      mixed (position + 1) frames

theorem mixSamples_interleave (position : ℕ) (frames : List (Pcm × Pcm)) :
    mixer.mixSamples amplitudes position (interleave frames) =
      interleave (mixer.mixed amplitudes position frames) := by
  induction frames generalizing position with
  | nil => rfl
  | cons frame frames ih => rw [interleave_cons, mixSamples, ih, mixed, interleave_cons]

@[simp] theorem length_mixed (position : ℕ) (frames : List (Pcm × Pcm)) :
    (mixer.mixed amplitudes position frames).length = frames.length := by
  induction frames generalizing position with
  | nil => rfl
  | cons frame frames ih => rw [mixed, List.length_cons, ih, List.length_cons]

theorem mixed_append (position : ℕ) (a b : List (Pcm × Pcm)) :
    mixer.mixed amplitudes position (a ++ b) =
      mixer.mixed amplitudes position a ++ mixer.mixed amplitudes (position + a.length) b := by
  induction a generalizing position with
  | nil => rfl
  | cons frame a ih =>
    rw [List.cons_append, mixed, ih, mixed, List.cons_append, List.length_cons, Nat.add_assoc,
      Nat.add_comm 1]

/-- Mixing depends on the gains alone, not on how far the timeline is. -/
theorem mixed_atPosition (start position : ℕ) (frames : List (Pcm × Pcm)) :
    { mixer with position := start }.mixed amplitudes position frames =
      mixer.mixed amplitudes position frames := by
  induction frames generalizing position with
  | nil => rfl
  | cons frame frames ih => rw [mixed, ih, mixed]; rfl

/-! ### The boundary -/

variable {mixer}

theorem availableFrames_le (requested : ℕ) : mixer.availableFrames requested ≤ requested := by
  unfold availableFrames
  split
  · exact Nat.min_le_left _ _
  · exact Nat.le_refl _

theorem availableFrames_eq_self {requested n : ℕ} (le : n ≤ mixer.availableFrames requested) :
    mixer.availableFrames n = n := by
  revert le
  unfold availableFrames
  cases mixer.endFrame with
  | none => exact fun _ => rfl
  | some stop =>
    intro (le : n ≤ min requested (stop - mixer.position))
    show min n (stop - mixer.position) = n
    omega

theorem ended_iff {requested : ℕ} (pos : 0 < requested) :
    mixer.ended = true ↔ mixer.availableFrames requested = 0 := by
  unfold ended availableFrames
  cases mixer.endFrame with
  | none => simp; omega
  | some stop => simp; omega

end PostMixer

/-! ### The silence detector -/

/-- Why a detector was refused, or refused its samples. -/
inductive SilenceError where
  | invalidThreshold
  | invalidDuration
  | oddSamples
  deriving DecidableEq, Repr

/-- Render-ahead trailing-silence detector.  The threshold is the predicate that decides which
amplitudes are quiet. -/
structure SilenceDetector (F : Type) where
  quiet : F → Bool
  requiredFrames : ℕ
  heardAudio : Bool
  ended : Bool
  candidate : List F
  ready : List F

namespace SilenceDetector

variable {F : Type} (detector : SilenceDetector F)

/-- An armed detector with empty render-ahead buffers. -/
def new (quiet : F → Bool) (requiredFrames : ℕ) : Except SilenceError (SilenceDetector F) :=
  if requiredFrames = 0 then .error .invalidDuration
  else .ok ⟨quiet, requiredFrames, false, false, [], []⟩

/-- Makes the held frames ready. -/
def commitCandidate : SilenceDetector F :=
  { detector with ready := detector.ready ++ detector.candidate, candidate := [] }

/-- Classifies the frames of a block in order, up to a confirmed ending. -/
def classify (detector : SilenceDetector F) : List F → SilenceDetector F
  | left :: right :: rest =>
    let quiet := detector.quiet left && detector.quiet right
    if detector.heardAudio = false then
      classify { detector with
        ready := detector.ready ++ [left, right]
        heardAudio := !quiet } rest
    else if quiet then
      let candidate := detector.candidate ++ [left, right]
      if detector.requiredFrames ≤ candidate.length / 2 then
        { detector with candidate := [], ended := true }
      else classify { detector with candidate := candidate } rest
    else
      let committed := detector.commitCandidate
      classify { committed with ready := committed.ready ++ [left, right] } rest
  | _ => detector

/-- Accepts post-mixed stereo samples; what follows a confirmed ending is ignored. -/
def push (samples : List F) : EStateM SilenceError (SilenceDetector F) Unit := do
  throwIf (samples.length % 2 ≠ 0) .oddSamples
  let detector ← get
  if detector.ended || samples.isEmpty then return ()
  else set (detector.classify samples)

/-- Commits an unconfirmed quiet tail when another timeline boundary ends. -/
def finish : SilenceDetector F := if detector.ended then detector else detector.commitCandidate

/-- Complete stereo frames ready for delivery. -/
def readyFrames : ℕ := detector.ready.length / 2

/-- Drains at most an output of `length` scalars. -/
def drain (length : ℕ) : EStateM SilenceError (SilenceDetector F) (List F) := do
  throwIf (length % 2 ≠ 0) .oddSamples
  let detector ← get
  let samples := min length detector.ready.length / 2 * 2
  set { detector with ready := detector.ready.drop samples }
  return detector.ready.take samples

/-- Restores the initial state without changing the policy. -/
def reset : SilenceDetector F :=
  { detector with heardAudio := false, ended := false, candidate := [], ready := [] }

end SilenceDetector

end Upse
