import Upse.Support.Audio

/-!
# The caller-driven player

A player asks its machine for frames in blocks of at most one quantum, mixes them along the timeline
and hands them to the callback of its consumer.  With a silence detector it runs ahead of what it
delivers.
-/

namespace Upse

open ErrorState Tape

/-! ### Blocks and outcomes -/

/-- A borrowed interleaved stereo block. -/
structure AudioBlock (F : Type) where
  samples : List F
  frames : ℕ

/-- Validates a stereo sample slice. -/
def AudioBlock.new {F : Type} (samples : List F) (frames : ℕ) : Option (AudioBlock F) :=
  if checkedMul 64 frames 2 = some samples.length then some ⟨samples, frames⟩ else none

/-- Control flow requested by an audio consumer. -/
inductive AudioAction where
  | continue
  | stop
  | error
  deriving DecidableEq, Repr

/-- Result of one bounded call, with the frames it delivered or skipped. -/
inductive RenderOutcome where
  | complete (frames : ℕ)
  | ended (frames : ℕ)
  | stopped (frames : ℕ)
  deriving DecidableEq, Repr

/-- The frames a render delivered. -/
def RenderOutcome.frames : RenderOutcome → ℕ
  | .complete frames | .ended frames | .stopped frames => frames

/-- Whether the outcome reports the end of the track. -/
def RenderOutcome.isEnd : RenderOutcome → Bool
  | .ended _ => true
  | .complete _ | .stopped _ => false

/-! ### The player -/

/-- A machine as its player sees it: the frames it produces one after another, or a failure. -/
abbrev FrameSource (σ E : Type) := EStateM E σ (Pcm × Pcm)

namespace FrameSource

variable {σ E : Type} (source : FrameSource σ E)

/-- Renders frames as interleaved samples. -/
def render (frames : ℕ) : EStateM E σ (List Pcm) := interleave <$> collect source frames

/-- Advances over frames without retaining them. -/
def advance (frames : ℕ) : EStateM E σ Unit := skip source frames

end FrameSource

/-- Why a call of a player failed. -/
inductive PlayerError (E : Type) where
  | machine (source : E)
  | postMix (source : PostMixError)
  | silence (source : SilenceError)
  | callback (frames : ℕ)
  /-- The panic of a render with detection without a detector, which no render meets. -/
  | missingDetector
  deriving DecidableEq, Repr

/-- The largest block handed to the callback: not empty, and its two samples a frame are countable. -/
structure Quantum where
  frames : ℕ
  pos : 0 < frames
  fits : frames * 2 < 2 ^ 64

/-- Opened player.  A callback answers a block by the blocks it was handed before. -/
structure Player (σ G F : Type) where
  machine : σ
  postMix : PostMixer G
  silenceDetector : Option (SilenceDetector F)
  deliveredFrames : ℕ
  heard : List (List F)
  callback : List (List F) → AudioBlock F → AudioAction
  quantum : Quantum

namespace Player

variable {σ E G F : Type}

/-- A player at the start of its timeline. -/
def opened (machine : σ) (postMix : PostMixer G) (silenceDetector : Option (SilenceDetector F))
    (callback : List (List F) → AudioBlock F → AudioAction) (quantum : Quantum) : Player σ G F :=
  ⟨machine, { postMix with position := 0 }, silenceDetector, 0, [], callback, quantum⟩

/-- Timeline frames rendered or advanced. -/
def framesRendered (player : Player σ G F) : ℕ := player.deliveredFrames

/-- Programs of the player. -/
abbrev PlayerM (σ E G F : Type) := EStateM (PlayerError E) (Player σ G F)

/-- Runs a call of the machine. -/
def onMachine {α : Type} (m : EStateM E σ α) : PlayerM σ E G F α :=
  zoom Player.machine (fun machine player => { player with machine := machine }) .machine m

/-- Runs a call of the mixer. -/
def onPostMix {α : Type} (m : EStateM PostMixError (PostMixer G) α) : PlayerM σ E G F α :=
  zoom Player.postMix (fun postMix player => { player with postMix := postMix }) .postMix m

/-- Runs a call of the silence detector. -/
def onDetector {α : Type} (m : EStateM SilenceError (SilenceDetector F) α) :
    PlayerM σ E G F α := do
  let detector ← okOr (← get).silenceDetector .missingDetector
  zoom (fun _ => detector)
    (fun detector player => { player with silenceDetector := some detector }) .silence m

section Calls

variable (source : FrameSource σ E) (amplitudes : Amplitudes G F)

/-- Renders frames of the machine and mixes them. -/
def generate (frames : ℕ) : PlayerM σ E G F (List F) := do
  let samples ← okOr (checkedMul 64 frames 2) (.postMix .positionOverflow)
  let input ← onMachine (source.render frames)
  onPostMix (PostMixer.process amplitudes input samples)

/-- Counts frames as delivered and hands them to the callback. -/
def deliverBlock (samples : List F) (frames : ℕ) : PlayerM σ E G F AudioAction := do
  let player ← get
  let total ← okOr (checkedAdd 64 player.deliveredFrames frames) (.postMix .positionOverflow)
  set { player with deliveredFrames := total }
  let block ← okOr (AudioBlock.new samples frames) (.postMix .outputSize)
  modify fun player => { player with heard := player.heard ++ [block.samples] }
  return player.callback player.heard block

/-- The end of a call that was not cut short. -/
def finishCall (frames : ℕ) : PlayerM σ E G F RenderOutcome := do
  if (← get).postMix.ended then return .ended frames
  else return .complete frames

/-- The chunks of an advance; a single one covers every request. -/
def advanceChunks (frames : ℕ) : PlayerM σ E G F Unit :=
  if frames = 0 then return () else onMachine (source.advance frames)

/-- Advances emulation without converting or delivering audio. -/
def advance (maxFrames : ℕ) : PlayerM σ E G F RenderOutcome := do
  modify fun player =>
    { player with silenceDetector := player.silenceDetector.map SilenceDetector.reset }
  let frames := (← get).postMix.availableFrames maxFrames
  advanceChunks source frames
  let _ ← onPostMix (PostMixer.advance frames)
  modify fun player => { player with deliveredFrames := player.postMix.position }
  finishCall frames

/-! ### Rendering without detection -/

/-- The frames of the next block of a direct render. -/
def blockFrames (player : Player σ G F) (requested : ℕ) : ℕ :=
  player.postMix.availableFrames (min requested player.quantum.frames)

/-- The rounds of a direct render.  Each one delivers a frame or returns, so that no more rounds than
frames are needed. -/
def directRounds (maxFrames : ℕ) : ℕ → ℕ → PlayerM σ E G F RenderOutcome
  | 0, delivered => finishCall delivered
  | rounds + 1, delivered => do
    if delivered < maxFrames then
      let player ← get
      let frames := player.blockFrames (maxFrames - delivered)
      if player.postMix.ended then return .ended delivered
      else if frames = 0 then return .ended delivered
      else
        let samples ← generate source amplitudes frames
        let delivered ← okOr (checkedAdd 64 delivered frames) (.postMix .positionOverflow)
        match ← deliverBlock samples frames with
        | .continue => directRounds maxFrames rounds delivered
        | .stop => return .stopped delivered
        | .error => throw (.callback delivered)
    else finishCall delivered

/-- Renders without the detector. -/
def renderDirect (maxFrames : ℕ) : PlayerM σ E G F RenderOutcome :=
  directRounds source amplitudes maxFrames maxFrames 0

/-! ### Rendering with detection -/

/-- The timeline's end commits the quiet tail of the detector. -/
def finishTimeline : PlayerM σ E G F Unit := do
  if (← get).postMix.ended then onDetector (modify SilenceDetector.finish)

/-- The end of a render with detection that was not cut short. -/
def finishDetected (delivered : ℕ) : PlayerM σ E G F RenderOutcome := do
  finishTimeline
  let player ← get
  let detector ← onDetector get
  if detector.readyFrames = 0 ∧ (detector.ended ∨ player.postMix.ended) then
    return .ended delivered
  else return .complete delivered

/-- The rounds of a render with detection: one either delivers ready frames or renders a quantum
ahead.  `none` when the rounds did not suffice. -/
def detectedRounds (maxFrames : ℕ) : ℕ → ℕ → PlayerM σ E G F (Option RenderOutcome)
  | 0, _ => return none
  | rounds + 1, delivered => do
    if delivered < maxFrames then
      finishTimeline
      let player ← get
      let detector ← onDetector get
      if detector.readyFrames ≠ 0 then
        let frames := min (min detector.readyFrames (maxFrames - delivered)) player.quantum.frames
        let samples ← okOr (checkedMul 64 frames 2) (.postMix .positionOverflow)
        let drained ← onDetector (SilenceDetector.drain samples)
        let delivered ← okOr (checkedAdd 64 delivered frames) (.postMix .positionOverflow)
        match ← deliverBlock drained frames with
        | .continue => detectedRounds maxFrames rounds delivered
        | .stop => return some (.stopped delivered)
        | .error => throw (.callback delivered)
      else if detector.ended ∨ player.postMix.ended then return some (.ended delivered)
      else
        let frames := player.postMix.availableFrames player.quantum.frames
        if frames = 0 then detectedRounds maxFrames rounds delivered
        else
          let samples ← generate source amplitudes frames
          onDetector (SilenceDetector.push samples)
          detectedRounds maxFrames rounds delivered
    else some <$> finishDetected delivered

/-- A render, with a bound on the rounds a detector may make it run ahead. -/
def render (rounds maxFrames : ℕ) : PlayerM σ E G F (Option RenderOutcome) := do
  if (← get).silenceDetector.isSome then detectedRounds source amplitudes maxFrames rounds 0
  else some <$> renderDirect source amplitudes maxFrames

end Calls

end Player

end Upse
