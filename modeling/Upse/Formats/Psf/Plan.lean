import Upse.Formats.Psf.Container

/-!
# Load plans

What the resolution of a PSF file and its libraries comes to: the files in overlay order.
-/

namespace Upse.Psf

/-- Supported video refresh rates used by PSF timing. -/
inductive RefreshRate where
  | hz50
  | hz60
  deriving DecidableEq, Repr

/-- One validated file in machine overlay order. -/
structure PlanLayer where
  origin : Str
  container : PsfContainer
  deriving DecidableEq, Repr

/-- Deterministic PSF1 executable overlay plan; the descriptive metadata of type `M` is the root's. -/
structure Psf1LoadPlan (M : Type) where
  rootOrigin : Str
  layers : List PlanLayer
  initialStateOrigin : Str
  refreshOverride : Option RefreshRate
  metadata : M

/-- Deterministic PSF2 filesystem overlay plan. -/
structure Psf2LoadPlan (M : Type) where
  rootOrigin : Str
  layers : List PlanLayer
  refreshOverride : Option RefreshRate
  metadata : M

/-- Format-specific load plan selected by the root version byte. -/
inductive LoadPlan (M : Type) where
  | psf1 (plan : Psf1LoadPlan M)
  | psf2 (plan : Psf2LoadPlan M)

/-!
## Playback metadata

The tags with a meaning of their own.  The parsers of real numbers and durations are parameters.
-/

/-- The parsers of tag values: finite real numbers, with their decimal commas already replaced, and
durations. -/
structure ValueParsers (V D E : Type) where
  volume : Str → Option V
  unity : V
  duration : Str → Except E D
  zero : D

/-- Invalid known metadata. -/
inductive MetadataError (E : Type) where
  | invalidVolume
  | invalidDuration (error : E)
  | invalidRefresh

/-- Parsed playback and descriptive metadata. -/
structure PlaybackMetadata (V D : Type) where
  title : Option Str
  artist : Option Str
  game : Option Str
  year : Option Str
  genre : Option Str
  comment : Option Str
  copyright : Option Str
  psfby : Option Str
  volume : V
  length : Option D
  fade : D
  refresh : Option RefreshRate
  rawTags : List Tag

namespace PlaybackMetadata

variable {V D E : Type} (parsers : ValueParsers V D E)

/-- The volume, one where there is no tag. -/
def parseVolume : Option Str → Except (MetadataError E) V
  | none => .ok parsers.unity
  | some value =>
    match parsers.volume (value.map fun byte => if byte = 44 then 46 else byte) with
    | none => .error .invalidVolume
    | some volume => .ok volume

/-- A duration, if there is a tag. -/
def parseDuration : Option Str → Except (MetadataError E) (Option D)
  | none => .ok none
  | some value => (parsers.duration value).mapError .invalidDuration |>.map some

/-- The refresh rate, if there is a tag. -/
def parseRefresh : Option Str → Except (MetadataError E) (Option RefreshRate)
  | none => .ok none
  | some value =>
    if value = ascii "50" then .ok (some .hz50)
    else if value = ascii "60" then .ok (some .hz60)
    else .error .invalidRefresh

/-- Parses known tags while retaining all raw tags. -/
def parse (tags : Tags) : Except (MetadataError E) (PlaybackMetadata V D) := do
  let volume ← parseVolume parsers (tags.get (ascii "volume"))
  let length ← parseDuration parsers (tags.get (ascii "length"))
  let fade ← parseDuration parsers (tags.get (ascii "fade"))
  let refresh ← parseRefresh (tags.get (ascii "_refresh"))
  return {
    title := tags.get (ascii "title")
    artist := tags.get (ascii "artist")
    game := tags.get (ascii "game")
    year := tags.get (ascii "year")
    genre := tags.get (ascii "genre")
    comment := tags.get (ascii "comment")
    copyright := tags.get (ascii "copyright")
    psfby := tags.get (ascii "psfby")
    volume := volume
    length := length
    fade := fade.getD parsers.zero
    refresh := refresh
    rawTags := tags.entries }

end PlaybackMetadata

end Upse.Psf
