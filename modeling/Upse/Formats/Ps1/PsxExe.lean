import Upse.Formats.Psf.Plan

/-!
# PS-X EXE files

Parsing of the executables in PSF1 layers, and the memory image that the layers of a plan leave.
Lengths of payloads are those of a 64-bit host.
-/

namespace Upse.Psx

open Psf

def headerSize : ℕ := 0x800

def ramSize : ℕ := 2 * 1024 * 1024

/-- Region marker decoded from the executable header. -/
inductive Region where
  | japan
  | northAmerica
  | europe
  | unknown
  deriving DecidableEq, Repr

/-- The refresh implied by a recognized region marker. -/
def Region.refresh : Region → Option RefreshRate
  | .japan | .northAmerica => some .hz60
  | .europe => some .hz50
  | .unknown => none

/-- A validated executable. -/
structure PsxExe where
  pc : ℕ
  textAddress : ℕ
  sp : ℕ
  region : Region
  physicalTextOffset : ℕ
  text : Bytes
  deriving DecidableEq, Repr

/-- Invalid PS-X EXE payload. -/
inductive ExeError where
  | truncatedHeader
  | invalidSignature
  | truncatedText (declared available : ℕ)
  | addressOverflow
  | textOutsideRam (address size : ℕ)
  deriving DecidableEq, Repr

/-- The physical range of a text section. -/
def checkedRamRange (address size : ℕ) : Except ExeError ByteRange :=
  let physical := address % 2 ^ 29
  match checkedAdd 64 physical size with
  | none => .error .addressOverflow
  | some stop =>
    if ramSize ≤ physical ∨ ramSize < stop then .error (.textOutsideRam address size)
    else .ok ⟨physical, stop⟩

theorem checkedRamRange_inRam {address size : ℕ} {range : ByteRange}
    (h : checkedRamRange address size = .ok range) : range.start + size ≤ ramSize := by
  unfold checkedRamRange at h
  dsimp only at h
  split at h
  next => cases h
  next stop total =>
  split at h
  next => cases h
  next inside =>
  cases h
  have stop_eq := (checkedAdd_eq_some.mp total).2
  dsimp only
  omega

/-- Whether a text occurs in another. -/
def contains (haystack needle : Bytes) : Bool := haystack.tails.any fun window => needle.isPrefixOf window

/-- The region a marker names. -/
def regionOf (marker : Bytes) : Region :=
  if contains marker (ascii "North America") then .northAmerica
  else if contains marker (ascii "Japan") then .japan
  else if contains marker (ascii "Europe") then .europe
  else .unknown

/-- Parses a complete uncompressed PS-X EXE payload. -/
def PsxExe.parse (bytes : Bytes) : Except ExeError PsxExe :=
  if bytes.length < headerSize then .error .truncatedHeader
  else if bytes.take 8 ≠ ascii "PS-X EXE" then .error .invalidSignature
  else
    let textAddress := wordAt bytes 0x18
    let textSize := wordAt bytes 0x1c
    match checkedAdd 64 headerSize textSize with
    | none => .error .addressOverflow
    | some textEnd =>
      if bytes.length < textEnd then .error (.truncatedText textSize (bytes.length - headerSize))
      else
        match checkedRamRange textAddress textSize with
        | .error e => .error e
        | .ok range => .ok {
            pc := wordAt bytes 0x10
            textAddress := textAddress
            sp := wordAt bytes 0x30
            region := regionOf (slice bytes 0x4c headerSize)
            physicalTextOffset := range.start
            text := slice bytes headerSize textEnd }

theorem PsxExe.parse_inRam {bytes : Bytes} {exe : PsxExe} (h : parse bytes = .ok exe) :
    exe.physicalTextOffset + exe.text.length ≤ ramSize := by
  unfold parse at h
  split at h
  next => cases h
  split at h
  next => cases h
  dsimp only at h
  split at h
  next => cases h
  next textEnd sum =>
  split at h
  next => cases h
  split at h
  next => cases h
  next range ranged =>
  cases h
  have length : (slice bytes headerSize textEnd).length ≤ wordAt bytes 0x1c := by
    rw [(checkedAdd_eq_some.mp sum).2]
    unfold slice
    rw [List.length_take, Nat.add_sub_cancel_left]
    exact Nat.min_le_left _ _
  have inRam := checkedRamRange_inRam ranged
  dsimp only
  omega

/-- Failure while applying a multi-file overlay plan. -/
inductive ImageError where
  | executable (origin : Str) (source : ExeError)
  | missingInitialLayer
  | unknownRootRegion
  deriving DecidableEq, Repr

/-- Fully overlaid PSF1 executable image and reset state. -/
structure ExecutableImage where
  ram : Bytes
  pc : ℕ
  sp : ℕ
  refresh : RefreshRate

/-- The image under construction. -/
structure Overlay where
  ram : Bytes
  initial : Option (ℕ × ℕ)
  rootRegion : Option Region

/-- Copies bytes into a memory from an offset on. -/
def copyInto (ram : Bytes) (start : ℕ) (bytes : Bytes) : Bytes :=
  ram.take start ++ bytes ++ ram.drop (start + bytes.length)

/-- Lays one layer over the image. -/
def Overlay.add (initialStateOrigin rootOrigin : Str) (overlay : Overlay) (layer : PlanLayer) :
    Except ImageError Overlay :=
  match PsxExe.parse layer.container.program with
  | .error source => .error (.executable layer.origin source)
  | .ok exe => .ok {
      ram := copyInto overlay.ram exe.physicalTextOffset exe.text
      initial := if layer.origin = initialStateOrigin then some (exe.pc, exe.sp) else overlay.initial
      rootRegion := if layer.origin = rootOrigin then some exe.region else overlay.rootRegion }

/-- Applies a PSF1 plan with last-overlay-wins behavior. -/
def ExecutableImage.fromPlan {M : Type} (plan : Psf1LoadPlan M) : Except ImageError ExecutableImage := do
  let overlay ← plan.layers.foldlM (Overlay.add plan.initialStateOrigin plan.rootOrigin)
    ⟨List.replicate ramSize 0, none, none⟩
  match overlay.initial with
  | none => throw .missingInitialLayer
  | some (pc, sp) =>
    match plan.refreshOverride.or (overlay.rootRegion.bind Region.refresh) with
    | none => throw .unknownRootRegion
    | some refresh => return { ram := overlay.ram, pc := pc, sp := sp, refresh := refresh }

end Upse.Psx
