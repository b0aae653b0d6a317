import Upse.Hw.Ps1.Reverb
import Upse.Hw.Ps2.Effects

/-!
# The work areas of both machines

However the guest programs them between samples, the PS1 reverb stays between its base and the end of the
sound RAM, and the effects of an SPU2 core stay between their start and their end.  The cursor of a core
is in its area after each sample that the area has room for.
-/

namespace Upse.EffectAreas

open MemoryPrograms Program EffectUnit

/-- The accesses of every sample stay in the work area, no sample panics or changes a byte outside, and
the cursors stay inside; a circular address advances to the Euclidean remainder. -/
theorem effects_in_area :
    (∀ s : SpuReverb.Spu, s.Reachable → ∀ wetSend : Stereo,
      (s.reverb.process s.setup wetSend).Confined (SpuReverb.Reverb.InArea s.reverbBase)
        (fun result => SpuReverb.Reverb.InArea s.reverbBase result.2.currentAddress) ∧
      ∃ wet after, s.renderReverb wetSend = some (wet, after) ∧ after.CursorInArea ∧
        ∀ i < s.reverbBase.toNat * 8, after.ram[i]? = s.ram[i]?) ∧
    (∀ s : Spu2Effects.Core, s.Reachable → ∀ wet : Stereo,
      (s.effects.process s.setup wet).Confined (Spu2Effects.InArea s.setup) (fun _ => True) ∧
      ∃ effect after, s.renderEffects wet = some (effect, after) ∧
        (s.setup.areaStart ≤ s.setup.areaEnd → Spu2Effects.InArea s.setup after.effects.current) ∧
        (s.setup.areaEnd < s.setup.areaStart → effect = (fun _ => 0) ∧ after = s) ∧
        ∀ i, i < s.setup.areaStart ∨ s.setup.areaEnd < i → after.ram[i]? = s.ram[i]?) ∧
    ∀ address : RingBufferAddress, address.Built → ∀ offset : ℤ,
      address.advance offset =
        some { address with position := ((address.position + offset) % address.length).toNat } := by
  refine ⟨fun s reachable wetSend => ?_, fun s reachable wet => ?_, fun address built offset => ?_⟩
  · have inside := reachable.cursorInArea
    obtain ⟨wet, after, rendered, -, cursor, same⟩ := SpuReverb.Spu.renderReverb_returns inside wetSend
    exact ⟨SpuReverb.Spu.process_confined inside wetSend, wet, after, rendered, cursor, same⟩
  · obtain ⟨effect, after, rendered, -, -, cursor, same⟩ :=
      Spu2Effects.Core.renderEffects_returns reachable.even wet
    refine ⟨(Spu2Effects.process_confined reachable.even wet).mono fun _ _ => trivial, effect, after, rendered,
      cursor, fun empty => ?_, same⟩
    rw [Spu2Effects.Core.renderEffects_empty empty] at rendered
    cases rendered
    exact ⟨rfl, rfl⟩
  · exact RingBufferAddress.advance_eq built.inside offset

/-- A fresh sound processor whose base is written, a fresh core, and an address of sixteen bytes. -/
theorem effects_in_area_fresh :
    (∃ wet after, (SpuReverb.Spu.new.writeRegister SpuReverb.reverbBaseAddress 0xfff0).renderReverb
      (fun _ => 1) = some (wet, after) ∧ after.CursorInArea) ∧
    (∃ effect after, Spu2Effects.Core.new.renderEffects (fun _ => 1) = some (effect, after)) ∧
    RingBufferAddress.advance ⟨1000, 16, 0⟩ 18 = some ⟨1000, 16, 2⟩ := by
  refine ⟨?_, ?_, ?_⟩
  · obtain ⟨-, wet, after, rendered, cursor, -⟩ :=
      effects_in_area.1 (SpuReverb.Spu.new.writeRegister SpuReverb.reverbBaseAddress 0xfff0)
        (.step .start (.register _ _)) fun _ => 1
    exact ⟨wet, after, rendered, cursor⟩
  · obtain ⟨-, effect, after, rendered, -⟩ := effects_in_area.2.1 Spu2Effects.Core.new .start fun _ => 1
    exact ⟨effect, after, rendered⟩
  · exact effects_in_area.2.2 ⟨1000, 16, 0⟩ (.new (by decide : 16 < 2 ^ 64) rfl) 18

/-- A core whose end is programmed below its start. -/
def emptyArea : Spu2Effects.Core :=
  { Spu2Effects.Core.new with
    effectStart := Spu2Effects.decodeSoundAddress 1 0
    effects := Spu2Effects.Effects.setStart (Spu2Effects.decodeSoundAddress 1 0)
    effectEnd := Spu2Effects.decodeEffectEnd 0 }

/-- The cursor of a core need not be in its area after a sample: the area may be empty. -/
theorem cursor_outside_empty_area : ¬ ∀ (s : Spu2Effects.Core) (after : Spu2Effects.Core)
    (wet effect : Stereo), s.Reachable → s.renderEffects wet = some (effect, after) →
      s.setup.areaStart ≤ after.effects.current ∧ after.effects.current ≤ s.setup.areaEnd := by
  intro inside
  have reachable : emptyArea.Reachable :=
    .step (.step .start (.effectStart 1 0)) (.effectEnd 0)
  have empty : emptyArea.setup.areaEnd < emptyArea.setup.areaStart := by decide
  obtain ⟨first, last⟩ := inside emptyArea emptyArea (fun _ => 0) (fun _ => 0) reachable
    (Spu2Effects.Core.renderEffects_empty empty)
  omega

end Upse.EffectAreas
