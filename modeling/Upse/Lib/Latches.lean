import Mathlib.Data.BitVec

/-!
# Latched inputs

A latch is set by a pulse or by the level of its input, an acknowledgement clears it while the level is
low, and it counts while it is enabled.  Words that hold a bit of each of these for every input are a
latch for each input, and no operation on one input reaches another.
-/

namespace Latches

/-- One latched input. -/
structure Latch where
  level : Bool
  latched : Bool
  enabled : Bool

/-- What happens to one input. -/
inductive Signal where
  | pulse
  | level (asserted : Bool)
  | acknowledge (keep : Bool)
  | enable (enabled : Bool)
  | other

/-- A latch after a signal. -/
def Latch.step (latch : Latch) : Signal → Latch
  | .pulse => { latch with latched := true }
  | .level asserted => { latch with level := asserted, latched := latch.latched || asserted }
  | .acknowledge keep => { latch with latched := latch.latched && keep || latch.level }
  | .enable enabled => { latch with enabled := enabled }
  | .other => latch

/-- The latches of several inputs, in words. -/
structure Bank (w : ℕ) where
  level : BitVec w
  latched : BitVec w
  enabled : BitVec w

/-- What happens to a bank. -/
inductive Op (w : ℕ) where
  | pulse (input : Fin w)
  | level (input : Fin w) (asserted : Bool)
  | acknowledge (keep : BitVec w)
  | enable (enabled : BitVec w)
  | other

variable {w : ℕ}

/-- What an operation is to one input. -/
def Op.signal (input : Fin w) : Op w → Signal
  | .pulse i => if i = input then .pulse else .other
  | .level i asserted => if i = input then .level asserted else .other
  | .acknowledge keep => .acknowledge (keep.getLsbD input)
  | .enable enabled => .enable (enabled.getLsbD input)
  | .other => .other

namespace Bank

/-- The bank after an operation. -/
def step (bank : Bank w) : Op w → Bank w
  | .pulse i => { bank with latched := bank.latched ||| BitVec.twoPow w i }
  | .level i asserted =>
    if asserted then
      { bank with level := bank.level ||| BitVec.twoPow w i, latched := bank.latched ||| BitVec.twoPow w i }
    else { bank with level := bank.level &&& ~~~BitVec.twoPow w i }
  | .acknowledge keep => { bank with latched := bank.latched &&& keep ||| bank.level }
  | .enable enabled => { bank with enabled := enabled }
  | .other => bank

/-- The latch of one input. -/
def latch (bank : Bank w) (input : Fin w) : Latch :=
  ⟨bank.level.getLsbD input, bank.latched.getLsbD input, bank.enabled.getLsbD input⟩

theorem latch_step (bank : Bank w) (op : Op w) (input : Fin w) :
    (bank.step op).latch input = (bank.latch input).step (op.signal input) := by
  cases op with
  | pulse i =>
    rcases eq_or_ne i input with rfl | ne
    · simp [step, latch, Latch.step, Op.signal]
    · simp [step, latch, Latch.step, Op.signal, ne, Fin.val_ne_of_ne ne.symm]
  | level i asserted =>
    rcases eq_or_ne i input with rfl | ne
    · cases asserted <;> simp [step, latch, Latch.step, Op.signal]
    · cases asserted <;> simp [step, latch, Latch.step, Op.signal, ne, Fin.val_ne_of_ne ne.symm]
  | acknowledge keep => simp [step, latch, Latch.step, Op.signal]
  | enable enabled => rfl
  | other => rfl

theorem latch_run {σ ε : Type} {bank : σ → Bank w} {perform : σ → ε → σ} {latchOp : ε → Op w}
    (each : ∀ s e, bank (perform s e) = (bank s).step (latchOp e)) (s : σ) (es : List ε) (input : Fin w) :
    (bank (es.foldl perform s)).latch input =
      (es.map fun e => (latchOp e).signal input).foldl Latch.step ((bank s).latch input) := by
  rw [List.foldl_map]
  refine (List.foldl_hom (fun s => (bank s).latch input) fun s e => ?_).symm
  rw [each, latch_step]

theorem line_iff (bank : Bank w) : (bank.latched &&& bank.enabled != 0) = true ↔
    ∃ input, (bank.latch input).latched = true ∧ (bank.latch input).enabled = true := by
  rw [bne_iff_ne]
  constructor
  · intro some_bit
    by_contra none
    refine some_bit (BitVec.eq_of_getLsbD_eq fun i bound => ?_)
    rw [BitVec.getLsbD_and, show (0 : BitVec w) = 0#w from rfl, BitVec.getLsbD_zero]
    refine Bool.eq_false_iff.mpr fun both => none ⟨⟨i, bound⟩, ?_⟩
    exact (Bool.and_eq_true _ _).mp both
  · rintro ⟨input, latched, enabled⟩ zero
    have bit := congrArg (·.getLsbD input) zero
    rw [BitVec.getLsbD_and, show bank.latched.getLsbD input = true from latched,
      show bank.enabled.getLsbD input = true from enabled] at bit
    simp at bit

end Bank

end Latches
