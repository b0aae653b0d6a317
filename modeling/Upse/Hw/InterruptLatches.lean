import Upse.Hw.Ps1.Irq
import Upse.Hw.Ps2.Irq
import Upse.Lib.Latches

/-!
# Interrupt sources are independent

Both interrupt controllers hold a latch for each source.  Whatever producers and the guest do, a source's
bits are what was done to that source made of them, and the external line is their disjunction.
-/

open Latches

/-- What producers and the guest do to a controller of the sources. -/
inductive Upse.InterruptOp (Source : Type) where
  | request (source : Source)
  | setLevel (source : Source) (asserted : Bool)
  | write (address : ℕ) (value : Word)

namespace Upse.Ps1

def InterruptSource.input (source : InterruptSource) : Fin 16 := ⟨source.ctorIdx, by cases source <;> decide⟩

/-- The operation, as one on latches. -/
def latchOp : InterruptOp InterruptSource → Latches.Op 16
  | .request source => .pulse source.input
  | .setLevel source asserted => .level source.input asserted
  | .write address value =>
    if address = iStat then .acknowledge (value.setWidth 16 &&& validBits)
    else if address = iMask then .enable (value.setWidth 16 &&& validBits)
    else .other

namespace InterruptController

/-- The controller after an operation; a write elsewhere is refused and changes nothing. -/
def perform (irq : InterruptController) : InterruptOp InterruptSource → InterruptController
  | .request source => irq.request source
  | .setLevel source asserted => irq.setLevel source asserted
  | .write address value => (irq.write address value).toOption.getD irq

def bank (irq : InterruptController) : Bank 16 := ⟨irq.levels, irq.status, irq.mask⟩

theorem bank_perform (irq : InterruptController) (op : InterruptOp InterruptSource) :
    (irq.perform op).bank = irq.bank.step (latchOp op) := by
  cases op with
  | request source => rfl
  | setLevel source asserted => cases asserted <;> rfl
  | write address value =>
    simp only [perform, write, latchOp]
    split
    next => rfl
    next => split <;> rfl

/-- After any operations from reset, each source is latched, asserted and unmasked as its own signals
say, and the line is asserted exactly where some source is latched and unmasked. -/
theorem sources_latched (ops : List (InterruptOp InterruptSource)) :
    (∀ input, (ops.foldl perform new).bank.latch input =
      (ops.map fun op => (latchOp op).signal input).foldl Latch.step (new.bank.latch input)) ∧
    ((ops.foldl perform new).pending = true ↔ ∃ input, ((ops.foldl perform new).bank.latch input).latched = true ∧
      ((ops.foldl perform new).bank.latch input).enabled = true) :=
  ⟨Bank.latch_run bank_perform new ops, Bank.line_iff (ops.foldl perform new).bank⟩

end InterruptController

end Upse.Ps1

namespace Upse

def InterruptSource.input (source : InterruptSource) : Fin 32 := ⟨source.index, by cases source <;> decide⟩

/-- The operation, as one on latches. -/
def latchOp : InterruptOp InterruptSource → Latches.Op 32
  | .request source => .pulse source.input
  | .setLevel source asserted => .level source.input asserted
  | .write address value =>
    if address = iStat then .acknowledge (value &&& validBits)
    else if address = iMask then .enable (value &&& validBits)
    else .other

namespace InterruptController

/-- The controller after an operation; a write elsewhere is refused and changes nothing. -/
def perform (irq : InterruptController) : InterruptOp InterruptSource → InterruptController
  | .request source => irq.request source
  | .setLevel source asserted => irq.setLevel source asserted
  | .write address value => (irq.write address value).toOption.getD irq

def bank (irq : InterruptController) : Bank 32 := ⟨irq.levels, irq.status, irq.mask⟩

theorem bank_perform (irq : InterruptController) (op : InterruptOp InterruptSource) :
    (irq.perform op).bank = irq.bank.step (latchOp op) := by
  cases op with
  | request source => rfl
  | setLevel source asserted => cases asserted <;> rfl
  | write address value =>
    simp only [perform, write, latchOp]
    split
    next => rfl
    next => split <;> rfl

/-- After any operations from reset, each source is latched, asserted and unmasked as its own signals
say, and the line is asserted exactly where some source is latched and unmasked. -/
theorem inputs_latched (ops : List (InterruptOp InterruptSource)) :
    (∀ input, (ops.foldl perform new).bank.latch input =
      (ops.map fun op => (latchOp op).signal input).foldl Latch.step (new.bank.latch input)) ∧
    ((ops.foldl perform new).pending = true ↔ ∃ input, ((ops.foldl perform new).bank.latch input).latched = true ∧
      ((ops.foldl perform new).bank.latch input).enabled = true) :=
  ⟨Bank.latch_run bank_perform new ops, Bank.line_iff (ops.foldl perform new).bank⟩

end InterruptController

end Upse
