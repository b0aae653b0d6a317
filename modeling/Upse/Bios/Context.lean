import Upse.Support.Integers

/-!
# Saved CPU state

The complete R3000 state the BIOS preserves across an exception, a callback or a context switch,
and the guest callbacks it enters.
-/

namespace Upse

/-! ### Register numbers and entry points -/

/-- The registers of the calling convention. -/
def v0 : ℕ := 2
def v1 : ℕ := 3
def a0 : ℕ := 4
def a1 : ℕ := 5
def a2 : ℕ := 6
def a3 : ℕ := 7
def gp : ℕ := 28
def sp : ℕ := 29
def ra : ℕ := 31

/-- HLE entry a guest callback returns to. -/
def returnEntry : Word := 0x440

/-- HLE entry a thread returns to. -/
def threadReturnEntry : Word := 0x450

/-- Complete R3000 state preserved across an HLE exception or callback. -/
structure CpuContext where
  registers : Vector Word 32
  hi : Word
  lo : Word
  status : Word
  cause : Word
  epc : Word
  pc : Word
  deriving DecidableEq, Repr

namespace CpuContext

/-- Reads a general-purpose register. -/
def register (c : CpuContext) (index : ℕ) : Option Word := c.registers[index]?

/-- Writes a general-purpose register while preserving register zero; an index outside the register
file is ignored. -/
def setRegister (c : CpuContext) (index : ℕ) (value : Word) : CpuContext :=
  if index = 0 then c else { c with registers := c.registers.setIfInBounds index value }

/-- Zeroed CPU state at an entry point and stack. -/
def reset (entry stack : Word) : CpuContext where
  registers := (Vector.replicate 32 0).setIfInBounds sp stack
  hi := 0
  lo := 0
  status := 0
  cause := 0
  epc := 0
  pc := entry

theorem register_setRegister_self (c : CpuContext) {index : ℕ} (value : Word) (h0 : index ≠ 0)
    (h : index < 32) : (c.setRegister index value).register index = some value := by
  simp [setRegister, register, h0, h]

end CpuContext

/-- Guest callback selected by interrupt, alarm or vertical-blank dispatch. -/
structure CallbackRequest where
  entry : ℕ
  argument : Word
  returnAddress : Word
  source : ℕ
  deriving DecidableEq, Repr

/-- Installs the callback registers in an already saved context. -/
def CallbackRequest.apply (callback : CallbackRequest) (context : CpuContext) : CpuContext :=
  { (context.setRegister a0 callback.argument).setRegister ra callback.returnAddress with
    pc := BitVec.ofNat 32 callback.entry }

end Upse
