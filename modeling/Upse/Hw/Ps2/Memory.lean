import Upse.Hw.Ps2.Dma

/-!
# IOP memory

Main RAM and its mirrors and the scratchpad.  Device registers and the firmware range are classified
here and routed by the machine.
-/

namespace Upse.Iop

open ErrorState

def ramMirrorEnd : ℕ := 8 * 1024 * 1024
def scratchpadStart : ℕ := 0x1f800000
def scratchpadSize : ℕ := 0x800
def mmioStart : ℕ := 0x1f801000
def mmioEnd : ℕ := 0x1f80ffff
def spu2MmioStart : ℕ := 0x1f900000
def spu2MmioEnd : ℕ := 0x1f90ffff
def hleRomStart : ℕ := 0x1fc00000
def hleRomEnd : ℕ := 0x1fc7ffff

/-- Handling for addresses outside modeled IOP regions. -/
inductive OpenBusPolicy where
  | strict
  | ones
  deriving DecidableEq, Repr

/-- Decoded IOP address region. -/
inductive MemoryRegion where
  | ram (offset : Fin ramSize)
  | scratchpad (offset : Fin scratchpadSize)
  | mmio (physical : ℕ)
  | spu2 (physical : ℕ)
  | hleRom (physical : ℕ)
  | unmapped (physical : ℕ)
  deriving DecidableEq, Repr

/-- IOP memory access failure. -/
inductive MemoryError where
  | unsupportedSegment (address : Word)
  | mmio (address : ℕ)
  | spu2 (address : ℕ)
  | hleRom (address : ℕ)
  | unmapped (address : ℕ)
  | crossesBoundary (address : Word)
  deriving DecidableEq, Repr

def MemoryRegion.kind : MemoryRegion → ℕ
  | .ram _ => 0
  | .scratchpad _ => 1
  | .mmio _ => 2
  | .spu2 _ => 3
  | .hleRom _ => 4
  | .unmapped _ => 5

/-- Instance-owned PS2 IOP memory. -/
structure Memory where
  ram : Ram
  scratchpad : Fin scratchpadSize → BitVec 8
  openBus : OpenBusPolicy

namespace Memory

/-- Zeroed memory. -/
def new (openBus : OpenBusPolicy) : Memory := ⟨fun _ => 0, fun _ => 0, openBus⟩

/-- Translates a direct-mapped IOP address to its physical bus address. -/
def translate (address : Word) : Except MemoryError ℕ :=
  if address.toNat ≤ 0x3fffffff ∨ 0x80000000 ≤ address.toNat ∧ address.toNat ≤ 0xbfffffff then
    .ok (address &&& 0x1fffffff).toNat
  else .error (.unsupportedSegment address)

/-- Classifies a guest address without performing an access. -/
def classify (address : Word) : Except MemoryError MemoryRegion := do
  let physical ← translate address
  return if physical < ramMirrorEnd then .ram ⟨physical % ramSize, Nat.mod_lt _ (by decide)⟩
    else if h : scratchpadStart ≤ physical ∧ physical < scratchpadStart + scratchpadSize then
      .scratchpad ⟨physical - scratchpadStart, by omega⟩
    else if mmioStart ≤ physical ∧ physical ≤ mmioEnd then .mmio physical
    else if spu2MmioStart ≤ physical ∧ physical ≤ spu2MmioEnd then .spu2 physical
    else if hleRomStart ≤ physical ∧ physical ≤ hleRomEnd then .hleRom physical
    else .unmapped physical

/-- The last byte of an access lies in the region of the first, and not before it. -/
def validateSpan (address : Word) (first : MemoryRegion) (length : ℕ) : Except MemoryError Unit := do
  if address.toNat + (length - 1) < 2 ^ 32 then
    let last ← classify (address + BitVec.ofNat 32 (length - 1))
    if first.kind ≠ last.kind then .error (.crossesBoundary address)
    else
      match first, last with
      | .ram first, .ram last =>
        if last < first then .error (.crossesBoundary address) else .ok ()
      | .scratchpad first, .scratchpad last =>
        if last < first then .error (.crossesBoundary address) else .ok ()
      | _, _ => .ok ()
  else .error (.crossesBoundary address)

/-- Reads a byte of a region. -/
def readDecodedU8 (memory : Memory) : MemoryRegion → Except MemoryError (BitVec 8)
  | .ram offset => .ok (memory.ram offset)
  | .scratchpad offset => .ok (memory.scratchpad offset)
  | .mmio physical => .error (.mmio physical)
  | .spu2 physical => .error (.spu2 physical)
  | .hleRom physical => .error (.hleRom physical)
  | .unmapped physical =>
    match memory.openBus with
    | .strict => .error (.unmapped physical)
    | .ones => .ok (-1)

/-- Writes a byte of a region. -/
def writeDecodedU8 (memory : Memory) (value : BitVec 8) : MemoryRegion → Except MemoryError Memory
  | .ram offset => .ok { memory with ram := Function.update memory.ram offset value }
  | .scratchpad offset =>
    .ok { memory with scratchpad := Function.update memory.scratchpad offset value }
  | .mmio physical => .error (.mmio physical)
  | .spu2 physical => .error (.spu2 physical)
  | .hleRom physical => .error (.hleRom physical)
  | .unmapped physical =>
    match memory.openBus with
    | .strict => .error (.unmapped physical)
    | .ones => .ok memory

/-- Reads one byte from a directly backed region. -/
def readU8 (memory : Memory) (address : Word) : Except MemoryError (BitVec 8) := do
  memory.readDecodedU8 (← classify address)

/-- Reads one little-endian halfword from a directly backed region. -/
def readU16 (memory : Memory) (address : Word) : Except MemoryError (BitVec 16) := do
  let region ← classify address
  validateSpan address region 2
  let b0 ← memory.readDecodedU8 region
  let b1 ← memory.readU8 (address + 1)
  return b1 ++ b0

/-- Reads one little-endian word from a directly backed region. -/
def readU32 (memory : Memory) (address : Word) : Except MemoryError Word := do
  let region ← classify address
  validateSpan address region 4
  let b0 ← memory.readU8 address
  let b1 ← memory.readU8 (address + 1)
  let b2 ← memory.readU8 (address + 2)
  let b3 ← memory.readU8 (address + 3)
  return b3 ++ b2 ++ b1 ++ b0

/-- Writes one byte to a directly backed region. -/
def writeU8 (memory : Memory) (address : Word) (value : BitVec 8) : Except MemoryError Memory := do
  memory.writeDecodedU8 value (← classify address)

/-- Writes one little-endian halfword to a directly backed region. -/
def writeU16 (memory : Memory) (address : Word) (value : BitVec 16) : Except MemoryError Memory := do
  validateSpan address (← classify address) 2
  let memory ← memory.writeU8 address (value.setWidth 8)
  memory.writeU8 (address + 1) ((value >>> 8).setWidth 8)

/-- Writes one little-endian word to a directly backed region. -/
def writeU32 (memory : Memory) (address value : Word) : Except MemoryError Memory := do
  validateSpan address (← classify address) 4
  let memory ← memory.writeU8 address (value.setWidth 8)
  let memory ← memory.writeU8 (address + 1) ((value >>> 8).setWidth 8)
  let memory ← memory.writeU8 (address + 2) ((value >>> 16).setWidth 8)
  memory.writeU8 (address + 3) ((value >>> 24).setWidth 8)

theorem readDecodedU8_ok {memory : Memory} {region : MemoryRegion} {value : BitVec 8}
    (read : memory.readDecodedU8 region = .ok value) (physical : ℕ) :
    region ≠ .mmio physical ∧ region ≠ .spu2 physical := by
  constructor <;> rintro rfl <;> cases read

theorem readU32_ok {memory : Memory} {address value : Word} (read : memory.readU32 address = .ok value) :
    ∃ region, classify address = .ok region ∧
      ∀ physical, region ≠ .mmio physical ∧ region ≠ .spu2 physical := by
  obtain ⟨region, classified, read⟩ := except_bind_ok.mp read
  obtain ⟨_, -, read⟩ := except_bind_ok.mp read
  obtain ⟨first, read, -⟩ := except_bind_ok.mp read
  unfold readU8 at read
  rw [classified] at read
  exact ⟨region, classified, readDecodedU8_ok read⟩

end Memory

/-- The byte of main memory at an address. -/
def ramByte (memory : Memory) (address : ℕ) : BitVec 8 :=
  memory.ram ⟨address % ramSize, Nat.mod_lt _ (by decide)⟩

end Upse.Iop
