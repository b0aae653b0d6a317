import Upse.Lib.ErrorState
import Upse.Support.Integers

/-!
# PS1 memory

Main RAM and its mirrors, the scratchpad and the memory-control block.  Device registers and the
firmware range are classified here and routed by the machine.
-/

namespace Upse.Ps1

open ErrorState

def ramSize : ℕ := 2 * 1024 * 1024
def ramMirrorEnd : ℕ := 0x00800000
def scratchStart : ℕ := 0x1f800000
def scratchSize : ℕ := 1024
def mmioStart : ℕ := 0x1f801000
def mmioEnd : ℕ := 0x1f803000
def romStart : ℕ := 0x1fc00000
def romEnd : ℕ := 0x1fc80000

/-- First memory-control register address. -/
def memoryControlStart : ℕ := 0x1f801000

/-- Last byte occupied by the memory-control register block. -/
def memoryControlEnd : ℕ := 0x1f801023

def memoryControlReset : Vector Word 9 :=
  #v[0x1f000000, 0x1f802000, 0x0013243f, 0x00003022, 0x0013243f, 0x200931e1, 0x00020843, 0x00070777,
    0x00031125]

/-- Handling for otherwise unmapped physical addresses. -/
inductive OpenBusPolicy where
  | strict
  | ones
  deriving DecidableEq, Repr

/-- Decoded address region. -/
inductive MemoryRegion where
  | ram (offset : ℕ)
  | scratchpad (offset : ℕ)
  | mmio (physical : ℕ)
  | hleRom (physical : ℕ)
  | unmapped (physical : ℕ)
  deriving DecidableEq, Repr

/-- Memory access failure. -/
inductive MemoryError where
  | unsupportedSegment (address : Word)
  | mmio (address : ℕ)
  | hleRom (address : ℕ)
  | unmapped (address : ℕ)
  | crossesBoundary (address : Word)
  deriving DecidableEq, Repr

/-- The physical address. -/
def translate (address : Word) : Except MemoryError ℕ :=
  if (address >>> 29).toNat ≤ 5 then .ok (address &&& 0x1fffffff).toNat
  else .error (.unsupportedSegment address)

def MemoryRegion.same : MemoryRegion → MemoryRegion → Bool
  | .ram _, .ram _ => true
  | .scratchpad _, .scratchpad _ => true
  | .mmio _, .mmio _ => true
  | .hleRom _, .hleRom _ => true
  | .unmapped _, .unmapped _ => true
  | _, _ => false

/-- Instance-owned PS1 RAM and scratchpad. -/
structure Memory where
  ram : ℕ → BitVec 8
  scratchpad : ℕ → BitVec 8
  memoryControl : Vector Word 9
  openBus : OpenBusPolicy

namespace Memory

/-- Zeroed memory with the selected unmapped-access policy. -/
def new (openBus : OpenBusPolicy) : Memory := ⟨fun _ => 0, fun _ => 0, memoryControlReset, openBus⟩

/-- Decodes a guest virtual address without performing an access. -/
def classify (address : Word) : Except MemoryError MemoryRegion := do
  let physical ← translate address
  return if physical < ramMirrorEnd then .ram (physical % ramSize)
    else if scratchStart ≤ physical ∧ physical < scratchStart + scratchSize then
      .scratchpad (physical - scratchStart)
    else if mmioStart ≤ physical ∧ physical < mmioEnd then .mmio physical
    else if romStart ≤ physical ∧ physical < romEnd then .hleRom physical
    else .unmapped physical

def memoryControlIndex (address : ℕ) : Except MemoryError (Fin 9) :=
  if h : memoryControlStart ≤ address ∧ address ≤ memoryControlEnd ∧ address % 4 = 0 then
    .ok ⟨(address - memoryControlStart) / 4, by
      have last := h.2.1
      unfold memoryControlStart memoryControlEnd at *
      omega⟩
  else .error (.mmio address)

/-- Reads one aligned memory-control register. -/
def readControl (memory : Memory) (address : ℕ) : Except MemoryError Word := do
  return memory.memoryControl[← memoryControlIndex address]

/-- Writes one aligned memory-control register. -/
def writeControl (memory : Memory) (address : ℕ) (value : Word) : Except MemoryError Memory := do
  let index ← memoryControlIndex address
  return { memory with memoryControl := memory.memoryControl.set index value }

/-- One byte of a region backed by this component; `all` is what an open bus reads as. -/
def backed (memory : Memory) {α : Type} (region : MemoryRegion) (ram scratchpad : ℕ → α) (all : α) :
    Except MemoryError α :=
  match region with
  | .ram offset => .ok (ram offset)
  | .scratchpad offset => .ok (scratchpad offset)
  | .mmio physical => .error (.mmio physical)
  | .hleRom physical => .error (.hleRom physical)
  | .unmapped physical =>
    match memory.openBus with
    | .strict => .error (.unmapped physical)
    | .ones => .ok all

/-- Reads one byte. -/
def readU8 (memory : Memory) (address : Word) : Except MemoryError (BitVec 8) := do
  memory.backed (← classify address) memory.ram memory.scratchpad (-1)

/-- The last byte of an access lies in the region of the first. -/
def validateDecodedAccess (size : ℕ) (address : Word) (region : MemoryRegion) :
    Except MemoryError Unit := do
  if address.toNat + (size - 1) < 2 ^ 32 then
    let last ← classify (address + BitVec.ofNat 32 (size - 1))
    if region.same last then .ok () else .error (.crossesBoundary address)
  else .error (.crossesBoundary address)

/-- Two little-endian bytes. -/
def halfword (low high : BitVec 8) : BitVec 16 := low.setWidth 16 ||| (high.setWidth 16 <<< 8)

/-- Four little-endian bytes. -/
def word (b0 b1 b2 b3 : BitVec 8) : Word :=
  b0.setWidth 32 ||| (b1.setWidth 32 <<< 8) ||| (b2.setWidth 32 <<< 16) ||| (b3.setWidth 32 <<< 24)

/-- Reads a halfword of an address already classified. -/
def readDecodedU16 (memory : Memory) (address : Word) (region : MemoryRegion) :
    Except MemoryError (BitVec 16) := do
  validateDecodedAccess 2 address region
  memory.backed region
    (fun offset => halfword (memory.ram offset) (memory.ram ((offset + 1) % ramSize)))
    (fun offset => halfword (memory.scratchpad offset) (memory.scratchpad (offset + 1))) (-1)

/-- Reads a word of an address already classified. -/
def readDecodedU32 (memory : Memory) (address : Word) (region : MemoryRegion) :
    Except MemoryError Word := do
  validateDecodedAccess 4 address region
  memory.backed region
    (fun offset => word (memory.ram offset) (memory.ram ((offset + 1) % ramSize))
      (memory.ram ((offset + 2) % ramSize)) (memory.ram ((offset + 3) % ramSize)))
    (fun offset => word (memory.scratchpad offset) (memory.scratchpad (offset + 1))
      (memory.scratchpad (offset + 2)) (memory.scratchpad (offset + 3))) (-1)

/-- Reads one little-endian halfword without crossing a region boundary. -/
def readU16 (memory : Memory) (address : Word) : Except MemoryError (BitVec 16) := do
  memory.readDecodedU16 address (← classify address)

/-- Reads one little-endian word without crossing a region boundary. -/
def readU32 (memory : Memory) (address : Word) : Except MemoryError Word := do
  memory.readDecodedU32 address (← classify address)

/-- The bytes of a region with one replaced. -/
def replaceByte (bytes : ℕ → BitVec 8) (offset : ℕ) (value : BitVec 8) : ℕ → BitVec 8 :=
  fun other => if other = offset then value else bytes other

/-- Writes one byte. -/
def writeU8 (memory : Memory) (address : Word) (value : BitVec 8) : Except MemoryError Memory := do
  memory.backed (← classify address)
    (fun offset => { memory with ram := replaceByte memory.ram offset value })
    (fun offset => { memory with scratchpad := replaceByte memory.scratchpad offset value })
    memory

/-- The bytes of a region with values stored in order, each at the offset its index selects. -/
def replaceBytes (bytes : ℕ → BitVec 8) (offset : ℕ → ℕ) (values : List (BitVec 8)) :
    ℕ → BitVec 8 :=
  values.zipIdx.foldl (fun bytes entry => replaceByte bytes (offset entry.2) entry.1) bytes

/-- Writes bytes in order from an address already classified. -/
def writeDecodedBytes (memory : Memory) (address : Word) (region : MemoryRegion)
    (bytes : List (BitVec 8)) : Except MemoryError Memory := do
  validateDecodedAccess bytes.length address region
  memory.backed region
    (fun offset =>
      { memory with ram := replaceBytes memory.ram (fun i => (offset + i) % ramSize) bytes })
    (fun offset => { memory with scratchpad := replaceBytes memory.scratchpad (offset + ·) bytes })
    memory

/-- The little-endian bytes of a value. -/
def littleEndian {w : ℕ} (value : BitVec w) (size : ℕ) : List (BitVec 8) :=
  (List.range size).map fun index => (value >>> (8 * index)).setWidth 8

/-- Writes a halfword to an address already classified. -/
def writeDecodedU16 (memory : Memory) (address : Word) (region : MemoryRegion)
    (value : BitVec 16) : Except MemoryError Memory :=
  memory.writeDecodedBytes address region (littleEndian value 2)

/-- Writes a word to an address already classified. -/
def writeDecodedU32 (memory : Memory) (address : Word) (region : MemoryRegion) (value : Word) :
    Except MemoryError Memory :=
  memory.writeDecodedBytes address region (littleEndian value 4)

end Memory

end Upse.Ps1
