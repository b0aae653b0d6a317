import Mathlib.Data.List.MinMax
import Upse.Bios.FixedTable
import Upse.Lib.ErrorState
import Upse.Lib.Runs
import Upse.Lib.Tiling
import Upse.Support.Alignment

/-!
# IOP system memory

The allocator behind `AllocSysMemory`: a quantum-aligned arena and a table of live allocations,
with lowest, highest and exact placement.
-/

namespace Upse

open ErrorState

/-- IOP `sysmem` allocation quantum. -/
def sysmemQuantum : ℕ := 256

/-- Number of live allocations the table holds. -/
def maxAllocations : ℕ := 256

/-- Placement mode accepted by `AllocSysMemory`. -/
inductive AllocationMode where
  | first
  | last
  | address
  deriving DecidableEq, Repr

/-- One live guest system-memory allocation. -/
structure Allocation where
  address : ℕ
  size : ℕ
  requestedSize : ℕ
  alignment : ℕ
  deriving DecidableEq, Repr

/-- The first address after the allocation. -/
def Allocation.stop (a : Allocation) : ℕ := a.address + a.size

/-- The addresses of the allocation. -/
def Allocation.span (a : Allocation) : Span := ⟨a.address, a.size⟩

/-- Deterministic fixed-capacity IOP system-memory allocator. -/
structure SystemMemory where
  start : ℕ
  stop : ℕ
  allocations : FixedTable Allocation maxAllocations 1

namespace SystemMemory

/-- An empty, quantum-aligned arena. -/
def new (start stop : Word) : Except KernelError SystemMemory :=
  if start.toNat = 0 ∨ stop.toNat ≤ start.toNat ∨ start.toNat % sysmemQuantum ≠ 0 ∨
      stop.toNat % sysmemQuantum ≠ 0 then
    .error .illegalObject
  else .ok ⟨start.toNat, stop.toNat, .new⟩

/-- The arena bounds. -/
def range (memory : SystemMemory) : ℕ × ℕ := (memory.start, memory.stop)

/-- The live allocations, in identifier order. -/
def live (memory : SystemMemory) : List Allocation := memory.allocations.iter.map Prod.snd

/-- Occupied blocks in ascending address order. -/
def sorted (memory : SystemMemory) : List Allocation :=
  memory.live.insertionSort fun a b => a.address ≤ b.address

/-- The live block beginning at `address`. -/
def block (memory : SystemMemory) (address : ℕ) : Option Allocation :=
  memory.live.find? fun allocation => allocation.address == address

/-- The complete arena byte count. -/
def memorySize (memory : SystemMemory) : Option ℕ := checkedSub memory.stop memory.start

/-- The number of unallocated bytes; `none` where the 32-bit sum or a difference overflows. -/
def totalFree (memory : SystemMemory) : Option ℕ := do
  let size ← memory.memorySize
  let used ← (memory.live.map Allocation.size).foldlM (checkedAdd 32) 0
  checkedSub size used

/-- The loop of `maximum_free`; every round passes a block, so that one round more than there are
blocks is enough. -/
def maximumFreeLoop (memory : SystemMemory) : ℕ → ℕ → ℕ → ℕ
  | 0, _, maximum => maximum
  | rounds + 1, cursor, maximum =>
    if cursor < memory.stop then
      match (memory.live.filter fun allocation => cursor ≤ allocation.address).argmin
          Allocation.address with
      | some allocation =>
        maximumFreeLoop memory rounds allocation.stop (max maximum (allocation.address - cursor))
      | none => max maximum (memory.stop - cursor)
    else maximum

/-- The largest contiguous free block. -/
def maximumFree (memory : SystemMemory) : ℕ :=
  memory.maximumFreeLoop (memory.live.length + 1) memory.start 0

/-- The loop of `find_first` over the blocks that are left. -/
def findFirstLoop (memory : SystemMemory) (size alignment : ℕ) : List Allocation → ℕ → Option ℕ
  | [], cursor => do
    let last ← checkedAdd 32 cursor size
    if last ≤ memory.stop then some cursor else none
  | allocation :: blocks, cursor => do
    let last ← checkedAdd 32 cursor size
    if last ≤ allocation.address then some cursor
    else
      let cursor ← alignUp (max cursor allocation.stop) alignment
      findFirstLoop memory size alignment blocks cursor

/-- Lowest-address suitable block. -/
def findFirst (memory : SystemMemory) (size alignment : ℕ) : Option ℕ := do
  let cursor ← alignUp memory.start alignment
  memory.findFirstLoop size alignment memory.sorted cursor

/-- The loop of `find_last` over the blocks that are left, highest first. -/
def findLastLoop (memory : SystemMemory) (size alignment : ℕ) : List Allocation → ℕ → Option ℕ
  | [], boundary => do
    let top ← checkedSub boundary size
    if memory.start ≤ alignDown top alignment then some (alignDown top alignment) else none
  | allocation :: blocks, boundary => do
    let top ← checkedSub boundary size
    if allocation.stop ≤ alignDown top alignment then some (alignDown top alignment)
    else findLastLoop memory size alignment blocks (min boundary allocation.address)

/-- Highest-address suitable block. -/
def findLast (memory : SystemMemory) (size alignment : ℕ) : Option ℕ :=
  memory.findLastLoop size alignment memory.sorted.reverse memory.stop

/-- Whether the interval lies in the arena and meets no block. -/
def isFree (memory : SystemMemory) (address size : ℕ) : Bool :=
  match checkedAdd 32 address size with
  | none => false
  | some last => decide (memory.start ≤ address ∧ last ≤ memory.stop) &&
      memory.live.all fun allocation =>
        decide (last ≤ allocation.address ∨ allocation.stop ≤ address)

/-- The address the mode selects for a block. -/
def select (memory : SystemMemory) (mode : AllocationMode) (reserved address alignment : ℕ) :
    Except KernelError (Option ℕ) :=
  match mode with
  | .first => .ok (memory.findFirst reserved alignment)
  | .last => .ok (memory.findLast reserved alignment)
  | .address =>
    if address % alignment ≠ 0 then .error .illegalObject
    else .ok (if memory.isFree address reserved then some address else none)

/-- Allocates a quantum-sized block with a stronger power-of-two alignment. -/
def allocateAligned (mode : AllocationMode) (size address alignment : ℕ) :
    EStateM KernelError SystemMemory Allocation := do
  if size = 0 then throw .illegalSize
  if alignment < sysmemQuantum ∨ ¬ alignment.isPowerOfTwo then throw .illegalObject
  let memory ← get
  if memory.allocations.nextId.isNone then throw .noMemory
  let reserved ← okOr (alignUp size sysmemQuantum) .illegalSize
  let selected ← ErrorState.ofExcept (memory.select mode reserved address alignment)
  let selected ← okOr selected .noMemory
  let allocation : Allocation := ⟨selected, reserved, size, alignment⟩
  let (_, allocations) ← ErrorState.ofExcept (memory.allocations.insert allocation)
  set { memory with allocations := allocations }
  return allocation

/-- Allocates with the standard 256-byte alignment. -/
def allocate (mode : AllocationMode) (size address : ℕ) :
    EStateM KernelError SystemMemory Allocation :=
  allocateAligned mode size address sysmemQuantum

/-- Frees the allocation beginning at an exact block address. -/
def free (address : ℕ) : EStateM KernelError SystemMemory Allocation := do
  let memory ← get
  let id ← okOr (memory.allocations.iter.findSome? fun entry =>
    if entry.2.address = address then some entry.1 else none) .illegalObject
  let (removed, allocations) := memory.allocations.remove id
  set { memory with allocations := allocations }
  okOr removed .illegalObject

/-- Drops all allocations and restores the full arena. -/
def reset : EStateM KernelError SystemMemory Unit :=
  modify fun memory => { memory with allocations := memory.allocations.clear }

end SystemMemory

/-- One operation on the allocator. -/
inductive MemoryOp where
  | allocate (mode : AllocationMode) (size address : Word)
  | allocateAligned (mode : AllocationMode) (size address alignment : Word)
  | free (address : Word)
  | reset
  deriving DecidableEq, Repr

/-- Runs one operation. -/
def MemoryOp.perform : MemoryOp → EStateM KernelError SystemMemory Unit
  | .allocate mode size address => (fun _ => ()) <$> SystemMemory.allocate mode size.toNat address.toNat
  | .allocateAligned mode size address alignment =>
      (fun _ => ()) <$> SystemMemory.allocateAligned mode size.toNat address.toNat alignment.toNat
  | .free address => (fun _ => ()) <$> SystemMemory.free address.toNat
  | .reset => SystemMemory.reset

/-- One operation leaves this state, whether it returned or failed. -/
def SystemMemory.Next (memory : SystemMemory) (op : MemoryOp) (memory' : SystemMemory) : Prop :=
  leaves (op.perform.run memory) = memory'

end Upse
