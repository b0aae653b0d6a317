import Mathlib.Order.Bounds.Basic
import Upse.Bios.Ps1.Context
import Upse.Lib.Loops
import Upse.Lib.Runs
import Upse.Support.Alignment

/-!
# The heap services of the PS1 firmware

`InitHeap`, `malloc`, `calloc`, `realloc` and `free` on the program's heap, and the kernel's own
heap.  A heap is a list of blocks in address order; the first gap that fits is taken.
-/

namespace Upse.Ps1

open ErrorState

/-- Register numbers of the calling convention. -/
def v0 : ℕ := 2
def a0 : ℕ := 4

/-- Where the kernel's heap lies. -/
def kernelMemoryAddress : ℕ := 0xa000e000
/-- The size of the kernel's heap. -/
def kernelMemorySize : ℕ := 0x2000

namespace CpuContext

/-- An argument in its register. -/
def argument (c : CpuContext) (index : ℕ) : ℕ := ((c.register (a0 + index)).getD 0).toNat

/-- Puts a result in `v0`. -/
def returnValue (c : CpuContext) (value : ℕ) : CpuContext := c.setRegister v0 (BitVec.ofNat 32 value)

end CpuContext

/-- A block of a heap. -/
structure HeapBlock where
  address : ℕ
  size : ℕ
  deriving DecidableEq, Repr

/-- The first address after the block. -/
def HeapBlock.stop (b : HeapBlock) : ℕ := b.address + b.size

/-- A heap: its first address, the first one after it, and its live blocks. -/
structure Heap where
  base : ℕ
  stop : ℕ
  blocks : List HeapBlock
  deriving DecidableEq, Repr

/-- The part of the firmware's state the heap services use. -/
structure BiosHle where
  limits : HleLimits
  heap : Option Heap
  kernelHeap : Heap
  deriving DecidableEq, Repr

/-- Clean state. -/
def BiosHle.new (limits : HleLimits) : BiosHle where
  limits := limits
  heap := none
  kernelHeap := ⟨kernelMemoryAddress, kernelMemoryAddress + kernelMemorySize, []⟩

/-- The firmware, the registers and the guest memory during a call. -/
structure HleState (M : Type) where
  bios : BiosHle
  context : CpuContext
  memory : M

/-- Programs of the firmware. -/
abbrev HleM (M : Type) := EStateM BiosError (HleState M)

/-! ### Blocks -/

/-- Looks for the first gap that fits, from an address on: where the block begins and where it is
inserted. -/
def findGapLoop (size : ℕ) : List HeapBlock → ℕ → ℕ → Except BiosError (ℕ × ℕ)
  | [], address, index => .ok (address, index)
  | block :: rest, address, index =>
    match checkedAdd 32 address size with
    | none => .error .addressOverflow
    | some candidateEnd =>
      if candidateEnd ≤ block.address then .ok (address, index)
      else
        match checkedAdd 32 block.address block.size with
        | none => .error .addressOverflow
        | some next => findGapLoop size rest next (index + 1)

/-- Takes the lowest gap that fits. -/
def allocateFromHeap (heap : Heap) (size : ℕ) : Except BiosError (ℕ × Heap) :=
  match alignUp (max size 1) 8 with
  | none => .error .addressOverflow
  | some allocationSize =>
    match findGapLoop allocationSize heap.blocks heap.base 0 with
    | .error e => .error e
    | .ok (address, insertion) =>
      match checkedAdd 32 address allocationSize with
      | none => .error .addressOverflow
      | some allocationEnd =>
        if heap.stop < allocationEnd then .error (.outOfMemory size)
        else .ok (address,
          { heap with blocks := heap.blocks.insertIdx insertion ⟨address, allocationSize⟩ })

/-- The position of the block at an address. -/
def Heap.position (heap : Heap) (address : ℕ) : Option ℕ :=
  heap.blocks.findIdx? fun block => block.address = address

/-- Drops the block at an address, if there is one. -/
def freeFromHeap (heap : Heap) (address : ℕ) : Heap :=
  match heap.position address with
  | some index => { heap with blocks := heap.blocks.eraseIdx index }
  | none => heap

/-- An empty heap over a range of the guest's choice. -/
def newHeap (start size : ℕ) : Except BiosError Heap :=
  match alignUp start 8 with
  | none => .error .addressOverflow
  | some base =>
    match checkedAdd 32 start size with
    | none => .error .addressOverflow
    | some stop => if stop < base then .error (.outOfMemory size) else .ok ⟨base, stop, []⟩

/-! ### Services -/

section Services

variable {M : Type}

/-- An argument of the call. -/
def argument (index : ℕ) : HleM M ℕ := do return (← get).context.argument index

/-- Returns a value to the guest. -/
def returnValue (value : ℕ) : HleM M Unit :=
  modify fun s => { s with context := s.context.returnValue value }

/-- Changes the firmware's state. -/
def modifyBios (f : BiosHle → BiosHle) : HleM M Unit := modify fun s => { s with bios := f s.bios }

/-- Refuses sizes over the bound. -/
def checkMemorySize (size : ℕ) : HleM M Unit := do
  let limit := (← get).bios.limits.memoryOperationBytes
  throwIf (limit < size) (.memoryOperationLimit size limit)

/-- `InitHeap`. -/
def initializeHeap : HleM M ℕ := do
  let heap ← ErrorState.ofExcept (newHeap (← argument 0) (← argument 1))
  modifyBios fun bios => { bios with heap := some heap }
  returnValue heap.base
  return 20

/-- `SysInitMemory`. -/
def initializeKernelHeap : HleM M ℕ := do
  let heap ← ErrorState.ofExcept (newHeap (← argument 0) (← argument 1))
  modifyBios fun bios => { bios with kernelHeap := heap }
  return 20

/-- Allocates from the user heap. -/
def allocate (size : ℕ) : HleM M ℕ := do
  let heap ← okOr (← get).bios.heap .heapUnavailable
  let (address, heap) ← ErrorState.ofExcept (allocateFromHeap heap size)
  modifyBios fun bios => { bios with heap := some heap }
  return address

/-- `malloc`. -/
def malloc : HleM M ℕ := do
  let address ← allocate (← argument 0)
  returnValue address
  return 12

/-- The kernel's allocation reports a full heap to the guest. -/
def allocateKernelMemory : HleM M ℕ := do
  match allocateFromHeap (← get).bios.kernelHeap (← argument 0) with
  | .ok (address, heap) =>
    modifyBios fun bios => { bios with kernelHeap := heap }
    returnValue address
    return 12
  | .error (.outOfMemory _) =>
    returnValue u32Max
    return 12
  | .error e => throw e

/-- `kfree`. -/
def freeKernelMemory : HleM M ℕ := do
  let address ← argument 0
  modifyBios fun bios => { bios with kernelHeap := freeFromHeap bios.kernelHeap address }
  return 6

/-- `free`. -/
def free : HleM M ℕ := do
  let address ← argument 0
  modifyBios fun bios => { bios with heap := bios.heap.map (freeFromHeap · address) }
  return 6

variable (ram : GuestBytes M)

/-- Runs an access of the guest's memory. -/
def onGuestMemory {α : Type} (address : ℕ) (operation : MemoryOperation)
    (m : EStateM GuestMemoryError M α) : HleM M α :=
  zoom HleState.memory (fun memory s => { s with memory := memory })
    (.guestMemory address operation) m

/-- Reads a byte at an offset. -/
def readByte (base offset : ℕ) : HleM M (BitVec 8) := do
  let address ← okOr (checkedAdd 32 base offset) .addressOverflow
  onGuestMemory address .read (ram.readU8 address)

/-- Writes a byte at an offset. -/
def writeByte (base offset : ℕ) (value : BitVec 8) : HleM M Unit := do
  let address ← okOr (checkedAdd 32 base offset) .addressOverflow
  onGuestMemory address .write (ram.writeU8 address value)

/-- `calloc`. -/
def calloc : HleM M ℕ := do
  let size ← okOr (checkedMul 32 (← argument 0) (← argument 1)) .addressOverflow
  checkMemorySize size
  modify fun s => { s with context := s.context.setRegister a0 (BitVec.ofNat 32 size) }
  (fun _ => ()) <$> malloc
  let destination := (((← get).context.register v0).getD 0).toNat
  forRange (fun offset => writeByte ram destination offset 0) 0 size
  returnValue destination
  return min u32Max (memoryCycles size + 12)

/-- Copies one byte of a block that moves. -/
def copyByte (source destination offset : ℕ) : HleM M Unit := do
  let value ← readByte ram source offset
  writeByte ram destination offset value

/-- Moves a block: a new one is allocated, the contents are copied, and the old one is removed. -/
def moveBlock (oldAddress oldSize newSize : ℕ) : HleM M ℕ := do
  let newAddress ← allocate newSize
  let copied := min oldSize newSize
  forRange (copyByte ram oldAddress newAddress) 0 copied
  modifyBios fun bios => { bios with heap := bios.heap.map (freeFromHeap · oldAddress) }
  returnValue newAddress
  return min u32Max (memoryCycles copied + 16)

/-- `realloc`. -/
def realloc : HleM M ℕ := do
  let oldAddress ← argument 0
  let newSize ← argument 1
  checkMemorySize newSize
  if oldAddress = 0 then
    let address ← allocate newSize
    returnValue address
    return 12
  else if newSize = 0 then
    (fun _ => ()) <$> free
    returnValue 0
    return 8
  else
    let newAllocationSize ← okOr (alignUp (max newSize 1) 8) .addressOverflow
    let heap ← okOr (← get).bios.heap .heapUnavailable
    match heap.position oldAddress with
    | none =>
      returnValue 0
      return 8
    | some index =>
      let oldSize := ((heap.blocks[index]?).map HeapBlock.size).getD 0
      let followingAddress := ((heap.blocks[index + 1]?).map HeapBlock.address).getD heap.stop
      let newEnd ← okOr (checkedAdd 32 oldAddress newAllocationSize) .addressOverflow
      if newEnd ≤ followingAddress then
        modifyBios fun bios => { bios with heap := some { heap with
          blocks := heap.blocks.modify index fun block => { block with size := newAllocationSize } } }
        returnValue oldAddress
        return 10
      else moveBlock ram oldAddress oldSize newSize

end Services

end Upse.Ps1
