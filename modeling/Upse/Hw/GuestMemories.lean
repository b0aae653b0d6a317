import Upse.Hw.Ps1.MemoryBytes
import Upse.Hw.Ps2.MemoryBytes

/-!
# The guest memories of both machines

Both memories load and store single bytes of one array, so each is a little-endian array of bytes behind
the aliases of its addresses.
-/

namespace Upse.GuestAccess

open ErrorState

/-- Each guest memory is one little-endian array of bytes seen through its aliases. -/
theorem guest_memories_littleEndian :
    LittleEndianArray Ps1.Ps1Memory.accesses (Alias Ps1.Ps1Memory.Direct)
        (Backed Ps1.Ps1Memory.Direct Ps1.scratchSize) Ps1.Ps1Memory.rest ∧
      LittleEndianArray Iop.IopMemory.accesses (Alias Iop.IopMemory.Direct)
        (Backed Iop.IopMemory.Direct Iop.scratchpadSize) Iop.IopMemory.rest := by
  constructor
  · exact Ps1.Ps1Memory.refines.littleEndianArray Ps1.Ps1Memory.cell_alias Ps1.Ps1Memory.alias_of_cell
      Ps1.Ps1Memory.cell_of_backed Ps1.Ps1Memory.rest_put
  · exact Iop.IopMemory.refines.littleEndianArray Iop.IopMemory.cell_alias Iop.IopMemory.alias_of_cell
      Iop.IopMemory.cell_of_backed Iop.IopMemory.rest_put

-- a word written at the end of main RAM, read through another mirror and segment
example : returned ((do
      Iop.IopMemory.writeU32 0x001ffffc 0x12345678
      let memory ← get
      Iop.IopMemory.checked (memory.readU32 0xa03ffffc)).run (Iop.Memory.new .strict)) =
    some 0x12345678 := by
  rfl

end Upse.GuestAccess
