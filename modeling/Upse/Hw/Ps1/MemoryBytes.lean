import Upse.Hw.Ps1.Memory
import Upse.Hw.Shared.GuestAccess

/-!
# PS1 memory, access by access

The accesses of `Memory` as the source makes them: every index into an array of bytes is checked against
its length and panics outside, a write changes the memory in place, and what it has done when it fails
stays done.  They do what the fallible functions of `Memory` do, and those load and store single bytes
of one array.
-/

namespace Upse.Ps1

open ErrorState Panics GuestAccess

/-! ## The accesses -/

namespace Ps1Memory

/-- A write to a memory in place. -/
abbrev InPlace := EStateM (Stop MemoryError) Memory

/-- A fallible step of a write. -/
def checked {α : Type} (step : Except MemoryError α) : InPlace α :=
  ErrorState.ofExcept (step.mapError .error)

/-- `bytes[offset]` of an array of `size` bytes. -/
def element? (size : ℕ) (bytes : ℕ → BitVec 8) (offset : ℕ) : Option (BitVec 8) :=
  if offset < size then some (bytes offset) else none

/-- What an access does in each region; `all` is what it does on an open bus. -/
def inRegion {m : Type → Type} [MonadExceptOf (Stop MemoryError) m] {α : Type} (openBus : OpenBusPolicy)
    (region : MemoryRegion) (ram scratchpad : ℕ → m α) (all : m α) : m α :=
  match region with
  | .ram offset => ram offset
  | .scratchpad offset => scratchpad offset
  | .mmio physical => throw (.error (.mmio physical))
  | .hleRom physical => throw (.error (.hleRom physical))
  | .unmapped physical =>
    match openBus with
    | .strict => throw (.error (.unmapped physical))
    | .ones => all

/-- A byte of RAM. -/
def ramByte (memory : Memory) (offset : ℕ) : MayPanic MemoryError (BitVec 8) :=
  expect (element? ramSize memory.ram offset)

/-- A byte of the scratchpad. -/
def scratchpadByte (memory : Memory) (offset : ℕ) : MayPanic MemoryError (BitVec 8) :=
  expect (element? scratchSize memory.scratchpad offset)

/-- Reads one byte. -/
def readU8 (memory : Memory) (address : Word) : MayPanic MemoryError (BitVec 8) := do
  let region ← (Memory.classify address).mapError .error
  inRegion memory.openBus region (ramByte memory) (scratchpadByte memory) (return -1)

/-- Reads a halfword of an address already classified. -/
def readDecodedU16 (memory : Memory) (address : Word) (region : MemoryRegion) :
    MayPanic MemoryError (BitVec 16) := do
  (Memory.validateDecodedAccess 2 address region).mapError .error
  inRegion memory.openBus region
    (fun offset => do
      let b0 ← ramByte memory offset
      let b1 ← ramByte memory ((offset + 1) % ramSize)
      return Memory.halfword b0 b1)
    (fun offset => do
      let b0 ← scratchpadByte memory offset
      let b1 ← scratchpadByte memory (offset + 1)
      return Memory.halfword b0 b1)
    (return -1)

/-- Reads a word of an address already classified. -/
def readDecodedU32 (memory : Memory) (address : Word) (region : MemoryRegion) :
    MayPanic MemoryError Word := do
  (Memory.validateDecodedAccess 4 address region).mapError .error
  inRegion memory.openBus region
    (fun offset => do
      let b0 ← ramByte memory offset
      let b1 ← ramByte memory ((offset + 1) % ramSize)
      let b2 ← ramByte memory ((offset + 2) % ramSize)
      let b3 ← ramByte memory ((offset + 3) % ramSize)
      return Memory.word b0 b1 b2 b3)
    (fun offset => do
      let b0 ← scratchpadByte memory offset
      let b1 ← scratchpadByte memory (offset + 1)
      let b2 ← scratchpadByte memory (offset + 2)
      let b3 ← scratchpadByte memory (offset + 3)
      return Memory.word b0 b1 b2 b3)
    (return -1)

/-- Reads one little-endian halfword without crossing a region boundary. -/
def readU16 (memory : Memory) (address : Word) : MayPanic MemoryError (BitVec 16) := do
  readDecodedU16 memory address (← (Memory.classify address).mapError .error)

/-- Reads one little-endian word without crossing a region boundary. -/
def readU32 (memory : Memory) (address : Word) : MayPanic MemoryError Word := do
  readDecodedU32 memory address (← (Memory.classify address).mapError .error)

/-- Stores a byte in RAM. -/
def setRam (offset : ℕ) (value : BitVec 8) : InPlace Unit := do
  throwIf (ramSize ≤ offset) .panic
  modify fun memory => { memory with ram := Memory.replaceByte memory.ram offset value }

def setScratchpad (offset : ℕ) (value : BitVec 8) : InPlace Unit := do
  throwIf (scratchSize ≤ offset) .panic
  modify fun memory => { memory with scratchpad := Memory.replaceByte memory.scratchpad offset value }

/-- Writes one byte. -/
def writeU8 (address : Word) (value : BitVec 8) : InPlace Unit := do
  let region ← checked (Memory.classify address)
  inRegion (← get).openBus region (setRam · value) (setScratchpad · value) (return ())

/-- Writes bytes in order from an address already classified. -/
def writeDecodedBytes (address : Word) (region : MemoryRegion) (bytes : List (BitVec 8)) :
    InPlace Unit := do
  checked (Memory.validateDecodedAccess bytes.length address region)
  inRegion (← get).openBus region
    (fun offset => bytes.zipIdx.forM fun entry => setRam ((offset + entry.2) % ramSize) entry.1)
    (fun offset => do
      throwIf (scratchSize < offset + bytes.length) (.error (.crossesBoundary address))
      modify fun memory =>
        { memory with scratchpad := Memory.replaceBytes memory.scratchpad (offset + ·) bytes })
    (return ())

/-- Writes one little-endian halfword without crossing a region boundary. -/
def writeU16 (address : Word) (value : BitVec 16) : InPlace Unit := do
  writeDecodedBytes address (← checked (Memory.classify address))
    (leBytes 2 value.toNat)

/-- Writes one little-endian word without crossing a region boundary. -/
def writeU32 (address value : Word) : InPlace Unit := do
  writeDecodedBytes address (← checked (Memory.classify address))
    (leBytes 4 value.toNat)

/-- The accesses in each width. -/
def accesses : Accesses Memory MemoryError where
  read
    | .byte => readU8
    | .halfword => readU16
    | .word => readU32
  write
    | .byte => writeU8
    | .halfword => writeU16
    | .word => writeU32

/-- The addresses of the direct-mapped segments: KUSEG, KSEG0 and KSEG1. -/
def Direct (address : Word) : Prop := address.toNat < 0xc0000000

end Ps1Memory

/-! ## Regions -/

/-- The region of a physical address. -/
def regionOf (physical : ℕ) : MemoryRegion :=
  if physical < ramMirrorEnd then .ram (physical % ramSize)
  else if scratchStart ≤ physical ∧ physical < scratchStart + scratchSize then
    .scratchpad (physical - scratchStart)
  else if mmioStart ≤ physical ∧ physical < mmioEnd then .mmio physical
  else if romStart ≤ physical ∧ physical < romEnd then .hleRom physical
  else .unmapped physical

/-- The region of an address further on, where the region does not end before. -/
def MemoryRegion.advance (i : ℕ) : MemoryRegion → MemoryRegion
  | .ram offset => .ram ((offset + i) % ramSize)
  | .scratchpad offset => .scratchpad (offset + i)
  | .mmio physical => .mmio (physical + i)
  | .hleRom physical => .hleRom (physical + i)
  | .unmapped physical => .unmapped (physical + i)

theorem classify_eq_ok {address : Word} {region : MemoryRegion} : Memory.classify address = .ok region ↔
    Ps1Memory.Direct address ∧ region = regionOf (physical address) := by
  have segment : (address >>> 29).toNat ≤ 5 ↔ Ps1Memory.Direct address := by
    rw [BitVec.toNat_ushiftRight, Nat.shiftRight_eq_div_pow, Ps1Memory.Direct]
    omega
  have masked : (address &&& 0x1fffffff).toNat = physical address :=
    Nat.and_two_pow_sub_one_eq_mod address.toNat 29
  unfold Memory.classify translate
  simp only [segment, masked]
  split
  next direct =>
    constructor
    · intro same
      exact ⟨segment.mp direct, (Except.ok.inj same).symm⟩
    · rintro ⟨-, rfl⟩
      rfl
  next indirect => exact ⟨nofun, fun h => absurd (segment.mpr h.1) indirect⟩

section Inversion

variable {p q : ℕ}

theorem regionOf_eq_ram {offset : ℕ} :
    regionOf p = .ram offset ↔ p < 0x800000 ∧ offset = p % 0x200000 := by
  unfold regionOf ramMirrorEnd ramSize
  split_ifs <;> simp <;> omega

theorem regionOf_eq_scratchpad {offset : ℕ} : regionOf p = .scratchpad offset ↔
    0x1f800000 ≤ p ∧ p < 0x1f800400 ∧ offset = p - 0x1f800000 := by
  unfold regionOf ramMirrorEnd scratchStart scratchSize
  split_ifs <;> simp <;> omega

theorem regionOf_eq_mmio : regionOf p = .mmio q ↔ 0x1f801000 ≤ p ∧ p < 0x1f803000 ∧ q = p := by
  unfold regionOf ramMirrorEnd scratchStart scratchSize mmioStart mmioEnd
  split_ifs <;> simp <;> omega

theorem regionOf_eq_hleRom : regionOf p = .hleRom q ↔ 0x1fc00000 ≤ p ∧ p < 0x1fc80000 ∧ q = p := by
  unfold regionOf ramMirrorEnd scratchStart scratchSize mmioStart mmioEnd romStart romEnd
  split_ifs <;> simp <;> omega

theorem regionOf_eq_unmapped : regionOf p = .unmapped q ↔ (0x800000 ≤ p ∧
    (p < 0x1f800000 ∨ 0x1f800400 ≤ p ∧ p < 0x1f801000 ∨ 0x1f803000 ≤ p ∧ p < 0x1fc00000 ∨
      0x1fc80000 ≤ p)) ∧ q = p := by
  unfold regionOf ramMirrorEnd scratchStart scratchSize mmioStart mmioEnd romStart romEnd
  split_ifs <;> simp <;> omega

end Inversion

/-- A region that reaches to an address a few bytes on reaches to those in between. -/
theorem regionOf_add {p n i : ℕ} (same : (regionOf p).same (regionOf (p + n)) = true) (few : n < 4)
    (le : i ≤ n) : regionOf (p + i) = (regionOf p).advance i := by
  cases first : regionOf p <;> cases last : regionOf (p + n) <;> rw [first, last] at same <;> try cases same
  all_goals dsimp only [MemoryRegion.advance]
  next offset other =>
    rw [regionOf_eq_ram] at first last ⊢
    unfold ramSize
    omega
  next offset other =>
    rw [regionOf_eq_scratchpad] at first last ⊢
    omega
  next =>
    rw [regionOf_eq_mmio] at first last ⊢
    omega
  next =>
    rw [regionOf_eq_hleRom] at first last ⊢
    omega
  next =>
    rw [regionOf_eq_unmapped] at first last ⊢
    omega

/-- An access whose last byte is in the region of its first does not leave its segment. -/
theorem physical_add {a : Word} {n i : ℕ}
    (same : (regionOf (physical a)).same (regionOf (physical (a + BitVec.ofNat 32 n))) = true)
    (few : n < 4) (le : i ≤ n) : physical (a + BitVec.ofNat 32 i) = physical a + i := by
  have step : ∀ j ≤ n, physical (a + BitVec.ofNat 32 j) = (a.toNat + j) % 2 ^ 29 := by
    intro j small
    simp only [physical, BitVec.toNat_add, BitVec.toNat_ofNat]
    omega
  by_cases inside : physical a + n < 2 ^ 29
  · rw [step i le]
    unfold physical at *
    omega
  · -- the last byte would be the start of main RAM, the first is not in it
    have wraps : physical (a + BitVec.ofNat 32 n) < 0x800000 := by
      rw [step n le_rfl]
      unfold physical at inside
      omega
    have high : 0x1fc80000 ≤ physical a := by omega
    rw [regionOf_eq_unmapped.mpr ⟨⟨by omega, by omega⟩, rfl⟩,
      regionOf_eq_ram.mpr ⟨wraps, rfl⟩] at same
    cases same

section Spans

variable {a : Word} {region : MemoryRegion} {n i : ℕ}

theorem classify_add (classified : Memory.classify a = .ok region)
    (valid : Memory.validateDecodedAccess n a region = .ok ()) (few : n ≤ 4) (lt : i < n) :
    Memory.classify (a + BitVec.ofNat 32 i) = .ok (region.advance i) := by
  obtain ⟨-, rfl⟩ := classify_eq_ok.mp classified
  unfold Memory.validateDecodedAccess at valid
  split at valid
  next fits =>
    obtain ⟨last, reached, valid⟩ := except_bind_ok.mp valid
    obtain ⟨direct, rfl⟩ := classify_eq_ok.mp reached
    split at valid
    next same =>
      have moved := physical_add same (by omega) (show i ≤ n - 1 by omega)
      refine classify_eq_ok.mpr ⟨?_, ?_⟩
      · simp only [Ps1Memory.Direct, BitVec.toNat_add, BitVec.toNat_ofNat] at direct ⊢
        omega
      · rw [physical_add same (by omega) le_rfl] at same
        rw [moved, regionOf_add same (by omega) (by omega)]
    next => cases valid
  next => cases valid

theorem ram_inside {offset : ℕ} (classified : Memory.classify a = .ok (.ram offset)) :
    offset < ramSize := by
  have named := regionOf_eq_ram.mp (classify_eq_ok.mp classified).2.symm
  unfold ramSize
  omega

theorem scratchpad_inside {offset : ℕ} (classified : Memory.classify a = .ok (.scratchpad offset)) :
    offset < scratchSize := by
  have named := regionOf_eq_scratchpad.mp (classify_eq_ok.mp classified).2.symm
  unfold scratchSize
  omega

end Spans

/-! ## The accesses are those of the fallible functions -/

namespace Ps1Memory

variable {memory : Memory} {a : Word} {region : MemoryRegion} {offset : ℕ}

theorem ramByte_eq (inside : offset < ramSize) : ramByte memory offset = .ok (memory.ram offset) := by
  rw [ramByte, element?, if_pos inside]
  rfl

theorem scratchpadByte_eq (inside : offset < scratchSize) :
    scratchpadByte memory offset = .ok (memory.scratchpad offset) := by
  rw [scratchpadByte, element?, if_pos inside]
  rfl

theorem mod_inside (n : ℕ) : n % ramSize < ramSize := Nat.mod_lt n (by decide)

theorem inRegion_eq {α : Type} {ram scratchpad : ℕ → MayPanic MemoryError α} {ram' scratchpad' : ℕ → α}
    {all : α} (in_ram : ∀ offset, region = .ram offset → ram offset = .ok (ram' offset))
    (in_scratchpad : ∀ offset, region = .scratchpad offset → scratchpad offset = .ok (scratchpad' offset)) :
    inRegion memory.openBus region ram scratchpad (return all) =
      (memory.backed region ram' scratchpad' all).mapError .error := by
  cases region with
  | ram offset => exact in_ram offset rfl
  | scratchpad offset => exact in_scratchpad offset rfl
  | mmio physical => rfl
  | hleRom physical => rfl
  | unmapped physical =>
    unfold inRegion Memory.backed
    cases memory.openBus <;> rfl

theorem run_inRegion {ram scratchpad : ℕ → InPlace Unit} {ram' scratchpad' : ℕ → Memory}
    (in_ram : ∀ offset, region = .ram offset → (ram offset).run memory = .ok () (ram' offset))
    (in_scratchpad : ∀ offset, region = .scratchpad offset →
      (scratchpad offset).run memory = .ok () (scratchpad' offset)) :
    (inRegion memory.openBus region ram scratchpad (return ())).run memory =
      settled memory (memory.backed region ram' scratchpad' memory) := by
  cases region with
  | ram offset => exact in_ram offset rfl
  | scratchpad offset => exact in_scratchpad offset rfl
  | mmio physical => rfl
  | hleRom physical => rfl
  | unmapped physical =>
    unfold inRegion Memory.backed
    cases memory.openBus <;> rfl

theorem readU8_eq (memory : Memory) (a : Word) :
    readU8 memory a = (memory.readU8 a).mapError .error := by
  unfold readU8 Memory.readU8
  cases classified : Memory.classify a with
  | error e => rfl
  | ok region =>
    refine inRegion_eq ?_ ?_
    · rintro offset rfl
      exact ramByte_eq (ram_inside classified)
    · rintro offset rfl
      exact scratchpadByte_eq (scratchpad_inside classified)

theorem scratchpad_add {n i : ℕ} (classified : Memory.classify a = .ok (.scratchpad offset))
    (valid : Memory.validateDecodedAccess n a (.scratchpad offset) = .ok ()) (few : n ≤ 4) (lt : i < n) :
    offset + i < scratchSize :=
  scratchpad_inside (classify_add classified valid few lt)

theorem readDecodedU16_eq (classified : Memory.classify a = .ok region) :
    readDecodedU16 memory a region = (memory.readDecodedU16 a region).mapError .error := by
  unfold readDecodedU16 Memory.readDecodedU16
  cases valid : Memory.validateDecodedAccess 2 a region with
  | error e => rfl
  | ok =>
    refine inRegion_eq ?_ ?_
    · rintro offset rfl
      rw [ramByte_eq (ram_inside classified), ramByte_eq (mod_inside _)]
      rfl
    · rintro offset rfl
      have last := scratchpad_add (i := 1) classified valid (by decide) (by decide)
      rw [scratchpadByte_eq (scratchpad_inside classified), scratchpadByte_eq last]
      rfl

theorem readDecodedU32_eq (classified : Memory.classify a = .ok region) :
    readDecodedU32 memory a region = (memory.readDecodedU32 a region).mapError .error := by
  unfold readDecodedU32 Memory.readDecodedU32
  cases valid : Memory.validateDecodedAccess 4 a region with
  | error e => rfl
  | ok =>
    refine inRegion_eq ?_ ?_
    · rintro offset rfl
      rw [ramByte_eq (ram_inside classified), ramByte_eq (mod_inside _), ramByte_eq (mod_inside _),
        ramByte_eq (mod_inside _)]
      rfl
    · rintro offset rfl
      have inside : ∀ {i}, i < 4 → offset + i < scratchSize := scratchpad_add classified valid (by decide)
      rw [scratchpadByte_eq (scratchpad_inside classified), scratchpadByte_eq (inside (by decide)),
        scratchpadByte_eq (inside (by decide)), scratchpadByte_eq (inside (by decide))]
      rfl

theorem run_setRam (inside : offset < ramSize) (value : BitVec 8) : (setRam offset value).run memory =
    .ok () { memory with ram := Memory.replaceByte memory.ram offset value } :=
  run_throwIf_bind (Nat.not_le_of_lt inside)

theorem run_setScratchpad (inside : offset < scratchSize) (value : BitVec 8) :
    (setScratchpad offset value).run memory =
      .ok () { memory with scratchpad := Memory.replaceByte memory.scratchpad offset value } :=
  run_throwIf_bind (Nat.not_le_of_lt inside)

theorem run_writeU8 (memory : Memory) (a : Word) (value : BitVec 8) :
    (writeU8 a value).run memory = settled memory (memory.writeU8 a value) := by
  unfold writeU8 Memory.writeU8
  cases classified : Memory.classify a with
  | error e => rfl
  | ok region =>
    refine run_inRegion ?_ ?_
    · rintro offset rfl
      exact run_setRam (ram_inside classified) value
    · rintro offset rfl
      exact run_setScratchpad (scratchpad_inside classified) value

theorem run_setRam_forM (entries : List (BitVec 8 × ℕ)) (offset : ℕ) (memory : Memory) :
    (entries.forM fun entry => setRam ((offset + entry.2) % ramSize) entry.1).run memory =
      .ok () { memory with ram := entries.foldl (fun ram entry =>
        Memory.replaceByte ram ((offset + entry.2) % ramSize) entry.1) memory.ram } := by
  induction entries generalizing memory with
  | nil => rfl
  | cons entry entries ih =>
    exact (run_bind_of_ok (run_setRam (mod_inside _) entry.1)).trans (ih _)

theorem run_writeDecodedBytes {bytes : List (BitVec 8)} (few : bytes.length ≤ 4) (some : bytes ≠ [])
    (classified : Memory.classify a = .ok region) : (writeDecodedBytes a region bytes).run memory =
      settled memory (memory.writeDecodedBytes a region bytes) := by
  unfold writeDecodedBytes Memory.writeDecodedBytes
  cases valid : Memory.validateDecodedAccess bytes.length a region with
  | error e => rfl
  | ok =>
    refine run_inRegion ?_ ?_
    · rintro offset rfl
      exact run_setRam_forM bytes.zipIdx offset memory
    · rintro offset rfl
      have positive := List.length_pos_iff.mpr some
      have last := scratchpad_add (i := bytes.length - 1) classified valid few (by omega)
      exact run_throwIf_bind (by omega)

end Ps1Memory

/-! ## Loads and stores of single bytes -/

/-- The bytes of a memory. -/
inductive Cell where
  | ram (offset : ℕ)
  | scratchpad (offset : ℕ)
  deriving DecidableEq, Repr

/-- The cell further on in its array. -/
def Cell.advance (i : ℕ) : Cell → Cell
  | .ram offset => .ram ((offset + i) % ramSize)
  | .scratchpad offset => .scratchpad (offset + i)

namespace Memory

/-- The cell that a region names, none on an open bus. -/
def place (memory : Memory) (region : MemoryRegion) : Except MemoryError (Option Cell) :=
  memory.backed region (fun offset => some (.ram offset)) (fun offset => some (.scratchpad offset)) none

/-- The bytes of a memory behind its addresses. -/
def window : Window Memory MemoryError Word Cell (BitVec 8) where
  cell memory address := do memory.place (← classify address)
  contents memory
    | .ram offset => memory.ram offset
    | .scratchpad offset => memory.scratchpad offset
  put
    | .ram offset, value, memory => { memory with ram := replaceByte memory.ram offset value }
    | .scratchpad offset, value, memory =>
      { memory with scratchpad := replaceByte memory.scratchpad offset value }
  floating := -1
  cell_put := by rintro (offset | offset) value memory <;> rfl
  contents_put := by
    rintro (offset | offset) value memory <;> funext cell <;> cases cell <;>
      simp [Function.update_apply, replaceByte]

variable {memory : Memory} {a : Word} {region : MemoryRegion}

theorem cell_of_ok (classified : classify a = .ok region) : window.cell memory a = memory.place region := by
  show (do memory.place (← classify a)) = _
  rw [classified]
  rfl

theorem cell_of_error {e : MemoryError} (failed : classify a = .error e) :
    window.cell memory a = .error e := by
  show (do memory.place (← classify a)) = _
  rw [failed]
  rfl

theorem backed_eq_map {α : Type} {ram scratchpad : ℕ → α} {all : α} {f : Option Cell → α}
    (in_ram : ∀ offset, f (some (.ram offset)) = ram offset)
    (in_scratchpad : ∀ offset, f (some (.scratchpad offset)) = scratchpad offset) (open_bus : f none = all) :
    memory.backed region ram scratchpad all = (memory.place region).map f := by
  cases region with
  | ram offset => exact congrArg Except.ok (in_ram offset).symm
  | scratchpad offset => exact congrArg Except.ok (in_scratchpad offset).symm
  | mmio physical => rfl
  | hleRom physical => rfl
  | unmapped physical =>
    unfold place backed
    cases memory.openBus with
    | strict => rfl
    | ones => exact congrArg Except.ok open_bus.symm

theorem readU8_eq_load (memory : Memory) (a : Word) : memory.readU8 a = window.load memory a := by
  unfold readU8 Window.load
  cases classified : classify a with
  | error e => rw [cell_of_error classified]; rfl
  | ok region =>
    rw [cell_of_ok classified]
    exact backed_eq_map (fun _ => rfl) (fun _ => rfl) rfl

theorem writeU8_eq_store (memory : Memory) (a : Word) (value : BitVec 8) :
    memory.writeU8 a value = window.store a value memory := by
  unfold writeU8 Window.store
  cases classified : classify a with
  | error e => rw [cell_of_error classified]; rfl
  | ok region =>
    rw [cell_of_ok classified]
    exact backed_eq_map (fun _ => rfl) (fun _ => rfl) rfl

theorem place_advance {name : Option Cell} (placed : memory.place region = .ok name) (i : ℕ) :
    memory.place (region.advance i) = .ok (name.map (Cell.advance i)) := by
  cases region with
  | ram offset => cases placed; rfl
  | scratchpad offset => cases placed; rfl
  | mmio physical => cases placed
  | hleRom physical => cases placed
  | unmapped physical =>
    unfold place backed at placed ⊢
    cases policy : memory.openBus <;> rw [policy] at placed <;> cases placed
    rfl

theorem cell_add {name : Option Cell} (width : Width) (classified : classify a = .ok region)
    (valid : validateDecodedAccess width.bytes a region = .ok ()) (placed : memory.place region = .ok name) :
    ∀ i < width.bytes, window.cell memory (a + BitVec.ofNat 32 i) = .ok (name.map (Cell.advance i)) :=
  fun i lt => (cell_of_ok (classify_add classified valid width.bytes_le lt)).trans (place_advance placed i)

theorem backed_ok {α : Type} {ram scratchpad : ℕ → α} {all value : α}
    (h : memory.backed region ram scratchpad all = .ok value) :
    (∃ offset, region = .ram offset ∧ value = ram offset) ∨
      (∃ offset, region = .scratchpad offset ∧ value = scratchpad offset) ∨
      memory.place region = .ok none ∧ value = all := by
  cases region with
  | ram offset => exact .inl ⟨offset, rfl, (Except.ok.inj h).symm⟩
  | scratchpad offset => exact .inr (.inl ⟨offset, rfl, (Except.ok.inj h).symm⟩)
  | mmio physical => cases h
  | hleRom physical => cases h
  | unmapped physical =>
    unfold backed at h
    unfold place backed
    cases policy : memory.openBus with
    | strict => rw [policy] at h; cases h
    | ones =>
      rw [policy] at h
      exact .inr (.inr ⟨rfl, (Except.ok.inj h).symm⟩)

theorem halfword_eq (b0 b1 : BitVec 8) : halfword b0 b1 = Width.halfword.compose [b0, b1] := by
  rw [← append_eq_halfword]
  unfold halfword
  ext i small
  simp only [BitVec.getElem_or, BitVec.getElem_shiftLeft, BitVec.getElem_setWidth]
  grind

theorem word_eq (b0 b1 b2 b3 : BitVec 8) : word b0 b1 b2 b3 = Width.word.compose [b0, b1, b2, b3] := by
  rw [← append_eq_word]
  unfold word
  ext i small
  simp only [BitVec.getElem_or, BitVec.getElem_shiftLeft, BitVec.getElem_setWidth]
  grind

theorem loads_readU16 {value : BitVec 16} (read : memory.readU16 a = .ok value) :
    ∃ bytes, window.loads memory (Width.halfword.addresses a) = .ok bytes ∧
      value = Width.halfword.compose bytes := by
  obtain ⟨region, classified, read⟩ := except_bind_ok.mp read
  obtain ⟨_, valid, read⟩ := except_bind_ok.mp read
  rcases backed_ok read with ⟨offset, rfl, rfl⟩ | ⟨offset, rfl, rfl⟩ | ⟨placed, rfl⟩
  · have loaded : window.loads memory (Width.halfword.addresses a) =
        .ok [memory.ram ((offset + 0) % ramSize), memory.ram ((offset + 1) % ramSize)] :=
      loads_addresses (cell_add .halfword classified valid rfl)
    rw [Nat.add_zero, Nat.mod_eq_of_lt (ram_inside classified)] at loaded
    exact ⟨_, loaded, halfword_eq _ _⟩
  · have loaded : window.loads memory (Width.halfword.addresses a) =
        .ok [memory.scratchpad offset, memory.scratchpad (offset + 1)] :=
      loads_addresses (cell_add .halfword classified valid rfl)
    exact ⟨_, loaded, halfword_eq _ _⟩
  · have loaded : window.loads memory (Width.halfword.addresses a) = .ok [-1, -1] :=
      loads_addresses (cell_add .halfword classified valid placed)
    exact ⟨_, loaded, (by decide : (-1 : BitVec 16) = BitVec.ofNat 16 (ofLeBytes [-1, -1]))⟩

theorem loads_readU32 {value : Word} (read : memory.readU32 a = .ok value) :
    ∃ bytes, window.loads memory (Width.word.addresses a) = .ok bytes ∧
      value = Width.word.compose bytes := by
  obtain ⟨region, classified, read⟩ := except_bind_ok.mp read
  obtain ⟨_, valid, read⟩ := except_bind_ok.mp read
  rcases backed_ok read with ⟨offset, rfl, rfl⟩ | ⟨offset, rfl, rfl⟩ | ⟨placed, rfl⟩
  · have loaded : window.loads memory (Width.word.addresses a) =
        .ok [memory.ram ((offset + 0) % ramSize), memory.ram ((offset + 1) % ramSize),
          memory.ram ((offset + 2) % ramSize), memory.ram ((offset + 3) % ramSize)] :=
      loads_addresses (cell_add .word classified valid rfl)
    rw [Nat.add_zero, Nat.mod_eq_of_lt (ram_inside classified)] at loaded
    exact ⟨_, loaded, word_eq _ _ _ _⟩
  · have loaded : window.loads memory (Width.word.addresses a) =
        .ok [memory.scratchpad offset, memory.scratchpad (offset + 1), memory.scratchpad (offset + 2),
          memory.scratchpad (offset + 3)] :=
      loads_addresses (cell_add .word classified valid rfl)
    exact ⟨_, loaded, word_eq _ _ _ _⟩
  · have loaded : window.loads memory (Width.word.addresses a) = .ok [-1, -1, -1, -1] :=
      loads_addresses (cell_add .word classified valid placed)
    exact ⟨_, loaded, (by decide : (-1 : Word) = BitVec.ofNat 32 (ofLeBytes [-1, -1, -1, -1]))⟩

theorem littleEndian_eq {w : ℕ} (value : BitVec w) (size : ℕ) :
    littleEndian value size = leBytes size value.toNat :=
  (leBytes_toNat value size).symm

/-- Writes one little-endian halfword without crossing a region boundary. -/
def writeU16 (memory : Memory) (address : Word) (value : BitVec 16) : Except MemoryError Memory := do
  memory.writeDecodedU16 address (← classify address) value

/-- Writes one little-endian word without crossing a region boundary. -/
def writeU32 (memory : Memory) (address value : Word) : Except MemoryError Memory := do
  memory.writeDecodedU32 address (← classify address) value

theorem stores_writeDecodedBytes (width : Width) {value : width.Value} {after : Memory}
    (classified : classify a = .ok region)
    (written : memory.writeDecodedBytes a region (leBytes width.bytes value.toNat) = .ok after) :
    window.stores (width.entries a value) memory = .ok after := by
  obtain ⟨_, valid, written⟩ := except_bind_ok.mp written
  rw [length_leBytes] at valid
  have stored {name : Option Cell} (placed : memory.place region = .ok name) :=
    stores_entries (cell_add width classified valid placed) value
  rcases backed_ok written with ⟨offset, rfl, rfl⟩ | ⟨offset, rfl, rfl⟩ | ⟨placed, rfl⟩
  · cases width <;> exact stored rfl
  · cases width <;> exact stored rfl
  · cases width <;> exact stored placed

theorem stores_writeU16 {value : BitVec 16} {after : Memory} (written : memory.writeU16 a value = .ok after) :
    window.stores (Width.halfword.entries a value) memory = .ok after := by
  obtain ⟨region, classified, written⟩ := except_bind_ok.mp written
  rw [writeDecodedU16, littleEndian_eq] at written
  exact stores_writeDecodedBytes .halfword classified written

theorem stores_writeU32 {value : Word} {after : Memory} (written : memory.writeU32 a value = .ok after) :
    window.stores (Width.word.entries a value) memory = .ok after := by
  obtain ⟨region, classified, written⟩ := except_bind_ok.mp written
  rw [writeDecodedU32, littleEndian_eq] at written
  exact stores_writeDecodedBytes .word classified written

end Memory

namespace Ps1Memory

variable {memory : Memory} {a : Word}

theorem readU16_eq (memory : Memory) (a : Word) :
    readU16 memory a = (memory.readU16 a).mapError .error := by
  unfold readU16 Memory.readU16
  cases classified : Memory.classify a with
  | error e => rfl
  | ok region => exact readDecodedU16_eq classified

theorem readU32_eq (memory : Memory) (a : Word) :
    readU32 memory a = (memory.readU32 a).mapError .error := by
  unfold readU32 Memory.readU32
  cases classified : Memory.classify a with
  | error e => rfl
  | ok region => exact readDecodedU32_eq classified

theorem run_writeBytes {bytes : List (BitVec 8)} (few : bytes.length ≤ 4) (some : bytes ≠ [])
    (memory : Memory) (a : Word) : (do
      writeDecodedBytes a (← checked (Memory.classify a)) bytes : InPlace Unit).run memory =
    settled memory (do memory.writeDecodedBytes a (← Memory.classify a) bytes) := by
  cases classified : Memory.classify a with
  | error e => rfl
  | ok region => exact run_writeDecodedBytes few some classified

theorem run_writeU16 (memory : Memory) (a : Word) (value : BitVec 16) :
    (writeU16 a value).run memory = settled memory (memory.writeU16 a value) := by
  unfold writeU16 Memory.writeU16 Memory.writeDecodedU16
  rw [Memory.littleEndian_eq]
  exact run_writeBytes (by simp [length_leBytes]) (List.cons_ne_nil _ _) memory a

theorem run_writeU32 (memory : Memory) (a value : Word) :
    (writeU32 a value).run memory = settled memory (memory.writeU32 a value) := by
  unfold writeU32 Memory.writeU32 Memory.writeDecodedU32
  rw [Memory.littleEndian_eq]
  exact run_writeBytes (by simp [length_leBytes]) (List.cons_ne_nil _ _) memory a

/-- The accesses load and store the bytes of the memory. -/
theorem refines : Refines accesses Memory.window where
  read_byte memory a := by
    rw [← Memory.readU8_eq_load]
    exact readU8_eq memory a
  write_byte memory a value := by
    rw [← Memory.writeU8_eq_store]
    exact run_writeU8 memory a value
  read width memory a := by
    cases width with
    | byte =>
      refine ⟨memory.readU8 a, readU8_eq memory a, fun value read => loads_byte ?_⟩
      exact (Memory.readU8_eq_load memory a).symm.trans read
    | halfword => exact ⟨memory.readU16 a, readU16_eq memory a, fun _ => Memory.loads_readU16⟩
    | word => exact ⟨memory.readU32 a, readU32_eq memory a, fun _ => Memory.loads_readU32⟩
  write width memory a value := by
    cases width with
    | byte =>
      refine ⟨memory.writeU8 a value, run_writeU8 memory a value, fun after written => ?_⟩
      exact (stores_byte memory a value).trans ((Memory.writeU8_eq_store memory a value).symm.trans written)
    | halfword =>
      exact ⟨memory.writeU16 a value, run_writeU16 memory a value, fun _ => Memory.stores_writeU16⟩
    | word =>
      exact ⟨memory.writeU32 a value, run_writeU32 memory a value, fun _ => Memory.stores_writeU32⟩

/-! ## Aliases -/

theorem cell_eq_some {c : Cell} : Memory.window.cell memory a = .ok (some c) ↔
    ∃ region, Memory.classify a = .ok region ∧ memory.place region = .ok (some c) :=
  except_bind_ok

theorem cell_eq_ram {offset : ℕ} : Memory.window.cell memory a = .ok (some (.ram offset)) ↔
    Direct a ∧ physical a < 0x800000 ∧ offset = physical a % 0x200000 := by
  rw [cell_eq_some]
  constructor
  · rintro ⟨region, classified, placed⟩
    obtain ⟨direct, rfl⟩ := classify_eq_ok.mp classified
    rcases Memory.backed_ok placed with ⟨other, named, same⟩ | ⟨other, -, same⟩ | ⟨-, same⟩ <;> cases same
    exact ⟨direct, regionOf_eq_ram.mp named⟩
  · rintro ⟨direct, named⟩
    exact ⟨.ram offset, classify_eq_ok.mpr ⟨direct, (regionOf_eq_ram.mpr named).symm⟩, rfl⟩

theorem cell_eq_scratchpad {offset : ℕ} : Memory.window.cell memory a = .ok (some (.scratchpad offset)) ↔
    Direct a ∧ 0x1f800000 ≤ physical a ∧ physical a < 0x1f800400 ∧ offset = physical a - 0x1f800000 := by
  rw [cell_eq_some]
  constructor
  · rintro ⟨region, classified, placed⟩
    obtain ⟨direct, rfl⟩ := classify_eq_ok.mp classified
    rcases Memory.backed_ok placed with ⟨other, -, same⟩ | ⟨other, named, same⟩ | ⟨-, same⟩ <;> cases same
    exact ⟨direct, regionOf_eq_scratchpad.mp named⟩
  · rintro ⟨direct, named⟩
    exact ⟨.scratchpad offset, classify_eq_ok.mpr ⟨direct, (regionOf_eq_scratchpad.mpr named).symm⟩, rfl⟩

theorem cell_alias {b : Word} (same : Alias Direct a b) :
    Memory.window.cell memory a = Memory.window.cell memory b := by
  have regions : regionOf (physical a) = regionOf (physical b) := by
    rcases same.same with equal | ⟨left, right, equal⟩
    · rw [equal]
    · rw [regionOf_eq_ram.mpr ⟨left, rfl⟩, regionOf_eq_ram.mpr ⟨right, rfl⟩, equal]
  rw [Memory.cell_of_ok (classify_eq_ok.mpr ⟨same.left, rfl⟩),
    Memory.cell_of_ok (classify_eq_ok.mpr ⟨same.right, rfl⟩), regions]

theorem alias_of_cell {b : Word} {c : Cell} (first : Memory.window.cell memory a = .ok (some c))
    (second : Memory.window.cell memory b = .ok (some c)) : Alias Direct a b := by
  cases c with
  | ram offset =>
    obtain ⟨direct, inside, rfl⟩ := cell_eq_ram.mp first
    obtain ⟨direct', inside', same⟩ := cell_eq_ram.mp second
    exact ⟨direct, direct', .inr ⟨inside, inside', same⟩⟩
  | scratchpad offset =>
    obtain ⟨direct, start, -, named⟩ := cell_eq_scratchpad.mp first
    obtain ⟨direct', start', -, named'⟩ := cell_eq_scratchpad.mp second
    exact ⟨direct, direct', .inl (by omega)⟩

theorem cell_of_backed (backed : Backed Direct scratchSize a) :
    ∃ c, Memory.window.cell memory a = .ok (some c) := by
  rcases backed.inside with low | ⟨start, stop⟩
  · exact ⟨.ram _, cell_eq_ram.mpr ⟨backed.direct, low, rfl⟩⟩
  · unfold scratchSize at stop
    exact ⟨.scratchpad _, cell_eq_scratchpad.mpr ⟨backed.direct, start, by omega, rfl⟩⟩

/-- What no access changes. -/
def rest (memory : Memory) : Vector Word 9 × OpenBusPolicy := (memory.memoryControl, memory.openBus)

theorem rest_put (c : Cell) (value : BitVec 8) (memory : Memory) :
    rest (Memory.window.put c value memory) = rest memory := by
  cases c <;> rfl

end Ps1Memory

end Upse.Ps1
