import Upse.Hw.Ps2.Memory
import Upse.Hw.Shared.GuestAccess

/-!
# IOP memory, access by access

The accesses of `Memory` as the source makes them: every index into an array of bytes is checked against
its length and panics outside, and a write of several bytes writes one after the other in place, so that
a failure between them would leave the first ones written.  They do what the fallible functions of
`Memory` do, and those load and store single bytes of one array.
-/

namespace Upse.Iop

open ErrorState Panics GuestAccess

/-! ## The accesses -/

namespace IopMemory

/-- A write to a memory in place. -/
abbrev InPlace := EStateM (Stop MemoryError) Memory

/-- A fallible step of a write. -/
def checked {α : Type} (step : Except MemoryError α) : InPlace α :=
  ErrorState.ofExcept (step.mapError .error)

/-- `bytes[offset]` of an array of `size` bytes. -/
def element? {size : ℕ} (bytes : Fin size → BitVec 8) (offset : ℕ) : Option (BitVec 8) :=
  if h : offset < size then some (bytes ⟨offset, h⟩) else none

def readDecodedU8 (memory : Memory) : MemoryRegion → MayPanic MemoryError (BitVec 8)
  | .ram offset => expect (element? memory.ram offset)
  | .scratchpad offset => expect (element? memory.scratchpad offset)
  | .mmio physical => throw (.error (.mmio physical))
  | .spu2 physical => throw (.error (.spu2 physical))
  | .hleRom physical => throw (.error (.hleRom physical))
  | .unmapped physical =>
    match memory.openBus with
    | .strict => throw (.error (.unmapped physical))
    | .ones => return -1

/-- Reads one byte from a directly backed region. -/
def readU8 (memory : Memory) (address : Word) : MayPanic MemoryError (BitVec 8) := do
  readDecodedU8 memory (← (Memory.classify address).mapError .error)

/-- Reads one little-endian halfword from a directly backed region. -/
def readU16 (memory : Memory) (address : Word) : MayPanic MemoryError (BitVec 16) := do
  let region ← (Memory.classify address).mapError .error
  (Memory.validateSpan address region 2).mapError .error
  let b0 ← readDecodedU8 memory region
  let b1 ← readU8 memory (address + 1)
  return BitVec.ofNat 16 (ofLeBytes [b0, b1])

/-- Reads one little-endian word from a directly backed region. -/
def readU32 (memory : Memory) (address : Word) : MayPanic MemoryError Word := do
  let region ← (Memory.classify address).mapError .error
  (Memory.validateSpan address region 4).mapError .error
  let bytes ← ([0, 1, 2, 3] : List Word).mapM fun offset => readU8 memory (address + offset)
  return BitVec.ofNat 32 (ofLeBytes bytes)

/-- Stores a byte in RAM. -/
def setRam (offset : ℕ) (value : BitVec 8) : InPlace Unit :=
  if h : offset < ramSize then
    modify fun memory => { memory with ram := Function.update memory.ram ⟨offset, h⟩ value }
  else throw .panic

def setScratchpad (offset : ℕ) (value : BitVec 8) : InPlace Unit :=
  if h : offset < scratchpadSize then
    modify fun memory => { memory with scratchpad := Function.update memory.scratchpad ⟨offset, h⟩ value }
  else throw .panic

def writeDecodedU8 (value : BitVec 8) : MemoryRegion → InPlace Unit
  | .ram offset => setRam offset value
  | .scratchpad offset => setScratchpad offset value
  | .mmio physical => throw (.error (.mmio physical))
  | .spu2 physical => throw (.error (.spu2 physical))
  | .hleRom physical => throw (.error (.hleRom physical))
  | .unmapped physical => do
    match (← get).openBus with
    | .strict => throw (.error (.unmapped physical))
    | .ones => return ()

/-- Writes one byte to a directly backed region. -/
def writeU8 (address : Word) (value : BitVec 8) : InPlace Unit := do
  writeDecodedU8 value (← checked (Memory.classify address))

/-- Writes one little-endian halfword to a directly backed region. -/
def writeU16 (address : Word) (value : BitVec 16) : InPlace Unit := do
  let region ← checked (Memory.classify address)
  checked (Memory.validateSpan address region 2)
  (([0, 1] : List Word).zip (leBytes 2 value.toNat)).forM fun entry => writeU8 (address + entry.1) entry.2

/-- Writes one little-endian word to a directly backed region. -/
def writeU32 (address value : Word) : InPlace Unit := do
  let region ← checked (Memory.classify address)
  checked (Memory.validateSpan address region 4)
  (([0, 1, 2, 3] : List Word).zip (leBytes 4 value.toNat)).forM fun entry =>
    writeU8 (address + entry.1) entry.2

/-- The accesses in each width. -/
def accesses : Accesses Memory MemoryError where
  read
    | .byte => readU8
    | .halfword => readU16
    | .word => readU32
  write
    | .byte => writeU8
    | .halfword => writeU16
    | .word => writeU32

/-- The addresses of the direct-mapped segments: the low part of KUSEG, KSEG0 and KSEG1. -/
def Direct (address : Word) : Prop :=
  address.toNat < 0x40000000 ∨ 0x80000000 ≤ address.toNat ∧ address.toNat < 0xc0000000

end IopMemory

/-! ## Regions -/

/-- The physical addresses of a region, and what it says of them. -/
def MemoryRegion.At (p : ℕ) : MemoryRegion → Prop
  | .ram offset => p < 0x800000 ∧ offset.val = p % 0x200000
  | .scratchpad offset => 0x1f800000 ≤ p ∧ p < 0x1f800800 ∧ offset.val = p - 0x1f800000
  | .mmio physical => 0x1f801000 ≤ p ∧ p < 0x1f810000 ∧ physical = p
  | .spu2 physical => 0x1f900000 ≤ p ∧ p < 0x1f910000 ∧ physical = p
  | .hleRom physical => 0x1fc00000 ≤ p ∧ p < 0x1fc80000 ∧ physical = p
  | .unmapped physical => 0x800000 ≤ p ∧ (p < 0x1f800000 ∨ 0x1f800800 ≤ p ∧ p < 0x1f801000 ∨
      0x1f810000 ≤ p ∧ p < 0x1f900000 ∨ 0x1f910000 ≤ p ∧ p < 0x1fc00000 ∨ 0x1fc80000 ≤ p) ∧ physical = p

namespace MemoryRegion

variable {p q r : ℕ} {region other first last : MemoryRegion}

theorem eq_of_at (h : region.At p) (h' : other.At p) : region = other := by
  cases region <;> cases other <;> unfold At at h h' <;> first | (exfalso; omega) | (congr 1; omega)

theorem kind_of_low (h : region.At p) (low : p < 0x800000) : region.kind = 0 := by
  cases region <;> unfold At at h <;> first | rfl | (exfalso; omega)

theorem kind_of_high (h : region.At p) (high : 0x1fc80000 ≤ p) : region.kind = 5 := by
  cases region <;> unfold At at h <;> first | rfl | (exfalso; omega)

theorem kind_between (h : first.At p) (h' : last.At q) (same : first.kind = last.kind) (few : q < p + 4)
    (above : p ≤ r) (below : r ≤ q) (mid : other.At r) : other.kind = first.kind := by
  cases first <;> cases last <;> try cases same
  all_goals
    cases other <;> unfold At at h h' mid <;> first | rfl | (exfalso; omega)

end MemoryRegion

namespace Memory

open IopMemory

variable {memory : Memory} {a b : Word} {region : MemoryRegion} {p n i : ℕ}

theorem translate_eq_ok : translate a = .ok p ↔ Direct a ∧ p = physical a := by
  have masked : (a &&& 0x1fffffff).toNat = physical a := Nat.and_two_pow_sub_one_eq_mod a.toNat 29
  unfold translate Direct
  rw [masked]
  split
  next direct =>
    constructor
    · intro same
      exact ⟨by omega, (Except.ok.inj same).symm⟩
    · rintro ⟨-, rfl⟩
      rfl
  next indirect =>
    constructor
    · intro same
      cases same
    · rintro ⟨direct, -⟩
      omega

theorem at_of_classify (classified : classify a = .ok region) : Direct a ∧ region.At (physical a) := by
  obtain ⟨p, translated, same⟩ := except_bind_ok.mp classified
  obtain ⟨direct, rfl⟩ := translate_eq_ok.mp translated
  refine ⟨direct, ?_⟩
  rw [← Except.ok.inj same]
  unfold ramMirrorEnd ramSize scratchpadStart scratchpadSize mmioStart mmioEnd spu2MmioStart spu2MmioEnd
    hleRomStart hleRomEnd
  split_ifs <;> unfold MemoryRegion.At <;> dsimp only <;> omega

theorem classify_eq_ok : classify a = .ok region ↔ Direct a ∧ region.At (physical a) := by
  constructor
  · exact at_of_classify
  · rintro ⟨direct, here⟩
    have classified : ∃ other, classify a = .ok other := by
      unfold classify
      rw [translate_eq_ok.mpr ⟨direct, rfl⟩]
      exact ⟨_, rfl⟩
    obtain ⟨other, classified⟩ := classified
    rw [classified, MemoryRegion.eq_of_at here (at_of_classify classified).2]

theorem classify_congr (direct : Direct a) (direct' : Direct b) (same : physical a = physical b) :
    classify a = classify b := by
  unfold classify
  rw [translate_eq_ok.mpr ⟨direct, rfl⟩, translate_eq_ok.mpr ⟨direct', rfl⟩, same]

theorem exists_classify (direct : Direct a) : ∃ region, classify a = .ok region := by
  unfold classify
  rw [translate_eq_ok.mpr ⟨direct, rfl⟩]
  exact ⟨_, rfl⟩

theorem last_of_validateSpan (valid : validateSpan a region n = .ok ()) :
    a.toNat + (n - 1) < 2 ^ 32 ∧
      ∃ last, classify (a + BitVec.ofNat 32 (n - 1)) = .ok last ∧ region.kind = last.kind := by
  unfold validateSpan at valid
  split at valid
  next fits =>
    obtain ⟨last, reached, valid⟩ := except_bind_ok.mp valid
    split at valid
    next => cases valid
    next same => exact ⟨fits, last, reached, Decidable.not_not.mp same⟩
  next => cases valid

theorem classify_add (classified : classify a = .ok region) (valid : validateSpan a region n = .ok ())
    (few : n ≤ 4) (lt : i < n) :
    ∃ other, classify (a + BitVec.ofNat 32 i) = .ok other ∧ other.kind = region.kind := by
  obtain ⟨direct, first⟩ := classify_eq_ok.mp classified
  obtain ⟨fits, last, reached, same⟩ := last_of_validateSpan valid
  obtain ⟨direct', final⟩ := classify_eq_ok.mp reached
  have moved : ∀ j < n, (a + BitVec.ofNat 32 j).toNat = a.toNat + j := by
    intro j small
    rw [BitVec.toNat_add, BitVec.toNat_ofNat]
    omega
  have within : Direct (a + BitVec.ofNat 32 i) := by
    unfold Direct at *
    rw [moved _ (by omega)] at direct' ⊢
    omega
  obtain ⟨other, classified⟩ := exists_classify within
  refine ⟨other, classified, ?_⟩
  have here := (classify_eq_ok.mp classified).2
  unfold physical at first final here
  rw [moved _ (by omega)] at final here
  by_cases inside : a.toNat % 2 ^ 29 + (n - 1) < 2 ^ 29
  · exact MemoryRegion.kind_between first final same (by omega) (by omega) (by omega) here
  · -- the last byte would be the start of main RAM, the first is not in it
    rw [MemoryRegion.kind_of_high first (by omega), MemoryRegion.kind_of_low final (by omega)] at same
    cases same

end Memory

/-! ## The accesses are those of the fallible functions -/

namespace IopMemory

variable {memory : Memory} {a : Word} {region : MemoryRegion}

theorem element?_val {size : ℕ} (bytes : Fin size → BitVec 8) (offset : Fin size) :
    element? bytes offset.val = some (bytes offset) :=
  dif_pos offset.isLt

theorem readDecodedU8_eq (memory : Memory) (region : MemoryRegion) :
    readDecodedU8 memory region = (memory.readDecodedU8 region).mapError .error := by
  cases region with
  | ram offset =>
    rw [readDecodedU8, element?_val]
    rfl
  | scratchpad offset =>
    rw [readDecodedU8, element?_val]
    rfl
  | mmio physical => rfl
  | spu2 physical => rfl
  | hleRom physical => rfl
  | unmapped physical =>
    unfold readDecodedU8 Memory.readDecodedU8
    cases memory.openBus <;> rfl

theorem readU8_eq (memory : Memory) (a : Word) :
    readU8 memory a = (memory.readU8 a).mapError .error := by
  unfold readU8 Memory.readU8
  cases Memory.classify a with
  | error e => rfl
  | ok region => exact readDecodedU8_eq memory region

theorem readU16_eq (memory : Memory) (a : Word) :
    readU16 memory a = (memory.readU16 a).mapError .error := by
  unfold readU16 Memory.readU16
  simp only [except_mapError_bind, readDecodedU8_eq, readU8_eq, append_eq_halfword]
  rfl

theorem readU32_eq (memory : Memory) (a : Word) :
    readU32 memory a = (memory.readU32 a).mapError .error := by
  have first : a + 0 = a := BitVec.add_zero a
  unfold readU32 Memory.readU32
  simp only [except_mapError_bind, readU8_eq, append_eq_word, List.mapM_cons, List.mapM_nil, bind_assoc,
    pure_bind, first]
  rfl

theorem run_setRam (offset : Fin ramSize) (value : BitVec 8) (memory : Memory) :
    (setRam offset value).run memory =
      .ok () { memory with ram := Function.update memory.ram offset value } := by
  rw [setRam, dif_pos offset.isLt]
  rfl

theorem run_setScratchpad (offset : Fin scratchpadSize) (value : BitVec 8) (memory : Memory) :
    (setScratchpad offset value).run memory =
      .ok () { memory with scratchpad := Function.update memory.scratchpad offset value } := by
  rw [setScratchpad, dif_pos offset.isLt]
  rfl

theorem run_writeDecodedU8 (memory : Memory) (region : MemoryRegion) (value : BitVec 8) :
    (writeDecodedU8 value region).run memory = settled memory (memory.writeDecodedU8 value region) := by
  cases region with
  | ram offset => exact run_setRam offset value memory
  | scratchpad offset => exact run_setScratchpad offset value memory
  | mmio physical => rfl
  | spu2 physical => rfl
  | hleRom physical => rfl
  | unmapped physical =>
    unfold writeDecodedU8 Memory.writeDecodedU8
    rw [run_get_bind]
    cases memory.openBus <;> rfl

theorem run_writeU8 (memory : Memory) (a : Word) (value : BitVec 8) :
    (writeU8 a value).run memory = settled memory (memory.writeU8 a value) := by
  unfold writeU8 Memory.writeU8
  cases Memory.classify a with
  | error e => rfl
  | ok region => exact run_writeDecodedU8 memory region value

end IopMemory

/-! ## Loads and stores of single bytes -/

/-- The bytes of a memory. -/
inductive Cell where
  | ram (offset : Fin ramSize)
  | scratchpad (offset : Fin scratchpadSize)
  deriving DecidableEq, Repr

namespace Memory

/-- The cell that a region names, none on an open bus. -/
def place (memory : Memory) : MemoryRegion → Except MemoryError (Option Cell)
  | .ram offset => .ok (some (.ram offset))
  | .scratchpad offset => .ok (some (.scratchpad offset))
  | .mmio physical => .error (.mmio physical)
  | .spu2 physical => .error (.spu2 physical)
  | .hleRom physical => .error (.hleRom physical)
  | .unmapped physical =>
    match memory.openBus with
    | .strict => .error (.unmapped physical)
    | .ones => .ok none

/-- The bytes of a memory behind its addresses. -/
def window : Window Memory MemoryError Word Cell (BitVec 8) where
  cell memory address := do memory.place (← classify address)
  contents memory
    | .ram offset => memory.ram offset
    | .scratchpad offset => memory.scratchpad offset
  put
    | .ram offset, value, memory => { memory with ram := Function.update memory.ram offset value }
    | .scratchpad offset, value, memory =>
      { memory with scratchpad := Function.update memory.scratchpad offset value }
  floating := -1
  cell_put := by rintro (offset | offset) value memory <;> rfl
  contents_put := by
    rintro (offset | offset) value memory <;> funext cell <;> cases cell <;> simp [Function.update_apply]

variable {memory : Memory} {a : Word} {region other : MemoryRegion} {n : ℕ}

theorem cell_of_ok (classified : classify a = .ok region) : window.cell memory a = memory.place region := by
  show (do memory.place (← classify a)) = _
  rw [classified]
  rfl

theorem cell_of_error {e : MemoryError} (failed : classify a = .error e) :
    window.cell memory a = .error e := by
  show (do memory.place (← classify a)) = _
  rw [failed]
  rfl

theorem readU8_eq_load (memory : Memory) (a : Word) : memory.readU8 a = window.load memory a := by
  unfold readU8 Window.load
  cases classified : classify a with
  | error e => rw [cell_of_error classified]; rfl
  | ok region =>
    rw [cell_of_ok classified]
    cases region with
    | unmapped physical =>
      show memory.readDecodedU8 (.unmapped physical) = _
      unfold readDecodedU8 place
      cases memory.openBus <;> rfl
    | _ => rfl

theorem writeU8_eq_store (memory : Memory) (a : Word) (value : BitVec 8) :
    memory.writeU8 a value = window.store a value memory := by
  unfold writeU8 Window.store
  cases classified : classify a with
  | error e => rw [cell_of_error classified]; rfl
  | ok region =>
    rw [cell_of_ok classified]
    cases region with
    | unmapped physical =>
      show memory.writeDecodedU8 value (.unmapped physical) = _
      unfold writeDecodedU8 place
      cases memory.openBus <;> rfl
    | _ => rfl

theorem place_of_kind {name : Option Cell} (same : other.kind = region.kind)
    (placed : memory.place region = .ok name) : ∃ name, memory.place other = .ok name := by
  cases region <;> cases other <;> try cases same
  case ram.ram => exact ⟨_, rfl⟩
  case scratchpad.scratchpad => exact ⟨_, rfl⟩
  case unmapped.unmapped =>
    unfold place at placed ⊢
    cases policy : memory.openBus with
    | strict => rw [policy] at placed; cases placed
    | ones => exact ⟨_, rfl⟩
  all_goals cases placed

theorem cells_alike (width : Width) (memory : Memory) (classified : classify a = .ok region)
    (valid : validateSpan a region width.bytes = .ok ()) (value : width.Value) :
    (∀ entry ∈ width.entries a value, ∃ name, window.cell memory entry.1 = .ok name) ∨
      ∀ entry ∈ width.entries a value, ∃ e, window.cell memory entry.1 = .error e := by
  have regions : ∀ entry ∈ width.entries a value, ∃ other, classify entry.1 = .ok other ∧
      other.kind = region.kind := by
    intro entry member
    obtain ⟨i, small, same⟩ := List.mem_map.mp (List.of_mem_zip member).1
    rw [← same]
    exact classify_add classified valid width.bytes_le (List.mem_range.mp small)
  cases placed : memory.place region with
  | ok name =>
    left
    intro entry member
    obtain ⟨other, reached, same⟩ := regions entry member
    rw [cell_of_ok reached]
    exact place_of_kind same placed
  | error e =>
    right
    intro entry member
    obtain ⟨other, reached, same⟩ := regions entry member
    rw [cell_of_ok reached]
    cases found : memory.place other with
    | error e => exact ⟨e, rfl⟩
    | ok name =>
      obtain ⟨name, placed'⟩ := place_of_kind same.symm found
      cases placed.symm.trans placed'

section Writes

variable (memory : Memory) (a : Word)

theorem bind_ok (result : Except MemoryError Memory) : (result >>= Except.ok) = result := bind_pure result

theorem writeU16_eq_stores (value : BitVec 16) : memory.writeU16 a value = (do
    validateSpan a (← classify a) 2
    window.stores (Width.halfword.entries a value) memory) := by
  have entries : Width.halfword.entries a value =
      [(a + 0, (value >>> 0).setWidth 8), (a + 1, (value >>> 8).setWidth 8)] := by
    show (Width.halfword.addresses a).zip (leBytes 2 value.toNat) = _
    rw [leBytes_toNat]
    rfl
  have first : a + 0 = a := BitVec.add_zero a
  unfold writeU16
  simp only [entries, Window.stores, ← writeU8_eq_store, first, BitVec.ushiftRight_zero, bind_ok]

theorem writeU32_eq_stores (value : Word) : memory.writeU32 a value = (do
    validateSpan a (← classify a) 4
    window.stores (Width.word.entries a value) memory) := by
  have entries : Width.word.entries a value = [(a + 0, (value >>> 0).setWidth 8),
      (a + 1, (value >>> 8).setWidth 8), (a + 2, (value >>> 16).setWidth 8),
      (a + 3, (value >>> 24).setWidth 8)] := by
    show (Width.word.addresses a).zip (leBytes 4 value.toNat) = _
    rw [leBytes_toNat]
    rfl
  have first : a + 0 = a := BitVec.add_zero a
  unfold writeU32
  simp only [entries, Window.stores, ← writeU8_eq_store, first, BitVec.ushiftRight_zero, bind_ok]

variable {memory a} {after : Memory}

theorem stores_writeU16 {value : BitVec 16} (written : memory.writeU16 a value = .ok after) :
    window.stores (Width.halfword.entries a value) memory = .ok after := by
  rw [writeU16_eq_stores] at written
  obtain ⟨region, -, written⟩ := except_bind_ok.mp written
  obtain ⟨_, -, stored⟩ := except_bind_ok.mp written
  exact stored

theorem stores_writeU32 {value : Word} (written : memory.writeU32 a value = .ok after) :
    window.stores (Width.word.entries a value) memory = .ok after := by
  rw [writeU32_eq_stores] at written
  obtain ⟨region, -, written⟩ := except_bind_ok.mp written
  obtain ⟨_, -, stored⟩ := except_bind_ok.mp written
  exact stored

end Writes

theorem loads_readU16 {value : BitVec 16} (read : memory.readU16 a = .ok value) :
    ∃ bytes, window.loads memory (Width.halfword.addresses a) = .ok bytes ∧
      value = Width.halfword.compose bytes := by
  obtain ⟨region, classified, read⟩ := except_bind_ok.mp read
  obtain ⟨_, -, read⟩ := except_bind_ok.mp read
  obtain ⟨b0, first, read⟩ := except_bind_ok.mp read
  obtain ⟨b1, second, read⟩ := except_bind_ok.mp read
  have low : memory.readU8 (a + 0) = .ok b0 := by
    show (do memory.readDecodedU8 (← classify (a + 0#32))) = _
    rw [BitVec.add_zero, classified]
    exact first
  rw [readU8_eq_load] at low second
  refine ⟨[b0, b1], ?_, ?_⟩
  · show window.loads memory [a + 0, a + 1] = _
    rw [Window.loads, low, Window.loads, second]
    rfl
  · rw [← Except.ok.inj read, append_eq_halfword]

theorem loads_readU32 {value : Word} (read : memory.readU32 a = .ok value) :
    ∃ bytes, window.loads memory (Width.word.addresses a) = .ok bytes ∧
      value = Width.word.compose bytes := by
  obtain ⟨region, -, read⟩ := except_bind_ok.mp read
  obtain ⟨_, -, read⟩ := except_bind_ok.mp read
  obtain ⟨b0, first, read⟩ := except_bind_ok.mp read
  obtain ⟨b1, second, read⟩ := except_bind_ok.mp read
  obtain ⟨b2, third, read⟩ := except_bind_ok.mp read
  obtain ⟨b3, fourth, read⟩ := except_bind_ok.mp read
  rw [readU8_eq_load] at first second third fourth
  refine ⟨[b0, b1, b2, b3], ?_, ?_⟩
  · show window.loads memory [a + 0#32, a + 1, a + 2, a + 3] = _
    rw [BitVec.add_zero, Window.loads, first, Window.loads, second, Window.loads, third, Window.loads,
      fourth]
    rfl
  · rw [← Except.ok.inj read, append_eq_word]

end Memory

namespace IopMemory

variable {memory : Memory} {a : Word}

/-- A write of several bytes is a fallible one put in place: a failure between its bytes would leave the
first ones written. -/
theorem run_writeBytes (width : Width) (memory : Memory) (a : Word) (value : width.Value) : (do
      let region ← checked (Memory.classify a)
      checked (Memory.validateSpan a region width.bytes)
      (width.entries a value).forM fun entry => writeU8 entry.1 entry.2 : InPlace Unit).run memory =
    settled memory (do
      Memory.validateSpan a (← Memory.classify a) width.bytes
      Memory.window.stores (width.entries a value) memory) := by
  have writes : ∀ memory a v, (writeU8 a v).run memory = settled memory (Memory.window.store a v memory) := by
    intro memory a v
    rw [← Memory.writeU8_eq_store]
    exact run_writeU8 memory a v
  cases classified : Memory.classify a with
  | error e => rfl
  | ok region =>
    have validated : (do
          checked (Memory.validateSpan a region width.bytes)
          (width.entries a value).forM fun entry => writeU8 entry.1 entry.2 : InPlace Unit).run memory =
        settled memory (do
          Memory.validateSpan a region width.bytes
          Memory.window.stores (width.entries a value) memory) := by
      cases valid : Memory.validateSpan a region width.bytes with
      | error e => rfl
      | ok => exact forM_settled writes (Memory.cells_alike width memory classified valid value)
    exact validated

theorem run_writeU16 (memory : Memory) (a : Word) (value : BitVec 16) :
    (writeU16 a value).run memory = settled memory (memory.writeU16 a value) := by
  rw [Memory.writeU16_eq_stores]
  exact run_writeBytes .halfword memory a value

theorem run_writeU32 (memory : Memory) (a value : Word) :
    (writeU32 a value).run memory = settled memory (memory.writeU32 a value) := by
  rw [Memory.writeU32_eq_stores]
  exact run_writeBytes .word memory a value

/-- The accesses load and store the bytes of the memory. -/
theorem refines : Refines accesses Memory.window where
  read_byte memory a := by
    rw [← Memory.readU8_eq_load]
    exact readU8_eq memory a
  write_byte memory a value := by
    rw [← Memory.writeU8_eq_store]
    exact run_writeU8 memory a value
  read width memory a := by
    cases width with
    | byte =>
      refine ⟨memory.readU8 a, readU8_eq memory a, fun value read => loads_byte ?_⟩
      exact (Memory.readU8_eq_load memory a).symm.trans read
    | halfword => exact ⟨memory.readU16 a, readU16_eq memory a, fun _ => Memory.loads_readU16⟩
    | word => exact ⟨memory.readU32 a, readU32_eq memory a, fun _ => Memory.loads_readU32⟩
  write width memory a value := by
    cases width with
    | byte =>
      refine ⟨memory.writeU8 a value, run_writeU8 memory a value, fun after written => ?_⟩
      exact (stores_byte memory a value).trans ((Memory.writeU8_eq_store memory a value).symm.trans written)
    | halfword =>
      exact ⟨memory.writeU16 a value, run_writeU16 memory a value, fun _ => Memory.stores_writeU16⟩
    | word =>
      exact ⟨memory.writeU32 a value, run_writeU32 memory a value, fun _ => Memory.stores_writeU32⟩

/-! ## Aliases -/

theorem place_eq_some {region : MemoryRegion} {c : Cell} (placed : memory.place region = .ok (some c)) :
    (∃ offset, c = .ram offset ∧ region = .ram offset) ∨
      ∃ offset, c = .scratchpad offset ∧ region = .scratchpad offset := by
  cases region with
  | ram offset => cases placed; exact .inl ⟨offset, rfl, rfl⟩
  | scratchpad offset => cases placed; exact .inr ⟨offset, rfl, rfl⟩
  | mmio physical => cases placed
  | spu2 physical => cases placed
  | hleRom physical => cases placed
  | unmapped physical =>
    unfold Memory.place at placed
    cases policy : memory.openBus <;> rw [policy] at placed <;> cases placed

theorem cell_eq_some {c : Cell} : Memory.window.cell memory a = .ok (some c) ↔
    ∃ region, Memory.classify a = .ok region ∧ memory.place region = .ok (some c) :=
  except_bind_ok

theorem cell_eq_ram {offset : Fin ramSize} : Memory.window.cell memory a = .ok (some (.ram offset)) ↔
    Direct a ∧ physical a < 0x800000 ∧ offset.val = physical a % 0x200000 := by
  rw [cell_eq_some]
  constructor
  · rintro ⟨region, classified, placed⟩
    rcases place_eq_some placed with ⟨_, same, rfl⟩ | ⟨_, same, -⟩ <;> cases same
    exact Memory.classify_eq_ok.mp classified
  · intro named
    exact ⟨.ram offset, Memory.classify_eq_ok.mpr named, rfl⟩

theorem cell_eq_scratchpad {offset : Fin scratchpadSize} :
    Memory.window.cell memory a = .ok (some (.scratchpad offset)) ↔ Direct a ∧
      0x1f800000 ≤ physical a ∧ physical a < 0x1f800800 ∧ offset.val = physical a - 0x1f800000 := by
  rw [cell_eq_some]
  constructor
  · rintro ⟨region, classified, placed⟩
    rcases place_eq_some placed with ⟨_, same, -⟩ | ⟨_, same, rfl⟩ <;> cases same
    exact Memory.classify_eq_ok.mp classified
  · intro named
    exact ⟨.scratchpad offset, Memory.classify_eq_ok.mpr named, rfl⟩

theorem cell_alias {b : Word} (same : Alias Direct a b) :
    Memory.window.cell memory a = Memory.window.cell memory b := by
  have regions : Memory.classify a = Memory.classify b := by
    rcases same.same with equal | ⟨left, right, equal⟩
    · exact Memory.classify_congr same.left same.right equal
    · have inside : physical a % 0x200000 < ramSize := Nat.mod_lt _ (by decide)
      have first : Memory.classify a = .ok (.ram ⟨physical a % 0x200000, inside⟩) :=
        Memory.classify_eq_ok.mpr ⟨same.left, left, rfl⟩
      have second : Memory.classify b = .ok (.ram ⟨physical a % 0x200000, inside⟩) :=
        Memory.classify_eq_ok.mpr ⟨same.right, right, equal⟩
      exact first.trans second.symm
  obtain ⟨region, classified⟩ := Memory.exists_classify same.left
  rw [Memory.cell_of_ok classified, Memory.cell_of_ok (regions.symm.trans classified)]

theorem alias_of_cell {b : Word} {c : Cell} (first : Memory.window.cell memory a = .ok (some c))
    (second : Memory.window.cell memory b = .ok (some c)) : Alias Direct a b := by
  cases c with
  | ram offset =>
    obtain ⟨direct, inside, named⟩ := cell_eq_ram.mp first
    obtain ⟨direct', inside', named'⟩ := cell_eq_ram.mp second
    exact ⟨direct, direct', .inr ⟨inside, inside', named.symm.trans named'⟩⟩
  | scratchpad offset =>
    obtain ⟨direct, start, -, named⟩ := cell_eq_scratchpad.mp first
    obtain ⟨direct', start', -, named'⟩ := cell_eq_scratchpad.mp second
    exact ⟨direct, direct', .inl (by omega)⟩

theorem cell_of_backed (backed : Backed Direct scratchpadSize a) :
    ∃ c, Memory.window.cell memory a = .ok (some c) := by
  rcases backed.inside with low | ⟨start, stop⟩
  · have inside : physical a % 0x200000 < ramSize := Nat.mod_lt _ (by decide)
    exact ⟨.ram ⟨_, inside⟩, cell_eq_ram.mpr ⟨backed.direct, low, rfl⟩⟩
  · have inside : physical a - 0x1f800000 < scratchpadSize := by omega
    unfold scratchpadSize at stop
    exact ⟨.scratchpad ⟨_, inside⟩, cell_eq_scratchpad.mpr ⟨backed.direct, start, by omega, rfl⟩⟩

/-- What no access changes. -/
def rest (memory : Memory) : OpenBusPolicy := memory.openBus

theorem rest_put (c : Cell) (value : BitVec 8) (memory : Memory) :
    rest (Memory.window.put c value memory) = rest memory := by
  cases c <;> rfl

end IopMemory

end Upse.Iop
