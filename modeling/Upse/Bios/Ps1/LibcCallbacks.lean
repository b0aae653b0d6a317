import Upse.Bios.Ps1.StringScans
import Upse.Lib.StableSort

/-!
# Sorting and searching of the PS1 firmware

`qsort`, `lsearch` and `bsearch` call a comparator of the guest.  Each comparison leaves the firmware:
the service suspends what it has still to do, the guest runs the comparator, and its return to the
sentinel resumes the service with the result.
-/

namespace Upse.Ps1.Libc

open ErrorState

def sp : ℕ := 29
def ra : ℕ := 31

/-- The sentinel a comparator returns to. -/
def callbackReturnPc : Word := 0xffffff00

/-- What a suspended service has still to do. -/
inductive LibcOperationKind where
  | qsort (base elements width outer inner : ℕ)
  | lsearch (key base elements width index : ℕ)
  | bsearch (key base width low high middle : ℕ)
  deriving DecidableEq, Repr

/-- A suspended service, with the registers of its caller. -/
structure LibcOperation where
  savedContext : CpuContext
  callback : ℕ
  calls : ℕ
  kind : LibcOperationKind
  deriving DecidableEq, Repr

/-- The part of the firmware's state these services use. -/
structure LibcHle where
  limits : HleLimits
  libcOperation : Option LibcOperation
  deriving DecidableEq, Repr

/-- The firmware, the registers and the guest memory during a call. -/
structure LibcState (M : Type) where
  bios : LibcHle
  context : CpuContext
  memory : M

/-- Programs of the services. -/
abbrev LibcM (M : Type) := EStateM BiosError (LibcState M)

/-- Goes back to the return address. -/
def returnToCaller (c : CpuContext) : CpuContext := { c with pc := (c.register ra).getD 0 }

namespace LibcOperation

/-- The registers with which the guest enters the comparator. -/
def entered (operation : LibcOperation) (left right : ℕ) : CpuContext :=
  let context := { operation.savedContext with pc := BitVec.ofNat 32 operation.callback }
  ((context.setRegister a0 (BitVec.ofNat 32 left)).setRegister (a0 + 1)
    (BitVec.ofNat 32 right)).setRegister ra callbackReturnPc

/-- The registers with which the caller goes on. -/
def finished (operation : LibcOperation) (returnValue : Option ℕ) : CpuContext :=
  returnToCaller (match returnValue with
    | some value => operation.savedContext.returnValue value
    | none => operation.savedContext)

end LibcOperation

/-- The addresses of the elements to compare next. -/
def LibcOperationKind.compared : LibcOperationKind → Except BiosError (ℕ × ℕ)
  | .qsort base _ width _ inner => do
    let left ← elementAddress base (inner - 1) width
    let right ← elementAddress base inner width
    return (left, right)
  | .lsearch key base _ width index => do
    let right ← elementAddress base index width
    return (key, right)
  | .bsearch key base width _ _ middle => do
    let right ← elementAddress base middle width
    return (key, right)

section Services

variable {M : Type}

/-- An argument in its register. -/
def argument (index : ℕ) : LibcM M ℕ := do return (← get).context.argument index

/-- Puts a result in `v0`. -/
def returnValue (value : ℕ) : LibcM M Unit :=
  modify fun s => { s with context := s.context.returnValue value }

/-- Suspends or ends an operation. -/
def setLibcOperation (operation : Option LibcOperation) : LibcM M Unit :=
  modify fun s => { s with bios := { s.bios with libcOperation := operation } }

/-- Refuses sizes over the bound. -/
def checkMemorySize (size : ℕ) : LibcM M Unit := do
  let limit := (← get).bios.limits.memoryOperationBytes
  throwIf (limit < size) (.memoryOperationLimit size limit)

/-- Refuses arrays that are too large. -/
def checkArray (base elements width : ℕ) : LibcM M Unit := do
  let size ← okOr (checkedMul 32 elements width) .addressOverflow
  checkMemorySize size
  let _ ← okOr (checkedAdd 32 base size) .addressOverflow

/-! ### Comparisons -/

/-- Enters the comparator for the next comparison. -/
def prepareLibcComparison (operation : LibcOperation) : LibcM M LibcOperation := do
  let limit := (← get).bios.limits.libcCallbackCalls
  throwIf (limit ≤ operation.calls) (.libcCallbackLimit limit)
  let operation := { operation with calls := operation.calls + 1 }
  let (left, right) ← ErrorState.ofExcept operation.kind.compared
  modify fun s => { s with context := operation.entered left right }
  return operation

/-- Suspends an operation at its first comparison. -/
def startLibcOperation (callback : ℕ) (kind : LibcOperationKind) : LibcM M Unit := do
  let s ← get
  throwIf s.bios.libcOperation.isSome .callbackDepth
  let operation ← prepareLibcComparison ⟨s.context, callback, 0, kind⟩
  setLibcOperation (some operation)

variable (ram : GuestBytes M)

/-- Runs an access of the guest's memory. -/
def onGuestMemory {α : Type} (address : ℕ) (operation : MemoryOperation)
    (m : EStateM GuestMemoryError M α) : LibcM M α :=
  zoom LibcState.memory (fun memory s => { s with memory := memory })
    (.guestMemory address operation) m

/-- Reads a byte at an offset. -/
def readByte (base offset : ℕ) : LibcM M (BitVec 8) := do
  let address ← okOr (checkedAdd 32 base offset) .addressOverflow
  onGuestMemory address .read (ram.readU8 address)

/-- Writes a byte at an offset. -/
def writeByte (base offset : ℕ) (value : BitVec 8) : LibcM M Unit := do
  let address ← okOr (checkedAdd 32 base offset) .addressOverflow
  onGuestMemory address .write (ram.writeU8 address value)

/-- Reads a little-endian word. -/
def readWord (base offset : ℕ) : LibcM M ℕ := do
  let b0 ← readByte ram base offset
  let b1 ← readByte ram base (offset + 1)
  let b2 ← readByte ram base (offset + 2)
  let b3 ← readByte ram base (offset + 3)
  return b0.toNat + 2 ^ 8 * b1.toNat + 2 ^ 16 * b2.toNat + 2 ^ 24 * b3.toNat

/-- Exchanges one byte of two elements. -/
def swapByte (left right offset : ℕ) : LibcM M Unit := do
  let leftValue ← readByte ram left offset
  let rightValue ← readByte ram right offset
  writeByte ram left offset rightValue
  writeByte ram right offset leftValue

/-- What a comparison's result leaves to do, and the return value where that is nothing: `qsort` has
none. -/
def LibcOperationKind.advance (result : ℤ) :
    LibcOperationKind → LibcM M (LibcOperationKind × Option (Option ℕ))
  | .qsort base elements width outer inner => do
    if 0 < result then
      let left ← ErrorState.ofExcept (elementAddress base (inner - 1) width)
      let right ← ErrorState.ofExcept (elementAddress base inner width)
      forRange (swapByte ram left right) 0 width
    let inner := if 0 < result then inner - 1 else inner
    let round := result ≤ 0 ∨ inner = 0
    let outer := if round then min u32Max (outer + 1) else outer
    let inner := if round then outer else inner
    return (.qsort base elements width outer inner, if elements ≤ outer then some none else none)
  | .lsearch key base elements width index => do
    if result = 0 then
      let address ← ErrorState.ofExcept (elementAddress base index width)
      return (.lsearch key base elements width index, some (some address))
    else
      let index := min u32Max (index + 1)
      return (.lsearch key base elements width index, if elements ≤ index then some (some 0) else none)
  | .bsearch key base width low high middle => do
    if result = 0 then
      let address ← ErrorState.ofExcept (elementAddress base middle width)
      return (.bsearch key base width low high middle, some (some address))
    else
      let high := if result < 0 then middle else high
      let low := if result < 0 then low else min u32Max (middle + 1)
      if high ≤ low then return (.bsearch key base width low high middle, some (some 0))
      else return (.bsearch key base width low high (low + (high - low) / 2), none)

/-- Consumes the result of a comparator, and either enters it for the next comparison or returns to the
caller of the service. -/
def resumeLibcCallback : LibcM M HleOutcome := do
  let s ← get
  let result := ((s.context.register v0).getD 0).toInt
  let operation ← okOr s.bios.libcOperation .callbackStackEmpty
  setLibcOperation none
  let (kind, completed) ← operation.kind.advance ram result
  match completed with
  | some returnValue =>
    modify fun s => { s with context := operation.finished returnValue }
    return ⟨10, .return⟩
  | none =>
    let operation ← prepareLibcComparison { operation with kind := kind }
    setLibcOperation (some operation)
    return ⟨10, .call⟩

/-! ### Services -/

/-- Whether the service waits for a comparator. -/
def startQsort : LibcM M Bool := do
  let base ← argument 0
  let elements ← argument 1
  let width ← argument 2
  checkArray base elements width
  if elements < 2 ∨ width = 0 then return false
  else
    let callback ← argument 3
    startLibcOperation callback (.qsort base elements width 1 1)
    return true

/-- The comparator of a search is on the stack of the caller. -/
def stackArgument : LibcM M ℕ := do
  let s ← get
  readWord ram ((s.context.register sp).getD 0).toNat 16

/-- The common start of the searches. -/
def startSearch (kind : ℕ → ℕ → ℕ → ℕ → LibcOperationKind) : LibcM M Bool := do
  let key ← argument 0
  let base ← argument 1
  let elements ← argument 2
  let width ← argument 3
  checkArray base elements width
  if elements = 0 ∨ width = 0 then
    returnValue 0
    return false
  else
    let callback ← stackArgument ram
    startLibcOperation callback (kind key base elements width)
    return true

/-- `lsearch`. -/
def startLsearch : LibcM M Bool :=
  startSearch ram fun key base elements width => .lsearch key base elements width 0

/-- `bsearch`. -/
def startBsearch : LibcM M Bool :=
  startSearch ram fun key base elements width => .bsearch key base width 0 elements (elements / 2)

/-- A call of a service from the table of the firmware. -/
def dispatch (start : LibcM M Bool) : LibcM M HleOutcome := do
  if ← start then return ⟨12, .call⟩
  else
    modify fun s => { s with context := returnToCaller s.context }
    return ⟨12, .return⟩

/-! ### The guest's part -/

/-- The guest runs comparators from the call `k` on and resumes the service after each, until it
returns: the number of calls, if the rounds suffice. -/
def finish (compare : ℕ → LibcState M → LibcState M) : ℕ → ℕ → LibcM M (Option ℕ)
  | 0, _ => return none
  | rounds + 1, k => do
    modify (compare k)
    let outcome ← resumeLibcCallback ram
    if outcome.action = .call then finish compare rounds (k + 1)
    else return some (k + 1)

/-- A service from its call to its return, with the comparators it calls. -/
def serve (start : LibcM M Bool) (compare : ℕ → LibcState M → LibcState M) (rounds : ℕ) :
    LibcM M (Option ℕ) := do
  let outcome ← dispatch start
  if outcome.action = .call then finish ram compare rounds 0
  else return some 0

end Services

/-!
## Comparisons that leave the firmware

The arrays the sorting and searching services work on, the comparators of the guest, and how a service
runs through its comparisons.  Between two of them the guest does as it pleases with what the service
does not need; what the service has still to do is in its suspended operation only.
-/

open StableSort
open Strings (RamOn)

/-! ### Registers -/

theorem register_setRegister (c : CpuContext) {index : ℕ} (value : Word) (nonzero : index ≠ 0)
    (lt : index < 32) (other : ℕ) :
    (c.setRegister index value).register other = if other = index then some value else c.register other := by
  unfold CpuContext.register CpuContext.setRegister
  rw [if_neg nonzero, Vector.getElem?_setIfInBounds]
  by_cases same : other = index
  · subst same
    simp [lt]
  · rw [if_neg same, if_neg (Ne.symm same)]

theorem argument_lt (c : CpuContext) (index : ℕ) : c.argument index < 2 ^ 32 := BitVec.isLt _

namespace LibcOperation

variable (operation : LibcOperation) (left right : ℕ)

theorem register_entered (index : ℕ) : (operation.entered left right).register index =
    if index = ra then some callbackReturnPc else if index = a0 + 1 then some (BitVec.ofNat 32 right)
      else if index = a0 then some (BitVec.ofNat 32 left) else operation.savedContext.register index := by
  unfold entered
  rw [register_setRegister _ _ (by decide) (by decide), register_setRegister _ _ (by decide) (by decide),
    register_setRegister _ _ (by decide) (by decide)]
  rfl

theorem pc_entered : (operation.entered left right).pc = BitVec.ofNat 32 operation.callback := rfl

theorem argument_entered (leftLt : left < 2 ^ 32) (rightLt : right < 2 ^ 32) :
    (operation.entered left right).argument 0 = left ∧
      (operation.entered left right).argument 1 = right := by
  unfold CpuContext.argument
  rw [register_entered, register_entered]
  simp only [a0, ra]
  exact ⟨Nat.mod_eq_of_lt leftLt, Nat.mod_eq_of_lt rightLt⟩

end LibcOperation

/-! ### Arrays -/

section Arrays

variable {M : Type} {ram : GuestBytes M} {byte : M → ℕ → BitVec 8} {region : ℕ → Prop}

/-- The bytes from an address on. -/
def bytesAt (byte : M → ℕ → BitVec 8) (m : M) (address width : ℕ) : List (BitVec 8) :=
  (List.range width).map fun offset => byte m (address + offset)

/-- The content of an element of an array. -/
def element (byte : M → ℕ → BitVec 8) (m : M) (base width index : ℕ) : List (BitVec 8) :=
  bytesAt byte m (base + index * width) width

/-- The addresses of an array. -/
def InArray (base elements width address : ℕ) : Prop :=
  base ≤ address ∧ address < base + elements * width

/-- An array in RAM, within the bound on the bytes of an operation. -/
structure Placed (region : ℕ → Prop) (limits : HleLimits) (base elements width : ℕ) : Prop where
  within : ∀ address, InArray base elements width address → region address
  base_lt : base < 2 ^ 32
  allowed : elements * width ≤ limits.memoryOperationBytes

theorem bytesAt_congr {m m' : M} {address width : ℕ}
    (same : ∀ offset < width, byte m' (address + offset) = byte m (address + offset)) :
    bytesAt byte m' address width = bytesAt byte m address width :=
  List.map_congr_left fun offset member => same offset (List.mem_range.mp member)

variable {limits : HleLimits} {base elements width index : ℕ}

theorem inArray_element (lt : index < elements) {offset : ℕ} (small : offset < width) :
    InArray base elements width (base + index * width + offset) := by
  have bound : (index + 1) * width ≤ elements * width := Nat.mul_le_mul_right width lt
  rw [Nat.succ_mul] at bound
  unfold InArray
  omega

theorem element_congr {m m' : M} (lt : index < elements)
    (same : ∀ address, InArray base elements width address → byte m' address = byte m address) :
    element byte m' base width index = element byte m base width index :=
  bytesAt_congr fun _ small => same _ (inArray_element lt small)

theorem Placed.fits (placed : Placed region limits base elements width)
    (ramOn : RamOn ram byte region) : base + elements * width < 2 ^ 32 := by
  by_cases empty : elements * width = 0
  · have := placed.base_lt
    omega
  · have last := ramOn.small _ (placed.within (base + (elements * width - 1)) (by unfold InArray; omega))
    omega

theorem elementAddress_eq (fits : base + elements * width < 2 ^ 32) (le : index ≤ elements) :
    elementAddress base index width = .ok (base + index * width) := by
  have bound : index * width ≤ elements * width := Nat.mul_le_mul_right width le
  unfold elementAddress
  rw [checkedMul_eq_some.mpr ⟨by omega, rfl⟩]
  dsimp only
  rw [checkedAdd_eq_some.mpr ⟨by omega, rfl⟩]

end Arrays

section Services

variable {M : Type} {ram : GuestBytes M} {byte : M → ℕ → BitVec 8} {region : ℕ → Prop}
  (ramOn : RamOn ram byte region) {s t : LibcState M}

include ramOn

/-! ### Accesses -/

theorem run_readByte {base offset : ℕ} (inside : region (base + offset)) :
    (readByte ram base offset).run s = .ok (byte s.memory (base + offset)) s := by
  unfold readByte
  rw [checkedAdd_eq_some.mpr ⟨Nat.lt_of_succ_lt (ramOn.small _ inside), rfl⟩]
  exact run_zoom_ok.mpr ⟨_, ramOn.reads s.memory _ inside, rfl⟩

theorem run_writeByte {base offset : ℕ} (value : BitVec 8) (inside : region (base + offset)) :
    ∃ memory, (writeByte ram base offset value).run s = .ok () { s with memory := memory } ∧
      byte memory (base + offset) = value ∧
      ∀ other, region other → other ≠ base + offset → byte memory other = byte s.memory other := by
  obtain ⟨memory, ran, here, others⟩ := ramOn.writes s.memory _ value inside
  refine ⟨memory, ?_, here, others⟩
  unfold writeByte
  rw [checkedAdd_eq_some.mpr ⟨Nat.lt_of_succ_lt (ramOn.small _ inside), rfl⟩]
  exact run_zoom_ok.mpr ⟨memory, ran, rfl⟩

theorem run_swapByte {left right offset : ℕ} (first : region (left + offset))
    (second : region (right + offset)) (apart : left ≠ right) :
    ∃ memory, (swapByte ram left right offset).run s = .ok () { s with memory := memory } ∧
      byte memory (left + offset) = byte s.memory (right + offset) ∧
      byte memory (right + offset) = byte s.memory (left + offset) ∧
      ∀ other, region other → other ≠ left + offset → other ≠ right + offset →
        byte memory other = byte s.memory other := by
  obtain ⟨between, ran, low, kept⟩ :=
    run_writeByte (s := s) ramOn (byte s.memory (right + offset)) first
  obtain ⟨memory, ran', high, kept'⟩ :=
    run_writeByte (s := { s with memory := between }) ramOn (byte s.memory (left + offset)) second
  refine ⟨memory, ?_, ?_, high, fun other known notLeft notRight => ?_⟩
  · unfold swapByte
    rw [run_bind_of_ok (run_readByte ramOn first), run_bind_of_ok (run_readByte ramOn second),
      run_bind_of_ok ran]
    exact ran'
  · rw [kept' _ first (by omega)]
    exact low
  · rw [kept' other known notRight, kept other known notLeft]

theorem run_swapBytes {left right width : ℕ} (first : ∀ offset < width, region (left + offset))
    (second : ∀ offset < width, region (right + offset)) (apart : left + width ≤ right) :
    ∃ memory, (forRange (swapByte ram left right) 0 width).run s = .ok () { s with memory := memory } ∧
      bytesAt byte memory left width = bytesAt byte s.memory right width ∧
      bytesAt byte memory right width = bytesAt byte s.memory left width ∧
      ∀ other, region other → ¬ (left ≤ other ∧ other < left + width) →
        ¬ (right ≤ other ∧ other < right + width) → byte memory other = byte s.memory other := by
  obtain ⟨t, ran, ⟨memory, rfl⟩, swapped, kept⟩ : ∃ t,
      (forRange (swapByte ram left right) 0 width).run s = .ok () t ∧
      (∃ memory, t = { s with memory := memory }) ∧
      (∀ offset < 0 + width, byte t.memory (left + offset) = byte s.memory (right + offset) ∧
        byte t.memory (right + offset) = byte s.memory (left + offset)) ∧
      ∀ other, region other → (∀ offset < 0 + width, other ≠ left + offset ∧ other ≠ right + offset) →
        byte t.memory other = byte s.memory other := by
    refine forRange_ok (fun n (a : LibcState M) => (∃ memory, a = { s with memory := memory }) ∧
      (∀ offset < n, byte a.memory (left + offset) = byte s.memory (right + offset) ∧
        byte a.memory (right + offset) = byte s.memory (left + offset)) ∧
      ∀ other, region other → (∀ offset < n, other ≠ left + offset ∧ other ≠ right + offset) →
        byte a.memory other = byte s.memory other)
      ⟨⟨s.memory, rfl⟩, fun _ none => absurd none (Nat.not_lt_zero _), fun _ _ _ => rfl⟩ ?_
    rintro j a - bound ⟨⟨between, rfl⟩, swapped, kept⟩
    have small : j < width := by omega
    obtain ⟨memory, ran, low, high, others⟩ := run_swapByte (s := { s with memory := between }) ramOn
      (first j small) (second j small) (by omega)
    refine ⟨_, ran, ⟨memory, rfl⟩, fun offset lt => ?_, fun other known away => ?_⟩
    · rcases Nat.lt_succ_iff_lt_or_eq.mp lt with before | rfl
      · rw [others _ (first offset (by omega)) (by omega) (by omega),
          others _ (second offset (by omega)) (by omega) (by omega)]
        exact swapped offset before
      · rw [low, high]
        exact ⟨kept _ (second offset small) fun i lt => by omega,
          kept _ (first offset small) fun i lt => by omega⟩
    · rw [others other known (away j (by omega)).1 (away j (by omega)).2]
      exact kept other known fun offset lt => away offset (by omega)
  rw [Nat.zero_add] at swapped kept
  refine ⟨memory, ran, List.map_congr_left fun offset member => ?_,
    List.map_congr_left fun offset member => ?_, fun other known notLeft notRight => ?_⟩
  · exact (swapped offset (List.mem_range.mp member)).1
  · exact (swapped offset (List.mem_range.mp member)).2
  · exact kept other known fun offset lt => by omega

theorem run_exchange {base elements width inner : ℕ}
    (within : ∀ address, InArray base elements width address → region address) (positive : 0 < inner)
    (lt : inner < elements) :
    ∃ memory, (forRange (swapByte ram (base + (inner - 1) * width) (base + inner * width)) 0 width).run s =
        .ok () { s with memory := memory } ∧
      Exchanged elements (inner - 1) (element byte s.memory base width) (element byte memory base width) ∧
      ∀ other, region other → ¬ InArray base elements width other → byte memory other = byte s.memory other := by
  have next : inner - 1 + 1 = inner := by omega
  have step : inner * width = (inner - 1) * width + width := by rw [← Nat.succ_mul, Nat.succ_eq_add_one, next]
  obtain ⟨memory, ran, low, high, kept⟩ := run_swapBytes (s := s) ramOn
    (fun offset small => within _ (inArray_element (show inner - 1 < elements by omega) small))
    (fun offset small => within _ (inArray_element lt small)) (by omega)
  refine ⟨memory, ran, ⟨?_, ?_, fun i inside notLow notHigh => ?_⟩, fun other known outside => ?_⟩
  · rw [next]
    exact low
  · rw [next]
    exact high
  · refine bytesAt_congr fun offset small => ?_
    have here : InArray base elements width (base + i * width + offset) := inArray_element inside small
    -- the elements in front of the two and those behind them
    rcases Nat.lt_or_ge i inner with before | after
    · have bound : (i + 1) * width ≤ (inner - 1) * width := Nat.mul_le_mul_right width (by omega)
      rw [Nat.succ_mul] at bound
      exact kept _ (within _ here) (by omega) (by omega)
    · have bound : (inner + 1) * width ≤ i * width := Nat.mul_le_mul_right width (by omega)
      rw [Nat.succ_mul] at bound
      exact kept _ (within _ here) (by omega) (by omega)
  · have bound : (inner + 1) * width ≤ elements * width := Nat.mul_le_mul_right width lt
    rw [Nat.succ_mul] at bound
    unfold InArray at outside
    exact kept other known (by omega) (by omega)

end Services

/-! ### Comparators -/

section Comparators

variable {M : Type}

/-- The result of the comparator that returns. -/
def LibcState.result (s : LibcState M) : ℤ := ((s.context.register v0).getD 0).toInt

/-- A comparator has run: it compared the contents at two addresses, and left the firmware and some of
the memory alone. -/
structure Compared (le : List (BitVec 8) → List (BitVec 8) → Prop) (byte : M → ℕ → BitVec 8)
    (kept : ℕ → Prop) (width left right : ℕ) (s t : LibcState M) : Prop where
  bios : t.bios = s.bios
  kept : ∀ address, kept address → byte t.memory address = byte s.memory address
  positive : 0 < t.result ↔ ¬ le (bytesAt byte s.memory left width) (bytesAt byte s.memory right width)
  negative : t.result < 0 ↔ ¬ le (bytesAt byte s.memory right width) (bytesAt byte s.memory left width)

/-- The comparator at an address compares whatever two contents of some it is called with. -/
def Comparator (le : List (BitVec 8) → List (BitVec 8) → Prop) (byte : M → ℕ → BitVec 8)
    (kept : ℕ → Prop) (width callback : ℕ) (called : ℕ → ℕ → Prop)
    (compare : ℕ → LibcState M → LibcState M) : Prop :=
  ∀ k s left right, called left right → s.context.pc = BitVec.ofNat 32 callback →
    s.context.register ra = some callbackReturnPc → s.context.argument 0 = left →
    s.context.argument 1 = right → Compared le byte kept width left right s (compare k s)

variable {le : List (BitVec 8) → List (BitVec 8) → Prop} {byte : M → ℕ → BitVec 8} {kept : ℕ → Prop}
  {width left right k : ℕ} {called : ℕ → ℕ → Prop} {compare : ℕ → LibcState M → LibcState M}
  {s t : LibcState M} {operation : LibcOperation}

theorem Comparator.compared (operation : LibcOperation)
    (h : Comparator le byte kept width operation.callback called compare)
    (calls : called left right) (leftLt : left < 2 ^ 32) (rightLt : right < 2 ^ 32)
    (entered : s.context = operation.entered left right) :
    Compared le byte kept width left right s (compare k s) := by
  obtain ⟨first, second⟩ := operation.argument_entered left right leftLt rightLt
  refine h k s left right calls ?_ ?_ ?_ ?_ <;> rw [entered]
  · exact operation.pc_entered left right
  · exact operation.register_entered left right ra
  · exact first
  · exact second

/-! ### Resuming a service -/

variable {ram : GuestBytes M} {kind : LibcOperationKind} {u : LibcState M}

/-- The state in which a resumed service goes on. -/
def LibcState.taken (s : LibcState M) : LibcState M := { s with bios := { s.bios with libcOperation := none } }

/-- The state in which a service waits for its comparator. -/
def LibcState.waiting (s : LibcState M) (operation : LibcOperation) (left right : ℕ) : LibcState M :=
  { s with bios := { s.bios with libcOperation := some operation }, context := operation.entered left right }

theorem run_prepare (operation : LibcOperation) (fits : operation.calls < s.bios.limits.libcCallbackCalls)
    (compared : operation.kind.compared = .ok (left, right)) :
    (prepareLibcComparison operation).run s = .ok { operation with calls := operation.calls + 1 }
      { s with context := operation.entered left right } := by
  unfold prepareLibcComparison
  rw [run_get_bind, run_throwIf_bind (Nat.not_le.mpr fits)]
  dsimp only
  rw [run_ofExcept_bind compared]
  rfl

theorem run_prepare_exhausted (operation : LibcOperation)
    (full : s.bios.limits.libcCallbackCalls ≤ operation.calls) : (prepareLibcComparison operation).run s =
      .error (.libcCallbackLimit s.bios.limits.libcCallbackCalls) s := by
  have refused : (throwIf (s.bios.limits.libcCallbackCalls ≤ operation.calls)
      (.libcCallbackLimit s.bios.limits.libcCallbackCalls) : LibcM M Unit).run s =
        .error (.libcCallbackLimit s.bios.limits.libcCallbackCalls) s := by
    rw [run_throwIf, if_pos full]
  unfold prepareLibcComparison
  rw [run_get_bind]
  exact run_bind_of_error refused

section Resume

variable (suspended : t.bios.libcOperation = some operation)
include suspended

theorem run_resume_done {value : Option ℕ}
    (advanced : (operation.kind.advance ram t.result).run t.taken = .ok (kind, some value) u) :
    (resumeLibcCallback ram).run t = .ok ⟨10, .return⟩ { u with context := operation.finished value } := by
  unfold resumeLibcCallback
  rw [run_get_bind, run_okOr_bind suspended]
  exact (run_bind_of_ok advanced).trans rfl

theorem run_resume_call
    (advanced : (operation.kind.advance ram t.result).run t.taken = .ok (kind, none) u)
    (fits : operation.calls < u.bios.limits.libcCallbackCalls) (compared : kind.compared = .ok (left, right)) :
    (resumeLibcCallback ram).run t = .ok ⟨10, .call⟩
      (u.waiting { operation with calls := operation.calls + 1, kind := kind } left right) := by
  unfold resumeLibcCallback
  rw [run_get_bind, run_okOr_bind suspended]
  refine (run_bind_of_ok advanced).trans ?_
  have prepared := run_prepare (s := u) { operation with kind := kind } fits compared
  exact (run_bind_of_ok prepared).trans rfl

theorem run_resume_exhausted
    (advanced : (operation.kind.advance ram t.result).run t.taken = .ok (kind, none) u)
    (full : u.bios.limits.libcCallbackCalls ≤ operation.calls) :
    (resumeLibcCallback ram).run t = .error (.libcCallbackLimit u.bios.limits.libcCallbackCalls) u := by
  unfold resumeLibcCallback
  rw [run_get_bind, run_okOr_bind suspended]
  refine (run_bind_of_ok advanced).trans ?_
  exact run_bind_of_error (run_prepare_exhausted (s := u) { operation with kind := kind } full)

end Resume

/-- A service called in a state waits for the call `k` of its comparator. -/
structure Suspended (s₀ : LibcState M) (callback k : ℕ) (kind : LibcOperationKind) (left right : ℕ)
    (s : LibcState M) : Prop where
  bios : s.bios = { s₀.bios with libcOperation := some ⟨s₀.context, callback, k + 1, kind⟩ }
  context : s.context = (LibcOperation.mk s₀.context callback (k + 1) kind).entered left right
  fits : k < s₀.bios.limits.libcCallbackCalls

theorem run_start (idle : s.bios.libcOperation = none) (callback : ℕ)
    (compared : kind.compared = .ok (left, right)) :
    (∃ u, (startLibcOperation callback kind).run s = .ok () u ∧ u.memory = s.memory ∧
      Suspended s callback 0 kind left right u) ∨
    s.bios.limits.libcCallbackCalls = 0 ∧
      ∃ u, (startLibcOperation callback kind).run s = .error (.libcCallbackLimit 0) u := by
  have free : ¬ s.bios.libcOperation.isSome := by rw [idle]; decide
  unfold startLibcOperation
  rw [run_get_bind, run_throwIf_bind free]
  rcases Nat.eq_zero_or_pos s.bios.limits.libcCallbackCalls with none' | positive
  · right
    have refused := run_prepare_exhausted (s := s) ⟨s.context, callback, 0, kind⟩ (by rw [none'])
    rw [none'] at refused
    exact ⟨none', _, run_bind_of_error refused⟩
  · left
    have prepared := run_prepare (s := s) ⟨s.context, callback, 0, kind⟩ positive compared
    exact ⟨_, run_bind_of_ok prepared, rfl, rfl, rfl, positive⟩

theorem run_start_nested (busy : s.bios.libcOperation.isSome) (callback : ℕ) :
    (startLibcOperation callback kind).run s = .error .callbackDepth s := by
  have refused : (throwIf (s.bios.libcOperation.isSome) .callbackDepth : LibcM M Unit).run s =
      .error .callbackDepth s := by
    rw [run_throwIf, if_pos busy]
  unfold startLibcOperation
  rw [run_get_bind]
  exact run_bind_of_error refused

namespace Suspended

variable {s₀ : LibcState M} {callback left' right' : ℕ} {kind' : LibcOperationKind} {memory : M}
  (h : Suspended s₀ callback k kind left right s) (bios : t.bios = s.bios)
include h bios

theorem returns {value : Option ℕ} (advanced : (kind.advance ram t.result).run t.taken =
      .ok (kind', some value) { t.taken with memory := memory }) :
    (resumeLibcCallback ram).run t = .ok ⟨10, .return⟩ ⟨{ s₀.bios with libcOperation := none },
      (LibcOperation.mk s₀.context callback (k + 1) kind).finished value, memory⟩ := by
  have suspended : t.bios.libcOperation = some ⟨s₀.context, callback, k + 1, kind⟩ := by
    rw [bios, h.bios]
  rw [run_resume_done suspended advanced]
  unfold LibcState.taken
  rw [bios, h.bios]

theorem continues (advanced : (kind.advance ram t.result).run t.taken =
      .ok (kind', none) { t.taken with memory := memory })
    (compared : kind'.compared = .ok (left', right')) :
    (∃ u, (resumeLibcCallback ram).run t = .ok ⟨10, .call⟩ u ∧ u.memory = memory ∧
      Suspended s₀ callback (k + 1) kind' left' right' u) ∨
    s₀.bios.limits.libcCallbackCalls ≤ k + 1 ∧ ∃ u, (resumeLibcCallback ram).run t =
      .error (.libcCallbackLimit s₀.bios.limits.libcCallbackCalls) u := by
  have suspended : t.bios.libcOperation = some ⟨s₀.context, callback, k + 1, kind⟩ := by
    rw [bios, h.bios]
  have limits : t.taken.bios.limits = s₀.bios.limits := by
    show t.bios.limits = _
    rw [bios, h.bios]
  rcases Nat.lt_or_ge (k + 1) s₀.bios.limits.libcCallbackCalls with fits | full
  · left
    have ran := run_resume_call suspended advanced (by rw [limits]; exact fits) compared
    refine ⟨_, ran, rfl, ?_, rfl, fits⟩
    show LibcHle.mk t.bios.limits _ = _
    rw [bios, h.bios]
  · right
    have failed := run_resume_exhausted suspended advanced (by rw [limits]; exact full)
    rw [limits] at failed
    exact ⟨full, _, failed⟩

end Suspended

/-! ### Runs -/

/-- A service returns after at most `bound` calls of its comparator; or it needs more of them than the
firmware allows, and fails after as many. -/
def Ends (limit bound : ℕ) (Done : LibcState M → Prop)
    (run : ℕ → EStateM.Result BiosError (LibcState M) (Option ℕ)) : Prop :=
  (∃ calls, calls ≤ bound ∧ calls ≤ limit ∧
    ∃ t, Done t ∧ ∀ rounds, calls ≤ rounds → run rounds = .ok (some calls) t) ∨
  limit < bound ∧ ∃ t, ∀ rounds, limit ≤ rounds → run rounds = .error (.libcCallbackLimit limit) t

/-- What follows the return of the comparator from its call `k`: the service returns, or waits for the
next call with more than `spent` calls behind it, or the firmware allows no more. -/
def Follows (ram : GuestBytes M) (limit bound : ℕ) (Waits : ℕ → ℕ → LibcState M → Prop)
    (Done : LibcState M → Prop) (k spent : ℕ) (s : LibcState M) : Prop :=
  (∃ t, (resumeLibcCallback ram).run s = .ok ⟨10, .return⟩ t ∧ Done t) ∨
  (∃ spent' t, spent < spent' ∧ (resumeLibcCallback ram).run s = .ok ⟨10, .call⟩ t ∧
    Waits (k + 1) spent' t) ∨
  limit ≤ k + 1 ∧ k + 1 < bound ∧
    ∃ t, (resumeLibcCallback ram).run s = .error (.libcCallbackLimit limit) t

/-- A service gets on with every return of its comparator; `spent` bounds the calls so far. -/
structure Progress (ram : GuestBytes M) (compare : ℕ → LibcState M → LibcState M) (limit bound : ℕ)
    (Waits : ℕ → ℕ → LibcState M → Prop) (Done : LibcState M → Prop) : Prop where
  bounded : ∀ {k spent s}, Waits k spent s → k ≤ spent ∧ spent < bound ∧ k < limit
  step : ∀ {k spent s}, Waits k spent s → Follows ram limit bound Waits Done k spent (compare k s)

variable {limit bound spent : ℕ} {Waits : ℕ → ℕ → LibcState M → Prop} {Done : LibcState M → Prop}
  {start : LibcM M Bool}

theorem Ends.mono {Done' : LibcState M → Prop} {run : ℕ → EStateM.Result BiosError (LibcState M) (Option ℕ)}
    (ends : Ends limit bound Done run) (weaker : ∀ t, Done t → Done' t) : Ends limit bound Done' run := by
  rcases ends with ⟨calls, le_bound, le_limit, t, done, runs⟩ | failed
  · exact .inl ⟨calls, le_bound, le_limit, t, weaker t done, runs⟩
  · exact .inr failed

theorem run_finish_return {rounds : ℕ}
    (ran : (resumeLibcCallback ram).run (compare k s) = .ok ⟨10, .return⟩ t) :
    (finish ram compare (rounds + 1) k).run s = .ok (some (k + 1)) t := by
  rw [finish, run_modify_bind, run_bind_of_ok ran]
  rfl

theorem run_finish_call {rounds : ℕ}
    (ran : (resumeLibcCallback ram).run (compare k s) = .ok ⟨10, .call⟩ t) :
    (finish ram compare (rounds + 1) k).run s = (finish ram compare rounds (k + 1)).run t := by
  rw [finish, run_modify_bind, run_bind_of_ok ran]
  rfl

theorem run_finish_error {rounds : ℕ} {e : BiosError}
    (failed : (resumeLibcCallback ram).run (compare k s) = .error e t) :
    (finish ram compare (rounds + 1) k).run s = .error e t := by
  rw [finish, run_modify_bind, run_bind_of_error failed]

/-- Every call brings the service nearer to its bound, so that it ends. -/
theorem Progress.finishes (progress : Progress ram compare limit bound Waits Done)
    (waits : Waits k spent s) :
    (∃ calls, calls ≤ bound ∧ calls ≤ limit ∧ k < calls ∧ ∃ t, Done t ∧
      ∀ rounds, calls ≤ k + rounds → (finish ram compare rounds k).run s = .ok (some calls) t) ∨
    limit < bound ∧ ∃ t, ∀ rounds, limit ≤ k + rounds →
      (finish ram compare rounds k).run s = .error (.libcCallbackLimit limit) t := by
  induction left : bound - spent using Nat.strong_induction_on generalizing k spent s with
  | _ left ih =>
    obtain ⟨few, spent_lt, k_lt⟩ := progress.bounded waits
    rcases progress.step waits with ⟨t, ran, done⟩ | ⟨spent', t, lt, ran, waits'⟩ |
      ⟨full, below, t, failed⟩
    · refine .inl ⟨k + 1, by omega, by omega, by omega, t, done, fun rounds enough => ?_⟩
      cases rounds with
      | zero => omega
      | succ rounds => exact run_finish_return ran
    · obtain ⟨-, spent_lt', k_lt'⟩ := progress.bounded waits'
      rcases ih (bound - spent') (by omega) waits' rfl with
        ⟨calls, le_bound, le_limit, more, u, done, runs⟩ | ⟨lower, u, fails⟩
      · refine .inl ⟨calls, le_bound, le_limit, by omega, u, done, fun rounds enough => ?_⟩
        cases rounds with
        | zero => omega
        | succ rounds => exact (run_finish_call ran).trans (runs rounds (by omega))
      · refine .inr ⟨lower, u, fun rounds enough => ?_⟩
        cases rounds with
        | zero => omega
        | succ rounds => exact (run_finish_call ran).trans (fails rounds (by omega))
    · refine .inr ⟨by omega, t, fun rounds enough => ?_⟩
      cases rounds with
      | zero => omega
      | succ rounds => exact run_finish_error failed

theorem run_dispatch_true (started : start.run s = .ok true t) :
    (dispatch start).run s = .ok ⟨12, .call⟩ t := by
  rw [dispatch, run_bind_of_ok started]
  rfl

theorem run_dispatch_false (started : start.run s = .ok false t) :
    (dispatch start).run s = .ok ⟨12, .return⟩ { t with context := returnToCaller t.context } := by
  rw [dispatch, run_bind_of_ok started]
  rfl

theorem Progress.ends (progress : Progress ram compare limit bound Waits Done)
    (started : start.run s = .ok true t) (waits : Waits 0 spent t) :
    Ends limit bound Done fun rounds => (serve ram start compare rounds).run s := by
  have called (rounds : ℕ) : (serve ram start compare rounds).run s = (finish ram compare rounds 0).run t := by
    rw [serve, run_bind_of_ok (run_dispatch_true started)]
    rfl
  rcases progress.finishes waits with ⟨calls, le_bound, le_limit, -, u, done, runs⟩ | ⟨lower, u, fails⟩
  · refine .inl ⟨calls, le_bound, le_limit, u, done, fun rounds enough => ?_⟩
    exact (called rounds).trans (runs rounds (by omega))
  · refine .inr ⟨lower, u, fun rounds enough => ?_⟩
    exact (called rounds).trans (fails rounds (by omega))

theorem ends_of_idle (started : start.run s = .ok false t)
    (done : Done { t with context := returnToCaller t.context }) :
    Ends limit bound Done fun rounds => (serve ram start compare rounds).run s := by
  refine .inl ⟨0, Nat.zero_le _, Nat.zero_le _, _, done, fun rounds _ => ?_⟩
  exact run_bind_of_ok (run_dispatch_false started)

theorem ends_of_refused (started : start.run s = .error (.libcCallbackLimit 0) t) (positive : 0 < bound) :
    Ends 0 bound Done fun rounds => (serve ram start compare rounds).run s := by
  refine .inr ⟨positive, t, fun rounds _ => ?_⟩
  exact run_bind_of_error (run_bind_of_error started)

end Comparators

end Upse.Ps1.Libc
