import Upse.Bios.GuestMemory
import Upse.Formats.Psf.Tags

/-!
# Guest memory behind the IOP services

The import services check an interval against the IOP RAM and read or write it as a whole.  A C string
is read byte by byte up to a limit, and what was read is decoded leniently.
-/

namespace Upse.Services

open ErrorState Psf

/-- The failures of the services here. -/
inductive ServiceError where
  | guestMemory (address size : ℕ) (source : String)
  | unterminatedString (address : ℕ)
  | invalidArgument (operation detail : String)
  | vfs (message : String)
  | resourceLimit (resource : String)
  deriving DecidableEq, Repr

/-- `GuestAddressRange::validate`. -/
def validate (range : GuestRange) (address size alignment : ℕ) : Except String Unit :=
  if alignment = 0 ∨ ¬ alignment.isPowerOfTwo ∨ address % alignment ≠ 0 then .error "unaligned guest address"
  else if 2 ^ 32 ≤ size then .error "size width"
  else
    match checkedAdd 32 address size with
    | none => .error "guest address overflow"
    | some stop =>
      if address < range.start ∨ range.stop < stop then .error "guest range is outside IOP RAM" else .ok ()

/-- The interval is in the range of the IOP RAM. -/
def InRange (guest : GuestMemory) (address size : ℕ) : Prop :=
  guest.range.start ≤ address ∧ address + size ≤ guest.range.stop ∧ address + size < 2 ^ 32

variable {guest : GuestMemory}

theorem validate_one_iff {address size : ℕ} :
    validate guest.range address size 1 = .ok () ↔ InRange guest address size := by
  unfold validate InRange
  rw [if_neg (by simp [Nat.isPowerOfTwo_one, Nat.mod_one])]
  by_cases wide : 2 ^ 32 ≤ size
  · rw [if_pos wide]
    exact ⟨nofun, fun h => by omega⟩
  rw [if_neg wide]
  by_cases fits : address + size < 2 ^ 32
  · rw [checkedAdd_eq_some.mpr ⟨fits, rfl⟩]
    dsimp only
    split
    next outside => exact ⟨nofun, fun h => by omega⟩
    next inside => exact ⟨fun _ => by omega, fun _ => rfl⟩
  · rw [checkedAdd_eq_none.mpr (not_lt.mp fits)]
    exact ⟨nofun, fun h => absurd h.2.2 fits⟩

/-- The check in front of every access. -/
def checkAccess (guest : GuestMemory) (address size : ℕ) : Except ServiceError Unit :=
  (validate guest.range address size 1).mapError (.guestMemory address size)

theorem checkAccess_ok {address size : ℕ} (h : InRange guest address size) :
    checkAccess guest address size = .ok () := by
  rw [checkAccess, validate_one_iff.mpr h]
  rfl

theorem inRange_of_checkAccess {address size : ℕ} {u : Unit}
    (h : checkAccess guest address size = .ok u) : InRange guest address size :=
  validate_one_iff.mp (except_mapError_ok.mp h)

/-- `read_memory`. -/
def readMemory (guest : GuestMemory) (address size : ℕ) : Except ServiceError Bytes := do
  checkAccess guest address size
  return guest.bytes address size

/-- `read_memory` of a single byte. -/
def readByte (guest : GuestMemory) (address : ℕ) : Except ServiceError Byte := do
  checkAccess guest address 1
  return guest.byte address

/-- `read_u32`. -/
def readU32 (guest : GuestMemory) (address : ℕ) : Except ServiceError ℕ := do
  return ofLeBytes (← readMemory guest address 4)

/-- `write_memory`; the machine may refuse an interval of its RAM. -/
def writeMemory (guest : GuestMemory) (address : ℕ) (input : Bytes) : Except ServiceError GuestMemory := do
  checkAccess guest address input.length
  if guest.accepts address input.length then return guest.store address input
  else throw (.guestMemory address input.length "refused")

/-- `write_u32`. -/
def writeU32 (guest : GuestMemory) (address value : ℕ) : Except ServiceError GuestMemory :=
  writeMemory guest address (leBytes 4 value)

/-- The bytes that `read_c_string` collects, from an offset on. -/
def collectString (guest : GuestMemory) (start : ℕ) : ℕ → ℕ → Bytes → Except ServiceError Bytes
  | 0, _, _ => .error (.unterminatedString start)
  | remaining + 1, offset, bytes => do
    if 2 ^ 32 ≤ offset then throw (.resourceLimit "string")
    match checkedAdd 32 start offset with
    | none => throw (.invalidArgument "guest string" "address overflow")
    | some address => do
      let byte ← readByte guest address
      if byte = 0 then return bytes
      else collectString guest start remaining (offset + 1) (bytes ++ [byte])

/-- `read_c_string`. -/
def readCString (guest : GuestMemory) (start limit : ℕ) : Except ServiceError Str := do
  return fromUtf8Lossy (← collectString guest start limit 0 [])

theorem writeMemory_eq_ok {guest guest' : GuestMemory} {address : ℕ} {input : Bytes} :
    writeMemory guest address input = .ok guest' ↔
      (InRange guest address input.length ∧ guest.accepts address input.length = true) ∧
        guest' = guest.store address input := by
  unfold writeMemory
  by_cases inside : InRange guest address input.length
  · rw [checkAccess_ok inside]
    show (if _ then _ else _) = Except.ok guest' ↔ _
    split
    next takes => exact ⟨fun h => ⟨⟨inside, takes⟩, (Except.ok.inj h).symm⟩, fun h => congrArg _ h.2.symm⟩
    next refuses => exact ⟨nofun, fun h => absurd h.1.2 refuses⟩
  · cases checked : checkAccess guest address input.length with
    | ok _ => exact absurd (inRange_of_checkAccess checked) inside
    | error e => exact ⟨nofun, fun h => absurd h.1.1 inside⟩

/-! ### C strings -/

/-- The bytes at an address are a string without a zero byte, terminated, in the range of the RAM. -/
structure CString (guest : GuestMemory) (address : ℕ) (text : Bytes) : Prop where
  holds : guest.bytes address (text.length + 1) = text ++ [0]
  nonzero : ∀ byte ∈ text, byte ≠ 0
  inRange : InRange guest address (text.length + 1)

theorem collectString_of_holds {start : ℕ} {text : Bytes} (offset remaining : ℕ)
    (front : Bytes) (holds : guest.bytes (start + offset) (text.length + 1) = text ++ [0])
    (nonzero : ∀ byte ∈ text, byte ≠ 0) (inRange : InRange guest (start + offset) (text.length + 1))
    (short : text.length < remaining) : collectString guest start remaining offset front = .ok (front ++ text) := by
  obtain ⟨first, last, fits⟩ := inRange
  induction text generalizing offset remaining front with
  | nil =>
    obtain ⟨remaining, rfl⟩ : ∃ m, remaining = m + 1 := ⟨remaining - 1, by omega⟩
    have zero : guest.byte (start + offset) = 0 := (List.cons.inj holds).1
    rw [collectString, if_neg (by omega), checkedAdd_eq_some.mpr ⟨by omega, rfl⟩]
    dsimp only
    rw [readByte, checkAccess_ok ⟨first, by omega, by omega⟩, zero, List.append_nil]
    rfl
  | cons byte text ih =>
    obtain ⟨remaining, rfl⟩ : ∃ m, remaining = m + 1 := ⟨remaining - 1, by omega⟩
    rw [List.length_cons] at holds last fits short
    obtain ⟨here, rest⟩ := List.cons.inj holds
    have other : byte ≠ 0 := nonzero byte List.mem_cons_self
    rw [collectString, if_neg (by omega), checkedAdd_eq_some.mpr ⟨by omega, rfl⟩]
    dsimp only
    rw [readByte, checkAccess_ok ⟨first, by omega, by omega⟩, here]
    show (if byte = 0 then _ else _) = _
    rw [if_neg other]
    rw [ih (offset + 1) remaining _ rest (fun b member => nonzero b (List.mem_cons_of_mem _ member)) (by omega)
      (by omega) (by omega) (by omega), List.append_assoc]
    rfl

/-- What is collected is a terminated string in the range of the RAM. -/
theorem holds_of_collectString {start : ℕ} (offset remaining : ℕ) (front : Bytes)
    {bytes : Bytes} (collected : collectString guest start remaining offset front = .ok bytes) :
    ∃ text, CString guest (start + offset) text ∧ text.length < remaining := by
  induction remaining generalizing offset front with
  | zero => cases collected
  | succ remaining ih =>
    rw [collectString] at collected
    split at collected
    next => cases collected
    next =>
      cases sum : checkedAdd 32 start offset with
      | none =>
        rw [sum] at collected
        cases collected
      | some address =>
        rw [sum] at collected
        obtain ⟨fits, rfl⟩ := checkedAdd_eq_some.mp sum
        obtain ⟨byte, read, rest⟩ := except_bind_ok.mp collected
        obtain ⟨⟨⟩, checked, here⟩ := except_bind_ok.mp read
        obtain ⟨first, last, wide⟩ := inRange_of_checkAccess checked
        cases here
        split at rest
        next zero =>
          refine ⟨[], ⟨?_, nofun, ⟨first, last, wide⟩⟩, Nat.succ_pos _⟩
          exact congrArg (· :: []) zero
        next nonzero =>
          obtain ⟨text, ⟨holds, others, -, last, wide⟩, short⟩ := ih (offset + 1) _ rest
          refine ⟨guest.byte (start + offset) :: text, ⟨?_, ?_, first, ?_, ?_⟩, Nat.succ_lt_succ short⟩
          · exact congrArg (guest.byte (start + offset) :: ·) holds
          · exact List.forall_mem_cons.mpr ⟨nonzero, others⟩
          · rw [List.length_cons]
            omega
          · rw [List.length_cons]
            omega

theorem cString_of_read {address limit : ℕ} {text : Str}
    (read : readCString guest address limit = .ok text) :
    ∃ text, CString guest address text ∧ text.length < limit := by
  obtain ⟨bytes, collected, -⟩ := except_bind_ok.mp read
  exact holds_of_collectString 0 limit [] collected

theorem CString.read {address : ℕ} {text : Bytes} (h : CString guest address text)
    {limit : ℕ} (short : text.length < limit) : readCString guest address limit = .ok (fromUtf8Lossy text) := by
  rw [readCString, collectString_of_holds 0 limit [] h.holds h.nonzero h.inRange short]
  rfl

/-- IOP RAM with some bytes at their addresses, and zeros elsewhere. -/
def ramWith (parts : List (ℕ × Bytes)) : GuestMemory where
  range := ⟨0, 0x200000⟩
  accepts _ _ := true
  byte address :=
    (parts.findSome? fun part => if part.1 ≤ address then part.2[address - part.1]? else none).getD 0

end Upse.Services
