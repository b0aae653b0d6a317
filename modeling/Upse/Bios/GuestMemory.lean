import Upse.Bios.Error
import Upse.Lib.ErrorState
import Upse.Support.Bytes

/-!
# Guest address ranges

The half-open range of directly accessible guest RAM, and the pointer checks of the BIOS services.
-/

namespace Upse

/-- Half-open guest address range. -/
structure GuestRange where
  start : ℕ
  stop : ℕ
  deriving DecidableEq, Repr

namespace GuestRange

/-- Whether the range contains the complete byte interval. -/
def contains (range : GuestRange) (address size : ℕ) : Bool :=
  if size < 2 ^ 32 then
    match checkedAdd 32 address size with
    | some last => decide (range.start ≤ address ∧ last ≤ range.stop)
    | none => false
  else false

/-- Validates a non-null pointer, its alignment and a byte count. -/
def validate (range : GuestRange) (address size alignment : ℕ) : Except KernelError Unit :=
  if size = 0 then .error .illegalSize
  else if address = 0 ∨ alignment = 0 ∨ ¬ alignment.isPowerOfTwo ∨ address % alignment ≠ 0 then
    .error .illegalObject
  else if !range.contains address size then .error .illegalObject
  else .ok ()

theorem contains_iff {range : GuestRange} {address size : ℕ} :
    range.contains address size = true ↔ size < 2 ^ 32 ∧ address + size < 2 ^ 32 ∧
      range.start ≤ address ∧ address + size ≤ range.stop := by
  unfold contains
  by_cases hs : size < 2 ^ 32
  · rw [if_pos hs]
    by_cases fit : address + size < 2 ^ 32
    · rw [checkedAdd_eq_some.mpr ⟨fit, rfl⟩]
      exact ⟨fun h => ⟨hs, fit, of_decide_eq_true h⟩, fun h => decide_eq_true h.2.2⟩
    · rw [checkedAdd_eq_none.mpr (not_lt.mp fit)]
      exact ⟨fun h => (nomatch h), fun h => absurd h.2.1 fit⟩
  · rw [if_neg hs]
    exact ⟨fun h => (nomatch h), fun h => absurd h.1 hs⟩

theorem validate_eq_ok {range : GuestRange} {address size alignment : ℕ}
    (h : range.validate address size alignment = .ok ()) :
    0 < size ∧ 0 < address ∧ address % alignment = 0 ∧ address + size < 2 ^ 32 ∧
      range.start ≤ address ∧ address + size ≤ range.stop := by
  unfold validate at h
  split at h
  next => cases h
  next hsize =>
    split at h
    next => cases h
    next hpointer =>
      split at h
      next => cases h
      next hcontains =>
        simp only [not_or, not_not, ne_eq] at hpointer
        simp only [Bool.not_eq_true, Bool.not_eq_false'] at hcontains
        obtain ⟨-, fit, low, high⟩ := contains_iff.mp (by simpa using hcontains)
        exact ⟨by omega, by omega, hpointer.2.2.2, fit, low, high⟩

end GuestRange

end Upse

/-!
## Guest memory behind the BIOS services

The machine's memory as the services write it: an interval of bytes is written as a whole or not at
all, and the machine decides which intervals it takes.
-/

namespace Upse

open ErrorState

/-- A machine's memory: its range, the intervals it takes writes of, and its bytes. -/
structure GuestMemory where
  range : GuestRange
  accepts : ℕ → ℕ → Bool
  byte : ℕ → BitVec 8

/-- Why a write failed. -/
inductive WriteError where
  | kernel (source : KernelError)
  | guestMemory (operation : String) (address size : ℕ)
  deriving DecidableEq, Repr

namespace GuestMemory

/-- The bytes from an address on. -/
def bytes (guest : GuestMemory) (address : ℕ) : ℕ → List (BitVec 8)
  | 0 => []
  | size + 1 => guest.byte address :: guest.bytes (address + 1) size

/-- The 32-bit word at an address. -/
def word (guest : GuestMemory) (address : ℕ) : ℕ := ofLeBytes (guest.bytes address 4)

/-- Replaces the bytes from an address on. -/
def store (guest : GuestMemory) (address : ℕ) (input : List (BitVec 8)) : GuestMemory :=
  { guest with byte := fun other =>
      if address ≤ other then (input[other - address]?).getD (guest.byte other)
      else guest.byte other }

/-- Writes a complete byte interval without partial success. -/
def writeGuest (address : ℕ) (input : List (BitVec 8)) : EStateM WriteError GuestMemory Unit := do
  let guest ← get
  ErrorState.ofExcept ((guest.range.validate address input.length 1).mapError .kernel)
  throwIf (!guest.accepts address input.length) (.guestMemory "write" address input.length)
  set (guest.store address input)

/-- Writes a little-endian halfword. -/
def writeU16 (address value : ℕ) : EStateM WriteError GuestMemory Unit :=
  writeGuest address (leBytes 2 value)

/-- Writes a little-endian word. -/
def writeU32 (address value : ℕ) : EStateM WriteError GuestMemory Unit :=
  writeGuest address (leBytes 4 value)

/-! ### Frames -/

/-- Two memories hold the same bytes in an interval. -/
def SameAt (guest guest' : GuestMemory) (address size : ℕ) : Prop :=
  ∀ x, address ≤ x → x < address + size → guest'.byte x = guest.byte x

variable {guest guest' : GuestMemory} {input : List (BitVec 8)}

theorem bytes_eq_of_sameAt {address size : ℕ}
    (h : SameAt guest guest' address size) : guest'.bytes address size = guest.bytes address size := by
  induction size generalizing address with
  | zero => rfl
  | succ size ih =>
    rw [bytes, bytes, h address (Nat.le_refl _) (by omega), ih]
    exact fun x low high => h x (by omega) (by omega)

theorem length_bytes (guest : GuestMemory) (address size : ℕ) :
    (guest.bytes address size).length = size := by
  induction size generalizing address with
  | zero => rfl
  | succ size ih => rw [bytes, List.length_cons, ih]

theorem store_sameAt (guest : GuestMemory) {address size start : ℕ}
    (apart : address + size ≤ start ∨ start + input.length ≤ address) :
    SameAt guest (guest.store start input) address size := by
  intro x low high
  unfold store
  simp only
  split
  next after =>
    rw [List.getElem?_eq_none (by omega)]
    rfl
  next => rfl

theorem bytes_store (guest : GuestMemory) (address : ℕ) (input : List (BitVec 8)) :
    (guest.store address input).bytes address input.length = input := by
  have general : ∀ offset size, offset + size = input.length →
      (guest.store address input).bytes (address + offset) size = input.drop offset := by
    intro offset size
    induction size generalizing offset with
    | zero =>
      intro whole
      rw [List.drop_eq_nil_of_le (by omega)]
      rfl
    | succ size ih =>
      intro whole
      have inside : offset < input.length := by omega
      rw [bytes, Nat.add_assoc, ih (offset + 1) (by omega), List.drop_eq_getElem_cons inside]
      congr 1
      simp [store, inside]
  have whole := general 0 input.length (by omega)
  rwa [Nat.add_zero, List.drop_zero] at whole

theorem bytes_add (guest : GuestMemory) (address m n : ℕ) :
    guest.bytes address (m + n) = guest.bytes address m ++ guest.bytes (address + m) n := by
  induction m generalizing address with
  | zero => rw [Nat.zero_add]; rfl
  | succ m ih =>
    rw [Nat.succ_add, bytes, bytes, ih, List.cons_append, Nat.add_right_comm, Nat.add_assoc]

theorem bytes_store_inside {guest : GuestMemory} {address offset rest : ℕ}
    {front middle back input : List (BitVec 8)} (whole : guest.bytes address
      (offset + (input.length + rest)) = front ++ (middle ++ back))
    (before : front.length = offset) (same : middle.length = input.length) :
    (guest.store (address + offset) input).bytes address (offset + (input.length + rest)) =
      front ++ (input ++ back) := by
  rw [bytes_add, bytes_add] at whole ⊢
  obtain ⟨first, others⟩ := List.append_inj whole (by rw [length_bytes, before])
  obtain ⟨-, last⟩ := List.append_inj others (by rw [length_bytes, same])
  rw [bytes_eq_of_sameAt (guest.store_sameAt (.inl (Nat.le_refl _))), first, bytes_store,
    bytes_eq_of_sameAt (guest.store_sameAt (.inr (Nat.le_refl _))), last]

theorem writeGuest_cases (guest : GuestMemory) (address : ℕ) (input : List (BitVec 8)) :
    (∃ e, (writeGuest address input).run guest = .error e guest) ∨
      (writeGuest address input).run guest = .ok () (guest.store address input) := by
  unfold writeGuest
  cases checked : guest.range.validate address input.length 1 with
  | error e => exact .inl ⟨.kernel e, by simp [checked, Except.mapError]⟩
  | ok _ =>
    by_cases refused : guest.accepts address input.length = true
    · exact .inr (by simp [checked, Except.mapError, refused])
    · exact .inl ⟨_, by simp [checked, Except.mapError, refused]; rfl⟩

/-- The memory takes a write of an interval. -/
def Takes (guest : GuestMemory) (address size : ℕ) : Prop :=
  guest.range.validate address size 1 = .ok () ∧ guest.accepts address size = true

theorem run_writeGuest_ok {address : ℕ}
    {a : Unit} : (writeGuest address input).run guest = .ok a guest' ↔
      guest.Takes address input.length ∧ guest' = guest.store address input := by
  simp only [writeGuest, run_bind_ok, run_get_ok, run_ofExcept_ok_iff, run_throwIf_ok, run_set_ok]
  constructor
  · rintro ⟨_, _, ⟨rfl, rfl⟩, _, _, ⟨valid, rfl⟩, _, _, ⟨taken, rfl⟩, rfl⟩
    refine ⟨⟨?_, by simpa using taken⟩, rfl⟩
    cases checked : guest.range.validate address input.length 1 with
    | error e => rw [checked] at valid; cases valid
    | ok _ => rfl
  · rintro ⟨⟨valid, taken⟩, rfl⟩
    exact ⟨_, _, ⟨rfl, rfl⟩, (), _, ⟨by rw [valid]; rfl, rfl⟩, (), _, ⟨by simp [taken], rfl⟩, rfl⟩

theorem fails_writeGuest {P : GuestMemory → Prop} {guest : GuestMemory} {address : ℕ}
    (h : P guest) : Fails P guest (writeGuest address input) := by
  intro e t run
  obtain ⟨e', ran⟩ | ran := guest.writeGuest_cases address input
  · rw [ran] at run
    cases run
    exact h
  · rw [ran] at run
    cases run

theorem word_store (guest : GuestMemory) (address value : ℕ) :
    (guest.store address (leBytes 4 value)).word address = value % 2 ^ 32 := by
  have stored := guest.bytes_store address (leBytes 4 value)
  rw [length_leBytes] at stored
  show _ = value % 256 ^ 4
  rw [word, stored]
  exact ofLeBytes_leBytes 4 value

theorem word_lt (guest : GuestMemory) (address : ℕ) : guest.word address < 2 ^ 32 := by
  have bound := ofLeBytes_lt (guest.bytes address 4)
  rwa [length_bytes] at bound

theorem word_eq_of_sameAt {address : ℕ}
    (h : SameAt guest guest' address 4) : guest'.word address = guest.word address :=
  congrArg ofLeBytes (bytes_eq_of_sameAt h)

theorem SameAt.sub {address size start length : ℕ}
    (h : SameAt guest guest' address size) (low : address ≤ start)
    (high : start + length ≤ address + size) : SameAt guest guest' start length :=
  fun x hx hx' => h x (by omega) (by omega)

theorem SameAt.trans {guest guest' guest'' : GuestMemory} {address size : ℕ}
    (h : SameAt guest guest' address size) (h' : SameAt guest' guest'' address size) :
    SameAt guest guest'' address size :=
  fun x hx hx' => (h' x hx hx').trans (h x hx hx')

end GuestMemory

end Upse
