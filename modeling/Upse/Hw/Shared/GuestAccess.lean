import Upse.Lib.AliasedArray
import Upse.Lib.ErrorState
import Upse.Lib.Panics
import Upse.Support.Bytes
import Upse.Support.Integers

/-!
# Guest memories as arrays of bytes

What both guest memories are for: one array of bytes behind the virtual addresses of the guest, several
of which are one byte, accessed in three widths, the least significant byte first.  `LittleEndianArray`
says it of the accesses of a memory, in its own addresses; `Refines` says that the accesses do what
loads and stores of single cells do, from which all of it follows.
-/

namespace Upse.GuestAccess

open ErrorState Panics

/-- The widths of an access. -/
inductive Width where
  | byte
  | halfword
  | word
  deriving DecidableEq, Repr

namespace Width

/-- The number of bytes of an access. -/
def bytes : Width → ℕ
  | .byte => 1
  | .halfword => 2
  | .word => 4

theorem bytes_le (width : Width) : width.bytes ≤ 4 := by cases width <;> decide

/-- The values of a width. -/
abbrev Value (width : Width) := BitVec (8 * width.bytes)

/-- The addresses of the bytes of an access, the lowest first. -/
def addresses (width : Width) (address : Word) : List Word :=
  (List.range width.bytes).map fun i => address + BitVec.ofNat 32 i

/-- The bytes of a value at the addresses of an access, the least significant one first. -/
def entries (width : Width) (address : Word) (value : width.Value) : List (Word × Byte) :=
  (width.addresses address).zip (leBytes width.bytes value.toNat)

/-- The value of bytes, the least significant one first. -/
def compose (width : Width) (bytes : List Byte) : width.Value := BitVec.ofNat _ (ofLeBytes bytes)

end Width

theorem toNat_append {m n : ℕ} (high : BitVec m) (low : BitVec n) :
    (high ++ low).toNat = low.toNat + 2 ^ n * high.toNat := by
  rw [BitVec.toNat_append, ← Nat.shiftLeft_add_eq_or_of_lt low.isLt, Nat.shiftLeft_eq, Nat.mul_comm,
    Nat.add_comm]

theorem append_eq_halfword (b0 b1 : Byte) : b1 ++ b0 = Width.halfword.compose [b0, b1] := by
  apply BitVec.eq_of_toNat_eq
  rw [toNat_append]
  simp only [Width.compose, ofLeBytes, BitVec.toNat_ofNat, Width.bytes]
  omega

theorem append_eq_word (b0 b1 b2 b3 : Byte) :
    b3 ++ b2 ++ b1 ++ b0 = Width.word.compose [b0, b1, b2, b3] := by
  apply BitVec.eq_of_toNat_eq
  rw [toNat_append, toNat_append, toNat_append]
  simp only [Width.compose, ofLeBytes, BitVec.toNat_ofNat, Width.bytes]
  omega

theorem leBytes_toNat {n : ℕ} (value : BitVec n) (size : ℕ) : leBytes size value.toNat =
    (List.range size).map fun i => (value >>> (8 * i)).setWidth 8 := by
  induction size generalizing value with
  | zero => rfl
  | succ size ih =>
    have rest : value.toNat / 256 = (value >>> 8).toNat := by
      rw [BitVec.toNat_ushiftRight, Nat.shiftRight_eq_div_pow]
    rw [leBytes, rest, ih, List.range_succ_eq_map, List.map_cons, List.map_map, BitVec.ofNat_toNat]
    congr 1
    refine List.map_congr_left fun i _ => ?_
    rw [← BitVec.shiftRight_add, Function.comp_apply, Nat.mul_succ, Nat.add_comm]

/-- The accesses of a guest memory. -/
structure Accesses (σ ε : Type) where
  read : (width : Width) → σ → Word → MayPanic ε width.Value
  write : (width : Width) → Word → width.Value → EStateM (Stop ε) σ Unit

namespace Accesses

variable {σ ε : Type}

/-- Reads a byte. -/
def readByte (g : Accesses σ ε) (memory : σ) (address : Word) : MayPanic ε Byte :=
  g.read .byte memory address

/-- Writes a byte. -/
def writeByte (g : Accesses σ ε) (address : Word) (value : Byte) : EStateM (Stop ε) σ Unit :=
  g.write .byte address value

end Accesses

/-! ## Addresses of one byte -/

/-- The physical address of a direct-mapped virtual address. -/
def physical (address : Word) : ℕ := address.toNat % 2 ^ 29

/-- Virtual addresses of one physical byte: through different segments, or through different mirrors of
main RAM. -/
structure Alias (direct : Word → Prop) (a b : Word) : Prop where
  left : direct a
  right : direct b
  same : physical a = physical b ∨
    physical a < 0x800000 ∧ physical b < 0x800000 ∧ physical a % 0x200000 = physical b % 0x200000

/-- Virtual addresses of a byte of main RAM or of a scratchpad of a size. -/
structure Backed (direct : Word → Prop) (scratchpad : ℕ) (a : Word) : Prop where
  direct : direct a
  inside : physical a < 0x800000 ∨ 0x1f800000 ≤ physical a ∧ physical a < 0x1f800000 + scratchpad

theorem not_alias_add {direct : Word → Prop} {a : Word} {i j : ℕ} (lt : i < j) (small : j < 4) :
    ¬ Alias direct (a + BitVec.ofNat 32 i) (a + BitVec.ofNat 32 j) := by
  rintro ⟨-, -, same⟩
  simp only [physical, BitVec.toNat_add, BitVec.toNat_ofNat] at same
  omega

/-! ## What a guest memory is -/

section Specification

variable {σ ε ρ : Type}

/-- A memory is one little-endian array of bytes seen through the aliases of each: an access of several
bytes is the accesses of its bytes, what is written is seen through every alias, nothing else changes,
also not where an access fails, and no access leaves its array. -/
structure LittleEndianArray (g : Accesses σ ε) (Alias : Word → Word → Prop) (Backed : Word → Prop)
    (rest : σ → ρ) : Prop where
  reads : ∀ {width memory address value}, g.read width memory address = .ok value →
    ∃ bytes, (width.addresses address).mapM (g.readByte memory) = .ok bytes ∧ value = width.compose bytes
  writes : ∀ {width memory address value after}, (g.write width address value).run memory = .ok () after →
    ((width.entries address value).forM fun entry => g.writeByte entry.1 entry.2).run memory = .ok () after
  aliases : ∀ {memory a b}, Alias a b → g.readByte memory a = g.readByte memory b
  seen : ∀ {width memory address value after}, (g.write width address value).run memory = .ok () after →
    ∀ entry ∈ width.entries address value, Backed entry.1 →
      ∀ other, Alias entry.1 other → g.readByte after other = .ok entry.2
  kept : ∀ {width memory address value after}, (g.write width address value).run memory = .ok () after →
    ∀ other, (∀ entry ∈ width.entries address value, ¬ Alias entry.1 other) →
      g.readByte after other = g.readByte memory other
  rest_kept : ∀ {width memory address value after},
    (g.write width address value).run memory = .ok () after → rest after = rest memory
  failed : ∀ {width memory address value e after},
    (g.write width address value).run memory = .error e after → after = memory
  read_inside : ∀ width memory address, g.read width memory address ≠ .error .panic
  write_inside : ∀ width memory address value after,
    (g.write width address value).run memory ≠ .error .panic after

/-- How a write ends in place: a failure leaves the memory. -/
def settled (memory : σ) : Except ε σ → EStateM.Result (Stop ε) σ Unit
  | .ok after => .ok () after
  | .error e => .error (.error e) memory

end Specification

/-! ## Accesses that load and store single cells -/

section Refinement

variable {σ ε ρ C : Type} [DecidableEq C]

/-- The accesses do what loads and stores of cells do: an access of one byte is one, and an access of
several that succeeds is several.  Each access is a fallible one put in place, so that it neither panics
nor fails half-way. -/
structure Refines (g : Accesses σ ε) (w : Window σ ε Word C Byte) : Prop where
  read_byte : ∀ memory address, g.readByte memory address = (w.load memory address).mapError .error
  write_byte : ∀ memory address value,
    (g.writeByte address value).run memory = settled memory (w.store address value memory)
  read : ∀ width memory address, ∃ result : Except ε width.Value,
    g.read width memory address = result.mapError .error ∧ ∀ value, result = .ok value →
      ∃ bytes, w.loads memory (width.addresses address) = .ok bytes ∧ value = width.compose bytes
  write : ∀ width memory address value, ∃ result : Except ε σ,
    (g.write width address value).run memory = settled memory result ∧ ∀ after, result = .ok after →
      w.stores (width.entries address value) memory = .ok after

variable {g : Accesses σ ε} {w : Window σ ε Word C Byte}

theorem settled_eq_ok {memory after : σ} {result : Except ε σ} :
    settled memory result = .ok () after ↔ result = .ok after := by
  cases result with
  | ok t =>
    constructor
    · intro same
      cases same
      rfl
    · rintro ⟨⟩
      rfl
  | error e => exact ⟨nofun, nofun⟩

variable {direct : Word → Prop} {backed : Word → Prop} {rest : σ → ρ}

/-- The bytes of an access are the bytes of different cells. -/
theorem entries_apart (one : ∀ {memory a b c}, w.cell memory a = .ok (some c) →
    w.cell memory b = .ok (some c) → Alias direct a b) {width : Width} {memory : σ} {address : Word}
    {value : width.Value} (c : C) : (width.entries address value).Pairwise fun x y =>
      w.cell memory x.1 = .ok (some c) → w.cell memory y.1 ≠ .ok (some c) := by
  have few := width.bytes_le
  have apart : (width.addresses address).Pairwise fun x y =>
      w.cell memory x = .ok (some c) → w.cell memory y ≠ .ok (some c) := by
    rw [Width.addresses, List.pairwise_map]
    refine List.pairwise_lt_range.imp_of_mem fun {i j} _ member lt first second => ?_
    have small := List.mem_range.mp member
    exact not_alias_add lt (by omega) (one first second)
  have length : (width.addresses address).length ≤ (leBytes width.bytes value.toNat).length := by
    rw [length_leBytes, Width.addresses, List.length_map, List.length_range]
  rw [← List.map_fst_zip length] at apart
  exact List.Pairwise.of_map Prod.fst (fun _ _ other => other) apart

theorem loads_byte {memory : σ} {a : Word} {value : Byte} (loaded : w.load memory a = .ok value) :
    ∃ bytes, w.loads memory (Width.byte.addresses a) = .ok bytes ∧ value = Width.byte.compose bytes := by
  refine ⟨[value], ?_, ?_⟩
  · show w.loads memory [a + BitVec.ofNat 32 0] = _
    rw [BitVec.add_zero, Window.loads, loaded]
    rfl
  · apply BitVec.eq_of_toNat_eq
    simp only [Width.compose, ofLeBytes, BitVec.toNat_ofNat, Width.bytes]
    omega

theorem stores_byte (memory : σ) (a : Word) (value : Byte) :
    w.stores (Width.byte.entries a value) memory = w.store a value memory := by
  show w.stores [(a + BitVec.ofNat 32 0, BitVec.ofNat 8 value.toNat)] memory = _
  rw [BitVec.add_zero, BitVec.ofNat_toNat, BitVec.setWidth_eq, Window.stores]
  cases w.store a value memory <;> rfl

section Named

variable {width : Width} {memory : σ} {address : Word} {name : ℕ → Option C}
  (named : ∀ i < width.bytes, w.cell memory (address + BitVec.ofNat 32 i) = .ok (name i))
include named

theorem addresses_named : List.Forall₂ (fun a name => w.cell memory a = .ok name)
    (width.addresses address) ((List.range width.bytes).map name) := by
  rw [Width.addresses, List.forall₂_map_left_iff, List.forall₂_map_right_iff, List.forall₂_same]
  exact fun i member => named i (List.mem_range.mp member)

theorem loads_addresses : w.loads memory (width.addresses address) =
    .ok ((List.range width.bytes).map fun i => w.read memory (name i)) := by
  rw [Window.loads_named (addresses_named named), List.map_map]
  rfl

theorem stores_entries (value : width.Value) : w.stores (width.entries address value) memory =
    .ok ((((List.range width.bytes).map name).zip (leBytes width.bytes value.toNat)).foldl
      (fun memory entry => w.write entry.2 memory entry.1) memory) :=
  Window.stores_named (addresses_named named) _

end Named

theorem mapM_of_loads {read : Word → MayPanic ε Byte} {memory : σ}
    (reads : ∀ a, read a = (w.load memory a).mapError .error) {addresses : List Word} {bytes : List Byte}
    (loaded : w.loads memory addresses = .ok bytes) : addresses.mapM read = .ok bytes := by
  induction addresses generalizing bytes with
  | nil => cases loaded; rfl
  | cons a as ih =>
    obtain ⟨v, first, loaded⟩ := except_bind_ok.mp loaded
    obtain ⟨vs, rest, same⟩ := except_bind_ok.mp loaded
    cases same
    rw [List.mapM_cons, reads, first, ih rest]
    rfl

theorem forM_of_stores {write : Word → Byte → EStateM (Stop ε) σ Unit}
    (writes : ∀ memory a v, (write a v).run memory = settled memory (w.store a v memory))
    {entries : List (Word × Byte)} {memory after : σ} (stored : w.stores entries memory = .ok after) :
    (entries.forM fun entry => write entry.1 entry.2).run memory = .ok () after := by
  induction entries generalizing memory with
  | nil => cases stored; rfl
  | cons entry rest ih =>
    obtain ⟨t, first, stored⟩ := except_bind_ok.mp stored
    have written := writes memory entry.1 entry.2
    rw [first] at written
    exact (run_bind_of_ok written).trans (ih stored)

/-- Writes of bytes that are all accepted or all refused neither stop half-way nor leave a part. -/
theorem forM_settled {write : Word → Byte → EStateM (Stop ε) σ Unit}
    (writes : ∀ memory a v, (write a v).run memory = settled memory (w.store a v memory))
    {entries : List (Word × Byte)} {memory : σ}
    (whole : (∀ entry ∈ entries, ∃ name, w.cell memory entry.1 = .ok name) ∨
      ∀ entry ∈ entries, ∃ e, w.cell memory entry.1 = .error e) :
    (entries.forM fun entry => write entry.1 entry.2).run memory =
      settled memory (w.stores entries memory) := by
  rcases whole with accepted | refused
  · obtain ⟨after, stored⟩ := Window.stores_accepted accepted
    rw [forM_of_stores writes stored, stored]
    rfl
  · cases entries with
    | nil => rfl
    | cons entry rest =>
      obtain ⟨e, failed⟩ := refused entry List.mem_cons_self
      have first : w.store entry.1 entry.2 memory = .error e := by
        rw [Window.store, failed]
        rfl
      have written := writes memory entry.1 entry.2
      rw [first] at written
      rw [Window.stores, first]
      exact run_bind_of_error written

namespace Refines

variable (h : Refines g w)
include h

theorem stores_of_write {width : Width} {memory after : σ} {address : Word} {value : width.Value}
    (run : (g.write width address value).run memory = .ok () after) :
    w.stores (width.entries address value) memory = .ok after := by
  obtain ⟨result, settles, stored⟩ := h.write width memory address value
  exact stored after (settled_eq_ok.mp (settles.symm.trans run))

/-- Accesses that load and store cells make one little-endian array of bytes. -/
theorem littleEndianArray
    (alias_cell : ∀ {memory a b}, Alias direct a b → w.cell memory a = w.cell memory b)
    (one : ∀ {memory a b c}, w.cell memory a = .ok (some c) →
      w.cell memory b = .ok (some c) → Alias direct a b)
    (backed_cell : ∀ {memory a}, backed a → ∃ c, w.cell memory a = .ok (some c))
    (rest_put : ∀ c v s, rest (w.put c v s) = rest s) :
    LittleEndianArray g (Alias direct) backed rest where
  reads := by
    intro width memory address value read
    obtain ⟨result, same, loaded⟩ := h.read width memory address
    rw [same, except_mapError_ok] at read
    obtain ⟨bytes, loaded, composed⟩ := loaded value read
    exact ⟨bytes, mapM_of_loads (h.read_byte memory) loaded, composed⟩
  writes := fun run => forM_of_stores h.write_byte (h.stores_of_write run)
  aliases := by
    intro memory a b same
    rw [h.read_byte, h.read_byte, Window.load, Window.load, alias_cell same]
  seen := by
    intro width memory address value after run entry member backs other same
    obtain ⟨c, named⟩ : ∃ c, w.cell memory entry.1 = .ok (some c) := backed_cell backs
    rw [h.read_byte, Window.load_stores (h.stores_of_write run) (entries_apart one c) member named
      ((alias_cell same).symm.trans named)]
    rfl
  kept := by
    intro width memory address value after run other apart
    rw [h.read_byte, h.read_byte, Window.load_stores_other (h.stores_of_write run)
      fun entry member c named same => apart entry member (one named same)]
  rest_kept := fun run => Window.rest_stores rest_put (h.stores_of_write run)
  failed := by
    intro width memory address value e after run
    obtain ⟨result, settles, -⟩ := h.write width memory address value
    rw [settles] at run
    cases result with
    | ok t => cases run
    | error e => cases run; rfl
  read_inside := by
    intro width memory address panics
    obtain ⟨result, same, -⟩ := h.read width memory address
    rw [same] at panics
    cases result <;> cases panics
  write_inside := by
    intro width memory address value after panics
    obtain ⟨result, settles, -⟩ := h.write width memory address value
    rw [settles] at panics
    cases result <;> cases panics

end Refines

end Refinement

end Upse.GuestAccess
