import Upse.Services.Strings

/-!
# The string services against the C library

The reference works on the raw bytes of the operands.  The services agree with it exactly on operands
that are valid UTF-8: in any other string the decoding replaces bytes, and already `strcpy` shows it.
-/

namespace Upse.Services

open Psf ErrorState

/-! ### The reference -/

/-- The difference of the first bytes that differ in two terminated strings, or cut-off ones. -/
def firstDifference : Bytes → Bytes → ℤ
  | x :: xs, y :: ys =>
    if x ≠ y then (x.toNat : ℤ) - y.toNat else if x = 0 then 0 else firstDifference xs ys
  | _, _ => 0

/-- A position in a string as a pointer, or null. -/
def pointer (address : ℕ) : Option ℕ → ℕ
  | some offset => address + offset
  | none => 0

/-- The last position of a byte. -/
def lastPosition (byte : Byte) (bytes : Bytes) : Option ℕ :=
  (bytes.reverse.findIdx? (· == byte)).map (bytes.length - 1 - ·)

/-- The first position at which a string occurs in another. -/
def firstOccurrence (text needle : Bytes) : Option ℕ :=
  (List.range (text.length + 1)).find? fun offset => needle.isPrefixOf (text.drop offset)

/-- The services agree with the reference on the string `s` at `a` and the string `t` at `b`, for any
destination in range, any byte and the limit `n`. -/
structure Exact (guest : GuestMemory) (a b : ℕ) (s t : Bytes) (n : ℕ) : Prop where
  strlen : strlen guest a = .ok s.length
  strcpy : ∀ d, InRange guest d (s.length + 1) →
    copyString guest d a none = .ok (d, guest.store d (s ++ [0]))
  strncpy : ∀ d, InRange guest d n →
    copyString guest d a (some n) = .ok (d, guest.store d (s.take n ++ List.replicate (n - s.length) 0))
  strcat : InRange guest b (t.length + s.length + 1) →
    strcat guest b a = .ok (b, guest.store (b + t.length) (s ++ [0]))
  strncat : InRange guest b (t.length + (s.take n).length + 1) →
    strncat guest b a n = .ok (b, guest.store (b + t.length) (s.take n ++ [0]))
  strcmp : ∃ result, compareStrings guest a b none = .ok result ∧
    result.sign = (firstDifference (s ++ [0]) (t ++ [0])).sign
  strncmp : ∃ result, compareStrings guest a b (some n) = .ok result ∧
    result.sign = (firstDifference ((s ++ [0]).take n) ((t ++ [0]).take n)).sign
  strchr : ∀ c : Byte, strchr guest a c.toNat false = .ok (pointer a ((s ++ [0]).findIdx? (· == c)))
  strrchr : ∀ c : Byte, Services.strchr guest a c.toNat true = .ok (pointer a (lastPosition c (s ++ [0])))
  strspn : stringSpan guest a b true = .ok (s.takeWhile (· ∈ t)).length
  strcspn : stringSpan guest a b false = .ok (s.takeWhile (· ∉ t)).length
  strpbrk : strpbrk guest a b = .ok (pointer a (s.findIdx? (· ∈ t)))
  strstr : strstr guest a b = .ok (pointer a (firstOccurrence s t))

/-! ### Host strings and C strings -/

theorem compareBytes_sign (xs ys : Bytes) (n : ℕ) (hx : ∀ x ∈ xs, x ≠ 0) (hy : ∀ y ∈ ys, y ≠ 0) :
    (compareBytes (xs.take n) (ys.take n)).sign =
      (firstDifference ((xs ++ [0]).take n) ((ys ++ [0]).take n)).sign := by
  induction n generalizing xs ys with
  | zero => rfl
  | succ n ih =>
    match xs, ys with
    | [], [] => rfl
    | [], y :: ys =>
      have nonzero : y ≠ 0 := hy y List.mem_cons_self
      have positive : 0 < y.toNat := Nat.pos_of_ne_zero fun zero => nonzero (BitVec.eq_of_toNat_eq zero)
      show Int.sign (-1) = Int.sign (if (0 : Byte) ≠ y then ((0 : Byte).toNat : ℤ) - y.toNat else _)
      rw [if_pos nonzero.symm]
      show -1 = Int.sign (0 - (y.toNat : ℤ))
      rw [Int.sign_eq_neg_one_of_neg (by omega)]
    | x :: xs, [] =>
      have nonzero : x ≠ 0 := hx x List.mem_cons_self
      have positive : 0 < x.toNat := Nat.pos_of_ne_zero fun zero => nonzero (BitVec.eq_of_toNat_eq zero)
      show Int.sign 1 = Int.sign (if x ≠ 0 then (x.toNat : ℤ) - (0 : Byte).toNat else _)
      rw [if_pos nonzero]
      show 1 = Int.sign ((x.toNat : ℤ) - 0)
      rw [Int.sign_eq_one_of_pos (by omega)]
    | x :: xs, y :: ys =>
      have nonzero : x ≠ 0 := hx x List.mem_cons_self
      show Int.sign (if x.toNat < y.toNat then -1 else if y.toNat < x.toNat then 1 else _) =
        Int.sign (if x ≠ y then (x.toNat : ℤ) - y.toNat else if x = 0 then 0 else _)
      rcases Nat.lt_trichotomy x.toNat y.toNat with less | same | greater
      · have apart : x ≠ y := fun same => absurd (congrArg BitVec.toNat same) less.ne
        rw [if_pos less, if_pos apart, Int.sign_eq_neg_one_of_neg (by omega : (x.toNat : ℤ) - y.toNat < 0)]
        rfl
      · have equal : x = y := BitVec.eq_of_toNat_eq same
        rw [if_neg (by omega), if_neg (by omega), if_neg (not_not.mpr equal), if_neg nonzero]
        exact ih xs ys (fun b member => hx b (List.mem_cons_of_mem _ member))
          fun b member => hy b (List.mem_cons_of_mem _ member)
      · have apart : x ≠ y := fun same => absurd (congrArg BitVec.toNat same) greater.ne'
        rw [if_neg (by omega), if_pos greater, if_pos apart,
          Int.sign_eq_one_of_pos (by omega : 0 < (x.toNat : ℤ) - y.toNat)]
        rfl

theorem getD_pointerTo {guest : GuestMemory} {address size : ℕ} (inside : InRange guest address size)
    {position : Option ℕ} (bound : ∀ offset, position = some offset → offset < size) :
    (pointerTo address position).getD 0 = pointer address position := by
  cases position with
  | none => rfl
  | some offset =>
    have := bound offset rfl
    have := inside.2.2
    show (checkedAdd 32 address offset).getD 0 = address + offset
    rw [checkedAdd_eq_some.mpr ⟨by omega, rfl⟩]
    rfl

theorem findIdx?_lt {p : Byte → Bool} {bytes : Bytes} {i : ℕ} (h : bytes.findIdx? p = some i) :
    i < bytes.length :=
  (List.findIdx?_eq_some_iff_getElem.mp h).1

theorem findIdx?_terminated {c : Byte} {s : Bytes} : (s ++ [0]).findIdx? (· == c) =
    (s.findIdx? (· == c)).or (if c = 0 then some s.length else none) := by
  rw [List.findIdx?_append]
  congr 1
  by_cases zero : c = 0
  · subst zero
    simp
  · have apart : ((0 : Byte) == c) = false := beq_false_of_ne (Ne.symm zero)
    rw [if_neg zero, List.findIdx?_cons, apart]
    rfl

theorem findIdx?_zero {s : Bytes} (nonzero : ∀ byte ∈ s, byte ≠ 0) : s.findIdx? (· == 0) = none := by
  rw [List.findIdx?_eq_none_iff]
  intro byte member
  exact beq_false_of_ne (nonzero byte member)

theorem lastPosition_terminated {c : Byte} {s : Bytes} (nonzero : ∀ byte ∈ s, byte ≠ 0) :
    lastPosition c (s ++ [0]) =
      ((s.reverse.findIdx? (· == c)).map (s.length - 1 - ·)).or (if c = 0 then some s.length else none) := by
  unfold lastPosition
  rw [List.reverse_append, List.reverse_singleton, List.singleton_append, List.findIdx?_cons, List.length_append,
    List.length_singleton]
  by_cases zero : c = 0
  · subst zero
    have absent : s.reverse.findIdx? (· == (0 : Byte)) = none :=
      findIdx?_zero fun byte member => nonzero byte (List.mem_reverse.mp member)
    rw [absent]
    simp
  · have apart : ((0 : Byte) == c) = false := beq_false_of_ne (Ne.symm zero)
    rw [apart, if_neg zero, Option.or_none, if_neg Bool.false_ne_true, Option.map_map]
    refine Option.map_congr fun i found => ?_
    show s.length + 1 - 1 - (i + 1) = s.length - 1 - i
    omega

theorem findString_eq (text needle : Bytes) : findString text needle = firstOccurrence text needle := by
  induction text with
  | nil =>
    unfold findString firstOccurrence
    rw [List.length_nil, Nat.zero_add, List.range_one, List.find?_singleton, List.drop_zero]
  | cons byte text ih =>
    unfold findString firstOccurrence
    rw [List.length_cons, List.range_succ_eq_map, List.find?_cons, List.drop_zero, List.find?_map]
    cases needle.isPrefixOf (byte :: text) with
    | true => rfl
    | false => exact congrArg (Option.map Nat.succ) ih

/-! ### Valid operands -/

section Valid

variable {guest : GuestMemory} {a b n : ℕ} {s t : Bytes}

theorem CString.read_valid (h : CString guest a s) (short : s.length < maxString) (valid : validUtf8 s = true) :
    readCString guest a maxString = .ok s := by
  rw [h.read short, fromUtf8Lossy_of_valid valid]

/-- The IOP RAM, which takes every access in its range. -/
structure IsIopRam (guest : GuestMemory) : Prop where
  range : guest.range = ⟨0, 0x200000⟩
  accepts : ∀ address size, guest.accepts address size = true

theorem IsIopRam.write (ram : IsIopRam guest) {address : ℕ} {input : Bytes}
    (inside : InRange guest address input.length) : writeMemory guest address input = .ok (guest.store address input) :=
  writeMemory_eq_ok.mpr ⟨⟨inside, ram.accepts _ _⟩, rfl⟩

theorem IsIopRam.small (ram : IsIopRam guest) {address size : ℕ} (inside : InRange guest address size) :
    size ≤ 0x200000 := by
  obtain ⟨-, last, -⟩ := inside
  rw [ram.range] at last
  exact (Nat.le_add_left ..).trans last

/-- On valid operands and within the bound of its limit, every service is the reference. -/
theorem exact_of_valid (ram : IsIopRam guest) (ha : CString guest a s) (hb : CString guest b t)
    (shortA : s.length < maxString) (shortB : t.length < maxString) (validA : validUtf8 s = true)
    (validB : validUtf8 t = true)
    (limit : InRange guest b (t.length + (s.take n).length + 1) → n ≤ maxMemoryOperation) :
    Exact guest a b s t n := by
  have readA := ha.read_valid shortA validA
  have readB := hb.read_valid shortB validB
  have offset {size : ℕ} (inside : InRange guest b (t.length + size)) :
      wrappingAdd b t.length = b + t.length :=
    Nat.mod_eq_of_lt (by have := inside.2.2; omega)
  have rest {size : ℕ} (inside : InRange guest b (t.length + size)) : InRange guest (b + t.length) size := by
    obtain ⟨first, last, fits⟩ := inside
    exact ⟨by omega, by omega, by omega⟩
  have indexed (position : Option ℕ) (bound : ∀ offset, position = some offset → offset < s.length) :
      (pointerTo a position).getD 0 = pointer a position :=
    getD_pointerTo ha.inRange fun i found => (bound i found).trans (Nat.lt_succ_self _)
  have searched {c : Byte} (position : Option ℕ) (bound : ∀ i, position = some i → i < s.length) :
      (pointerTo a position).getD (if c = 0 then wrappingAdd a s.length else 0) =
        pointer a (position.or (if c = 0 then some s.length else none)) := by
    have fits := ha.inRange.2.2
    cases position with
    | none =>
      split
      next => exact Nat.mod_eq_of_lt (by omega)
      next => rfl
    | some i =>
      have := bound i rfl
      show (checkedAdd 32 a i).getD _ = a + i
      rw [checkedAdd_eq_some.mpr ⟨by omega, rfl⟩]
      rfl
  constructor
  case strlen =>
    rw [strlen, readA]
    rfl
  case strcpy =>
    intro d inside
    have whole : (s ++ [0]).length = s.length + 1 := List.length_append
    rw [copyString, readA]
    show (writeMemory guest d (s ++ [0]) >>= _) = _
    rw [ram.write (by rw [whole]; exact inside)]
    rfl
  case strncpy =>
    intro d inside
    have bound := ram.small inside
    have whole : (s.take n ++ List.replicate (n - s.length) (0 : Byte)).length = n := by
      rw [List.length_append, List.length_take, List.length_replicate]
      omega
    have checked : checkedSize n = .ok n := if_neg (by unfold maxMemoryOperation; omega)
    rw [copyString, readA]
    show (checkedSize n >>= _) = _
    rw [checked]
    show (writeMemory guest d (s.take n ++ List.replicate (n - s.length) 0) >>= _) = _
    rw [ram.write (by rw [whole]; exact inside)]
    rfl
  case strcat =>
    intro inside
    have whole : (s ++ [0]).length = s.length + 1 := List.length_append
    rw [Nat.add_assoc] at inside
    rw [strcat, readA, readB]
    show (writeMemory guest (wrappingAdd b t.length) (s ++ [0]) >>= _) = _
    rw [offset inside, ram.write (by rw [whole]; exact rest inside)]
    rfl
  case strncat =>
    intro inside
    have whole : (s.take n ++ [0]).length = (s.take n).length + 1 := List.length_append
    have checked : checkedSize n = .ok n := if_neg (by have := limit inside; omega)
    rw [Nat.add_assoc] at inside
    rw [strncat, readA, readB]
    show (checkedSize n >>= _) = _
    rw [checked]
    show (writeMemory guest (wrappingAdd b t.length) (s.take n ++ [0]) >>= _) = _
    rw [offset inside, ram.write (by rw [whole]; exact rest inside)]
    rfl
  case strcmp =>
    refine ⟨compareBytes s t, by rw [compareStrings, readA, readB]; rfl, ?_⟩
    have general := compareBytes_sign s t (s.length + t.length + 1) ha.nonzero hb.nonzero
    rwa [List.take_of_length_le (by omega), List.take_of_length_le (by omega),
      List.take_of_length_le (by rw [List.length_append, List.length_singleton]; omega),
      List.take_of_length_le (by rw [List.length_append, List.length_singleton]; omega)] at general
  case strncmp =>
    exact ⟨compareBytes (s.take n) (t.take n), by rw [compareStrings, readA, readB]; rfl,
      compareBytes_sign s t n ha.nonzero hb.nonzero⟩
  case strchr =>
    intro c
    have needle : BitVec.ofNat 8 c.toNat = c := BitVec.eq_of_toNat_eq (Nat.mod_eq_of_lt c.isLt)
    rw [strchr, readA, findIdx?_terminated, ← searched (s.findIdx? (· == c)) fun i found => findIdx?_lt found]
    show Except.ok ((pointerTo a (s.findIdx? (· == BitVec.ofNat 8 c.toNat))).getD
      (if BitVec.ofNat 8 c.toNat = 0 then _ else 0)) = _
    rw [needle]
  case strrchr =>
    intro c
    have needle : BitVec.ofNat 8 c.toNat = c := BitVec.eq_of_toNat_eq (Nat.mod_eq_of_lt c.isLt)
    rw [strchr, readA, lastPosition_terminated ha.nonzero, ← searched ((s.reverse.findIdx? (· == c)).map
      (s.length - 1 - ·)) fun i found => ?_]
    · show Except.ok ((pointerTo a ((s.reverse.findIdx? (· == BitVec.ofNat 8 c.toNat)).map
        (s.length - 1 - ·))).getD (if BitVec.ofNat 8 c.toNat = 0 then _ else 0)) = _
      rw [needle]
    · obtain ⟨j, here, rfl⟩ := Option.map_eq_some_iff.mp found
      have := findIdx?_lt here
      rw [List.length_reverse] at this
      omega
  case strspn =>
    rw [stringSpan, readA, readB]
    show Except.ok (s.takeWhile fun byte => t.contains byte == true).length = _
    simp
  case strcspn =>
    rw [stringSpan, readA, readB]
    show Except.ok (s.takeWhile fun byte => t.contains byte == false).length = _
    simp
  case strpbrk =>
    rw [strpbrk, readA, readB]
    show Except.ok ((pointerTo a (s.findIdx? fun byte => t.contains byte)).getD 0) = _
    rw [indexed _ fun i found => findIdx?_lt found]
    simp
  case strstr =>
    rw [strstr, readA, readB]
    have bound : ∀ i, firstOccurrence s t = some i → i < s.length + 1 := fun i found =>
      List.mem_range.mp (List.mem_of_find?_eq_some found)
    show Except.ok ((pointerTo a (findString s t)).getD 0) = _
    rw [findString_eq, getD_pointerTo ha.inRange bound]

end Valid

/-! ### Other operands -/

/-- What is decoded as it is, is valid: a replacement character is never what it replaces. -/
theorem wellFormed_of_decodeLossy {rounds : ℕ} {bytes : Bytes} (same : decodeLossy rounds bytes = bytes) :
    wellFormed rounds bytes = true := by
  induction rounds generalizing bytes with
  | zero =>
    have empty : bytes = [] := same.symm
    subst empty
    rfl
  | succ rounds ih =>
    cases bytes with
    | nil => rfl
    | cons first rest =>
      rw [decodeLossy] at same
      dsimp only at same
      cases valid : (decodeChar first rest).1 with
      | true =>
        rw [valid, if_pos rfl] at same
        have both := same.trans (List.take_append_drop (decodeChar first rest).2 (first :: rest)).symm
        rw [wellFormed, valid, Bool.true_and]
        exact ih (List.append_cancel_left both)
      | false =>
        rw [valid, if_neg Bool.false_ne_true] at same
        obtain ⟨rfl, others⟩ := List.cons.inj same
        rw [← others] at valid
        cases valid

theorem validUtf8_iff {bytes : Bytes} : validUtf8 bytes = true ↔ fromUtf8Lossy bytes = bytes :=
  ⟨fromUtf8Lossy_of_valid, wellFormed_of_decodeLossy⟩

section Other

variable {guest : GuestMemory} {a b n : ℕ} {s t : Bytes}

/-- A copy shows whether its source is valid. -/
theorem Exact.valid (exact : Exact guest a b s t n) (ram : IsIopRam guest) (ha : CString guest a s)
    (short : s.length < maxString) : validUtf8 s = true := by
  have read := ha.read short
  have length : (fromUtf8Lossy s).length = s.length := by
    have counted := exact.strlen
    rw [Services.strlen, read] at counted
    exact Except.ok.inj counted
  have inside : InRange guest 0 (s.length + 1) := by
    unfold InRange
    rw [ram.range]
    unfold maxString at short
    exact ⟨Nat.le_refl _, by dsimp only; omega, by omega⟩
  have copied := exact.strcpy 0 inside
  have whole (text : Bytes) (same : text.length = s.length) : (text ++ [(0 : Byte)]).length = s.length + 1 := by
    rw [List.length_append, same, List.length_singleton]
  have written : copyString guest 0 a none = .ok (0, guest.store 0 (fromUtf8Lossy s ++ [0])) := by
    rw [copyString, read]
    show (writeMemory guest 0 (fromUtf8Lossy s ++ [0]) >>= _) = _
    rw [ram.write (by rw [whole _ length]; exact inside)]
    rfl
  have stores := (Prod.mk.inj (Except.ok.inj (written.symm.trans copied))).2
  have left := guest.bytes_store 0 (fromUtf8Lossy s ++ [0])
  have right := guest.bytes_store 0 (s ++ [0])
  rw [stores, whole _ length] at left
  rw [whole _ rfl] at right
  exact validUtf8_iff.mpr (List.append_cancel_right (left.symm.trans right))

theorem Exact.limit_le (exact : Exact guest a b s t n) (ha : CString guest a s) (hb : CString guest b t)
    (shortA : s.length < maxString) (shortB : t.length < maxString)
    (inside : InRange guest b (t.length + (s.take n).length + 1)) : n ≤ maxMemoryOperation := by
  by_contra beyond
  have appended := exact.strncat inside
  have checked : checkedSize n = .error (.resourceLimit "memory operation") := if_pos (by omega)
  rw [Services.strncat, ha.read shortA, hb.read shortB] at appended
  change (checkedSize n >>= _) = _ at appended
  rw [checked] at appended
  cases appended

/-- The services are the C library on two strings, for either order of them and a limit, if and only if
both strings are valid UTF-8 and the limit is within its bound where `strncat` has room; and the bounded
services fail on an operand that is not terminated. -/
theorem strings_exact_iff (guest : GuestMemory) (ram : IsIopRam guest) (a b n : ℕ) :
    (∀ s t : Bytes, CString guest a s → CString guest b t → s.length < maxString → t.length < maxString →
      (Exact guest a b s t n ∧ Exact guest b a t s n ↔
        validUtf8 s = true ∧ validUtf8 t = true ∧
        (InRange guest b (t.length + (s.take n).length + 1) ∨ InRange guest a (s.length + (t.take n).length + 1) →
          n ≤ maxMemoryOperation))) ∧
    ((∀ s, CString guest a s → maxString ≤ s.length) → ∀ d,
      (∀ result, copyString guest d a (some n) ≠ .ok result) ∧ (∀ result, strncat guest d a n ≠ .ok result) ∧
      ∀ result, compareStrings guest a b (some n) ≠ .ok result) := by
  refine ⟨fun s t ha hb shortA shortB => ⟨fun ⟨first, second⟩ => ⟨?_, ?_, ?_⟩, fun ⟨validA, validB, limit⟩ => ?_⟩,
    fun unterminated d => ?_⟩
  · exact first.valid ram ha shortA
  · exact second.valid ram hb shortB
  · rintro (inside | inside)
    · exact first.limit_le ha hb shortA shortB inside
    · exact second.limit_le hb ha shortB shortA inside
  · exact ⟨exact_of_valid ram ha hb shortA shortB validA validB fun inside => limit (.inl inside),
      exact_of_valid ram hb ha shortB shortA validB validA fun inside => limit (.inr inside)⟩
  · have unread (text : Str) : readCString guest a maxString ≠ .ok text := by
      intro read
      obtain ⟨s, held, short⟩ := cString_of_read read
      exact absurd (unterminated s held) (by omega)
    refine ⟨fun result done => ?_, fun result done => ?_, fun result done => ?_⟩
    · obtain ⟨text, read, -⟩ := except_bind_ok.mp done
      exact unread text read
    · obtain ⟨_, _, rest⟩ := except_bind_ok.mp done
      obtain ⟨text, read, -⟩ := except_bind_ok.mp rest
      exact unread text read
    · obtain ⟨text, read, -⟩ := except_bind_ok.mp done
      exact unread text read

end Other

/-- The strings `café` at 256 and `of` at 288, and the single byte `0xff` as a string at 512. -/
def twoStrings : GuestMemory :=
  ramWith [(256, [0x63, 0x61, 0x66, 0xc3, 0xa9]), (288, [0x6f, 0x66]), (512, [0xff])]

/-- A string of ASCII, and one with a character of two bytes. -/
theorem strings_exact_sample :
    Exact twoStrings 256 288 [0x63, 0x61, 0x66, 0xc3, 0xa9] [0x6f, 0x66] 4 ∧
      Exact twoStrings 288 256 [0x6f, 0x66] [0x63, 0x61, 0x66, 0xc3, 0xa9] 4 :=
  have first : CString twoStrings 256 [0x63, 0x61, 0x66, 0xc3, 0xa9] :=
    ⟨by decide, by decide, by decide, by decide, by decide⟩
  have second : CString twoStrings 288 [0x6f, 0x66] := ⟨by decide, by decide, by decide, by decide, by decide⟩
  ((strings_exact_iff twoStrings ⟨rfl, fun _ _ => rfl⟩ 256 288 4).1 _ _ first second (by decide)
    (by decide)).mpr ⟨by decide, by decide, fun _ => by decide⟩

/-- A copy of the byte `0xff` is not the byte `0xff`. -/
theorem strcpy_replaces : CString twoStrings 512 [0xff] ∧
    copyString twoStrings 1024 512 none ≠ .ok (1024, twoStrings.store 1024 [0xff, 0]) := by
  refine ⟨⟨by decide, by decide, by decide, by decide, by decide⟩, fun copied => ?_⟩
  have first : (copyString twoStrings 1024 512 none).map (fun result => result.2.byte 1024) = .ok 0xef := by
    decide +kernel
  rw [copied] at first
  cases first

end Upse.Services
