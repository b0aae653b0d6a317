import Mathlib.Data.List.Lex
import Mathlib.Algebra.Group.Nat.Defs
import Mathlib.Data.Nat.Notation

/-!
# Bytes and strings

Byte strings as the files and the guest memory hold them, little-endian integers in them, and ASCII
text.  A string is the sequence of its UTF-8 bytes.
-/

namespace Upse

abbrev Byte := BitVec 8

/-- A string of bytes. -/
abbrev Bytes := List Byte

instance lawfulBEq_byte : LawfulBEq Byte := inferInstance

/-- A string, as the bytes of its encoding. -/
abbrev Str := Bytes

instance : LinearOrder Byte where
  le_refl := BitVec.le_refl
  le_trans _ _ _ := BitVec.le_trans
  lt_iff_le_not_ge a b := by simp only [BitVec.le_def, BitVec.lt_def]; omega
  le_antisymm _ _ := BitVec.le_antisymm
  le_total := BitVec.le_total
  toDecidableLE := inferInstance

/-- ASCII text. -/
def ascii (text : String) : Str := text.toList.map fun c => BitVec.ofNat 8 c.toNat

/-- The bytes of an integer, least significant first. -/
def leBytes : ℕ → ℕ → List (BitVec 8)
  | 0, _ => []
  | size + 1, value => BitVec.ofNat 8 value :: leBytes size (value / 256)

/-- The integer of bytes, least significant first. -/
def ofLeBytes : List (BitVec 8) → ℕ
  | [] => 0
  | byte :: bytes => byte.toNat + 256 * ofLeBytes bytes

@[simp] theorem length_leBytes (size value : ℕ) : (leBytes size value).length = size := by
  induction size generalizing value with
  | zero => rfl
  | succ size ih => rw [leBytes, List.length_cons, ih]

theorem ofLeBytes_leBytes (size value : ℕ) :
    ofLeBytes (leBytes size value) = value % 256 ^ size := by
  induction size generalizing value with
  | zero => rw [Nat.pow_zero, Nat.mod_one]; rfl
  | succ size ih =>
    have split_power : 256 ^ (size + 1) = 256 * 256 ^ size := Nat.pow_succ'
    rw [leBytes, ofLeBytes, ih, BitVec.toNat_ofNat, split_power, Nat.mod_mul]

theorem ofLeBytes_lt (bytes : List (BitVec 8)) : ofLeBytes bytes < 256 ^ bytes.length := by
  induction bytes with
  | nil => exact Nat.one_pos
  | cons byte bytes ih =>
    have low := byte.isLt
    rw [ofLeBytes, List.length_cons, Nat.pow_succ']
    omega

/-- The little-endian word at an offset. -/
def wordAt (input : Bytes) (offset : ℕ) : ℕ := ofLeBytes ((input.drop offset).take 4)

theorem wordAt_lt (input : Bytes) (offset : ℕ) : wordAt input offset < 2 ^ 32 := by
  have bound := ofLeBytes_lt ((input.drop offset).take 4)
  have short : ((input.drop offset).take 4).length ≤ 4 := List.length_take_le _ _
  exact bound.trans_le (Nat.pow_le_pow_right (by omega) short)

/-- The bytes of a half-open range. -/
def slice (input : Bytes) (start stop : ℕ) : Bytes := (input.drop start).take (stop - start)

theorem wordAt_append {front rest : Bytes} {value offset : ℕ} (at_offset : front.length = offset)
    (fits : value < 2 ^ 32) : wordAt (front ++ (leBytes 4 value ++ rest)) offset = value := by
  unfold wordAt
  rw [List.drop_left' at_offset, List.take_left' (length_leBytes 4 value), ofLeBytes_leBytes]
  exact Nat.mod_eq_of_lt fits

theorem slice_append {front bytes rest : Bytes} {start stop : ℕ} (at_start : front.length = start)
    (at_stop : start + bytes.length = stop) : slice (front ++ (bytes ++ rest)) start stop = bytes := by
  unfold slice
  rw [List.drop_left' at_start, List.take_left' (by omega)]

/-- The bytes are in the input at an offset. -/
def HoldsAt (input : Bytes) (offset : ℕ) (bytes : Bytes) : Prop :=
  ∃ front rest, front.length = offset ∧ input = front ++ (bytes ++ rest)

namespace HoldsAt

variable {input bytes a b : Bytes} {offset value : ℕ}

theorem left (h : HoldsAt input offset (a ++ b)) : HoldsAt input offset a := by
  obtain ⟨front, rest, length, rfl⟩ := h
  exact ⟨front, b ++ rest, length, by rw [List.append_assoc]⟩

theorem right (h : HoldsAt input offset (a ++ b)) : HoldsAt input (offset + a.length) b := by
  obtain ⟨front, rest, length, rfl⟩ := h
  exact ⟨front ++ a, rest, by rw [List.length_append, length], by simp only [List.append_assoc]⟩

theorem length_le (h : HoldsAt input offset bytes) : offset + bytes.length ≤ input.length := by
  obtain ⟨front, rest, length, rfl⟩ := h
  rw [List.length_append, List.length_append]
  omega

theorem slice_eq (h : HoldsAt input offset bytes) :
    slice input offset (offset + bytes.length) = bytes := by
  obtain ⟨front, rest, length, rfl⟩ := h
  exact slice_append length rfl

theorem wordAt_eq (h : HoldsAt input offset (leBytes 4 value)) (fits : value < 2 ^ 32) :
    wordAt input offset = value := by
  obtain ⟨front, rest, length, rfl⟩ := h
  exact wordAt_append length fits

end HoldsAt

/-! ### Pieces and separators -/

theorem intercalate_append {sep : Byte} {a b : List Str} (ha : a ≠ []) (hb : b ≠ []) :
    [sep].intercalate (a ++ b) = [sep].intercalate a ++ sep :: [sep].intercalate b := by
  induction a with
  | nil => exact absurd rfl ha
  | cons first rest ih =>
    cases rest with
    | nil =>
      rw [List.singleton_append, List.intercalate_cons_of_ne_nil hb, List.intercalate_singleton,
        List.append_assoc]
      rfl
    | cons second rest =>
      have joined := ih (List.cons_ne_nil second rest)
      have more : second :: rest ++ b ≠ [] := List.cons_ne_nil second (rest ++ b)
      show [sep].intercalate (first :: (second :: rest ++ b)) = _
      rw [List.intercalate_cons_of_ne_nil more, joined,
        List.intercalate_cons_of_ne_nil (List.cons_ne_nil second rest), List.append_assoc]
      simp only [List.append_assoc]

theorem mem_intercalate {sep : Byte} {parts : List Str} {byte : Byte} (h : byte ∈ [sep].intercalate parts) :
    byte = sep ∨ ∃ part ∈ parts, byte ∈ part := by
  induction parts with
  | nil => exact nomatch h
  | cons part parts ih =>
    by_cases more : parts = []
    · rw [more, List.intercalate_singleton] at h
      exact .inr ⟨part, List.mem_cons_self, h⟩
    · rw [List.intercalate_cons_of_ne_nil more, List.append_assoc, List.mem_append, List.mem_append,
        List.mem_singleton] at h
      rcases h with h | h | h
      · exact .inr ⟨part, List.mem_cons_self, h⟩
      · exact .inl h
      · rcases ih h with h | ⟨other, mem, h⟩
        · exact .inl h
        · exact .inr ⟨other, List.mem_cons_of_mem _ mem, h⟩

/-! ### ASCII case -/

/-- `to_ascii_lowercase` of a byte. -/
def asciiLower (byte : Byte) : Byte := if 65 ≤ byte ∧ byte ≤ 90 then byte + 32 else byte

def isAsciiAlphabetic (byte : Byte) : Bool :=
  (65 ≤ byte && byte ≤ 90) || (97 ≤ byte && byte ≤ 122)

def isAsciiDigit (byte : Byte) : Bool := 48 ≤ byte && byte ≤ 57

/-- `to_ascii_lowercase` of a string. -/
def lowercase (s : Str) : Str := s.map asciiLower

/-- `eq_ignore_ascii_case`. -/
def eqIgnoreAsciiCase (a b : Str) : Bool := lowercase a == lowercase b

@[simp] theorem length_lowercase (s : Str) : (lowercase s).length = s.length := List.length_map _

end Upse
