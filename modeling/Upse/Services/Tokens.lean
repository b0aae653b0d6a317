import Upse.Services.Strings

/-!
# The tokenizers of the IOP

`strtok` keeps the rest of its string in the host and `strtok_r` in a word of the guest; zero is both no
string and the end of one.
-/

namespace Upse.Services

open Psf

/-- `tokenize` on the strings that it has read. -/
def tokenizeText (guest : GuestMemory) (start : ℕ) (bytes delimiters : Bytes) :
    Except ServiceError (ℕ × Option ℕ × GuestMemory) :=
  match bytes.findIdx? fun byte => !delimiters.contains byte with
  | none => return (0, none, guest)
  | some first =>
    let token := wrappingAdd start first
    match ((bytes.drop first).findIdx? fun byte => delimiters.contains byte).map (first + ·) with
    | none => return (token, none, guest)
    | some stop => do
      let stopAddress := wrappingAdd start stop
      let guest ← writeMemory guest stopAddress [0]
      return (token, checkedAdd 32 stopAddress 1, guest)

/-- `tokenize`: the token, the next position, and the memory with the token terminated. -/
def tokenize (guest : GuestMemory) (start delimiters : ℕ) :
    Except ServiceError (ℕ × Option ℕ × GuestMemory) := do
  if start = 0 then return (0, none, guest)
  let bytes ← readCString guest start maxString
  let delimiters ← readCString guest delimiters maxString
  tokenizeText guest start bytes delimiters

/-- `strtok`, with the position that the host keeps. -/
def strtok (guest : GuestMemory) (string delimiters : ℕ) (next : Option ℕ) :
    Except ServiceError (ℕ × Option ℕ × GuestMemory) :=
  tokenize guest (if string = 0 then next.getD 0 else string) delimiters

/-- `strtok_r`, with the position in the word at an address. -/
def strtokR (guest : GuestMemory) (string delimiters nextAddress : ℕ) :
    Except ServiceError (ℕ × GuestMemory) := do
  let next ← if string = 0 then readU32 guest nextAddress else pure string
  let (result, next, guest) ← tokenize guest next delimiters
  let guest ← writeU32 guest nextAddress (next.getD 0)
  return (result, guest)

/-! ### The reference -/

/-- What is left of a string: its address and its bytes, or nothing. -/
abbrev Rest := Option (ℕ × Bytes)

/-- The next token of the C library, with its address, and what is left after the delimiter that ends
it. -/
def nextToken (delimiters : Bytes) : Rest → Rest × Rest
  | none => (none, none)
  | some (address, text) =>
    let skipped := text.takeWhile (· ∈ delimiters)
    match text.dropWhile (· ∈ delimiters) with
    | [] => (none, none)
    | begun =>
      let token := begun.takeWhile (· ∉ delimiters)
      (some (address + skipped.length, token),
        match begun.dropWhile (· ∉ delimiters) with
        | [] => none
        | _ :: after => some (address + skipped.length + token.length + 1, after))

/-- The tokens of a sequence of calls, each with its own delimiters. -/
def tokens : Rest → List Bytes → List Rest
  | _, [] => []
  | rest, delimiters :: calls => (nextToken delimiters rest).1 :: tokens (nextToken delimiters rest).2 calls

theorem nextToken_skipped {delimiters text : Bytes} (address : ℕ)
    (all : text.dropWhile (· ∈ delimiters) = []) : nextToken delimiters (some (address, text)) = (none, none) := by
  unfold nextToken
  dsimp only
  rw [all]

theorem nextToken_begun {delimiters text begun : Bytes} (address : ℕ)
    (begins : text.dropWhile (· ∈ delimiters) = begun) (nonempty : begun ≠ []) :
    nextToken delimiters (some (address, text)) =
      (some (address + (text.takeWhile (· ∈ delimiters)).length, begun.takeWhile (· ∉ delimiters)),
        match begun.dropWhile (· ∉ delimiters) with
        | [] => none
        | _ :: after => some (address + (text.takeWhile (· ∈ delimiters)).length +
            (begun.takeWhile (· ∉ delimiters)).length + 1, after)) := by
  unfold nextToken
  dsimp only
  rw [begins]
  cases begun with
  | nil => exact absurd rfl nonempty
  | cons first later => rfl

theorem nextToken_cases (delimiters : Bytes) (address : ℕ) (text : Bytes) :
    nextToken delimiters (some (address, text)) = (none, none) ∨
    (∃ skipped token, text = skipped ++ token ∧
      nextToken delimiters (some (address, text)) = (some (address + skipped.length, token), none)) ∨
    ∃ skipped token delimiter after, text = skipped ++ (token ++ delimiter :: after) ∧
      nextToken delimiters (some (address, text)) = (some (address + skipped.length, token),
        some (address + skipped.length + token.length + 1, after)) := by
  have whole := List.takeWhile_append_dropWhile (p := fun byte => decide (byte ∈ delimiters)) (l := text)
  by_cases all : text.dropWhile (· ∈ delimiters) = []
  · exact .inl (nextToken_skipped address all)
  · have found := nextToken_begun address (rfl : text.dropWhile (· ∈ delimiters) = _) all
    have split := List.takeWhile_append_dropWhile (p := fun byte => decide (byte ∉ delimiters))
      (l := text.dropWhile (· ∈ delimiters))
    cases rest : (text.dropWhile (· ∈ delimiters)).dropWhile (· ∉ delimiters) with
    | nil =>
      rw [rest] at found split
      rw [List.append_nil] at split
      exact .inr (.inl ⟨_, _, by rw [split, whole], found⟩)
    | cons delimiter after =>
      rw [rest] at found split
      exact .inr (.inr ⟨_, _, delimiter, after, by rw [split, whole], found⟩)

/-- The pointer that a call returns. -/
def Rest.pointer : Rest → ℕ
  | some (address, _) => address
  | none => 0

/-! ### Splitting -/

theorem findIdx?_split (p : Byte → Bool) (text : Bytes) :
    match text.findIdx? p with
    | none => text.dropWhile (fun byte => !p byte) = []
    | some i => i = (text.takeWhile fun byte => !p byte).length ∧ text.dropWhile (fun byte => !p byte) ≠ [] := by
  induction text with
  | nil => rfl
  | cons byte text ih =>
    rw [List.findIdx?_cons, List.dropWhile_cons, List.takeWhile_cons]
    cases found : p byte with
    | true => exact ⟨rfl, List.cons_ne_nil _ _⟩
    | false =>
      rw [if_neg Bool.false_ne_true, Bool.not_false, if_pos rfl, if_pos rfl]
      cases later : text.findIdx? p with
      | none =>
        rw [later] at ih
        exact ih
      | some i =>
        rw [later] at ih
        exact ⟨congrArg (· + 1) ih.1, ih.2⟩

theorem drop_length_takeWhile (p : Byte → Bool) (text : Bytes) :
    text.drop (text.takeWhile p).length = text.dropWhile p := by
  have whole := List.takeWhile_append_dropWhile (p := p) (l := text)
  calc text.drop (text.takeWhile p).length
      = (text.takeWhile p ++ text.dropWhile p).drop (text.takeWhile p).length := by rw [whole]
    _ = text.dropWhile p := List.drop_left

/-! ### Strings in place -/

section Strings

variable {guest : GuestMemory} {address : ℕ}

theorem CString.append_right {front text : Bytes} (h : CString guest address (front ++ text)) :
    CString guest (address + front.length) text := by
  obtain ⟨holds, nonzero, first, last, fits⟩ := h
  rw [List.length_append, Nat.add_assoc] at holds last fits
  rw [GuestMemory.bytes_add, List.append_assoc] at holds
  exact ⟨(List.append_inj holds (guest.length_bytes address front.length)).2,
    fun byte member => nonzero byte (List.mem_append_right _ member), by omega, by omega, by omega⟩

/-- A zero in place of a byte ends the string before it, and the string after it remains. -/
theorem CString.cut {token after : Bytes} {delimiter : Byte}
    (h : CString guest address (token ++ delimiter :: after)) :
    CString (guest.store (address + token.length) [0]) address token ∧
      CString (guest.store (address + token.length) [0]) (address + token.length + 1) after := by
  have rest := h.append_right
  obtain ⟨holds, nonzero, first, last, fits⟩ := h
  obtain ⟨holds', nonzero', first', last', fits'⟩ := rest
  rw [List.length_append, List.length_cons] at last fits
  have front : guest.bytes address token.length = token := by
    rw [List.length_append, Nat.add_assoc, GuestMemory.bytes_add, List.append_assoc] at holds
    exact (List.append_inj holds (guest.length_bytes address token.length)).1
  have back : guest.bytes (address + token.length + 1) (after.length + 1) = after ++ [0] :=
    (List.cons.inj holds').2
  refine ⟨⟨?_, fun byte member => nonzero byte (List.mem_append_left _ member), first, ?_, ?_⟩,
    ⟨?_, fun byte member => nonzero' byte (List.mem_cons_of_mem _ member), ?_, ?_, ?_⟩⟩
  · rw [GuestMemory.bytes_add, GuestMemory.bytes_eq_of_sameAt (guest.store_sameAt (.inl (Nat.le_refl _))), front]
    exact congrArg (token ++ ·) (guest.bytes_store (address + token.length) [0])
  · show address + (token.length + 1) ≤ guest.range.stop
    omega
  · omega
  · have same : GuestMemory.SameAt guest (guest.store (address + token.length) [0])
        (address + token.length + 1) (after.length + 1) := guest.store_sameAt (.inr (Nat.le_refl _))
    rw [GuestMemory.bytes_eq_of_sameAt same, back]
  · show guest.range.start ≤ address + token.length + 1
    omega
  · rw [List.length_cons] at last'
    show address + token.length + 1 + (after.length + 1) ≤ guest.range.stop
    omega
  · rw [List.length_cons] at fits'
    omega

theorem CString.of_sameAt {guest' : GuestMemory} {text : Bytes} (h : CString guest address text)
    (same : GuestMemory.SameAt guest guest' address (text.length + 1)) (range : guest'.range = guest.range) :
    CString guest' address text := by
  refine ⟨(GuestMemory.bytes_eq_of_sameAt same).trans h.holds, h.nonzero, ?_⟩
  unfold InRange
  rw [range]
  exact h.inRange

end Strings

/-! ### One call -/

/-- Text of seven-bit bytes. -/
def Ascii (text : Bytes) : Prop := ∀ byte ∈ text, byte < 0x80

instance (text : Bytes) : Decidable (Ascii text) := inferInstanceAs (Decidable (∀ byte ∈ text, byte < 0x80))

/-- What is left of a string is in the memory, and it is a string that the services can read. -/
def Held (guest : GuestMemory) : Rest → Prop
  | none => True
  | some (address, text) => CString guest address text ∧ 0 < address ∧ text.length < maxString ∧ Ascii text

/-- The memory after a call that has found a token: the delimiter that ends it is zero. -/
def terminated (guest : GuestMemory) : Rest × Rest → GuestMemory
  | (some (address, token), some _) => guest.store (address + token.length) [0]
  | _ => guest

section Call

variable {guest : GuestMemory} {delimiters : ℕ} {set : Bytes}

theorem CString.read_ascii {address : ℕ} {text : Bytes} (h : CString guest address text)
    (short : text.length < maxString) (ascii : Ascii text) : readCString guest address maxString = .ok text := by
  rw [h.read short, fromUtf8Lossy_of_valid (wellFormed_of_ascii le_rfl ascii)]

theorem tokenize_eq (takes : ∀ address size, guest.accepts address size = true)
    (hd : CString guest delimiters set) (shortD : set.length < maxString) (asciiD : Ascii set) {rest : Rest}
    (held : Held guest rest) :
    tokenize guest rest.pointer delimiters = .ok ((nextToken set rest).1.pointer,
      (nextToken set rest).2.map Prod.fst, terminated guest (nextToken set rest)) := by
  cases rest with
  | none => rfl
  | some place =>
    obtain ⟨address, text⟩ := place
    obtain ⟨h, positive, short, ascii⟩ := held
    have inSet : (fun byte : Byte => !!set.contains byte) = fun byte => decide (byte ∈ set) := by
      funext byte
      simp
    have notInSet : (fun byte : Byte => !set.contains byte) = fun byte => decide (byte ∉ set) := by
      funext byte
      simp
    have begins := findIdx?_split (fun byte => !set.contains byte) text
    rw [inSet] at begins
    have reads : tokenize guest address delimiters = tokenizeText guest address text set := by
      rw [tokenize, if_neg positive.ne', h.read_ascii short ascii, hd.read_ascii shortD asciiD]
      rfl
    show tokenize guest address delimiters = _
    rw [reads, tokenizeText]
    cases found : text.findIdx? fun byte => !set.contains byte with
    | none =>
      rw [found] at begins
      rw [nextToken_skipped address begins]
      rfl
    | some first =>
      rw [found] at begins
      obtain ⟨rfl, nonempty⟩ := begins
      have whole := List.takeWhile_append_dropWhile (p := fun byte => decide (byte ∈ set)) (l := text)
      rw [nextToken_begun address rfl nonempty]
      dsimp only
      rw [drop_length_takeWhile]
      generalize text.takeWhile (fun byte => decide (byte ∈ set)) = skipped at whole ⊢
      generalize text.dropWhile (fun byte => decide (byte ∈ set)) = begun at whole nonempty ⊢
      subst whole
      have fits := h.inRange.2.2
      rw [List.length_append] at fits
      have ends := findIdx?_split (fun byte => set.contains byte) begun
      rw [notInSet] at ends
      have token : wrappingAdd address skipped.length = address + skipped.length := Nat.mod_eq_of_lt (by omega)
      rw [token]
      cases stops : begun.findIdx? fun byte => set.contains byte with
      | none =>
        rw [stops] at ends
        dsimp only at ends
        rw [ends]
        rfl
      | some stop =>
        rw [stops] at ends
        obtain ⟨rfl, more⟩ := ends
        have split := List.takeWhile_append_dropWhile (p := fun byte => decide (byte ∉ set)) (l := begun)
        generalize begun.takeWhile (fun byte => decide (byte ∉ set)) = token at split ⊢
        obtain ⟨delimiter, after, rest⟩ := List.exists_cons_of_ne_nil more
        rw [rest] at split ⊢
        subst split
        obtain ⟨-, -, low, high, wide⟩ := h
        rw [List.length_append, List.length_append, List.length_cons] at high wide
        have place : wrappingAdd address (skipped.length + token.length) = address + skipped.length + token.length := by
          rw [wrappingAdd, ← Nat.add_assoc]
          exact Nat.mod_eq_of_lt (by omega)
        have room : InRange guest (address + skipped.length + token.length) [(0 : Byte)].length :=
          ⟨by omega, by rw [List.length_singleton]; omega, by rw [List.length_singleton]; omega⟩
        rw [Option.map_some]
        dsimp only
        rw [place, writeMemory_eq_ok.mpr ⟨⟨room, takes _ _⟩, rfl⟩, checkedAdd_eq_some.mpr ⟨by omega, rfl⟩]
        rfl

end Call

end Upse.Services
