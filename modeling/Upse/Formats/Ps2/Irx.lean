import Upse.Lib.Chains
import Upse.Support.Bytes
import Upse.Support.Integers

/-!
# Sony HI16 chains of IOP modules

A Sony HI16 relocation starts a chain through the module image: the low half of each word is the signed
distance, in words, to the next one, and zero at the last.  Relocating puts the upper half of the
address into these low halves, so the loop overwrites the links it follows.
-/

namespace Upse.Irx

open Link

/-- Specific IOP module failure. -/
inductive IrxErrorKind where
  | truncated
  | invalidIdentification
  | unsupportedType (value : ℕ)
  | unsupportedMachine (value : ℕ)
  | invalidEntrySize
  | overflow
  | limitExceeded (limit : String)
  | invalidProgramLayout
  | overlappingRanges
  | outOfRange
  | invalidSection
  | invalidSymbol
  | unsupportedRelocation (kind : ℕ)
  | malformedRelocationPair
  | malformedRelocationChain
  | relocationOverflow
  | invalidModuleMetadata
  | invalidLinkTable
  | invalidLoadAddress
  | targetRange
  | target (message : String)
  deriving DecidableEq, Repr

/-- Structured IOP module diagnostic. -/
structure IrxError where
  origin : String
  offset : ℕ
  kind : IrxErrorKind
  deriving DecidableEq, Repr

/-- The little-endian word at an offset, where the input holds all of it. -/
def readU32 (input : Bytes) (offset : ℕ) : Option Word :=
  if offset + 4 ≤ input.length then some (BitVec.ofNat 32 (wordAt input offset)) else none

/-- Replaces the bytes of a word. -/
def writeU32 (image : Bytes) (position : ℕ) (value : Word) : Bytes :=
  image.take position ++ (leBytes 4 value.toNat ++ image.drop (position + 4))

/-- The offset in bytes that the low half of a word asks for. -/
def chainStep (word : Word) : ℤ := (word.setWidth 16).toInt * 4

/-- The word a step leads to, where it is aligned and inside the image. -/
def chainNext (size position : ℕ) (step : ℤ) : Option ℕ :=
  (if step < 0 then checkedSub position step.natAbs
    else checkedAdd 64 position step.toNat).filter fun offset =>
      offset % 4 = 0 && (checkedAdd 64 offset 4).any (· ≤ size)

/-- A word with its low half replaced by that of the immediate. -/
def patchLow (word immediate : Word) : Word := (word &&& 0xffff0000) ||| (immediate &&& 0xffff)

/-- Follows a chain and patches its words; `remaining` is how many words the visit counter still
admits. -/
def followChain (malformed : IrxError) (immediate : Word) :
    ℕ → Bytes → ℕ → Except IrxError Bytes
  -- The counter fails whatever the word is.
  | 0, _, _ => .error malformed
  | remaining + 1, image, position =>
    match readU32 image position with
    | none => .error malformed
    | some word =>
      let step := chainStep word
      let patched := writeU32 image position (patchLow word immediate)
      if step = 0 then .ok patched
      else
        match chainNext image.length position step with
        | none => .error malformed
        | some following => followChain malformed immediate remaining patched following

/-- Relocates one Sony HI16 chain; the image of a failed relocation is dropped. -/
def applySonyHigh (origin : String) (image : Bytes) (start : ℕ) (delta addend : Word)
    (sourceOffset : ℕ) : Except IrxError Bytes :=
  match checkedAdd 32 delta.toNat addend.toNat with
  | none => .error ⟨origin, sourceOffset, .relocationOverflow⟩
  | some value =>
    let immediate := (BitVec.ofNat 32 value + 0x8000) >>> 16
    followChain ⟨origin, sourceOffset, .malformedRelocationChain⟩ immediate (image.length / 4 + 1)
      image start

/-! ### Chains of an image -/

/-- Where a step leads. -/
def stepLink (size position : ℕ) (step : ℤ) : Link ℕ :=
  if step = 0 then .stop
  else
    match chainNext size position step with
    | none => .broken
    | some following => .next following

/-- The original link of a word. -/
def sonyLink (image : Bytes) (position : ℕ) : Link ℕ :=
  match readU32 image position with
  | none => .broken
  | some word => stepLink image.length position (chainStep word)

/-- The link of a word after it is patched. -/
def immediateLink (size : ℕ) (immediate : Word) (position : ℕ) : Link ℕ :=
  stepLink size position (chainStep immediate)

/-- The immediate that relocating puts into the low halves: the upper half of the address, rounded. -/
def upperHalf (delta addend : Word) : Word := (delta + addend + 0x8000) >>> 16

/-- The image with the low half of exactly these words replaced by the immediate. -/
structure Patched (image : Bytes) (immediate : Word) (words : List ℕ) (image' : Bytes) : Prop where
  length : image'.length = image.length
  low : ∀ word ∈ words, image'[word]? = some (BitVec.ofNat 8 immediate.toNat)
  high : ∀ word ∈ words, image'[word + 1]? = some (BitVec.ofNat 8 (immediate.toNat / 256))
  rest : ∀ offset, (∀ word ∈ words, offset ≠ word ∧ offset ≠ word + 1) →
    image'[offset]? = image[offset]?

/-! ### Words and their bytes -/

theorem readU32_eq_some {input : Bytes} {offset : ℕ} {word : Word} :
    readU32 input offset = some word ↔
      ∃ b₀ b₁ b₂ b₃, input[offset]? = some b₀ ∧ input[offset + 1]? = some b₁ ∧
        input[offset + 2]? = some b₂ ∧ input[offset + 3]? = some b₃ ∧
        word = BitVec.ofNat 32 (ofLeBytes [b₀, b₁, b₂, b₃]) := by
  unfold readU32
  constructor
  · intro read
    split at read
    next fits =>
      refine ⟨input[offset], input[offset + 1], input[offset + 2], input[offset + 3],
        List.getElem?_eq_getElem _, List.getElem?_eq_getElem _, List.getElem?_eq_getElem _,
        List.getElem?_eq_getElem _, ?_⟩
      rw [← Option.some.inj read, wordAt, List.drop_eq_getElem_cons (by omega),
        List.drop_eq_getElem_cons (by omega), List.drop_eq_getElem_cons (by omega),
        List.drop_eq_getElem_cons (by omega)]
      rfl
    next => cases read
  · rintro ⟨b₀, b₁, b₂, b₃, h₀, h₁, h₂, h₃, rfl⟩
    obtain ⟨fits₀, rfl⟩ := List.getElem?_eq_some_iff.mp h₀
    obtain ⟨fits₁, rfl⟩ := List.getElem?_eq_some_iff.mp h₁
    obtain ⟨fits₂, rfl⟩ := List.getElem?_eq_some_iff.mp h₂
    obtain ⟨fits₃, rfl⟩ := List.getElem?_eq_some_iff.mp h₃
    rw [if_pos (by omega), wordAt, List.drop_eq_getElem_cons (by omega),
      List.drop_eq_getElem_cons (by omega), List.drop_eq_getElem_cons (by omega),
      List.drop_eq_getElem_cons (by omega)]
    rfl

theorem readU32_congr {a b : Bytes} {offset : ℕ}
    (same : ∀ i < 4, a[offset + i]? = b[offset + i]?) : readU32 a offset = readU32 b offset := by
  have agree (word : Word) : readU32 a offset = some word ↔ readU32 b offset = some word := by
    rw [readU32_eq_some, readU32_eq_some, ← same 1 (by omega), ← same 2 (by omega),
      ← same 3 (by omega), show a[offset]? = b[offset]? from same 0 (by omega)]
  exact Option.ext agree

theorem readU32_fits {input : Bytes} {offset : ℕ} {word : Word}
    (read : readU32 input offset = some word) : offset + 4 ≤ input.length := by
  unfold readU32 at read
  split at read
  next fits => exact fits
  next => cases read

theorem getElem?_writeU32 {image : Bytes} {position : ℕ} (fits : position + 4 ≤ image.length)
    (value : Word) (offset : ℕ) :
    (writeU32 image position value)[offset]? =
      if position ≤ offset ∧ offset < position + 4 then (leBytes 4 value.toNat)[offset - position]?
      else image[offset]? := by
  have front : (image.take position).length = position := by
    rw [List.length_take]
    omega
  unfold writeU32
  split
  next inside =>
    rw [List.getElem?_append_right (by omega), front,
      List.getElem?_append_left (by rw [length_leBytes]; omega)]
  next outside =>
    by_cases before : offset < position
    · rw [List.getElem?_append_left (by omega), List.getElem?_take_of_lt before]
    · rw [List.getElem?_append_right (by omega), front,
        List.getElem?_append_right (by rw [length_leBytes]; omega), length_leBytes,
        List.getElem?_drop]
      congr 1
      omega

theorem length_writeU32 {image : Bytes} {position : ℕ} (fits : position + 4 ≤ image.length)
    (value : Word) : (writeU32 image position value).length = image.length := by
  unfold writeU32
  rw [List.length_append, List.length_append, length_leBytes, List.length_take, List.length_drop]
  omega

theorem patchLow_eq (word immediate : Word) :
    patchLow word immediate = word.extractLsb' 16 16 ++ immediate.setWidth 16 := by
  have upper : ∀ i < 32, (0xffff0000 : Word).getLsbD i = decide (16 ≤ i) := by decide
  have lower : ∀ i < 32, (0xffff : Word).getLsbD i = decide (i < 16) := by decide
  unfold patchLow
  apply BitVec.eq_of_getLsbD_eq
  intro i i_lt
  rw [BitVec.getLsbD_or, BitVec.getLsbD_and, BitVec.getLsbD_and, upper i i_lt, lower i i_lt,
    BitVec.getLsbD_append]
  by_cases low : i < 16
  · simp [low, Nat.not_le.mpr low]
  · have at_upper : 16 + (i - 16) = i := by omega
    have inside : i - 16 < 16 := by omega
    simp [low, Nat.not_lt.mp low, at_upper, inside]

theorem leBytes_patchLow {b₀ b₁ b₂ b₃ : Byte} {immediate : Word} (small : immediate.toNat < 65536) :
    leBytes 4 (patchLow (BitVec.ofNat 32 (ofLeBytes [b₀, b₁, b₂, b₃])) immediate).toNat =
      [BitVec.ofNat 8 immediate.toNat, BitVec.ofNat 8 (immediate.toNat / 256), b₂, b₃] := by
  have value : (patchLow (BitVec.ofNat 32 (ofLeBytes [b₀, b₁, b₂, b₃])) immediate).toNat =
      (b₂.toNat + 256 * b₃.toNat) * 65536 + immediate.toNat := by
    have bounds := And.intro (And.intro b₀.isLt b₁.isLt) (And.intro b₂.isLt b₃.isLt)
    have lower : (immediate.setWidth 16).toNat = immediate.toNat := by
      rw [BitVec.toNat_setWidth, Nat.mod_eq_of_lt small]
    rw [patchLow_eq, BitVec.toNat_append, ← Nat.shiftLeft_add_eq_or_of_lt (BitVec.isLt _), lower,
      Nat.shiftLeft_eq, BitVec.extractLsb'_toNat, BitVec.toNat_ofNat, Nat.shiftRight_eq_div_pow]
    congr 2
    simp only [ofLeBytes]
    omega
  have bounds := And.intro b₂.isLt b₃.isLt
  have bytes (value : ℕ) : leBytes 4 value = [BitVec.ofNat 8 value, BitVec.ofNat 8 (value / 256),
      BitVec.ofNat 8 (value / 256 / 256), BitVec.ofNat 8 (value / 256 / 256 / 256)] := rfl
  rw [value, bytes]
  have eq_of_mod {n : ℕ} {byte : Byte} (same : n % 256 = byte.toNat) : BitVec.ofNat 8 n = byte :=
    BitVec.eq_of_toNat_eq (by rw [BitVec.toNat_ofNat, ← same])
  congr 1
  · exact eq_of_mod (by rw [BitVec.toNat_ofNat]; omega)
  congr 1
  · exact eq_of_mod (by rw [BitVec.toNat_ofNat]; omega)
  congr 1
  · exact eq_of_mod (by omega)
  congr 1
  exact eq_of_mod (by omega)

/-! ### The loop -/

section Loop

variable {image current : Bytes} {immediate : Word} {seen : List ℕ} {position : ℕ}

theorem Patched.nil (image : Bytes) (immediate : Word) : Patched image immediate [] image :=
  ⟨rfl, nofun, nofun, fun _ _ => rfl⟩

theorem Patched.congr {words words' : List ℕ} (patched : Patched image immediate words current)
    (same : ∀ word, word ∈ words ↔ word ∈ words') : Patched image immediate words' current where
  length := patched.length
  low word member := patched.low word ((same word).mpr member)
  high word member := patched.high word ((same word).mpr member)
  rest offset outside := patched.rest offset fun word member => outside word ((same word).mp member)

theorem Patched.read_seen (patched : Patched image immediate seen current)
    (member : position ∈ seen) (fits : position + 4 ≤ image.length) :
    ∃ word, readU32 current position = some word ∧ chainStep word = chainStep immediate := by
  have length := patched.length
  refine ⟨_, readU32_eq_some.mpr ⟨_, _, _, _, patched.low position member,
    patched.high position member, List.getElem?_eq_getElem (by omega),
    List.getElem?_eq_getElem (by omega), rfl⟩, ?_⟩
  unfold chainStep
  congr 2
  apply BitVec.eq_of_toNat_eq
  rw [BitVec.toNat_setWidth, BitVec.toNat_setWidth, BitVec.toNat_ofNat]
  simp only [ofLeBytes, BitVec.toNat_ofNat]
  omega

theorem Patched.read_fresh (patched : Patched image immediate seen current)
    (aligned : ∀ word ∈ position :: seen, word % 4 = 0) (fresh : position ∉ seen) :
    readU32 current position = readU32 image position := by
  refine readU32_congr fun i i_lt => patched.rest _ fun word member => ?_
  have here := aligned position List.mem_cons_self
  have there := aligned word (List.mem_cons_of_mem _ member)
  have differs : word ≠ position := fun same => fresh (same ▸ member)
  omega

theorem Patched.write {word : Word} (patched : Patched image immediate seen current)
    (small : immediate.toNat < 65536) (aligned : ∀ word ∈ position :: seen, word % 4 = 0)
    (read : readU32 current position = some word) :
    Patched image immediate (position :: seen)
      (writeU32 current position (patchLow word immediate)) := by
  have fits := readU32_fits read
  obtain ⟨b₀, b₁, b₂, b₃, -, -, h₂, h₃, rfl⟩ := readU32_eq_some.mp read
  have byte := getElem?_writeU32 fits (patchLow (BitVec.ofNat 32 (ofLeBytes [b₀, b₁, b₂, b₃])) immediate)
  simp only [leBytes_patchLow small] at byte
  -- Another word lies outside the four bytes written.
  have apart {word : ℕ} (member : word ∈ position :: seen) (differs : word ≠ position) {i : ℕ}
      (i_lt : i < 4) : ¬ (position ≤ word + i ∧ word + i < position + 4) := by
    have here := aligned position List.mem_cons_self
    have there := aligned word member
    omega
  constructor
  · rw [length_writeU32 fits, patched.length]
  · intro word member
    by_cases same : word = position
    · subst same
      rw [byte, if_pos (by omega), Nat.sub_self]
      rfl
    · have kept := (byte word).trans (if_neg (apart member same (i := 0) (by omega)))
      rw [kept]
      exact patched.low word ((List.mem_cons.mp member).resolve_left same)
  · intro word member
    by_cases same : word = position
    · subst same
      rw [byte, if_pos (by omega), Nat.add_sub_cancel_left]
      rfl
    · rw [byte, if_neg (apart member same (by omega))]
      exact patched.high word ((List.mem_cons.mp member).resolve_left same)
  · intro offset outside
    have kept : current[offset]? = image[offset]? :=
      patched.rest offset fun word member => outside word (List.mem_cons_of_mem _ member)
    rw [← kept, byte]
    split
    next inside =>
      have upper := outside position List.mem_cons_self
      obtain rfl | rfl : offset = position + 2 ∨ offset = position + 3 := by omega
      · rw [Nat.add_sub_cancel_left, h₂]
        rfl
      · rw [Nat.add_sub_cancel_left, h₃]
        rfl
    next => rfl

/-- The link the loop follows is that of the walk: the original one at a word it comes to first, and
the immediate's at one it comes back to. -/
theorem read_relink (patched : Patched image immediate seen current)
    (aligned : ∀ word ∈ position :: seen, word % 4 = 0)
    (fits : ∀ word ∈ seen, word + 4 ≤ image.length) :
    relink (sonyLink image) (immediateLink image.length immediate) seen position =
      match readU32 current position with
      | none => .broken
      | some word => stepLink image.length position (chainStep word) := by
  unfold relink
  split
  next member =>
    obtain ⟨word, read, step⟩ := patched.read_seen member (fits position member)
    rw [read, immediateLink, ← step]
  next fresh =>
    rw [patched.read_fresh aligned fresh]
    rfl

theorem chainNext_eq_some {size next : ℕ} {step : ℤ} (h : chainNext size position step = some next) :
    next % 4 = 0 ∧ next + 4 ≤ size := by
  obtain ⟨-, checks⟩ := Option.filter_eq_some_iff.mp h
  simp only [Bool.and_eq_true, decide_eq_true_eq, Option.any_eq_true] at checks
  obtain ⟨aligned, stop, sum, inside⟩ := checks
  obtain ⟨-, rfl⟩ := checkedAdd_eq_some.mp sum
  exact ⟨aligned, by simpa using inside⟩

/-- The loop succeeds exactly where the walk stops before the counter runs out, and then it has patched
the words of the walk. -/
theorem followChain_eq_ok {malformed : IrxError} {remaining : ℕ} {patched : Bytes}
    (before : Patched image immediate seen current) (small : immediate.toNat < 65536)
    (aligned : ∀ word ∈ position :: seen, word % 4 = 0)
    (fits : ∀ word ∈ seen, word + 4 ≤ image.length)
    (followed : followChain malformed immediate remaining current position = .ok patched) :
    ∃ trail, Walk (sonyLink image) (immediateLink image.length immediate) seen position trail ∧
      trail.length ≤ remaining ∧ Patched image immediate (trail.reverse ++ seen) patched := by
  induction remaining generalizing current seen position with
  | zero => cases followed
  | succ remaining ih =>
    have link := read_relink before aligned fits
    unfold followChain at followed
    cases read : readU32 current position with
    | none => rw [read] at followed; cases followed
    | some word =>
      rw [read] at followed link
      dsimp only at followed link
      have after := before.write small aligned read
      unfold stepLink at link
      by_cases last : chainStep word = 0
      · rw [if_pos last] at followed link
        cases followed
        exact ⟨[position], .stop link, by rw [List.length_singleton]; omega, after⟩
      · rw [if_neg last, before.length] at followed
        rw [if_neg last] at link
        cases leads : chainNext image.length position (chainStep word) with
        | none => rw [leads] at followed; cases followed
        | some following =>
          rw [leads] at followed link
          have inside := chainNext_eq_some leads
          have here : position + 4 ≤ image.length := before.length ▸ readU32_fits read
          obtain ⟨trail, walk, short, result⟩ := ih after
            (List.forall_mem_cons.mpr ⟨inside.1, aligned⟩) (List.forall_mem_cons.mpr ⟨here, fits⟩)
            followed
          refine ⟨position :: trail, .next link walk, ?_, ?_⟩
          · rw [List.length_cons]
            omega
          · rw [List.reverse_cons, List.append_assoc]
            exact result

/-- Where the walk stops before the counter runs out, the loop succeeds. -/
theorem followChain_of_walk {malformed : IrxError} {remaining : ℕ} {trail : List ℕ}
    (before : Patched image immediate seen current) (small : immediate.toNat < 65536)
    (aligned : ∀ word ∈ position :: seen, word % 4 = 0)
    (fits : ∀ word ∈ seen, word + 4 ≤ image.length)
    (walk : Walk (sonyLink image) (immediateLink image.length immediate) seen position trail)
    (short : trail.length ≤ remaining) :
    ∃ patched, followChain malformed immediate remaining current position = .ok patched := by
  induction walk generalizing current remaining with
  | @stop seen position last =>
    obtain ⟨remaining, rfl⟩ : ∃ n, remaining = n + 1 := Nat.exists_eq_succ_of_ne_zero (by
      rw [List.length_singleton] at short
      omega)
    rw [read_relink before aligned fits] at last
    unfold followChain
    cases read : readU32 current position with
    | none => rw [read] at last; cases last
    | some word =>
      rw [read] at last
      dsimp only [stepLink] at last ⊢
      split at last
      next stops => exact ⟨_, if_pos stops⟩
      next => split at last <;> cases last
  | @next seen position following items leads rest ih =>
    rw [List.length_cons] at short
    obtain ⟨remaining, rfl⟩ : ∃ n, remaining = n + 1 := Nat.exists_eq_succ_of_ne_zero (by omega)
    rw [read_relink before aligned fits] at leads
    unfold followChain
    cases read : readU32 current position with
    | none => rw [read] at leads; cases leads
    | some word =>
      rw [read] at leads
      dsimp only [stepLink] at leads ⊢
      split at leads
      next => cases leads
      next moves =>
        rw [if_neg moves, before.length]
        split at leads
        next => cases leads
        next found =>
          cases leads
          have inside := chainNext_eq_some found
          have here : position + 4 ≤ image.length := before.length ▸ readU32_fits read
          exact ih (before.write small aligned read) (List.forall_mem_cons.mpr ⟨inside.1, aligned⟩)
            (List.forall_mem_cons.mpr ⟨here, fits⟩) (by omega)

theorem followChain_eq_error {malformed e : IrxError} {remaining : ℕ}
    (followed : followChain malformed immediate remaining current position = .error e) :
    e = malformed := by
  induction remaining generalizing current position with
  | zero => cases followed; rfl
  | succ remaining ih =>
    unfold followChain at followed
    split at followed
    next => cases followed; rfl
    next word _ =>
      dsimp only at followed
      split at followed
      next => cases followed
      next =>
        split at followed
        next => cases followed; rfl
        next => exact ih followed

end Loop

/-! ### The relocation -/

theorem upperHalf_small (delta addend : Word) : (upperHalf delta addend).toNat < 65536 := by
  unfold upperHalf
  rw [BitVec.toNat_ushiftRight, Nat.shiftRight_eq_div_pow]
  have := (delta + addend + 0x8000).isLt
  omega

variable {delta addend : Word} {image : Bytes} {start sourceOffset : ℕ}

theorem applySonyHigh_of_fits {origin : String}
    (fits : delta.toNat + addend.toNat < 2 ^ 32) :
    applySonyHigh origin image start delta addend sourceOffset =
      followChain ⟨origin, sourceOffset, .malformedRelocationChain⟩ (upperHalf delta addend)
        (image.length / 4 + 1) image start := by
  unfold applySonyHigh upperHalf
  have value : BitVec.ofNat 32 (delta.toNat + addend.toNat) = delta + addend := by
    rw [BitVec.ofNat_add, BitVec.ofNat_toNat, BitVec.ofNat_toNat, BitVec.setWidth_eq,
      BitVec.setWidth_eq]
  rw [checkedAdd_eq_some.mpr ⟨fits, rfl⟩]
  dsimp only
  rw [value]

theorem applySonyHigh_of_overflow {origin : String}
    (overflow : ¬ delta.toNat + addend.toNat < 2 ^ 32) :
    applySonyHigh origin image start delta addend sourceOffset =
      .error ⟨origin, sourceOffset, .relocationOverflow⟩ := by
  unfold applySonyHigh
  rw [checkedAdd_eq_none.mpr (Nat.not_lt.mp overflow)]

theorem stepLink_eq_next {size position following : ℕ} {step : ℤ}
    (leads : stepLink size position step = .next following) : following % 4 = 0 ∧ following + 4 ≤ size := by
  unfold stepLink at leads
  split at leads
  next => cases leads
  next =>
    split at leads
    next => cases leads
    next found =>
      cases leads
      exact chainNext_eq_some found

theorem sonyLink_eq_next {position following : ℕ}
    (leads : sonyLink image position = .next following) :
    following % 4 = 0 ∧ following + 4 ≤ image.length := by
  unfold sonyLink at leads
  split at leads
  next => cases leads
  next => exact stepLink_eq_next leads

theorem chain_cases (image : Bytes) (start : ℕ) :
    (∃ words, Chain (sonyLink image) start words) ∨ Cyclic (sonyLink image) start ∨
      Broken (sonyLink image) start := by
  have inside (i j : ℕ) (leads : sonyLink image i = .next j) :
      j ∈ insert start (Finset.range image.length) := by
    have fits := (sonyLink_eq_next leads).2
    exact Finset.mem_insert_of_mem (Finset.mem_range.mpr (by omega))
  exact chain_or_malformed inside (Finset.mem_insert_self _ _)

theorem applySonyHigh_of_chain {origin : String}
    {words : List ℕ} {patched : Bytes} (aligned : start % 4 = 0)
    (chain : Chain (sonyLink image) start words)
    (applied : applySonyHigh origin image start delta addend sourceOffset = .ok patched) :
    Patched image (upperHalf delta addend) words patched := by
  by_cases fits : delta.toNat + addend.toNat < 2 ^ 32
  · rw [applySonyHigh_of_fits fits] at applied
    obtain ⟨trail, walk, -, result⟩ := followChain_eq_ok (.nil image _) (upperHalf_small _ _)
      (List.forall_mem_singleton.mpr aligned) nofun applied
    obtain rfl := walk.unique (chain.walk fun _ _ => List.not_mem_nil)
    exact result.congr fun word => by simp
  · rw [applySonyHigh_of_overflow fits] at applied
    cases applied

/-- The property of a Sony HI16 relocation, exactly where the code has it: the original chain stops, or
the address fits and the walk that takes the immediate's step at a word it comes back to does not stop
before the visit counter runs out. -/
theorem sonyHigh_follows_original_iff (origin : String) (image : Bytes) (index sourceOffset : ℕ)
    (base addend : Word) :
    ((∀ patched, applySonyHigh origin image (4 * index) base addend sourceOffset = .ok patched →
        ∃ words, Chain (sonyLink image) (4 * index) words ∧ words.Nodup ∧
          Patched image (upperHalf base addend) words patched) ∧
      (Cyclic (sonyLink image) (4 * index) ∨ Broken (sonyLink image) (4 * index) →
        applySonyHigh origin image (4 * index) base addend sourceOffset =
          .error ⟨origin, sourceOffset, .malformedRelocationChain⟩)) ↔
      (∃ words, Chain (sonyLink image) (4 * index) words) ∨
        base.toNat + addend.toNat < 2 ^ 32 ∧
          ¬ ∃ trail, Walk (sonyLink image) (immediateLink image.length (upperHalf base addend)) []
            (4 * index) trail ∧ trail.length ≤ image.length / 4 + 1 := by
  have aligned : 4 * index % 4 = 0 := Nat.mul_mod_right 4 index
  have first : ∀ word ∈ [4 * index], word % 4 = 0 := List.forall_mem_singleton.mpr aligned
  have small := upperHalf_small base addend
  constructor
  · rintro ⟨patches, rejects⟩
    rcases chain_cases image (4 * index) with chain | malformed
    · exact .inl chain
    · have rejected := rejects malformed
      by_cases fits : base.toNat + addend.toNat < 2 ^ 32
      · refine .inr ⟨fits, fun ⟨trail, walk, short⟩ => ?_⟩
        rw [applySonyHigh_of_fits fits] at rejected
        obtain ⟨patched, followed⟩ := followChain_of_walk (.nil image _) small first nofun walk short
        rw [followed] at rejected
        cases rejected
      · rw [applySonyHigh_of_overflow fits] at rejected
        cases rejected
  · rintro (⟨words, chain⟩ | ⟨fits, endless⟩)
    · refine ⟨fun patched applied => ⟨words, chain, chain.nodup,
        applySonyHigh_of_chain aligned chain applied⟩, ?_⟩
      rintro (cyclic | broken)
      · exact absurd cyclic chain.not_cyclic
      · exact absurd broken chain.not_broken
    · rw [applySonyHigh_of_fits fits]
      cases followed : followChain ⟨origin, sourceOffset, .malformedRelocationChain⟩
          (upperHalf base addend) (image.length / 4 + 1) image (4 * index) with
      | ok patched =>
        obtain ⟨trail, walk, short, -⟩ := followChain_eq_ok (.nil image _) small first nofun followed
        exact absurd ⟨trail, walk, short⟩ endless
      | error e =>
        rw [followChain_eq_error followed]
        exact ⟨nofun, fun _ => rfl⟩

/-- The first two of five words lead to each other.  At the base `0x10000` the immediate is 1, and the
loop that comes back to the first word goes on through it to the third, which is in no chain, patches it
and returns. -/
theorem cyclic_chain_accepted :
    let image : Bytes := leBytes 4 1 ++ leBytes 4 0xffff ++ leBytes 12 0
    Cyclic (sonyLink image) 0 ∧
      applySonyHigh "module.irx" image 0 0x10000 0 0x200 =
        .ok (leBytes 4 1 ++ leBytes 4 1 ++ leBytes 4 1 ++ leBytes 8 0) := by
  intro image
  have onward : sonyLink image 0 = .next 4 := by decide +kernel
  have back : sonyLink image 4 = .next 0 := by decide +kernel
  exact ⟨⟨0, 4, .refl, onward, .single back⟩, by decide +kernel⟩

end Upse.Irx
