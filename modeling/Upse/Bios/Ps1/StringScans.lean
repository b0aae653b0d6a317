import Mathlib.Data.List.Infix
import Upse.Bios.Ps1.Strings

/-!
# Copies and scans of the PS1 firmware against their C reference

Over readable and writable memory `memmove` moves the bytes it finds at its source, whatever the
overlap, and every scan returns what the C function returns on the lists of bytes of its strings.
-/

namespace Upse.Ps1.Strings

open ErrorState

/-- Addresses in front of the last one that are readable and writable and distinct bytes of the memory;
`byte` is what they hold. -/
structure RamOn {M : Type} (ram : GuestBytes M) (byte : M → ℕ → BitVec 8) (region : ℕ → Prop) :
    Prop where
  small : ∀ address, region address → address + 1 < 2 ^ 32
  reads : ∀ m address, region address → (ram.readU8 address).run m = .ok (byte m address) m
  writes : ∀ m address value, region address →
    ∃ m', (ram.writeU8 address value).run m = .ok () m' ∧ byte m' address = value ∧
      ∀ other, region other → other ≠ address → byte m' other = byte m other

/-- A NUL-terminated string of the memory. -/
structure CString {M : Type} (byte : M → ℕ → BitVec 8) (region : ℕ → Prop) (m : M) (address : ℕ)
    (text : List (BitVec 8)) : Prop where
  nonzero : ∀ b ∈ text, b ≠ 0
  holds : ∀ i (h : i < text.length), byte m (address + i) = text[i]
  ends : byte m (address + text.length) = 0
  within : ∀ i ≤ text.length, region (address + i)

section Scans

variable {M : Type} {ram : GuestBytes M} {byte : M → ℕ → BitVec 8} {region : ℕ → Prop}
  (ramOn : RamOn ram byte region) {s : StringState M}

include ramOn

/-! ### Single bytes -/

theorem run_readByte {base offset : ℕ} (inside : region (base + offset)) :
    (readByte ram base offset).run s = .ok (byte s.memory (base + offset)) s := by
  unfold readByte
  rw [checkedAdd_eq_some.mpr ⟨Nat.lt_of_succ_lt (ramOn.small _ inside), rfl⟩]
  exact run_zoom_ok.mpr ⟨_, ramOn.reads s.memory _ inside, rfl⟩

theorem run_writeByte {base offset : ℕ} (value : BitVec 8) (inside : region (base + offset)) :
    ∃ memory, (writeByte ram base offset value).run s = .ok () { s with memory := memory } ∧
      byte memory (base + offset) = value ∧
      ∀ other, region other → other ≠ base + offset → byte memory other = byte s.memory other := by
  obtain ⟨memory, ran, here, others⟩ := ramOn.writes s.memory _ value inside
  refine ⟨memory, ?_, here, others⟩
  unfold writeByte
  rw [checkedAdd_eq_some.mpr ⟨Nat.lt_of_succ_lt (ramOn.small _ inside), rfl⟩]
  exact run_zoom_ok.mpr ⟨memory, ran, rfl⟩

theorem run_readStringByte {source offset : ℕ} (inside : region (source + offset))
    (allowed : offset < s.bios.limits.memoryOperationBytes) :
    (readStringByte ram source offset).run s = .ok (byte s.memory (source + offset)) s := by
  unfold readStringByte memoryLimit
  rw [bind_assoc, run_get_bind, pure_bind, run_throwIf_bind (by omega)]
  exact run_readByte ramOn inside

omit ramOn in
theorem run_increment {offset : ℕ} (fits : offset + 1 < 2 ^ 32) :
    (increment offset).run s = .ok (offset + 1) s := by
  unfold increment
  rw [checkedAdd_eq_some.mpr ⟨fits, rfl⟩]
  rfl

omit ramOn in
theorem run_scanRounds :
    (scanRounds).run s = .ok (s.bios.limits.memoryOperationBytes + 1) s := rfl

/-! ### Moves -/

/-- Round by round the bytes from one end are moved, and no other byte has changed. -/
structure Moved (byte : M → ℕ → BitVec 8) (region : ℕ → Prop) (before after : M)
    (source destination : ℕ) (moved : ℕ → Prop) : Prop where
  copied : ∀ i, moved i → byte after (destination + i) = byte before (source + i)
  kept : ∀ other, region other → (∀ i, moved i → other ≠ destination + i) →
    byte after other = byte before other

theorem run_copyByte {before : M} {source destination offset : ℕ} {moved : ℕ → Prop}
    (done : Moved byte region before s.memory source destination moved)
    (readable : region (source + offset)) (writable : region (destination + offset))
    (inside : ∀ i, moved i → region (destination + i))
    (intact : ∀ i, moved i → source + offset ≠ destination + i) (new : ¬ moved offset) :
    ∃ memory, (copyByte ram source destination offset).run s = .ok () { s with memory := memory } ∧
      Moved byte region before memory source destination fun i => moved i ∨ i = offset := by
  obtain ⟨memory, ran, here, others⟩ := run_writeByte ramOn (s := s)
    (byte s.memory (source + offset)) writable
  refine ⟨memory, ?_, ?_, ?_⟩
  · unfold copyByte
    rw [run_bind_of_ok (run_readByte ramOn readable), ran]
  · rintro i (old | rfl)
    · have other : i ≠ offset := fun same => new (same ▸ old)
      rw [others _ (inside i old) (by omega)]
      exact done.copied i old
    · rw [here]
      exact done.kept _ readable intact
  · intro other known apart
    rw [others other known (apart offset (.inr rfl))]
    exact done.kept other known fun i old => apart i (.inl old)

/-- A copy in either direction moves the bytes it finds at its source, as long as it reads each one
before it overwrites it. -/
theorem run_copyLoop {source destination size : ℕ} (backwards : Bool)
    (readable : ∀ i < size, region (source + i)) (writable : ∀ i < size, region (destination + i))
    (safe : if backwards then source < destination
      else destination ≤ source ∨ source + size ≤ destination) :
    ∃ memory, (forRange (fun i => copyByte ram source destination
        (if backwards then size - 1 - i else i)) 0 size).run s = .ok () { s with memory := memory } ∧
      Moved byte region s.memory memory source destination (· < size) := by
  -- Which bytes are moved after some rounds.
  let moved (j i : ℕ) : Prop := if backwards then size - j ≤ i ∧ i < size else i < j
  obtain ⟨t, ran, memory, rfl, done⟩ : ∃ t, (forRange (fun i => copyByte ram source destination
      (if backwards then size - 1 - i else i)) 0 size).run s = .ok () t ∧
        ∃ memory, t = { s with memory := memory } ∧
          Moved byte region s.memory memory source destination (moved (0 + size)) := by
    refine forRange_ok (fun j t => ∃ memory, t = { s with memory := memory } ∧
      Moved byte region s.memory memory source destination (moved j)) ⟨s.memory, rfl, ?_, ?_⟩ ?_
    · intro i old
      exfalso
      cases backwards <;> simp [moved] at old
      omega
    · exact fun _ _ _ => rfl
    · rintro j t - bound ⟨memory, rfl, done⟩
      rw [Nat.zero_add] at bound
      cases backwards with
      | false =>
        obtain ⟨memory', ran, next⟩ := run_copyByte ramOn (s := { s with memory := memory }) done
          (readable j bound) (writable j bound)
          (fun i old => writable i (Nat.lt_trans old bound))
          (fun i (old : i < j) => by
            simp only [Bool.false_eq_true, if_false] at safe
            omega)
          (fun old : j < j => Nat.lt_irrefl j old)
        refine ⟨_, ran, memory', rfl, ?_⟩
        have same : (fun i => moved j i ∨ i = j) = moved (j + 1) := by
          funext i
          simp only [moved, Bool.false_eq_true, if_false, eq_iff_iff]
          omega
        rwa [same] at next
      | true =>
        have last : size - 1 - j < size := by omega
        obtain ⟨memory', ran, next⟩ := run_copyByte ramOn (s := { s with memory := memory }) done
          (readable _ last) (writable _ last)
          (fun i (old : size - j ≤ i ∧ i < size) => writable i old.2)
          (fun i (old : size - j ≤ i ∧ i < size) => by
            simp only [if_true] at safe
            omega)
          (fun old : size - j ≤ size - 1 - j ∧ size - 1 - j < size => by omega)
        refine ⟨_, ran, memory', rfl, ?_⟩
        have same : (fun i => moved j i ∨ i = size - 1 - j) = moved (j + 1) := by
          funext i
          simp only [moved, if_true, eq_iff_iff]
          omega
        rwa [same] at next
  refine ⟨memory, ran, ?_⟩
  have all : moved (0 + size) = (· < size) := by
    funext i
    cases backwards <;> simp [moved]
  rwa [all] at done

/-- `memmove` leaves at the destination the bytes that were at the source, for every overlap, and
changes no other byte. -/
theorem memmove_exact {source destination size : ℕ} (first : s.context.argument 0 = destination)
    (second : s.context.argument 1 = source) (third : s.context.argument 2 = size)
    (allowed : size ≤ s.bios.limits.memoryOperationBytes)
    (readable : ∀ i < size, region (source + i)) (writable : ∀ i < size, region (destination + i)) :
    ∃ memory, (memoryCopy ram true).run s = .ok (memoryCycles size)
        { s with memory := memory, context := s.context.returnValue destination } ∧
      Moved byte region s.memory memory source destination (· < size) := by
  have direction : ∃ backwards, (runsBackwards true source destination size).run s =
      .ok backwards s ∧ (if backwards then source < destination
        else destination ≤ source ∨ source + size ≤ destination) := by
    unfold runsBackwards
    by_cases behind : source < destination
    · rw [if_pos ⟨rfl, behind⟩]
      have stop : source + size < 2 ^ 32 := by
        cases size with
        | zero =>
          rw [← second]
          exact BitVec.isLt ((s.context.register (a0 + 1)).getD 0)
        | succ size => exact ramOn.small (source + size) (readable size (Nat.lt_succ_self size))
      rw [checkedAdd_eq_some.mpr ⟨stop, rfl⟩]
      refine ⟨decide (destination < source + size), rfl, ?_⟩
      by_cases overlaps : destination < source + size
      · rw [decide_eq_true overlaps]
        exact behind
      · rw [decide_eq_false overlaps]
        exact .inr (by omega)
    · rw [if_neg fun h => behind h.2]
      exact ⟨false, rfl, .inl (by omega)⟩
  obtain ⟨backwards, chosen, safe⟩ := direction
  obtain ⟨memory, ran, moved⟩ := run_copyLoop ramOn (s := s) backwards readable writable safe
  refine ⟨memory, ?_, moved⟩
  have arguments (index : ℕ) : (argument index : StringM M ℕ).run s =
      .ok (s.context.argument index) s := rfl
  have checked : (checkMemorySize size).run s = .ok () s := by
    unfold checkMemorySize memoryLimit
    rw [bind_assoc, run_get_bind, pure_bind, run_throwIf, if_neg (by omega)]
  unfold memoryCopy
  rw [run_bind_of_ok (arguments 0), run_bind_of_ok (arguments 1), run_bind_of_ok (arguments 2),
    first, second, third, run_bind_of_ok checked, run_bind_of_ok chosen, run_bind_of_ok ran]
  rfl

/-! ### Scans -/

section Text

variable {address : ℕ} {text : List (BitVec 8)} (str : CString byte region s.memory address text)

include str

theorem run_readText {offset : ℕ} (h : offset < text.length)
    (allowed : text.length < s.bios.limits.memoryOperationBytes) :
    (readStringByte ram address offset).run s = .ok text[offset] s := by
  rw [run_readStringByte ramOn (str.within offset h.le) (h.trans allowed), str.holds offset h]

theorem run_readEnd (allowed : text.length < s.bios.limits.memoryOperationBytes) :
    (readStringByte ram address text.length).run s = .ok 0 s := by
  rw [run_readStringByte ramOn (str.within _ le_rfl) allowed, str.ends]

theorem run_nextOffset {offset : ℕ} (h : offset < text.length) :
    (increment offset).run s = .ok (offset + 1) s := by
  have small := ramOn.small _ (str.within _ le_rfl)
  exact run_increment (by omega)

omit ramOn in
theorem CString.getElem_ne_zero {offset : ℕ} (h : offset < text.length) : text[offset] ≠ 0 :=
  str.nonzero _ (List.getElem_mem h)

theorem run_stringContainsLoop (target : BitVec 8)
    (allowed : text.length < s.bios.limits.memoryOperationBytes) (rounds : ℕ) {offset : ℕ}
    (inside : offset ≤ text.length) (enough : text.length < offset + rounds) :
    (stringContainsLoop ram address target rounds offset).run s =
      .ok (decide (target ∈ text.drop offset)) s := by
  induction rounds generalizing offset with
  | zero => omega
  | succ rounds ih =>
    rw [stringContainsLoop]
    rcases Nat.lt_or_eq_of_le inside with more | rfl
    · rw [run_bind_of_ok (run_readText ramOn str more allowed),
        if_neg (str.getElem_ne_zero more), List.drop_eq_getElem_cons more]
      by_cases here : text[offset] = target
      · rw [if_pos here, decide_eq_true (here ▸ List.mem_cons_self)]
        rfl
      · rw [if_neg here, run_bind_of_ok (run_nextOffset ramOn str more), ih more (by omega)]
        have other : target ≠ text[offset] := fun same => here same.symm
        congr 1
        rw [decide_eq_decide, List.mem_cons]
        exact ⟨.inr, fun h => h.resolve_left other⟩
    · rw [run_bind_of_ok (run_readEnd ramOn str allowed), if_pos rfl, List.drop_length]
      simp

theorem run_stringContains (nonnull : address ≠ 0) (target : BitVec 8)
    (allowed : text.length < s.bios.limits.memoryOperationBytes) :
    (stringContains ram address target).run s = .ok (decide (target ∈ text)) s := by
  unfold stringContains
  rw [if_neg nonnull, run_bind_of_ok run_scanRounds,
    run_stringContainsLoop ramOn str target allowed _ (Nat.zero_le _) (by omega), List.drop_zero]

end Text

section Lists

variable {source list : ℕ} {text accepted : List (BitVec 8)}
  (str : CString byte region s.memory source text)
  (set : CString byte region s.memory list accepted) (nonnull : list ≠ 0)
  (allowed : text.length < s.bios.limits.memoryOperationBytes)
  (allowed' : accepted.length < s.bios.limits.memoryOperationBytes)

include str set nonnull allowed allowed'

theorem run_stringPbrkLoop (rounds : ℕ) {offset : ℕ} (inside : offset ≤ text.length)
    (enough : text.length < offset + rounds) :
    (stringPbrkLoop ram source list rounds offset).run s = .ok
      (match (text.drop offset).findIdx? (· ∈ accepted) with
        | some i => (offset + i, true)
        | none => (text.length, false)) s := by
  induction rounds generalizing offset with
  | zero => omega
  | succ rounds ih =>
    rw [stringPbrkLoop]
    rcases Nat.lt_or_eq_of_le inside with more | rfl
    · rw [run_bind_of_ok (run_readText ramOn str more allowed),
        if_neg (str.getElem_ne_zero more),
        run_bind_of_ok (run_stringContains ramOn set nonnull text[offset] allowed'),
        List.drop_eq_getElem_cons more, List.findIdx?_cons]
      by_cases here : text[offset] ∈ accepted
      · simp [here]
      · simp only [here, decide_false, Bool.false_eq_true, if_false]
        rw [run_bind_of_ok (run_nextOffset ramOn str more), ih more (by omega)]
        cases (text.drop (offset + 1)).findIdx? (· ∈ accepted) with
        | none => rfl
        | some i => simp [Nat.add_assoc, Nat.add_comm 1]
    · rw [run_bind_of_ok (run_readEnd ramOn str allowed), if_pos rfl, List.drop_length]
      rfl

theorem run_stringSpanLoop (accept : Bool) (rounds : ℕ) {offset : ℕ} (inside : offset ≤ text.length)
    (enough : text.length < offset + rounds) :
    (stringSpanLoop ram source list accept rounds offset).run s = .ok
      (offset + ((text.drop offset).takeWhile fun b => decide (b ∈ accepted) = accept).length) s := by
  induction rounds generalizing offset with
  | zero => omega
  | succ rounds ih =>
    rw [stringSpanLoop]
    rcases Nat.lt_or_eq_of_le inside with more | rfl
    · rw [run_bind_of_ok (run_readText ramOn str more allowed),
        if_neg (str.getElem_ne_zero more),
        run_bind_of_ok (run_stringContains ramOn set nonnull text[offset] allowed'),
        List.drop_eq_getElem_cons more]
      by_cases here : decide (text[offset] ∈ accepted) = accept
      · rw [if_neg (not_not.mpr here), run_bind_of_ok (run_nextOffset ramOn str more),
          ih more (by omega), List.takeWhile_cons_of_pos (by simpa using here), List.length_cons,
          Nat.succ_eq_add_one, Nat.add_assoc, Nat.add_comm 1]
      · rw [if_pos here, List.takeWhile_cons_of_neg (by simpa using here)]
        rfl
    · rw [run_bind_of_ok (run_readEnd ramOn str allowed), if_pos rfl, List.drop_length]
      rfl

end Lists

omit ramOn in
theorem run_argument (index : ℕ) :
    (argument index : StringM M ℕ).run s = .ok (s.context.argument index) s := rfl

/-- What a call returns and leaves: only the result register has changed. -/
def Answers (s : StringState M) (value : ℕ) (r : EStateM.Result BiosError (StringState M) ℕ) : Prop :=
  ∃ cycles, r = .ok cycles { s with context := s.context.returnValue value }

section Results

variable {source list : ℕ} {text other : List (BitVec 8)}
  (first : s.context.argument 0 = source) (second : s.context.argument 1 = list)
  (str : CString byte region s.memory source text)
  (set : CString byte region s.memory list other) (nonnull : source ≠ 0) (nonnull' : list ≠ 0)
  (allowed : text.length < s.bios.limits.memoryOperationBytes)
  (allowed' : other.length < s.bios.limits.memoryOperationBytes)

include first second str set nonnull nonnull' allowed allowed'

theorem strpbrk_exact : Answers s ((text.findIdx? (· ∈ other)).elim 0 (source + ·))
    ((stringPbrk ram).run s) := by
  have loop := run_stringPbrkLoop ramOn str set nonnull' allowed allowed'
    (s.bios.limits.memoryOperationBytes + 1) (Nat.zero_le _) (by omega)
  rw [List.drop_zero] at loop
  unfold stringPbrk Answers
  rw [run_bind_of_ok (run_argument 0), run_bind_of_ok (run_argument 1), first, second,
    if_neg (not_or.mpr ⟨nonnull, nonnull'⟩), run_bind_of_ok run_scanRounds, run_bind_of_ok loop]
  cases found : text.findIdx? (· ∈ other) with
  | none => exact ⟨_, rfl⟩
  | some i =>
    have inside : i < text.length := (List.findIdx?_eq_some_iff_getElem.mp found).1
    have small := ramOn.small _ (str.within i inside.le)
    simp only [Nat.zero_add, if_true, Option.elim_some]
    rw [checkedAdd_eq_some.mpr ⟨Nat.lt_of_succ_lt small, rfl⟩]
    exact ⟨_, rfl⟩

theorem string_span_exact (accept : Bool) :
    Answers s (text.takeWhile fun b => decide (b ∈ other) = accept).length
      ((stringSpan ram accept).run s) := by
  have loop := run_stringSpanLoop ramOn str set nonnull' allowed allowed' accept
    (s.bios.limits.memoryOperationBytes + 1) (Nat.zero_le _) (by omega)
  rw [List.drop_zero, Nat.zero_add] at loop
  unfold stringSpan Answers
  rw [run_bind_of_ok (run_argument 0), run_bind_of_ok (run_argument 1), first, second,
    if_neg nonnull, run_bind_of_ok run_scanRounds, run_bind_of_ok loop]
  exact ⟨_, rfl⟩

end Results

/-! ### Searches -/

section Searches

variable {source needleAddress : ℕ} {text needle : List (BitVec 8)}
  (str : CString byte region s.memory source text)
  (allowed : text.length < s.bios.limits.memoryOperationBytes)

theorem run_readTtyLoop (limit rounds : ℕ) {offset : ℕ}
    (str : CString byte region s.memory source text) (inside : offset ≤ text.length)
    (enough : text.length < offset + rounds) :
    (readTtyLoop ram source limit rounds offset).run s = .ok (text.drop offset) s := by
  induction rounds generalizing offset with
  | zero => omega
  | succ rounds ih =>
    rw [readTtyLoop]
    rcases Nat.lt_or_eq_of_le inside with more | rfl
    · rw [run_bind_of_ok (run_readByte ramOn (str.within offset more.le)), str.holds offset more,
        if_neg (str.getElem_ne_zero more), run_bind_of_ok (ih more (by omega)),
        List.drop_eq_getElem_cons more]
      rfl
    · rw [run_bind_of_ok (run_readByte ramOn (str.within _ le_rfl)), str.ends, if_pos rfl,
        List.drop_length]
      rfl

theorem run_readTtyString {limit : ℕ} (str : CString byte region s.memory source text)
    (short : text.length < limit) (allowed : text.length < s.bios.limits.memoryOperationBytes) :
    (readTtyString ram source limit).run s = .ok text s := by
  have loop := run_readTtyLoop ramOn (min limit s.bios.limits.memoryOperationBytes)
    (min limit s.bios.limits.memoryOperationBytes) str (Nat.zero_le _) (by omega)
  rw [List.drop_zero] at loop
  exact loop

include str allowed

theorem run_comparesAt (offset needleOffset : ℕ) (nonzero : ∀ b ∈ needle, b ≠ 0)
    (reach : offset + needleOffset ≤ text.length) :
    (comparesAt ram source offset needle needleOffset).run s =
      .ok (needle.isPrefixOf (text.drop (offset + needleOffset))) s := by
  induction needle generalizing needleOffset with
  | nil => rfl
  | cons expected needle ih =>
    have small := ramOn.small _ (str.within _ reach)
    rw [comparesAt, checkedAdd_eq_some.mpr ⟨by omega, rfl⟩]
    show ((readStringByte ram source (offset + needleOffset) >>= _ : StringM M Bool)).run s = _
    rcases Nat.lt_or_eq_of_le reach with more | same
    · rw [run_bind_of_ok (run_readText ramOn str more allowed), List.drop_eq_getElem_cons more]
      by_cases here : text[offset + needleOffset] = expected
      · rw [if_neg (not_not.mpr here),
          ih (needleOffset + 1) (fun b member => nonzero b (List.mem_cons_of_mem _ member))
            (by omega)]
        simp [List.isPrefixOf, here, Nat.add_assoc]
      · rw [if_pos here]
        have other : ¬ expected = text[offset + needleOffset] := fun same => here same.symm
        simp [List.isPrefixOf, other]
    · rw [same, run_bind_of_ok (run_readEnd ramOn str allowed),
        if_pos (nonzero expected List.mem_cons_self).symm, List.drop_length]
      rfl

theorem run_stringStringLoop (nonempty : needle ≠ []) (nonzero : ∀ b ∈ needle, b ≠ 0) (rounds : ℕ)
    {offset : ℕ} (inside : offset ≤ text.length) (enough : text.length < offset + rounds) :
    (stringStringLoop ram source needle rounds offset).run s = .ok
      (match (text.drop offset).tails.findIdx? needle.isPrefixOf with
        | some i => (offset + i, true)
        | none => (text.length, false)) s := by
  induction rounds generalizing offset with
  | zero => omega
  | succ rounds ih =>
    rw [stringStringLoop]
    rcases Nat.lt_or_eq_of_le inside with more | rfl
    · rw [run_bind_of_ok (run_readText ramOn str more allowed),
        if_neg (str.getElem_ne_zero more),
        run_bind_of_ok (run_comparesAt ramOn str allowed offset 0 nonzero inside), Nat.add_zero,
        List.drop_eq_getElem_cons more, List.tails_cons, List.findIdx?_cons]
      by_cases here : needle.isPrefixOf (text[offset] :: text.drop (offset + 1)) = true
      · rw [if_pos here, if_pos here]
        rfl
      · rw [if_neg here, if_neg here, run_bind_of_ok (run_nextOffset ramOn str more),
          ih more (by omega)]
        cases (text.drop (offset + 1)).tails.findIdx? needle.isPrefixOf with
        | none => rfl
        | some i => simp [Nat.add_assoc, Nat.add_comm 1]
    · rw [run_bind_of_ok (run_readEnd ramOn str allowed), if_pos rfl, List.drop_length]
      obtain ⟨expected, rest, rfl⟩ := List.exists_cons_of_ne_nil nonempty
      rfl

omit str allowed in
theorem strstr_exact (first : s.context.argument 0 = source)
    (second : s.context.argument 1 = needleAddress)
    (str : CString byte region s.memory source text)
    (set : CString byte region s.memory needleAddress needle) (nonnull : source ≠ 0)
    (nonnull' : needleAddress ≠ 0) (allowed : text.length < s.bios.limits.memoryOperationBytes)
    (allowed' : needle.length < s.bios.limits.memoryOperationBytes) :
    Answers s ((text.tails.findIdx? needle.isPrefixOf).elim 0 (source + ·))
      ((stringString ram).run s) := by
  have limit : (memoryLimit : StringM M ℕ).run s = .ok s.bios.limits.memoryOperationBytes s := rfl
  unfold stringString Answers
  rw [run_bind_of_ok (run_argument 0), run_bind_of_ok (run_argument 1), first, second,
    if_neg (not_or.mpr ⟨nonnull, nonnull'⟩), run_bind_of_ok limit,
    run_bind_of_ok (run_readTtyString ramOn set allowed' allowed')]
  by_cases empty : needle = []
  · subst empty
    rw [if_pos rfl]
    cases text <;> exact ⟨_, rfl⟩
  · have loop := run_stringStringLoop ramOn str allowed empty set.nonzero
      (s.bios.limits.memoryOperationBytes + 1) (Nat.zero_le _) (by omega)
    rw [List.drop_zero] at loop
    rw [if_neg empty, run_bind_of_ok run_scanRounds, run_bind_of_ok loop]
    cases found : text.tails.findIdx? needle.isPrefixOf with
    | none => exact ⟨_, rfl⟩
    | some i =>
      have inside : i < text.tails.length := (List.findIdx?_eq_some_iff_getElem.mp found).1
      rw [List.length_tails] at inside
      have small := ramOn.small _ (str.within i (by omega))
      simp only [Nat.zero_add, if_true, Option.elim_some]
      rw [checkedAdd_eq_some.mpr ⟨Nat.lt_of_succ_lt small, rfl⟩]
      exact ⟨_, rfl⟩

end Searches

end Scans

end Upse.Ps1.Strings
