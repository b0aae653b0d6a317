import Upse.Bios.Ps1.StringScans

/-!
# The tokenizer of the PS1 firmware against its C reference

The state between calls is the rest of the string: what the buffer holds from the cursor on.  Each
call takes the next token off it, whatever the delimiters of the call, and writes to the buffer only.
-/

namespace Upse.Ps1.Strings

open ErrorState

/-- The next token of a string, and the string after the delimiter that ends it: `strtok` of the C
library. -/
def strtokNext (delimiters : List (BitVec 8)) (rest : Option (List (BitVec 8))) :
    Option (List (BitVec 8)) × Option (List (BitVec 8)) :=
  match rest with
  | none => (none, none)
  | some text =>
    match text.dropWhile (· ∈ delimiters) with
    | [] => (none, none)
    | begun =>
      match begun.dropWhile (· ∉ delimiters) with
      | [] => (some (begun.takeWhile (· ∉ delimiters)), none)
      | _ :: after => (some (begun.takeWhile (· ∉ delimiters)), some after)

/-- The tokens a sequence of calls returns, each with its own delimiters. -/
def strtokReference : Option (List (BitVec 8)) → List (List (BitVec 8)) →
    List (Option (List (BitVec 8)))
  | _, [] => []
  | rest, delimiters :: calls =>
    (strtokNext delimiters rest).1 :: strtokReference (strtokNext delimiters rest).2 calls

/-- The addresses of the buffer. -/
def InBuffer (address : ℕ) : Prop :=
  strtokBufferAddress ≤ address ∧ address < strtokBufferAddress + strtokBufferSize

instance (address : ℕ) : Decidable (InBuffer address) := inferInstanceAs (Decidable (_ ∧ _))

section Tokens

variable {M : Type} {ram : GuestBytes M} {byte : M → ℕ → BitVec 8} {region : ℕ → Prop}

/-- A string that lies outside the buffer. -/
structure Outside (byte : M → ℕ → BitVec 8) (region : ℕ → Prop) (m : M) (address : ℕ)
    (text : List (BitVec 8)) : Prop extends CString byte region m address text where
  apart : ∀ i ≤ text.length, ¬ InBuffer (address + i)

/-- A string that lies in the buffer. -/
structure Inside (byte : M → ℕ → BitVec 8) (region : ℕ → Prop) (m : M) (address : ℕ)
    (text : List (BitVec 8)) : Prop extends CString byte region m address text where
  low : strtokBufferAddress ≤ address
  high : address + text.length < strtokBufferAddress + strtokBufferSize

/-- Only the buffer may have changed. -/
def OnlyBuffer (byte : M → ℕ → BitVec 8) (region : ℕ → Prop) (before after : M) : Prop :=
  ∀ address, region address → ¬ InBuffer address → byte after address = byte before address

theorem OnlyBuffer.trans {m m' m'' : M} (h : OnlyBuffer byte region m m')
    (h' : OnlyBuffer byte region m' m'') : OnlyBuffer byte region m m'' :=
  fun address inside apart => (h' address inside apart).trans (h address inside apart)

variable {text : List (BitVec 8)}
variable {address : ℕ}

theorem Outside.of_onlyBuffer {m m' : M}
    (str : Outside byte region m address text) (same : OnlyBuffer byte region m m') :
    Outside byte region m' address text where
  nonzero := str.nonzero
  holds i h := (same _ (str.within i h.le) (str.apart i h.le)).trans (str.holds i h)
  ends := (same _ (str.within _ le_rfl) (str.apart _ le_rfl)).trans str.ends
  within := str.within
  apart := str.apart

theorem CString.drop {m : M}
    (str : CString byte region m address text) {n : ℕ} (le : n ≤ text.length) :
    CString byte region m (address + n) (text.drop n) where
  nonzero b member := str.nonzero b (List.mem_of_mem_drop member)
  holds i h := by
    rw [List.length_drop] at h
    rw [Nat.add_assoc, str.holds (n + i) (by omega), List.getElem_drop]
  ends := by
    rw [List.length_drop, Nat.add_assoc, Nat.add_sub_cancel' le]
    exact str.ends
  within i h := by
    rw [List.length_drop] at h
    rw [Nat.add_assoc]
    exact str.within (n + i) (by omega)

theorem Inside.drop {m : M}
    (str : Inside byte region m address text) {n : ℕ} (le : n ≤ text.length) :
    Inside byte region m (address + n) (text.drop n) where
  toCString := str.toCString.drop le
  low := str.low.trans (Nat.le_add_right _ _)
  high := by
    have high := str.high
    rw [List.length_drop]
    omega

theorem Inside.tail {m : M} {b : BitVec 8}
    (str : Inside byte region m address (b :: text)) : Inside byte region m (address + 1) text :=
  str.drop (Nat.succ_le_succ (Nat.zero_le _))

variable (ramOn : RamOn ram byte region) {s : StringState M}

include ramOn

/-! ### One token -/

section Token

variable {delimiters : ℕ} {set : List (BitVec 8)} (nonnull : delimiters ≠ 0)
  (some_ : 0 < s.bios.limits.memoryOperationBytes)
  (allowed : set.length < s.bios.limits.memoryOperationBytes)

variable {rest : List (BitVec 8)}
variable {cursor : ℕ}

theorem run_firstByte {b : BitVec 8}
    (some_ : 0 < s.bios.limits.memoryOperationBytes)
    (str : CString byte region s.memory cursor (b :: rest)) :
    (readStringByte ram cursor 0).run s = .ok b s := by
  rw [run_readStringByte ramOn (str.within 0 (Nat.zero_le _)) some_,
    str.holds 0 (Nat.zero_lt_succ _)]
  rfl

theorem run_noByte (some_ : 0 < s.bios.limits.memoryOperationBytes)
    (str : CString byte region s.memory cursor []) :
    (readStringByte ram cursor 0).run s = .ok 0 s := by
  rw [run_readStringByte ramOn (str.within 0 (Nat.zero_le _)) some_]
  exact congrArg (fun b => EStateM.Result.ok b s) str.ends

include nonnull some_ allowed

theorem run_skipDelimiters (outside : CString byte region s.memory delimiters set)
    (rounds : ℕ) (scanned : ℕ)
    (str : Inside byte region s.memory cursor rest) (enough : rest.length < rounds)
    (few : scanned + rest.length < 256) :
    ∃ scanned', scanned' + (rest.dropWhile (· ∈ set)).length ≤ scanned + rest.length ∧
      (skipDelimiters ram delimiters rounds cursor scanned).run s =
        .ok (if rest.dropWhile (· ∈ set) = [] then none
          else some (cursor + (rest.takeWhile (· ∈ set)).length), scanned') s := by
  induction rounds generalizing rest cursor scanned with
  | zero => omega
  | succ rounds ih =>
    rw [skipDelimiters]
    cases rest with
    | nil =>
      rw [run_bind_of_ok (run_noByte ramOn some_ str.toCString), if_pos rfl]
      exact ⟨scanned, Nat.le_refl _, rfl⟩
    | cons b rest =>
      have high := str.high
      have next : Inside byte region s.memory (cursor + 1) rest := str.tail
      rw [List.length_cons] at enough few high
      unfold strtokBufferAddress strtokBufferSize at high
      rw [run_bind_of_ok (run_firstByte ramOn some_ str.toCString),
        if_neg (str.nonzero b List.mem_cons_self),
        run_bind_of_ok (run_stringContains ramOn outside nonnull b allowed)]
      by_cases delimiter : b ∈ set
      · rw [decide_eq_true delimiter, if_pos rfl, run_bind_of_ok (run_increment (by omega)),
          run_bind_of_ok (run_increment (by omega))]
        obtain ⟨scanned', le, ran⟩ := ih (scanned + 1) next (by omega) (by omega)
        refine ⟨scanned', ?_, ?_⟩
        · rw [List.dropWhile_cons_of_pos (by simpa using delimiter), List.length_cons]
          omega
        · rw [ran, List.dropWhile_cons_of_pos (by simpa using delimiter),
            List.takeWhile_cons_of_pos (by simpa using delimiter), List.length_cons,
            Nat.add_assoc, Nat.add_comm 1]
      · rw [decide_eq_false delimiter, if_neg Bool.false_ne_true]
        have left : (b :: rest).dropWhile (· ∈ set) = b :: rest :=
          List.dropWhile_cons_of_neg (by simpa using delimiter)
        refine ⟨scanned, by rw [left], ?_⟩
        rw [left, if_neg (List.cons_ne_nil _ _),
          List.takeWhile_cons_of_neg (by simpa using delimiter)]
        rfl

/-- What ending a token leaves: a NUL behind it and nothing else changed, and where the next token is
looked for. -/
structure Ended (byte : M → ℕ → BitVec 8) (region : ℕ → Prop) (set rest : List (BitVec 8))
    (before after : M) (cursor : ℕ) (next : Option ℕ) : Prop where
  nul : byte after (cursor + (rest.takeWhile (· ∉ set)).length) = 0
  kept : ∀ other, region other → other ≠ cursor + (rest.takeWhile (· ∉ set)).length →
    byte after other = byte before other
  next : next = if rest.dropWhile (· ∉ set) = [] then none
    else some (cursor + (rest.takeWhile (· ∉ set)).length + 1)

theorem run_endToken (outside : CString byte region s.memory delimiters set)
    (rounds : ℕ) (scanned : ℕ)
    (str : Inside byte region s.memory cursor rest) (enough : rest.length < rounds)
    (few : scanned + rest.length < 256)
    (counted : scanned + rest.length ≤ s.bios.limits.memoryOperationBytes) :
    ∃ next scanned' memory, (endToken ram delimiters rounds cursor scanned).run s =
        .ok (next, scanned') { s with memory := memory } ∧
      Ended byte region set rest s.memory memory cursor next := by
  induction rounds generalizing rest cursor scanned with
  | zero => omega
  | succ rounds ih =>
    rw [endToken]
    cases rest with
    | nil =>
      rw [run_bind_of_ok (run_noByte ramOn some_ str.toCString), if_pos rfl]
      exact ⟨none, scanned, s.memory, rfl, str.ends, fun _ _ _ => rfl, rfl⟩
    | cons b rest =>
      have high := str.high
      rw [List.length_cons] at enough few high counted
      unfold strtokBufferAddress strtokBufferSize at high
      rw [run_bind_of_ok (run_firstByte ramOn some_ str.toCString),
        if_neg (str.nonzero b List.mem_cons_self),
        run_bind_of_ok (run_stringContains ramOn outside nonnull b allowed)]
      by_cases delimiter : b ∈ set
      · rw [decide_eq_true delimiter, if_pos rfl]
        obtain ⟨memory, ran, here, others⟩ := run_writeByte ramOn (s := s) 0
          (str.within 0 (Nat.zero_le _))
        rw [run_bind_of_ok ran, run_bind_of_ok (run_increment (by omega))]
        have taken : (b :: rest).takeWhile (· ∉ set) = [] :=
          List.takeWhile_cons_of_neg (by simpa using delimiter)
        have left : (b :: rest).dropWhile (· ∉ set) = b :: rest :=
          List.dropWhile_cons_of_neg (by simpa using delimiter)
        refine ⟨some (cursor + 1), scanned, memory, rfl, ?_, ?_, ?_⟩
        · rw [taken]
          exact here
        · rw [taken]
          exact others
        · rw [taken, left, if_neg (List.cons_ne_nil _ _)]
          rfl
      · have checked : (checkMemorySize (scanned + 1)).run s = .ok () s := by
          unfold checkMemorySize memoryLimit
          rw [bind_assoc, run_get_bind, pure_bind, run_throwIf, if_neg (by omega)]
        rw [decide_eq_false delimiter, if_neg Bool.false_ne_true,
          run_bind_of_ok (run_increment (by omega)), run_bind_of_ok (run_increment (by omega)),
          run_bind_of_ok checked]
        obtain ⟨next, scanned', memory, ran, ended⟩ :=
          ih (scanned + 1) str.tail (by omega) (by omega) (by omega)
        have taken : (b :: rest).takeWhile (· ∉ set) = b :: rest.takeWhile (· ∉ set) :=
          List.takeWhile_cons_of_pos (by simpa using delimiter)
        have left : (b :: rest).dropWhile (· ∉ set) = rest.dropWhile (· ∉ set) :=
          List.dropWhile_cons_of_pos (by simpa using delimiter)
        have place : cursor + (b :: rest.takeWhile (· ∉ set)).length =
            cursor + 1 + (rest.takeWhile (· ∉ set)).length := by
          rw [List.length_cons]
          omega
        refine ⟨next, scanned', memory, ran, ?_, ?_, ?_⟩
        · rw [taken, place]
          exact ended.nul
        · rw [taken, place]
          exact ended.kept
        · rw [taken, left, place]
          exact ended.next

end Token

/-! ### One call -/

/-- What the tokenizer keeps between calls: the rest of the string in the buffer. -/
def Saved (byte : M → ℕ → BitVec 8) (region : ℕ → Prop) (s : StringState M) :
    Option (List (BitVec 8)) → Prop
  | none => s.bios.strtokNext = none
  | some text => ∃ cursor, s.bios.strtokNext = some cursor ∧
      Inside byte region s.memory cursor text ∧
      text.length < s.bios.limits.memoryOperationBytes

/-- The result register is null, or the address of a copy of the token in the buffer. -/
def Denotes (byte : M → ℕ → BitVec 8) (region : ℕ → Prop) (s : StringState M) :
    Option (List (BitVec 8)) → Prop
  | none => s.context.register v0 = some 0
  | some token => ∃ address, address ≠ 0 ∧ s.context.register v0 = some (BitVec.ofNat 32 address) ∧
      Inside byte region s.memory address token

/-- The call returned, denotes the token, has saved the rest and changed the buffer only. -/
structure Tokenized (byte : M → ℕ → BitVec 8) (region : ℕ → Prop) (s t : StringState M)
    (result : Option (List (BitVec 8)) × Option (List (BitVec 8))) : Prop where
  token : Denotes byte region t result.1
  rest : Saved byte region t result.2
  memory : OnlyBuffer byte region s.memory t.memory
  limits : t.bios.limits = s.bios.limits

omit ramOn

theorem register_returnValue (context : CpuContext) (value : ℕ) :
    (context.returnValue value).register v0 = some (BitVec.ofNat 32 value) := by
  unfold CpuContext.returnValue CpuContext.setRegister CpuContext.register
  rw [if_neg (by decide)]
  simp [v0]

theorem Inside.of_kept {m m' : M} {address changed : ℕ} {text : List (BitVec 8)}
    (str : Inside byte region m address text) (before : changed < address)
    (kept : ∀ other, region other → other ≠ changed → byte m' other = byte m other) :
    Inside byte region m' address text where
  nonzero := str.nonzero
  holds i h := (kept _ (str.within i h.le) (by omega)).trans (str.holds i h)
  ends := (kept _ (str.within _ le_rfl) (by omega)).trans str.ends
  within := str.within
  low := str.low
  high := str.high

theorem dropWhile_eq_drop (p : BitVec 8 → Bool) (text : List (BitVec 8)) :
    text.dropWhile p = text.drop (text.takeWhile p).length := by
  induction text with
  | nil => rfl
  | cons b text ih => by_cases h : p b = true <;> simp [h, ih]

theorem Ended.token {set rest : List (BitVec 8)} {before after : M} {cursor : ℕ} {next : Option ℕ}
    (ended : Ended byte region set rest before after cursor next)
    (str : Inside byte region before cursor rest) :
    Inside byte region after cursor (rest.takeWhile (· ∉ set)) := by
  have le : (rest.takeWhile (· ∉ set)).length ≤ rest.length :=
    (List.takeWhile_prefix _).length_le
  refine ⟨⟨fun b member => str.nonzero b ((List.takeWhile_prefix _).subset member), fun i h => ?_,
    ended.nul, fun i h => str.within i (h.trans le)⟩, str.low, ?_⟩
  · rw [ended.kept _ (str.within i (by omega)) (by omega), str.holds i (by omega)]
    exact ((List.takeWhile_prefix _).getElem h).symm
  · have high := str.high
    omega

include ramOn

theorem nextToken_exact {delimiters cursor : ℕ} {set text : List (BitVec 8)}
    (nonnull : delimiters ≠ 0) (outside : CString byte region s.memory delimiters set)
    (allowed : set.length < s.bios.limits.memoryOperationBytes)
    (str : Inside byte region s.memory cursor text)
    (allowed' : text.length < s.bios.limits.memoryOperationBytes) :
    ∃ cycles t, (nextToken ram delimiters cursor).run s = .ok cycles t ∧
      Tokenized byte region s t (strtokNext set (some text)) := by
  have high := str.high
  have low := str.low
  unfold strtokBufferAddress strtokBufferSize at high
  unfold strtokBufferAddress at low
  have positive : 0 < s.bios.limits.memoryOperationBytes := by omega
  obtain ⟨scanned, few, skipped⟩ := run_skipDelimiters ramOn nonnull positive allowed outside
    tokenRounds 0 str (by unfold tokenRounds; omega) (by omega)
  unfold nextToken
  rw [run_bind_of_ok skipped]
  cases begins : text.dropWhile (· ∈ set) with
  | nil =>
    rw [if_pos rfl]
    have result : strtokNext set (some text) = (none, none) := by
      simp only [strtokNext, begins]
    rw [result]
    exact ⟨_, _, rfl, ⟨register_returnValue _ 0, rfl, fun _ _ _ => rfl, rfl⟩⟩
  | cons b begun =>
    have start : Inside byte region s.memory (cursor + (text.takeWhile (· ∈ set)).length)
        (b :: begun) := by
      rw [← begins, dropWhile_eq_drop]
      exact str.drop (List.takeWhile_prefix _).length_le
    have shorter : (b :: begun).length ≤ text.length := by
      rw [← begins, dropWhile_eq_drop, List.length_drop]
      exact Nat.sub_le _ _
    obtain ⟨few', counted⟩ : scanned + (b :: begun).length < 256 ∧
        scanned + (b :: begun).length ≤ s.bios.limits.memoryOperationBytes := by
      rw [begins, Nat.zero_add] at few
      omega
    rw [if_neg (List.cons_ne_nil _ _)]
    obtain ⟨next, scanned', memory, ran, ended⟩ := run_endToken ramOn nonnull positive allowed
      outside tokenRounds scanned start (by unfold tokenRounds; omega) few' counted
    have token := ended.token start
    refine ⟨memoryCycles (min u32Max (scanned' + 1)),
      { memory := memory
        bios := { s.bios with strtokNext := next }
        context := s.context.returnValue (cursor + (text.takeWhile (· ∈ set)).length) }, ?_, ?_⟩
    · show (endToken ram delimiters tokenRounds _ scanned >>= _).run s = _
      rw [run_bind_of_ok ran]
      rfl
    have nonzero : cursor + (text.takeWhile (· ∈ set)).length ≠ 0 := by omega
    have denoted : ∀ rest, Denotes byte region
        { s with
          memory := memory
          bios := { s.bios with strtokNext := rest }
          context := s.context.returnValue (cursor + (text.takeWhile (· ∈ set)).length) }
        (some ((b :: begun).takeWhile (· ∉ set))) :=
      fun _ => ⟨_, nonzero, register_returnValue _ _, token⟩
    have onlyBuffer : OnlyBuffer byte region s.memory memory := by
      intro address known apart
      refine ended.kept address known fun same => apart ?_
      rw [same]
      exact ⟨Nat.le_add_right_of_le token.low, token.high⟩
    have result : strtokNext set (some text) =
        match (b :: begun).dropWhile (· ∉ set) with
        | [] => (some ((b :: begun).takeWhile (· ∉ set)), none)
        | _ :: after => (some ((b :: begun).takeWhile (· ∉ set)), some after) := by
      simp only [strtokNext, begins]
    rw [result]
    have looked := ended.next
    cases ends : (b :: begun).dropWhile (· ∉ set) with
    | nil =>
      rw [ends, if_pos rfl] at looked
      exact ⟨denoted next, looked, onlyBuffer, rfl⟩
    | cons delimiter after =>
      rw [ends, if_neg (List.cons_ne_nil _ _)] at looked
      have rest : Inside byte region s.memory (cursor + (text.takeWhile (· ∈ set)).length +
          ((b :: begun).takeWhile (· ∉ set)).length) (delimiter :: after) := by
        rw [← ends, dropWhile_eq_drop]
        exact start.drop (List.takeWhile_prefix _).length_le
      have length : after.length + 1 ≤ (b :: begun).length := by
        rw [← List.length_cons (a := delimiter), ← ends, dropWhile_eq_drop, List.length_drop]
        exact Nat.sub_le _ _
      refine ⟨denoted next, ⟨_, looked, ?_, ?_⟩, onlyBuffer, rfl⟩
      · exact rest.tail.of_kept (Nat.lt_succ_self _) ended.kept
      · show after.length < s.bios.limits.memoryOperationBytes
        omega

end Tokens

end Upse.Ps1.Strings
