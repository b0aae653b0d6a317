import Upse.Bios.Ps1.HeapRuns
import Upse.Bios.Ps1.Tokens

/-!
# The memory and string services of the PS1 firmware against the C library

A tokenizing session is a call with a string and further calls with null.  Between two calls the
guest does as it pleases, except with the buffer of the firmware.
-/

namespace Upse.Ps1.Strings

open ErrorState

section Sessions

variable {M : Type} {ram : GuestBytes M} {byte : M → ℕ → BitVec 8} {region : ℕ → Prop}

/-- What the guest may do before a call: anything but to write the buffer. -/
structure Between (byte : M → ℕ → BitVec 8) (s t : StringState M) : Prop where
  bios : t.bios = s.bios
  buffer : ∀ address, InBuffer address → byte t.memory address = byte s.memory address

/-- The registers hold a source and a set of delimiters outside the buffer. -/
structure Asks (byte : M → ℕ → BitVec 8) (region : ℕ → Prop) (s : StringState M) (source : ℕ)
    (set : List (BitVec 8)) : Prop where
  first : s.context.argument 0 = source
  second : s.context.argument 1 ≠ 0
  delimiters : Outside byte region s.memory (s.context.argument 1) set
  allowed : set.length < s.bios.limits.memoryOperationBytes

/-- Every call with null returns the token of its place, whatever the guest does in between. -/
def Continues (ram : GuestBytes M) (byte : M → ℕ → BitVec 8) (region : ℕ → Prop) :
    StringState M → List (List (BitVec 8)) → List (Option (List (BitVec 8))) → Prop
  | _, [], [] => True
  | s, set :: calls, token :: tokens =>
    ∀ before, Between byte s before → Asks byte region before 0 set →
      ∃ cycles after, (stringToken ram).run before = .ok cycles after ∧
        Denotes byte region after token ∧ OnlyBuffer byte region before.memory after.memory ∧
        Continues ram byte region after calls tokens
  | _, _, _ => False

/-- A session returns the tokens in order, and no call changes memory outside the buffer. -/
def Session (ram : GuestBytes M) (byte : M → ℕ → BitVec 8) (region : ℕ → Prop) (s : StringState M) :
    List (Option (List (BitVec 8))) → List (List (BitVec 8)) → Prop
  | [], _ => False
  | token :: tokens, calls =>
    ∃ cycles after, (stringToken ram).run s = .ok cycles after ∧
      Denotes byte region after token ∧ OnlyBuffer byte region s.memory after.memory ∧
      Continues ram byte region after calls tokens

variable {rest : Option (List (BitVec 8))} {s : StringState M}

theorem Saved.between {s t : StringState M}
    (saved : Saved byte region s rest) (between : Between byte s t) : Saved byte region t rest := by
  cases rest with
  | none => exact (congrArg StringHle.strtokNext between.bios).trans saved
  | some text =>
    obtain ⟨cursor, next, str, allowed⟩ := saved
    have high := str.high
    have low := str.low
    have same : ∀ i ≤ text.length, byte t.memory (cursor + i) = byte s.memory (cursor + i) :=
      fun i h => between.buffer _ ⟨Nat.le_add_right_of_le low, by omega⟩
    refine ⟨cursor, by rw [between.bios, next], ?_, by rwa [between.bios]⟩
    exact
      { nonzero := str.nonzero
        holds := fun i h => (same i h.le).trans (str.holds i h)
        ends := (same _ le_rfl).trans str.ends
        within := str.within
        low := low
        high := high }

variable (ramOn : RamOn ram byte region)

include ramOn

/-! ### The copy -/

theorem run_writeBytes {base : ℕ} (values : List (BitVec 8)) (offset : ℕ)
    (inside : ∀ i < values.length, region (base + (offset + i))) :
    ∃ memory, (writeBytes ram base values offset).run s = .ok () { s with memory := memory } ∧
      (∀ i (h : i < values.length), byte memory (base + (offset + i)) = values[i]) ∧
      ∀ other, region other → (∀ i < values.length, other ≠ base + (offset + i)) →
        byte memory other = byte s.memory other := by
  induction values generalizing s offset with
  | nil => exact ⟨s.memory, rfl, fun i h => absurd h (Nat.not_lt_zero i), fun _ _ _ => rfl⟩
  | cons value rest ih =>
    obtain ⟨memory, ran, here, others⟩ := run_writeByte ramOn (s := s) value
      (inside 0 (Nat.zero_lt_succ _))
    have shift (i : ℕ) : offset + 1 + i = offset + (i + 1) := by omega
    obtain ⟨memory', ran', stand, kept⟩ := ih (s := { s with memory := memory }) (offset + 1)
      fun i h => shift i ▸ inside (i + 1) (Nat.succ_lt_succ h)
    refine ⟨memory', ?_, ?_, ?_⟩
    · have ran : (writeByte ram base offset value).run s = .ok () { s with memory := memory } := ran
      rw [writeBytes, run_bind_of_ok ran, ran']
    · rintro (_ | i) h
      · exact (kept _ (inside 0 h) fun i _ => by omega).trans here
      · rw [← shift, stand i (Nat.lt_of_succ_lt_succ h)]
        rfl
    · intro other known apart
      rw [kept other known fun i h => shift i ▸ apart (i + 1) (Nat.succ_lt_succ h)]
      exact others other known (apart 0 (Nat.zero_lt_succ _))

theorem loadTokens_exact (buffer : ∀ address, InBuffer address → region address)
    {source : ℕ} {text : List (BitVec 8)} (nonnull : source ≠ 0)
    (str : Outside byte region s.memory source text) (short : text.length < strtokBufferSize)
    (allowed : text.length < s.bios.limits.memoryOperationBytes) :
    ∃ t, (loadTokens ram source).run s = .ok () t ∧ Saved byte region t (some text) ∧
      OnlyBuffer byte region s.memory t.memory ∧ t.bios.limits = s.bios.limits ∧
      t.context = s.context := by
  have length : (text ++ [0]).length = text.length + 1 := by simp
  have place (i : ℕ) (h : i ≤ text.length) : InBuffer (strtokBufferAddress + (0 + i)) := by
    unfold InBuffer
    omega
  obtain ⟨memory, ran, stand, kept⟩ := run_writeBytes ramOn (text ++ [0]) (s := s) 0
    fun i h => buffer _ (place i (by omega))
  simp only [Nat.zero_add] at stand
  refine ⟨{ s with memory := memory, bios := { s.bios with strtokNext := some strtokBufferAddress } },
    ?_, ⟨strtokBufferAddress, rfl, ?_, allowed⟩, ?_, rfl, rfl⟩
  · unfold loadTokens
    rw [if_neg nonnull, run_bind_of_ok (run_readTtyString ramOn str.toCString short allowed),
      run_bind_of_ok ran]
    rfl
  · refine ⟨⟨str.nonzero, fun i h => ?_, ?_, fun i h => ?_⟩, le_rfl, Nat.add_lt_add_left short _⟩
    · exact (stand i (by omega)).trans (List.getElem_append_left h)
    · exact (stand text.length (by omega)).trans (by simp)
    · exact Nat.zero_add i ▸ buffer _ (place i h)
  · intro address known apart
    refine kept address known fun i h same => apart ?_
    rw [same]
    exact place i (by omega)

/-! ### Calls -/

theorem stringToken_continued {set : List (BitVec 8)}
    (asks : Asks byte region s 0 set)
    (saved : Saved byte region s rest) :
    ∃ cycles t, (stringToken ram).run s = .ok cycles t ∧
      Tokenized byte region s t (strtokNext set rest) := by
  have loaded : (loadTokens ram 0).run s = .ok () s := rfl
  unfold stringToken
  rw [run_bind_of_ok (run_argument 0), run_bind_of_ok (run_argument 1), if_neg asks.second,
    asks.first, run_bind_of_ok loaded, run_get_bind]
  cases rest with
  | none =>
    have none' : s.bios.strtokNext = none := saved
    refine ⟨6, { s with context := s.context.returnValue 0 }, ?_,
      ⟨register_returnValue _ 0, saved, fun _ _ _ => rfl, rfl⟩⟩
    rw [none']
    rfl
  | some text =>
    obtain ⟨cursor, next, str, allowed⟩ := saved
    rw [next]
    exact nextToken_exact ramOn asks.second asks.delimiters.toCString asks.allowed str allowed

theorem tokens_continue (calls : List (List (BitVec 8)))
    (saved : Saved byte region s rest) :
    Continues ram byte region s calls (strtokReference rest calls) := by
  induction calls generalizing s rest with
  | nil => exact trivial
  | cons set calls ih =>
    intro before between asks
    obtain ⟨cycles, after, ran, done⟩ := stringToken_continued ramOn asks (saved.between between)
    exact ⟨cycles, after, ran, done.token, done.memory, ih done.rest⟩

theorem stringToken_started (buffer : ∀ address, InBuffer address → region address)
    {source : ℕ} {text set : List (BitVec 8)} (nonnull : source ≠ 0)
    (asks : Asks byte region s source set) (str : Outside byte region s.memory source text)
    (short : text.length < strtokBufferSize)
    (allowed : text.length < s.bios.limits.memoryOperationBytes) :
    ∃ cycles t, (stringToken ram).run s = .ok cycles t ∧
      Tokenized byte region s t (strtokNext set (some text)) := by
  obtain ⟨t, loaded, ⟨cursor, next, copy, counted⟩, changed, limits, context⟩ :=
    loadTokens_exact ramOn buffer nonnull str short allowed
  obtain ⟨cycles, t', ran, done⟩ := nextToken_exact ramOn asks.second
    (asks.delimiters.of_onlyBuffer changed).toCString (by rw [limits]; exact asks.allowed) copy counted
  refine ⟨cycles, t', ?_, done.token, done.rest, changed.trans done.memory,
    done.limits.trans limits⟩
  unfold stringToken
  rw [run_bind_of_ok (run_argument 0), run_bind_of_ok (run_argument 1), if_neg asks.second,
    asks.first, run_bind_of_ok loaded]
  rw [run_get_bind, next]
  exact ran

end Sessions

/-! ### All services -/

/-- An argument is the address of a string within the bound. -/
structure Points {M : Type} (byte : M → ℕ → BitVec 8) (region : ℕ → Prop) (s : StringState M)
    (index : ℕ) (text : List (BitVec 8)) : Prop where
  nonnull : s.context.argument index ≠ 0
  string : CString byte region s.memory (s.context.argument index) text
  allowed : text.length < s.bios.limits.memoryOperationBytes

/-- From this state the services do what the C library does on the bytes of the memory. -/
structure MatchesLibrary {M : Type} (ram : GuestBytes M) (byte : M → ℕ → BitVec 8)
    (region : ℕ → Prop) (s : StringState M) : Prop where
  memmove : ∀ destination source size, s.context.argument 0 = destination →
    s.context.argument 1 = source → s.context.argument 2 = size →
    size ≤ s.bios.limits.memoryOperationBytes →
    (∀ i < size, region (source + i)) → (∀ i < size, region (destination + i)) →
    ∃ memory, (memoryCopy ram true).run s = .ok (memoryCycles size)
        { s with memory := memory, context := s.context.returnValue destination } ∧
      Moved byte region s.memory memory source destination (· < size)
  strpbrk : ∀ text set, Points byte region s 0 text → Points byte region s 1 set →
    Answers s ((text.findIdx? (· ∈ set)).elim 0 (s.context.argument 0 + ·)) ((stringPbrk ram).run s)
  strspn : ∀ text set, Points byte region s 0 text → Points byte region s 1 set →
    Answers s (text.takeWhile (· ∈ set)).length ((stringSpan ram true).run s)
  strcspn : ∀ text set, Points byte region s 0 text → Points byte region s 1 set →
    Answers s (text.takeWhile (· ∉ set)).length ((stringSpan ram false).run s)
  strstr : ∀ text needle, Points byte region s 0 text → Points byte region s 1 needle →
    Answers s ((text.tails.findIdx? needle.isPrefixOf).elim 0 (s.context.argument 0 + ·))
      ((stringString ram).run s)
  strtok : ∀ text set calls, Points byte region s 0 text →
    Outside byte region s.memory (s.context.argument 0) text → text.length < strtokBufferSize →
    Asks byte region s (s.context.argument 0) set →
    Session ram byte region s (strtokReference (some text) (set :: calls)) calls

theorem string_services_match {M : Type} {ram : GuestBytes M} {byte : M → ℕ → BitVec 8}
    {region : ℕ → Prop} (ramOn : RamOn ram byte region)
    (buffer : ∀ address, InBuffer address → region address) (s : StringState M) :
    MatchesLibrary ram byte region s where
  memmove _ _ _ first second third allowed readable writable :=
    memmove_exact ramOn first second third allowed readable writable
  strpbrk _ _ text set := strpbrk_exact ramOn rfl rfl text.string set.string text.nonnull set.nonnull
    text.allowed set.allowed
  strspn _ _ text set := by
    have exact := string_span_exact ramOn rfl rfl text.string set.string text.nonnull set.nonnull
      text.allowed set.allowed true
    simpa only [decide_eq_true_eq] using exact
  strcspn _ _ text set := by
    have exact := string_span_exact ramOn rfl rfl text.string set.string text.nonnull set.nonnull
      text.allowed set.allowed false
    simpa only [decide_eq_false_iff_not] using exact
  strstr _ _ text needle := strstr_exact ramOn rfl rfl text.string needle.string text.nonnull
    needle.nonnull text.allowed needle.allowed
  strtok text set calls points str short asks := by
    obtain ⟨cycles, t, ran, done⟩ :=
      stringToken_started ramOn buffer points.nonnull asks str short points.allowed
    exact ⟨cycles, t, ran, done.token, done.memory, tokens_continue ramOn calls done.rest⟩

/-! ### A session -/

/-- `a,b` at 0x1000 and its delimiter at 0x2000. -/
def commaMemory : ℕ → BitVec 8
  | 0x1000 => 0x61
  | 0x1001 => 0x2c
  | 0x1002 => 0x62
  | 0x2000 => 0x2c
  | _ => 0

/-- A call with two strings. -/
def commaState : StringState (ℕ → BitVec 8) :=
  ⟨⟨.default, none⟩, twoArguments 0x1000 0x2000, commaMemory⟩

theorem flatRam_ramOn : RamOn flatRam (fun m address => m address) (· + 1 < 2 ^ 32) where
  small _ h := h
  reads _ _ _ := rfl
  writes m address value _ :=
    ⟨fun other => if other = address then value else m other, rfl, if_pos rfl,
      fun _ _ apart => if_neg apart⟩

theorem string_services_match_comma :
    Session flatRam (fun m address => m address) (· + 1 < 2 ^ 32) commaState
      [some [0x61], some [0x62], none] [[0x2c], [0x2c]] := by
  have first : commaState.context.argument 0 = 0x1000 := by decide +kernel
  have second : commaState.context.argument 1 = 0x2000 := by decide +kernel
  have text : Outside (fun m address => m address) (· + 1 < 2 ^ 32) commaState.memory 0x1000
      [0x61, 0x2c, 0x62] := ⟨⟨by decide, by decide, by decide, by decide⟩, by decide⟩
  have comma : Outside (fun m address => m address) (· + 1 < 2 ^ 32) commaState.memory 0x2000
      [0x2c] := ⟨⟨by decide, by decide, by decide, by decide⟩, by decide⟩
  have buffer : ∀ address, InBuffer address → address + 1 < 2 ^ 32 := by
    rintro address ⟨-, high⟩
    unfold strtokBufferAddress strtokBufferSize at high
    omega
  rw [← first] at text
  rw [← second] at comma
  exact (string_services_match flatRam_ramOn buffer commaState).strtok _ _ [[0x2c], [0x2c]]
    ⟨by rw [first]; decide, text.toCString, by decide⟩ text (by decide)
    ⟨rfl, by rw [second]; decide, comma, by decide⟩

end Upse.Ps1.Strings
