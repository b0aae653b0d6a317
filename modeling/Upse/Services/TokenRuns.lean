import Upse.Services.Tokens
import Mathlib.Logic.Function.Basic

/-!
# Interleaved tokenizers

One iteration of `strtok` and any number of iterations of `strtok_r`, over strings and save words that do
not overlap, may take their calls in any order.  Each of them goes through the tokens of its own string,
and writes to nothing but the byte after each token and its save word.
-/

namespace Upse.Services

open Psf

/-- Where an iteration keeps its position. -/
inductive Iterator where
  | strtok
  | strtokR (save : ℕ)
  deriving DecidableEq, Repr

/-- An iteration over a string. -/
structure Job where
  iterator : Iterator
  address : ℕ
  text : Bytes

/-- The bytes of the string of an iteration. -/
def Job.InString (job : Job) (x : ℕ) : Prop := job.address ≤ x ∧ x < job.address + (job.text.length + 1)

/-- The bytes of the save word of an iteration. -/
def Job.InSave (job : Job) (x : ℕ) : Prop :=
  match job.iterator with
  | .strtok => False
  | .strtokR save => save ≤ x ∧ x < save + 4

section Calls

variable {ι κ : Type}

/-- What the tokenizers work with: the memory, the position that the host keeps, and which iterations have
been given their strings. -/
structure Tokenizers (ι : Type) where
  guest : GuestMemory
  next : Option ℕ
  started : ι → Bool

variable [DecidableEq ι] (jobs : ι → Job) (sets : κ → ℕ × Bytes)

/-- A call of an iteration: the first one has the string, and the later ones have null. -/
def perform (s : Tokenizers ι) (i : ι) (k : κ) : Except ServiceError (ℕ × Tokenizers ι) :=
  let string := if s.started i then 0 else (jobs i).address
  match (jobs i).iterator with
  | .strtok => do
    let (result, next, guest) ← strtok s.guest string (sets k).1 s.next
    return (result, { guest, next, started := Function.update s.started i true })
  | .strtokR save => do
    let (result, guest) ← strtokR s.guest string (sets k).1 save
    return (result, { s with guest, started := Function.update s.started i true })

/-- The memory of a program that uses the tokenizers. -/
structure Layout (guest : GuestMemory) : Prop where
  takes : ∀ address size, guest.accepts address size = true
  strings : ∀ i, Held guest (some ((jobs i).address, (jobs i).text))
  saves : ∀ i save, (jobs i).iterator = .strtokR save → InRange guest save 4
  delimiters : ∀ k, CString guest (sets k).1 (sets k).2 ∧ (sets k).2.length < maxString ∧ Ascii (sets k).2
  single : ∀ i j, (jobs i).iterator = .strtok → (jobs j).iterator = .strtok → i = j
  save_apart : ∀ i x, (jobs i).InString x → ¬ (jobs i).InSave x
  apart : ∀ i j, i ≠ j → ∀ x, (jobs i).InString x ∨ (jobs i).InSave x → ¬ ((jobs j).InString x ∨ (jobs j).InSave x)
  sets_apart : ∀ k i x, (sets k).1 ≤ x → x < (sets k).1 + ((sets k).2.length + 1) →
    ¬ ((jobs i).InString x ∨ (jobs i).InSave x)

/-- What a call returns and writes: the token is a string in place, and only the byte after it and the
save word may have changed. -/
structure Answered (job : Job) (answer : Rest) (before after : GuestMemory) : Prop where
  token : ∀ address token, answer = some (address, token) → CString after address token
  only : ∀ x, (∀ address token, answer = some (address, token) → x ≠ address + token.length) →
    ¬ job.InSave x → after.byte x = before.byte x

/-- A run of calls, with the tokens that their pointers are at. -/
inductive Runs : Tokenizers ι → List (ι × κ) → List Rest → Tokenizers ι → Prop
  | done {s : Tokenizers ι} : Runs s [] [] s
  | next {s t u : Tokenizers ι} {i : ι} {k : κ} {calls : List (ι × κ)} {answer : Rest} {answers : List Rest} :
      perform jobs sets s i k = .ok (answer.pointer, t) → Answered (jobs i) answer s.guest t.guest →
      Runs t calls answers u → Runs s ((i, k) :: calls) (answer :: answers) u

/-- The answers to the calls of one iteration. -/
def answersOf (i : ι) (calls : List (ι × κ)) (answers : List Rest) : List Rest :=
  (calls.zip answers).filterMap fun (call, answer) => if call.1 = i then some answer else none

/-- The delimiters of the calls of one iteration. -/
def setsOf (i : ι) (calls : List (ι × κ)) : List Bytes :=
  calls.filterMap fun call => if call.1 = i then some (sets call.2).2 else none

/-! ### The position of an iteration -/

/-- What an iteration still has of its string, from its first call on. -/
abbrev Status (ι : Type) := ι → Option Rest

/-- What a call of an iteration starts from. -/
def Status.start (status : Status ι) (i : ι) : Rest := (status i).getD (some ((jobs i).address, (jobs i).text))

/-- A rest is the end of the string of an iteration. -/
def EndOf (job : Job) : Rest → Prop
  | none => True
  | some (address, text) => job.address ≤ address ∧ address + text.length = job.address + job.text.length

/-- The tokenizers are where the iterations are. -/
structure Tracks (status : Status ι) (s : Tokenizers ι) : Prop where
  layout : ∀ i, Held s.guest (status.start jobs i) ∧ EndOf (jobs i) (status.start jobs i)
  started : ∀ i, s.started i = (status i).isSome
  strtok : ∀ i rest, (jobs i).iterator = .strtok → status i = some rest → s.next = rest.map Prod.fst
  strtokR : ∀ i save rest, (jobs i).iterator = .strtokR save → status i = some rest →
    s.guest.word save = rest.pointer
  takes : ∀ address size, s.guest.accepts address size = true
  saves : ∀ i save, (jobs i).iterator = .strtokR save → InRange s.guest save 4
  delimiters : ∀ k, CString s.guest (sets k).1 (sets k).2 ∧ (sets k).2.length < maxString ∧ Ascii (sets k).2

end Calls

/-! ### What a token leaves -/

section Token

variable {guest : GuestMemory} {job : Job} {rest : Rest}

/-- Only bytes of the string of an iteration, and of its save word, may have changed. -/
structure Kept (job : Job) (before after : GuestMemory) : Prop where
  byte : ∀ x, ¬ (job.InString x ∨ job.InSave x) → after.byte x = before.byte x
  range : after.range = before.range
  accepts : after.accepts = before.accepts

theorem byte_store_of_ne {address x : ℕ} {byte : Byte} (apart : x ≠ address) :
    (guest.store address [byte]).byte x = guest.byte x :=
  have same : GuestMemory.SameAt guest (guest.store address [byte]) x 1 := guest.store_sameAt (by
    show x + 1 ≤ address ∨ address + 1 ≤ x
    omega)
  same x (Nat.le_refl x) (Nat.lt_succ_self x)

/-- An address is in front of what is left. -/
def Before (rest : Rest) (x : ℕ) : Prop := ∀ address text, rest = some (address, text) → x < address

/-- An iteration goes forward in its string: it leaves the bytes that it has passed. -/
structure Moves (job : Job) (before after : GuestMemory) (start answer rest : Rest) : Prop where
  kept : Kept job before after
  earlier : ∀ x, job.InString x → Before start x → after.byte x = before.byte x
  forward : ∀ x, Before start x → Before rest x
  token : ∀ address token, answer = some (address, token) → job.address ≤ address ∧
    address + token.length ≤ job.address + job.text.length ∧ Before rest (address + token.length)

/-- The memory with a token terminated. -/
structure Cut (job : Job) (before after : GuestMemory) (start answer rest : Rest) : Prop where
  held : Held after rest
  endOf : EndOf job rest
  token : ∀ address token, answer = some (address, token) → CString after address token
  only : ∀ x, (∀ address token, answer = some (address, token) → x ≠ address + token.length) →
    after.byte x = before.byte x
  moves : Moves job before after start answer rest

theorem cut_terminated (set : Bytes) (held : Held guest rest) (ends : EndOf job rest) :
    Cut job guest (terminated guest (nextToken set rest)) rest (nextToken set rest).1 (nextToken set rest).2 := by
  have same : Kept job guest guest := ⟨fun _ _ => rfl, rfl, rfl⟩
  cases rest with
  | none => exact ⟨trivial, trivial, nofun, fun _ _ => rfl, same, fun _ _ _ => rfl, fun _ _ => nofun, nofun⟩
  | some place =>
    obtain ⟨address, text⟩ := place
    obtain ⟨h, positive, short, ascii⟩ := held
    obtain ⟨low, high⟩ := ends
    obtain none | ⟨skipped, token, rfl, last⟩ | ⟨skipped, token, delimiter, after, rfl, more⟩ :=
      nextToken_cases set address text
    · rw [none]
      exact ⟨trivial, trivial, nofun, fun _ _ => rfl, same, fun _ _ _ => rfl, fun _ _ => nofun, nofun⟩
    · rw [last]
      rw [List.length_append] at high
      refine ⟨trivial, trivial, ?_, fun _ _ => rfl, same, fun _ _ _ => rfl, fun _ _ => nofun, ?_⟩
      · rintro _ _ ⟨⟩
        exact h.append_right
      · rintro _ _ ⟨⟩
        exact ⟨by omega, by omega, nofun⟩
    · rw [more]
      rw [List.length_append, List.length_append, List.length_cons] at high short
      obtain ⟨cut, left⟩ := h.append_right.cut
      refine ⟨⟨left, Nat.succ_pos _, by omega, fun byte member => ascii byte (by simp [member])⟩, ⟨by omega, by omega⟩,
        ?_, fun x apart => byte_store_of_ne (apart _ _ rfl), ⟨fun x outside => byte_store_of_ne ?_, rfl, rfl⟩,
        fun x _ passed => byte_store_of_ne ?_, ?_, ?_⟩
      · rintro _ _ ⟨⟩
        exact cut
      · rintro rfl
        exact outside (.inl ⟨by omega, by omega⟩)
      · have passed := passed _ _ rfl
        omega
      · rintro x passed _ _ ⟨⟩
        have passed := passed _ _ rfl
        omega
      · rintro _ _ ⟨⟩
        refine ⟨by omega, by omega, ?_⟩
        rintro _ _ ⟨⟩
        omega

end Token

/-! ### One call -/

section Step

variable {job other : Job} {before after : GuestMemory} {rest : Rest}

theorem Kept.held (kept : Kept job before after) (apart : ∀ x, other.InString x → ¬ (job.InString x ∨ job.InSave x))
    (held : Held before rest) (ends : EndOf other rest) : Held after rest := by
  cases rest with
  | none => trivial
  | some place =>
    obtain ⟨h, positive, short, ascii⟩ := held
    obtain ⟨low, high⟩ := ends
    refine ⟨h.of_sameAt (fun x low' high' => kept.byte x (apart x ⟨by omega, by omega⟩)) kept.range, positive, short, ascii⟩

theorem Kept.word (kept : Kept job before after) {save : ℕ}
    (apart : ∀ x, save ≤ x ∧ x < save + 4 → ¬ (job.InString x ∨ job.InSave x)) : after.word save = before.word save :=
  congrArg ofLeBytes (GuestMemory.bytes_eq_of_sameAt fun x low high => kept.byte x (apart x ⟨low, high⟩))

theorem getD_map_fst : (rest.map Prod.fst).getD 0 = rest.pointer := by
  cases rest <;> rfl

theorem Held.pointer_lt (held : Held before rest) : rest.pointer < 2 ^ 32 := by
  cases rest with
  | none => exact Nat.two_pow_pos 32
  | some place => exact Nat.lt_of_le_of_lt (Nat.le_add_right _ _) held.1.inRange.2.2

end Step

theorem strtokR_start {guest : GuestMemory} {string delimiters save next : ℕ}
    (start : (if string = 0 then readU32 guest save else pure string) = .ok next) :
    strtokR guest string delimiters save = do
      let (result, next, guest) ← tokenize guest next delimiters
      let guest ← writeU32 guest save (next.getD 0)
      return (result, guest) := by
  unfold strtokR
  split at start
  next null =>
    rw [if_pos null, start]
    rfl
  next nonnull =>
    cases start
    rw [if_neg nonnull]
    rfl

section Run

variable {ι κ : Type} [DecidableEq ι] {jobs : ι → Job} {sets : κ → ℕ × Bytes} {guest : GuestMemory}
  {status : Status ι} {s t : Tokenizers ι} {i : ι}

theorem Status.start_update (rest : Rest) (j : ι) :
    Status.start jobs (Function.update status i (some rest)) j = if j = i then rest else status.start jobs j := by
  unfold Status.start
  rw [Function.update_apply]
  split <;> rfl

/-- An iteration that moves on in its own bytes leaves the other iterations where they are. -/
theorem Tracks.advance (layout : Layout jobs sets guest) (tracks : Tracks jobs sets status s) {rest : Rest}
    (kept : Kept (jobs i) s.guest t.guest) (started : t.started = Function.update s.started i true)
    (held : Held t.guest rest) (ends : EndOf (jobs i) rest)
    (host : t.next = if (jobs i).iterator = .strtok then rest.map Prod.fst else s.next)
    (saved : ∀ save, (jobs i).iterator = .strtokR save → t.guest.word save = rest.pointer) :
    Tracks jobs sets (Function.update status i (some rest)) t where
  layout j := by
    rw [Status.start_update]
    by_cases same : j = i
    · rw [if_pos same]
      subst same
      exact ⟨held, ends⟩
    · rw [if_neg same]
      obtain ⟨heldJ, endsJ⟩ := tracks.layout j
      exact ⟨kept.held (fun x inside => layout.apart j i same x (.inl inside)) heldJ endsJ, endsJ⟩
  started j := by
    rw [started, Function.update_apply, Function.update_apply, tracks.started j]
    split <;> rfl
  strtok j left iterator here := by
    rw [host]
    rw [Function.update_apply] at here
    split at here
    next same =>
      subst same
      cases here
      rw [if_pos iterator]
    next other =>
      rw [if_neg fun strtok => other (layout.single j i iterator strtok)]
      exact tracks.strtok j left iterator here
  strtokR j save left iterator here := by
    rw [Function.update_apply] at here
    split at here
    next same =>
      subst same
      cases here
      exact saved save iterator
    next other =>
      have inSave (x : ℕ) (inside : save ≤ x ∧ x < save + 4) : (jobs j).InSave x := by
        unfold Job.InSave
        rw [iterator]
        exact inside
      rw [kept.word fun x inside => layout.apart j i other x (.inr (inSave x inside))]
      exact tracks.strtokR j save left iterator here
  takes address size := by rw [kept.accepts, tracks.takes]
  saves j save iterator := by
    have inside := tracks.saves j save iterator
    unfold InRange at inside ⊢
    rwa [kept.range]
  delimiters k := by
    obtain ⟨held, short, ascii⟩ := tracks.delimiters k
    exact ⟨held.of_sameAt (fun x low high => kept.byte x (layout.sets_apart k i x low high)) kept.range, short, ascii⟩

/-- A call is the next token of the string of its iteration, and leaves the other iterations alone. -/
theorem Tracks.call (layout : Layout jobs sets guest) (tracks : Tracks jobs sets status s) (i : ι) (k : κ) :
    ∃ t, perform jobs sets s i k = .ok ((nextToken (sets k).2 (status.start jobs i)).1.pointer, t) ∧
      Answered (jobs i) (nextToken (sets k).2 (status.start jobs i)).1 s.guest t.guest ∧
      Moves (jobs i) s.guest t.guest (status.start jobs i) (nextToken (sets k).2 (status.start jobs i)).1
        (nextToken (sets k).2 (status.start jobs i)).2 ∧
      Tracks jobs sets (Function.update status i (some (nextToken (sets k).2 (status.start jobs i)).2)) t := by
  obtain ⟨held, ends⟩ := tracks.layout i
  obtain ⟨set, shortD, asciiD⟩ := tracks.delimiters k
  have call := tokenize_eq tracks.takes set shortD asciiD held
  have cut := cut_terminated (sets k).2 held ends
  have positive : (jobs i).address ≠ 0 := (layout.strings i).2.1.ne'
  generalize nextToken (sets k).2 (status.start jobs i) = step at call cut ⊢
  cases iterator : (jobs i).iterator with
  | strtok =>
    have start : (if (if s.started i then 0 else (jobs i).address) = 0 then s.next.getD 0
        else if s.started i then 0 else (jobs i).address) = (status.start jobs i).pointer := by
      rw [tracks.started i, Status.start]
      cases here : status i with
      | none => exact if_neg positive
      | some rest =>
        rw [tracks.strtok i rest iterator here, getD_map_fst]
        rfl
    refine ⟨⟨terminated s.guest step, step.2.map Prod.fst, Function.update s.started i true⟩, ?_, ⟨?_, ?_⟩, ?_, ?_⟩
    · unfold perform
      dsimp only
      rw [iterator]
      dsimp only
      rw [Services.strtok, start, call]
      rfl
    · exact cut.token
    · exact fun x apart _ => cut.only x apart
    · exact cut.moves
    · refine tracks.advance layout cut.moves.kept rfl cut.held cut.endOf ?_ fun save other => ?_
      · rw [if_pos iterator]
      · rw [iterator] at other
        cases other
  | strtokR save =>
    have inSave (x : ℕ) : (jobs i).InSave x ↔ save ≤ x ∧ x < save + 4 := by
      unfold Job.InSave
      rw [iterator]
    have start : (if (if s.started i then 0 else (jobs i).address) = 0 then readU32 s.guest save
        else pure (if s.started i then 0 else (jobs i).address)) = .ok (status.start jobs i).pointer := by
      rw [tracks.started i, Status.start]
      cases here : status i with
      | none => exact if_neg positive
      | some rest =>
        have read : readU32 s.guest save = .ok (s.guest.word save) := by
          rw [readU32, readMemory, checkAccess_ok (tracks.saves i save iterator)]
          rfl
        show readU32 s.guest save = .ok rest.pointer
        rw [read, tracks.strtokR i save rest iterator here]
    -- the save word is written after the token has been terminated
    have saves : InRange (terminated s.guest step) save (leBytes 4 (step.2.pointer)).length := by
      have inside := tracks.saves i save iterator
      unfold InRange at inside ⊢
      rwa [cut.moves.kept.range, length_leBytes]
    have takes : (terminated s.guest step).accepts save (leBytes 4 (step.2.pointer)).length = true := by
      rw [cut.moves.kept.accepts]
      exact tracks.takes _ _
    have stored (x : ℕ) (outside : ¬ (jobs i).InSave x) :
        ((terminated s.guest step).store save (leBytes 4 step.2.pointer)).byte x = (terminated s.guest step).byte x := by
      have same : GuestMemory.SameAt (terminated s.guest step)
          ((terminated s.guest step).store save (leBytes 4 step.2.pointer)) x 1 := by
        apply GuestMemory.store_sameAt
        rw [length_leBytes]
        rw [inSave] at outside
        omega
      exact same x (Nat.le_refl x) (Nat.lt_succ_self x)
    have kept : Kept (jobs i) s.guest ((terminated s.guest step).store save (leBytes 4 step.2.pointer)) :=
      ⟨fun x outside => (stored x fun inside => outside (.inr inside)).trans (cut.moves.kept.byte x outside),
        cut.moves.kept.range, cut.moves.kept.accepts⟩
    have apart (address : ℕ) (text : Bytes) (low : (jobs i).address ≤ address)
        (high : address + text.length ≤ (jobs i).address + (jobs i).text.length)
        (held : CString (terminated s.guest step) address text) :
        CString ((terminated s.guest step).store save (leBytes 4 step.2.pointer)) address text :=
      held.of_sameAt (fun x low' high' => stored x (layout.save_apart i x ⟨by omega, by omega⟩)) rfl
    have remains (left : Rest) (held : Held (terminated s.guest step) left) (ends : EndOf (jobs i) left) :
        Held ((terminated s.guest step).store save (leBytes 4 step.2.pointer)) left := by
      cases left with
      | none => trivial
      | some place => exact ⟨apart _ _ ends.1 (Nat.le_of_eq ends.2) held.1, held.2⟩
    refine ⟨⟨(terminated s.guest step).store save (leBytes 4 step.2.pointer), s.next,
      Function.update s.started i true⟩, ?_, ⟨?_, ?_⟩, ?_, ?_⟩
    · unfold perform
      dsimp only
      rw [iterator]
      dsimp only
      rw [strtokR_start start]
      show (tokenize s.guest (status.start jobs i).pointer (sets k).1 >>= _) >>= _ = _
      rw [call]
      show (writeU32 (terminated s.guest step) save ((step.2.map Prod.fst).getD 0) >>= _) >>= _ = _
      rw [getD_map_fst, writeU32, writeMemory_eq_ok.mpr ⟨⟨saves, takes⟩, rfl⟩]
      rfl
    · intro address token here
      obtain ⟨low, high, -⟩ := cut.moves.token address token here
      exact apart address token low high (cut.token address token here)
    · exact fun x other outside => (stored x outside).trans (cut.only x other)
    · exact ⟨kept, fun x inside passed =>
        (stored x (layout.save_apart i x inside)).trans (cut.moves.earlier x inside passed),
        cut.moves.forward, cut.moves.token⟩
    · refine tracks.advance layout kept rfl ?_ cut.endOf ?_ fun save' same => ?_
      · exact remains step.2 cut.held cut.endOf
      · rw [if_neg (by rw [iterator]; nofun)]
      · rw [iterator] at same
        cases same
        rw [GuestMemory.word]
        have back := GuestMemory.bytes_store (terminated s.guest step) save (leBytes 4 step.2.pointer)
        rw [length_leBytes] at back
        rw [back, ofLeBytes_leBytes]
        exact Nat.mod_eq_of_lt cut.held.pointer_lt

theorem answersOf_cons {j : ι} {k : κ} {calls : List (ι × κ)} {answer : Rest} {answers : List Rest} :
    answersOf i ((j, k) :: calls) (answer :: answers) =
      if j = i then answer :: answersOf i calls answers else answersOf i calls answers := by
  split
  next mine => simp [answersOf, mine]
  next other => simp [answersOf, other]

theorem setsOf_cons {j : ι} {k : κ} {calls : List (ι × κ)} :
    setsOf sets i ((j, k) :: calls) = if j = i then (sets k).2 :: setsOf sets i calls else setsOf sets i calls := by
  split
  next mine => simp [setsOf, mine]
  next other => simp [setsOf, other]

omit [DecidableEq ι] in
theorem tracks_start (layout : Layout jobs sets guest) (next : Option ℕ) :
    Tracks jobs sets (fun _ => none) ⟨guest, next, fun _ => false⟩ where
  layout i := ⟨layout.strings i, Nat.le_refl _, rfl⟩
  started _ := rfl
  strtok := nofun
  strtokR := nofun
  takes := layout.takes
  saves := layout.saves
  delimiters := layout.delimiters

/-- A string that an iteration has passed. -/
def Past (jobs : ι → Job) (status : Status ι) (j : ι) (address : ℕ) (text : Bytes) : Prop :=
  (jobs j).address ≤ address ∧ address + text.length ≤ (jobs j).address + (jobs j).text.length ∧
    Before (status.start jobs j) (address + text.length)

theorem Moves.past (layout : Layout jobs sets guest) {answer rest : Rest}
    (moves : Moves (jobs i) s.guest t.guest (status.start jobs i) answer rest) {j : ι} {address : ℕ} {text : Bytes}
    (past : Past jobs status j address text) (held : CString s.guest address text) :
    CString t.guest address text ∧ Past jobs (Function.update status i (some rest)) j address text := by
  obtain ⟨low, high, passed⟩ := past
  unfold Past
  rw [Status.start_update]
  by_cases mine : j = i
  · subst mine
    rw [if_pos rfl]
    refine ⟨held.of_sameAt (fun x low' high' => moves.earlier x ⟨by omega, by omega⟩ fun start left here => ?_)
      moves.kept.range, low, high, moves.forward _ passed⟩
    have passed := passed start left here
    omega
  · rw [if_neg mine]
    exact ⟨held.of_sameAt (fun x low' high' => moves.kept.byte x (layout.apart j i mine x (.inl ⟨by omega, by omega⟩)))
      moves.kept.range, low, high, passed⟩

/-- Calls in any order answer each iteration with the tokens of what its string still has, and leave the
strings that were passed and the tokens where they are. -/
theorem Tracks.run (layout : Layout jobs sets guest) (tracks : Tracks jobs sets status s) (calls : List (ι × κ)) :
    ∃ answers final, Runs jobs sets s calls answers final ∧
      (∀ i, answersOf i calls answers = tokens (status.start jobs i) (setsOf sets i calls)) ∧
      (∀ j address text, Past jobs status j address text → CString s.guest address text →
        CString final.guest address text) ∧
      ∀ address token, some (address, token) ∈ answers → CString final.guest address token := by
  induction calls generalizing status s with
  | nil => exact ⟨[], s, .done, fun _ => rfl, fun _ _ _ _ held => held, nofun⟩
  | cons call calls ih =>
    obtain ⟨i, k⟩ := call
    obtain ⟨t, performs, answered, moves, tracks⟩ := tracks.call layout i k
    obtain ⟨answers, final, runs, enumerates, stays, inPlace⟩ := ih tracks
    refine ⟨_ :: answers, final, .next performs answered runs, fun j => ?_, fun j address text past held => ?_,
      fun address token member => ?_⟩
    · have later := enumerates j
      rw [Status.start_update] at later
      rw [answersOf_cons, setsOf_cons]
      by_cases mine : i = j
      · subst mine
        rw [if_pos rfl] at later
        rw [if_pos rfl, if_pos rfl, later]
        rfl
      · rw [if_neg (Ne.symm mine)] at later
        rw [if_neg mine, if_neg mine, later]
    · obtain ⟨held, past⟩ := moves.past layout past held
      exact stays j address text past held
    · obtain here | later := List.mem_cons.mp member
      · obtain ⟨low, high, passed⟩ := moves.token address token here.symm
        refine stays i address token ⟨low, high, ?_⟩ (answered.token address token here.symm)
        rw [Status.start_update, if_pos rfl]
        exact passed
      · exact inPlace address token later

/-- Calls of `strtok` and `strtok_r` in any order, the first one of each iteration with its string and the
later ones with null, answer each iteration with pointers to the tokens of its own string; every token is
terminated in place and remains so. -/
theorem tokens_enumerated (layout : Layout jobs sets guest) (next : Option ℕ) (calls : List (ι × κ)) :
    ∃ answers final, Runs jobs sets ⟨guest, next, fun _ => false⟩ calls answers final ∧
      (∀ i, answersOf i calls answers =
        tokens (some ((jobs i).address, (jobs i).text)) (setsOf sets i calls)) ∧
      ∀ address token, some (address, token) ∈ answers → CString final.guest address token := by
  obtain ⟨answers, final, runs, enumerates, -, inPlace⟩ := (tracks_start layout next).run layout calls
  exact ⟨answers, final, runs, enumerates, inPlace⟩

end Run

/-- The IOP RAM with `a,b` at 256, `c;d` at 288, `,` at 320 and `;` at 336. -/
def listsMemory : GuestMemory where
  range := ⟨0, 0x200000⟩
  accepts _ _ := true
  byte address :=
    if 256 ≤ address ∧ address < 259 then [0x61, 0x2c, 0x62].getD (address - 256) 0
    else if 288 ≤ address ∧ address < 291 then [0x63, 0x3b, 0x64].getD (address - 288) 0
    else if address = 320 then 0x2c
    else if address = 336 then 0x3b
    else 0

/-- The first list for `strtok`, and the second one for `strtok_r` with its save word at 512. -/
def listJobs : Bool → Job
  | false => ⟨.strtok, 256, [0x61, 0x2c, 0x62]⟩
  | true => ⟨.strtokR 512, 288, [0x63, 0x3b, 0x64]⟩

def listSets : Bool → ℕ × Bytes
  | false => (320, [0x2c])
  | true => (336, [0x3b])

/-- Two lists in turn. -/
theorem tokens_enumerated_lists : ∃ answers final,
    Runs listJobs listSets ⟨listsMemory, none, fun _ => false⟩
      [(false, false), (true, true), (false, true), (true, false), (false, false)] answers final ∧
    (∀ i, answersOf i [(false, false), (true, true), (false, true), (true, false), (false, false)] answers =
      tokens (some ((listJobs i).address, (listJobs i).text))
        (setsOf listSets i [(false, false), (true, true), (false, true), (true, false), (false, false)])) ∧
    ∀ address token, some (address, token) ∈ answers → CString final.guest address token := by
  refine tokens_enumerated ⟨fun _ _ => rfl, ?_, ?_, ?_, ?_, ?_, ?_, ?_⟩ none _
  · rintro (_ | _)
    · exact ⟨⟨by decide, by decide, by decide, by decide, by decide⟩, by decide, by decide, by decide⟩
    · exact ⟨⟨by decide, by decide, by decide, by decide, by decide⟩, by decide, by decide, by decide⟩
  · rintro (_ | _) save ⟨⟩
    exact ⟨by decide, by decide, by decide⟩
  · rintro (_ | _)
    · exact ⟨⟨by decide, by decide, by decide, by decide, by decide⟩, by decide, by decide⟩
    · exact ⟨⟨by decide, by decide, by decide, by decide, by decide⟩, by decide, by decide⟩
  · rintro (_ | _) (_ | _) <;> simp [listJobs]
  · rintro (_ | _) x ⟨low, high⟩
    · exact not_false
    · simp only [listJobs, List.length_cons, List.length_nil] at low high
      simp only [Job.InSave, listJobs]
      omega
  · rintro (_ | _) (_ | _) other x
    · exact absurd rfl other
    · simp only [Job.InString, Job.InSave, listJobs, List.length_cons, List.length_nil, or_false]
      omega
    · simp only [Job.InString, Job.InSave, listJobs, List.length_cons, List.length_nil, or_false]
      omega
    · exact absurd rfl other
  · rintro (_ | _) (_ | _) x low high <;>
      simp only [Job.InString, Job.InSave, listJobs, listSets, List.length_cons, List.length_nil, or_false] at low high ⊢ <;>
      omega

end Upse.Services
