import Upse.Bios.Ps1.LibcSorting
import Upse.Bios.Ps1.StringServices
import Mathlib.Data.Nat.Log

/-!
# Searching with a comparator of the guest

A comparator that compares the content of a key with those of the elements makes `lsearch` return the
first match and `bsearch` a match of a sorted array.  Elements without bytes are not compared: a search
among them finds none.
-/

namespace Upse.Ps1.Libc

open ErrorState StableSort
open Strings (RamOn)

variable {M : Type} {ram : GuestBytes M} {byte : M → ℕ → BitVec 8} {region kept : ℕ → Prop}
  {le : List (BitVec 8) → List (BitVec 8) → Prop}
  {compare : ℕ → LibcState M → LibcState M} {key base elements width callback k index : ℕ}
  {s₀ s t u : LibcState M}

/-- The key and an element of an array. -/
def KeyAndElement (key base elements width left right : ℕ) : Prop :=
  left = key ∧ ∃ i, i < elements ∧ right = base + i * width

/-- An element has the content of the key, as far as the order separates them. -/
def Matches (le : List (BitVec 8) → List (BitVec 8) → Prop) (byte : M → ℕ → BitVec 8)
    (key base width : ℕ) (m : M) (index : ℕ) : Prop :=
  le (bytesAt byte m key width) (element byte m base width index) ∧
    le (element byte m base width index) (bytesAt byte m key width)

/-- What a search that takes any match returns. -/
def AnyMatch (le : List (BitVec 8) → List (BitVec 8) → Prop) (byte : M → ℕ → BitVec 8)
    (key base elements width : ℕ) (m : M) (value : ℕ) : Prop :=
  (∃ i, i < elements ∧ Matches le byte key base width m i ∧ value = base + i * width) ∨
    (∀ i < elements, ¬ Matches le byte key base width m i) ∧ value = 0

/-- What a search that takes the first match returns. -/
def FirstMatch (le : List (BitVec 8) → List (BitVec 8) → Prop) (byte : M → ℕ → BitVec 8)
    (key base elements width : ℕ) (m : M) (value : ℕ) : Prop :=
  (∃ i, i < elements ∧ Matches le byte key base width m i ∧
      (∀ j < i, ¬ Matches le byte key base width m j) ∧ value = base + i * width) ∨
    (∀ i < elements, ¬ Matches le byte key base width m i) ∧ value = 0

/-- The caller of a search goes on with a value and its own registers, and memory that the comparator
leaves alone is unchanged. -/
structure Searched (byte : M → ℕ → BitVec 8) (kept : ℕ → Prop) (Value : ℕ → Prop) (s t : LibcState M) :
    Prop where
  bios : t.bios = s.bios
  returned : ∃ value, Value value ∧ t.context = returnToCaller (s.context.returnValue value)
  kept : ∀ address, kept address → byte t.memory address = byte s.memory address

/-- A search waits for its comparator at an element. -/
structure Searching (byte : M → ℕ → BitVec 8) (kept : ℕ → Prop) (key base width callback : ℕ)
    (s₀ : LibcState M) (k : ℕ) (kind : LibcOperationKind) (index : ℕ) (s : LibcState M) : Prop where
  suspended : Suspended s₀ callback k kind key (base + index * width) s
  kept : ∀ address, kept address → byte s.memory address = byte s₀.memory address

/-! ### One result -/

/-- The result of a comparator, on the contents the search started with. -/
structure Tells (le : List (BitVec 8) → List (BitVec 8) → Prop) (byte : M → ℕ → BitVec 8)
    (kept : ℕ → Prop) (key base width : ℕ) (s₀ : LibcState M) (index : ℕ) (s t : LibcState M) : Prop where
  bios : t.bios = s.bios
  kept : ∀ address, kept address → byte t.memory address = byte s₀.memory address
  positive : 0 < t.result ↔
    ¬ le (bytesAt byte s₀.memory key width) (element byte s₀.memory base width index)
  negative : t.result < 0 ↔
    ¬ le (element byte s₀.memory base width index) (bytesAt byte s₀.memory key width)

theorem Tells.matches_iff (tells : Tells le byte kept key base width s₀ index s t) :
    t.result = 0 ↔ Matches le byte key base width s₀.memory index := by
  have positive := tells.positive
  have negative := tells.negative
  unfold Matches
  constructor
  · intro zero
    exact ⟨by_contra fun out => by have := positive.mpr out; omega,
      by_contra fun out => by have := negative.mpr out; omega⟩
  · rintro ⟨first, second⟩
    have := not_lt.mp fun more => positive.mp more first
    have := not_lt.mp fun less => negative.mp less second
    omega

section Steps

variable (ramOn : RamOn ram byte region) (placed : Placed region s₀.bios.limits base elements width)
  (key_lt : key < 2 ^ 32)
  (comparator : Comparator le byte kept width callback (KeyAndElement key base elements width) compare)
  (keepsKey : ∀ offset < width, kept (key + offset))
  (keeps : ∀ address, InArray base elements width address → kept address)

include ramOn placed key_lt comparator keepsKey keeps in
theorem Searching.tells {kind : LibcOperationKind} (lt : index < elements)
    (search : Searching byte kept key base width callback s₀ k kind index s) :
    Tells le byte kept key base width s₀ index s (compare k s) := by
  have fits := placed.fits ramOn
  have bound := Nat.mul_le_mul_right width lt.le
  have compared := Comparator.compared (k := k) ⟨s₀.context, callback, k + 1, kind⟩ comparator
    ⟨rfl, index, lt, rfl⟩ key_lt (by omega) search.suspended.context
  have key_same : bytesAt byte s.memory key width = bytesAt byte s₀.memory key width :=
    bytesAt_congr fun offset small => search.kept _ (keepsKey offset small)
  have element_same : element byte s.memory base width index = element byte s₀.memory base width index :=
    element_congr lt fun address inside => search.kept address (keeps address inside)
  refine ⟨compared.bios, fun address keep => ?_, ?_, ?_⟩
  · exact (compared.kept address keep).trans (search.kept address keep)
  · rw [← key_same, ← element_same]
    exact compared.positive
  · rw [← key_same, ← element_same]
    exact compared.negative

variable (idle : s₀.bios.libcOperation = none) {Value : ℕ → Prop} {limit bound spent : ℕ}
  {Waits : ℕ → ℕ → LibcState M → Prop} {kind kind' : LibcOperationKind}
  (search : Searching byte kept key base width callback s₀ k kind index s)
  (bios : t.bios = s.bios) (same : ∀ address, kept address → byte t.memory address = byte s₀.memory address)

include idle search bios same in
theorem Searching.follows_value {value : ℕ} (found : Value value)
    (advanced : (kind.advance ram t.result).run t.taken = .ok (kind', some (some value)) t.taken) :
    Follows ram limit bound Waits (Searched byte kept Value s₀) k spent t := by
  refine .inl ⟨_, search.suspended.returns bios advanced, ?_, ⟨value, found, rfl⟩, same⟩
  show LibcHle.mk s₀.bios.limits none = s₀.bios
  rw [← idle]

include search bios same in
theorem Searching.follows_next {spent' index' : ℕ}
    (advanced : (kind.advance ram t.result).run t.taken = .ok (kind', none) t.taken)
    (compared : kind'.compared = .ok (key, base + index' * width))
    (waits : ∀ u, Searching byte kept key base width callback s₀ (k + 1) kind' index' u →
      Waits (k + 1) spent' u) (few : k ≤ spent) (more : spent < spent') (below : spent' < bound) :
    Follows ram s₀.bios.limits.libcCallbackCalls bound Waits (Searched byte kept Value s₀) k spent t := by
  rcases search.suspended.continues bios advanced compared with ⟨u, ran, memory, suspended⟩ | ⟨full, u, failed⟩
  · refine .inr (.inl ⟨spent', u, more, ran, waits u ⟨suspended, ?_⟩⟩)
    rw [memory]
    exact same
  · exact .inr (.inr ⟨full, by omega, u, failed⟩)

end Steps

/-! ### Linear search -/

theorem advance_lsearch_found {result : ℤ} (zero : result = 0)
    (address : elementAddress base index width = .ok (base + index * width)) :
    ((LibcOperationKind.lsearch key base elements width index).advance ram result).run s =
      .ok (.lsearch key base elements width index, some (some (base + index * width))) s := by
  unfold LibcOperationKind.advance
  simp only [if_pos zero]
  rw [run_ofExcept_bind address]
  rfl

theorem advance_lsearch_passed {result : ℤ} (nonzero : result ≠ 0) (small : index < u32Max) :
    ((LibcOperationKind.lsearch key base elements width index).advance ram result).run s =
      .ok (.lsearch key base elements width (index + 1),
        if elements ≤ index + 1 then some (some 0) else none) s := by
  unfold LibcOperationKind.advance
  simp only [if_neg nonzero, Nat.min_eq_right (Nat.succ_le_of_lt small)]
  rfl

/-- `lsearch` waits at the first element that it has not passed. -/
def LsearchWaits (le : List (BitVec 8) → List (BitVec 8) → Prop) (byte : M → ℕ → BitVec 8)
    (kept : ℕ → Prop) (key base elements width callback : ℕ) (s₀ : LibcState M) (k spent : ℕ)
    (s : LibcState M) : Prop :=
  spent = k ∧ k < elements ∧ (∀ i < k, ¬ Matches le byte key base width s₀.memory i) ∧
    Searching byte kept key base width callback s₀ k (.lsearch key base elements width k) k s

/-! ### Binary search -/

section Bsearch

variable {low high middle : ℕ} {result : ℤ}

theorem advance_bsearch_found (zero : result = 0)
    (address : elementAddress base middle width = .ok (base + middle * width)) :
    ((LibcOperationKind.bsearch key base width low high middle).advance ram result).run s =
      .ok (.bsearch key base width low high middle, some (some (base + middle * width))) s := by
  unfold LibcOperationKind.advance
  simp only [if_pos zero]
  rw [run_ofExcept_bind address]
  rfl

theorem advance_bsearch_halved {low' high' : ℕ} (nonzero : result ≠ 0) (small : middle < u32Max)
    (lower : low' = if result < 0 then low else middle + 1)
    (upper : high' = if result < 0 then middle else high) :
    ((LibcOperationKind.bsearch key base width low high middle).advance ram result).run s =
      .ok (.bsearch key base width low' high' (if high' ≤ low' then middle else low' + (high' - low') / 2),
        if high' ≤ low' then some (some 0) else none) s := by
  subst lower upper
  unfold LibcOperationKind.advance
  simp only [if_neg nonzero, Nat.min_eq_right (Nat.succ_le_of_lt small)]
  generalize (if result < 0 then middle else high) = upper
  generalize (if result < 0 then low else middle + 1) = lower
  by_cases empty : upper ≤ lower
  · simp only [if_pos empty]
    rfl
  · simp only [if_neg empty]
    rfl

end Bsearch

/-- `bsearch` waits in the middle of an interval outside of which nothing matches. -/
def BsearchWaits (le : List (BitVec 8) → List (BitVec 8) → Prop) (byte : M → ℕ → BitVec 8)
    (kept : ℕ → Prop) (key base elements width callback : ℕ) (s₀ : LibcState M) (k spent : ℕ)
    (s : LibcState M) : Prop :=
  ∃ low high, low < high ∧ high ≤ elements ∧ spent = Nat.log 2 elements - Nat.log 2 (high - low) ∧
    k ≤ spent ∧ (∀ i < elements, Matches le byte key base width s₀.memory i → low ≤ i ∧ i < high) ∧
    Searching byte kept key base width callback s₀ k
      (.bsearch key base width low high (low + (high - low) / 2)) (low + (high - low) / 2) s

theorem log_halved {d d' : ℕ} (positive : 0 < d') (half : d' ≤ d / 2) : Nat.log 2 d' < Nat.log 2 d := by
  have least : Nat.log 2 d' ≤ Nat.log 2 d - 1 := by
    rw [← Nat.log_div_base]
    exact Nat.log_mono_right half
  have some_half : 0 < Nat.log 2 d := Nat.log_pos (by decide) (by omega)
  omega

section Runs

variable [Std.Total le] [IsTrans _ le] (ramOn : RamOn ram byte region)
  (placed : Placed region s₀.bios.limits base elements width) (key_lt : key < 2 ^ 32)
  (elements_lt : elements < 2 ^ 32) (idle : s₀.bios.libcOperation = none)
  (comparator : Comparator le byte kept width callback (KeyAndElement key base elements width) compare)
  (keepsKey : ∀ offset < width, kept (key + offset))
  (keeps : ∀ address, InArray base elements width address → kept address)

omit [Std.Total le] [IsTrans _ le] in
include ramOn placed key_lt elements_lt idle comparator keepsKey keeps in
theorem lsearch_progress : Progress ram compare s₀.bios.limits.libcCallbackCalls elements
    (LsearchWaits le byte kept key base elements width callback s₀)
    (Searched byte kept (FirstMatch le byte key base elements width s₀.memory) s₀) := by
  have fits := placed.fits ramOn
  constructor
  · rintro _ k s ⟨rfl, lt, -, search⟩
    exact ⟨le_rfl, lt, search.suspended.fits⟩
  rintro _ k s ⟨rfl, lt, passed, search⟩
  have tells := search.tells ramOn placed key_lt comparator keepsKey keeps lt
  by_cases found : (compare k s).result = 0
  · have address : elementAddress base k width = .ok (base + k * width) := elementAddress_eq fits lt.le
    refine search.follows_value idle tells.bios tells.kept ?_ (advance_lsearch_found found address)
    exact .inl ⟨k, lt, tells.matches_iff.mp found, passed, rfl⟩
  have advanced : ((LibcOperationKind.lsearch key base elements width k).advance ram
      (compare k s).result).run (compare k s).taken = _ :=
    advance_lsearch_passed found (show k < u32Max by unfold u32Max; omega)
  have passed' : ∀ i < k + 1, ¬ Matches le byte key base width s₀.memory i := by
    intro i small
    rcases Nat.lt_succ_iff_lt_or_eq.mp small with before | rfl
    · exact passed i before
    · exact fun matched => found (tells.matches_iff.mpr matched)
  rcases Nat.lt_or_ge (k + 1) elements with more | last
  · rw [if_neg (Nat.not_le_of_lt more)] at advanced
    have compared : (LibcOperationKind.lsearch key base elements width (k + 1)).compared =
        .ok (key, base + (k + 1) * width) := by
      show (do
        let right ← elementAddress base (k + 1) width
        return (key, right)) = _
      rw [elementAddress_eq fits more.le]
      rfl
    exact search.follows_next tells.bios tells.kept advanced compared
      (fun u searching => ⟨rfl, more, passed', searching⟩) le_rfl (Nat.lt_succ_self k) more
  · rw [if_pos last] at advanced
    refine search.follows_value idle tells.bios tells.kept (.inr ⟨fun i small => ?_, rfl⟩) advanced
    exact passed' i (by omega)

include ramOn placed key_lt elements_lt idle comparator keepsKey keeps in
theorem bsearch_progress (ordered : Ordered le (element byte s₀.memory base width) elements) :
    Progress ram compare s₀.bios.limits.libcCallbackCalls (Nat.log 2 elements + 1)
      (BsearchWaits le byte kept key base elements width callback s₀)
      (Searched byte kept (AnyMatch le byte key base elements width s₀.memory) s₀) := by
  have fits := placed.fits ramOn
  constructor
  · rintro k _ s ⟨low, high, -, -, rfl, few, -, search⟩
    exact ⟨few, by omega, search.suspended.fits⟩
  rintro k _ s ⟨low, high, nonempty, high_le, rfl, few, around, search⟩
  generalize half : low + (high - low) / 2 = middle at search
  have tells := search.tells ramOn placed key_lt comparator keepsKey keeps (by omega)
  by_cases found : (compare k s).result = 0
  · have address : elementAddress base middle width = .ok (base + middle * width) :=
      elementAddress_eq fits (by omega)
    refine search.follows_value idle tells.bios tells.kept ?_ (advance_bsearch_found found address)
    exact .inl ⟨middle, by omega, tells.matches_iff.mp found, rfl⟩
  obtain ⟨low', high', lower, upper, shorter, high_le', around'⟩ : ∃ low' high',
      low' = (if (compare k s).result < 0 then low else middle + 1) ∧
      high' = (if (compare k s).result < 0 then middle else high) ∧
      high' - low' ≤ (high - low) / 2 ∧ high' ≤ elements ∧
      ∀ i < elements, Matches le byte key base width s₀.memory i → low' ≤ i ∧ i < high' := by
    refine ⟨_, _, rfl, rfl, ?_⟩
    by_cases less : (compare k s).result < 0
    · rw [if_pos less, if_pos less]
      refine ⟨by omega, by omega, fun i small matched => ⟨(around i small matched).1, ?_⟩⟩
      by_contra after
      have after' := ordered.le_of_le (not_lt.mp after) small
      exact tells.negative.mp less (IsTrans.trans _ _ _ after' matched.2)
    · rw [if_neg less, if_neg less]
      refine ⟨by omega, high_le, fun i small matched => ⟨?_, (around i small matched).2⟩⟩
      by_contra before
      have before' := ordered.le_of_le (show i ≤ middle by omega) (by omega)
      exact tells.positive.mp (by omega) (IsTrans.trans _ _ _ matched.1 before')
  have advanced : ((LibcOperationKind.bsearch key base width low high middle).advance ram
      (compare k s).result).run (compare k s).taken = _ :=
    advance_bsearch_halved found (show middle < u32Max by unfold u32Max; omega) lower upper
  rcases Nat.lt_or_ge low' high' with more | empty
  · rw [if_neg (Nat.not_le_of_lt more), if_neg (Nat.not_le_of_lt more)] at advanced
    have less := log_halved (show 0 < high' - low' by omega) shorter
    have whole := Nat.log_mono_right (b := 2) (show high - low ≤ elements by omega)
    have compared : (LibcOperationKind.bsearch key base width low' high' (low' + (high' - low') / 2)).compared =
        .ok (key, base + (low' + (high' - low') / 2) * width) := by
      show (do
        let right ← elementAddress base (low' + (high' - low') / 2) width
        return (key, right)) = _
      rw [elementAddress_eq fits (by omega)]
      rfl
    exact search.follows_next tells.bios tells.kept advanced compared
      (fun u searching => ⟨low', high', more, high_le', rfl, by omega, around', searching⟩) few
      (by omega) (by omega)
  · rw [if_pos empty, if_pos empty] at advanced
    refine search.follows_value idle tells.bios tells.kept (.inr ⟨fun i small matched => ?_, rfl⟩) advanced
    have inside := around' i small matched
    omega

end Runs

/-! ### The calls -/

/-- The arguments of a search, the comparator behind them on the stack. -/
structure CallsSearch (byte : M → ℕ → BitVec 8) (region : ℕ → Prop) (key base elements width : ℕ)
    (callback : ℕ) (s : LibcState M) : Prop where
  key : s.context.argument 0 = key
  base : s.context.argument 1 = base
  elements : s.context.argument 2 = elements
  width : s.context.argument 3 = width
  stack : ∀ offset, 16 ≤ offset → offset < 20 → region (((s.context.register sp).getD 0).toNat + offset)
  callback : ofLeBytes (bytesAt byte s.memory (((s.context.register sp).getD 0).toNat + 16) 4) = callback

section Calls

variable (ramOn : RamOn ram byte region)
include ramOn

theorem run_readWord {address offset : ℕ} (inside : ∀ i < 4, region (address + (offset + i))) :
    (readWord ram address offset).run s =
      .ok (ofLeBytes (bytesAt byte s.memory (address + offset) 4)) s := by
  have byte' (i : ℕ) (lt : i < 4) : (readByte ram address (offset + i)).run s =
      .ok (byte s.memory (address + (offset + i))) s := run_readByte ramOn (inside i lt)
  have value (b0 b1 b2 b3 : BitVec 8) : b0.toNat + 2 ^ 8 * b1.toNat + 2 ^ 16 * b2.toNat +
      2 ^ 24 * b3.toNat = ofLeBytes [b0, b1, b2, b3] := by
    unfold ofLeBytes ofLeBytes ofLeBytes ofLeBytes ofLeBytes
    omega
  have first := byte' 0 (by decide)
  rw [Nat.add_zero] at first
  unfold readWord
  rw [run_bind_of_ok first, run_bind_of_ok (byte' 1 (by decide)),
    run_bind_of_ok (byte' 2 (by decide)), run_bind_of_ok (byte' 3 (by decide)), value]
  rfl

variable (placed : Placed region s.bios.limits base elements width)
  (call : CallsSearch byte region key base elements width callback s)
  (kind : ℕ → ℕ → ℕ → ℕ → LibcOperationKind)
include placed call

theorem run_startSearch : (startSearch ram kind).run s =
    (if elements = 0 ∨ width = 0 then do
        returnValue 0
        return false
      else do
        startLibcOperation callback (kind key base elements width)
        return true : LibcM M Bool).run s := by
  have stacked : (stackArgument ram).run s = .ok callback s := by
    unfold stackArgument
    rw [run_get_bind, run_readWord ramOn fun i lt => call.stack (16 + i) (by omega) (by omega), call.callback]
  unfold startSearch
  rw [run_bind_of_ok (run_argument 0), run_bind_of_ok (run_argument 1), run_bind_of_ok (run_argument 2),
    run_bind_of_ok (run_argument 3), call.key, call.base, call.elements, call.width,
    run_bind_of_ok (run_checkArray ramOn placed)]
  split
  · rfl
  · rw [run_bind_of_ok stacked]

theorem search_idle (none' : elements = 0 ∨ width = 0) (limit bound : ℕ) :
    Ends limit bound (Searched byte (fun _ => True) (· = 0) s)
      fun rounds => (serve ram (startSearch ram kind) compare rounds).run s := by
  have started := run_startSearch ramOn placed call kind
  rw [if_pos none'] at started
  exact ends_of_idle started ⟨rfl, ⟨0, rfl, rfl⟩, fun _ _ => rfl⟩

variable {limit bound : ℕ} {Value : ℕ → Prop} {Waits : ℕ → ℕ → LibcState M → Prop}

theorem search_ends (idle : s.bios.libcOperation = none) (some' : ¬ (elements = 0 ∨ width = 0))
    (progress : Progress ram compare s.bios.limits.libcCallbackCalls bound Waits (Searched byte kept Value s))
    (positive : 0 < bound)
    (compared : (kind key base elements width).compared = .ok (key, base + index * width))
    (waits : ∀ u, Searching byte kept key base width callback s 0 (kind key base elements width) index u →
      ∃ spent, Waits 0 spent u) :
    Ends s.bios.limits.libcCallbackCalls bound (Searched byte kept Value s)
      fun rounds => (serve ram (startSearch ram kind) compare rounds).run s := by
  have started := run_startSearch ramOn placed call kind
  rw [if_neg some'] at started
  rcases run_start idle callback compared with ⟨u, ran, memory, suspended⟩ | ⟨zero, u, failed⟩
  · rw [run_bind_of_ok ran] at started
    obtain ⟨spent, waiting⟩ := waits u ⟨suspended, fun _ _ => by rw [memory]⟩
    exact progress.ends started waiting
  · rw [run_bind_of_error failed] at started
    rw [zero]
    exact ends_of_refused started positive

end Calls

/-! ### The services against the C library -/

section Services

variable (ram : GuestBytes M) (byte : M → ℕ → BitVec 8) (region kept : ℕ → Prop)
  (le : List (BitVec 8) → List (BitVec 8) → Prop) (key base elements width callback : ℕ)
  (compare : ℕ → LibcState M → LibcState M) (s : LibcState M)

/-- A call of `qsort` with a comparator that leaves the array alone. -/
structure SortCall : Prop where
  call : CallsQsort base elements width callback s.context
  placed : Placed region s.bios.limits base elements width
  comparator : Comparator le byte kept width callback (BothElements base elements width) compare
  keeps : ∀ address, InArray base elements width address → kept address

/-- A call of a search with a comparator that leaves the key and the array alone. -/
structure SearchCall : Prop where
  call : CallsSearch byte region key base elements width callback s
  placed : Placed region s.bios.limits base elements width
  comparator : Comparator le byte kept width callback (KeyAndElement key base elements width) compare
  keepsKey : ∀ offset < width, kept (key + offset)
  keeps : ∀ address, InArray base elements width address → kept address

/-- `qsort` sorts stably. -/
def QsortSorts [DecidableRel le] : Prop :=
  Ends s.bios.limits.libcCallbackCalls (elements * (elements - 1) / 2)
    (Sorted le byte region kept base elements width s) fun rounds =>
      (serve ram startQsort compare rounds).run s

/-- `lsearch` returns the first match. -/
def LsearchFinds : Prop :=
  Ends s.bios.limits.libcCallbackCalls elements
    (Searched byte kept (FirstMatch le byte key base elements width s.memory) s) fun rounds =>
      (serve ram (startLsearch ram) compare rounds).run s

/-- `bsearch` returns a match. -/
def BsearchFinds : Prop :=
  Ends s.bios.limits.libcCallbackCalls (Nat.log 2 elements + 1)
    (Searched byte kept (AnyMatch le byte key base elements width s.memory) s) fun rounds =>
      (serve ram (startBsearch ram) compare rounds).run s

/-- The sorting and searching services do what the C library promises, but for searches among elements
without bytes, which find none, and for calls out of a comparator, which are refused. -/
structure LibcCorrect [DecidableRel le] : Prop where
  qsort : ∀ base elements width callback compare,
    SortCall byte region kept le base elements width callback compare s →
    s.bios.libcOperation = none → QsortSorts ram byte region kept le base elements width compare s
  lsearch : ∀ key base elements width callback compare,
    SearchCall byte region kept le key base elements width callback compare s →
    s.bios.libcOperation = none → 0 < width → LsearchFinds ram byte kept le key base elements width compare s
  bsearch : ∀ key base elements width callback compare,
    SearchCall byte region kept le key base elements width callback compare s →
    s.bios.libcOperation = none → 0 < width → Ordered le (element byte s.memory base width) elements →
    BsearchFinds ram byte kept le key base elements width compare s
  widthless : ∀ key base elements callback compare kind,
    SearchCall byte region kept le key base elements 0 callback compare s →
    Ends s.bios.limits.libcCallbackCalls 0 (Searched byte (fun _ => True) (· = 0) s) fun rounds =>
      (serve ram (startSearch ram kind) compare rounds).run s
  nestedSort : ∀ base elements width callback compare rounds,
    SortCall byte region kept le base elements width callback compare s →
    s.bios.libcOperation.isSome → 2 ≤ elements → 0 < width →
    (serve ram startQsort compare rounds).run s = .error .callbackDepth s
  nestedSearch : ∀ key base elements width callback compare kind rounds,
    SearchCall byte region kept le key base elements width callback compare s →
    s.bios.libcOperation.isSome → 0 < elements → 0 < width →
    (serve ram (startSearch ram kind) compare rounds).run s = .error .callbackDepth s

end Services

namespace SearchCall

variable (search : SearchCall byte region kept le key base elements width callback compare s)
include search

theorem key_lt : key < 2 ^ 32 := search.call.key ▸ argument_lt s.context 0

theorem elements_lt : elements < 2 ^ 32 := search.call.elements ▸ argument_lt s.context 2

variable (ramOn : RamOn ram byte region) (idle : s.bios.libcOperation = none)
include ramOn

theorem firstCompared (le : index ≤ elements) :
    (do
      let right ← elementAddress base index width
      return (key, right) : Except BiosError (ℕ × ℕ)) = .ok (key, base + index * width) := by
  rw [elementAddress_eq (search.placed.fits ramOn) le]
  rfl

omit search in
theorem ends_empty (search : SearchCall byte region kept le key base 0 width callback compare s)
    (kind : ℕ → ℕ → ℕ → ℕ → LibcOperationKind) {Value : ℕ → Prop} (none' : Value 0) (limit bound : ℕ) :
    Ends limit bound (Searched byte kept Value s)
      fun rounds => (serve ram (startSearch ram kind) compare rounds).run s := by
  refine (search_idle ramOn search.placed search.call kind (.inl rfl) limit bound).mono ?_
  rintro t ⟨bios, ⟨value, rfl, context⟩, same⟩
  exact ⟨bios, ⟨0, none', context⟩, fun address _ => same address trivial⟩

include idle

theorem lsearch_finds (positive : 0 < width) :
    LsearchFinds ram byte kept le key base elements width compare s := by
  rcases Nat.eq_zero_or_pos elements with rfl | some'
  · exact search.ends_empty ramOn _ (.inr ⟨fun _ none' => absurd none' (Nat.not_lt_zero _), rfl⟩) _ _
  · have progress := lsearch_progress ramOn search.placed search.key_lt search.elements_lt idle
      search.comparator search.keepsKey search.keeps
    refine search_ends ramOn search.placed search.call _ idle (by omega) progress some'
      (search.firstCompared ramOn (Nat.zero_le _)) fun u waiting => ⟨0, rfl, some', ?_, waiting⟩
    exact fun _ none' => absurd none' (Nat.not_lt_zero _)

theorem bsearch_finds [Std.Total le] [IsTrans _ le] (positive : 0 < width)
    (ordered : Ordered le (element byte s.memory base width) elements) :
    BsearchFinds ram byte kept le key base elements width compare s := by
  rcases Nat.eq_zero_or_pos elements with rfl | some'
  · exact search.ends_empty ramOn _ (.inr ⟨fun _ none' => absurd none' (Nat.not_lt_zero _), rfl⟩) _ _
  · have progress := bsearch_progress ramOn search.placed search.key_lt search.elements_lt idle
      search.comparator search.keepsKey search.keeps ordered
    refine search_ends ramOn search.placed search.call _ idle (by omega) progress (Nat.succ_pos _)
      (search.firstCompared ramOn (Nat.div_le_self elements 2)) fun u waiting => ?_
    refine ⟨_, 0, elements, some', le_rfl, rfl, Nat.zero_le _, fun i small _ => ⟨Nat.zero_le i, small⟩, ?_⟩
    rw [Nat.zero_add, Nat.sub_zero]
    exact waiting

end SearchCall

/-- The services of the firmware and the C library's, for every array in RAM and every total preorder
on contents. -/
theorem libc_services_correct [DecidableRel le] [Std.Total le] [IsTrans _ le]
    (ramOn : RamOn ram byte region) (s : LibcState M) : LibcCorrect ram byte region kept le s where
  qsort _ _ _ _ _ sort idle := qsort_sorts ramOn idle sort.placed sort.call sort.comparator sort.keeps
  lsearch _ _ _ _ _ _ search idle positive := search.lsearch_finds ramOn idle positive
  bsearch _ _ _ _ _ _ search idle positive ordered := search.bsearch_finds ramOn idle positive ordered
  widthless _ _ _ _ _ kind search := search_idle ramOn search.placed search.call kind (.inr rfl) _ _
  nestedSort base elements width callback compare rounds sort busy some' positive := by
    have started := run_startQsort ramOn sort.placed sort.call
    rw [if_neg (by omega), run_bind_of_error (run_start_nested busy callback)] at started
    exact run_bind_of_error (run_bind_of_error started)
  nestedSearch key base elements width callback compare kind rounds search busy some' positive := by
    have started := run_startSearch ramOn search.placed search.call kind
    rw [if_neg (by omega), run_bind_of_error (run_start_nested busy callback)] at started
    exact run_bind_of_error (run_bind_of_error started)

/-! ### Records with a key of one byte -/

/-- The order of the first bytes. -/
def byKey (a b : List (BitVec 8)) : Prop := (a.headD 0).toNat ≤ (b.headD 0).toNat

instance : DecidableRel byKey := fun a b => inferInstanceAs (Decidable ((a.headD 0).toNat ≤ (b.headD 0).toNat))

instance : Std.Total byKey := ⟨fun a b => Nat.le_total (a.headD 0).toNat (b.headD 0).toNat⟩

instance : IsTrans _ byKey := ⟨fun _ _ _ first second => Nat.le_trans first second⟩

/-- A comparator of first bytes. -/
def compareKeys (_ : ℕ) (s : LibcState (ℕ → BitVec 8)) : LibcState (ℕ → BitVec 8) :=
  let left := (s.memory (s.context.argument 0)).toNat
  let right := (s.memory (s.context.argument 1)).toNat
  { s with context := s.context.setRegister v0 (BitVec.ofInt 32 (left - right)) }

/-- A comparator that separates nothing. -/
def compareNothing (_ : ℕ) (s : LibcState (ℕ → BitVec 8)) : LibcState (ℕ → BitVec 8) :=
  { s with context := s.context.setRegister v0 0 }

theorem result_setRegister {M : Type} (s : LibcState M) (value : Word) :
    ({ s with context := s.context.setRegister v0 value } : LibcState M).result = value.toInt := by
  unfold LibcState.result
  rw [register_setRegister _ _ (by decide) (by decide), if_pos rfl]
  rfl

theorem comparator_compareKeys {width callback : ℕ} (positive : 0 < width) (called : ℕ → ℕ → Prop) :
    Comparator byKey (fun m address => m address) kept width callback called compareKeys := by
  obtain ⟨width, rfl⟩ := Nat.exists_eq_succ_of_ne_zero positive.ne'
  intro k s left right _ _ _ first second
  have head (address : ℕ) : (bytesAt (fun (m : ℕ → BitVec 8) a => m a) s.memory address (width + 1)).headD 0 =
      s.memory address := by
    unfold bytesAt
    rw [List.range_succ_eq_map]
    rfl
  have result : (compareKeys k s).result = (s.memory left).toNat - (s.memory right).toNat := by
    have := (s.memory left).isLt
    have := (s.memory right).isLt
    unfold compareKeys
    rw [result_setRegister, first, second, BitVec.toInt_ofInt, Int.bmod_def]
    omega
  refine ⟨rfl, fun _ _ => rfl, ?_, ?_⟩
  · rw [result]
    unfold byKey
    rw [head, head]
    omega
  · rw [result]
    unfold byKey
    rw [head, head]
    omega

/-- Records of two bytes, `2a`, `1b`, `2c` and `1d`, at 0x4000, and a key `1` at 0x3000; the address of
the comparator is on the stack. -/
def recordMemory : ℕ → BitVec 8
  | 0x1011 => 0x20
  | 0x3000 => 1
  | 0x4000 => 2
  | 0x4001 => 0x61
  | 0x4002 => 1
  | 0x4003 => 0x62
  | 0x4004 => 2
  | 0x4005 => 0x63
  | 0x4006 => 1
  | 0x4007 => 0x64
  | _ => 0

/-- A call with four arguments. -/
def recordState (first second third fourth : Word) : LibcState (ℕ → BitVec 8) :=
  let context := ((CpuContext.reset 0 0).setRegister a0 first).setRegister (a0 + 1) second
  ⟨⟨.default, none⟩, ((context.setRegister (a0 + 2) third).setRegister (a0 + 3) fourth).setRegister sp 0x1000,
    recordMemory⟩

theorem placed_records {elements width : ℕ} (few : elements * width ≤ 8) :
    Placed (· + 1 < 2 ^ 32) .default 0x4000 elements width := by
  refine ⟨fun address inside => ?_, by decide, few.trans (by decide)⟩
  have last := inside.2
  omega

theorem callsSearch_records (key base elements width : Word) :
    CallsSearch (fun m address => m address) (· + 1 < 2 ^ 32) key.toNat base.toNat elements.toNat width.toNat
      0x2000 (recordState key base elements width) := by
  have stack : ((recordState key base elements width).context.register sp).getD 0 = 0x1000 := rfl
  refine ⟨rfl, rfl, rfl, rfl, fun offset _ below => ?_, ?_⟩
  · rw [stack]
    show 0x1000 + offset + 1 < 2 ^ 32
    omega
  · rw [stack]
    show ofLeBytes (bytesAt (fun m address => m address) recordMemory 0x1010 4) = 0x2000
    decide

theorem libc_services_correct_records :
    QsortSorts flatRam (fun m address => m address) (· + 1 < 2 ^ 32) (fun _ => True) byKey 0x4000 4 2
        compareKeys (recordState 0x4000 4 2 0x2000) ∧
      LsearchFinds flatRam (fun m address => m address) (fun _ => True) byKey 0x3000 0x4000 4 2 compareKeys
        (recordState 0x3000 0x4000 4 2) := by
  have few : 4 * 2 ≤ 8 := by decide
  have positive : 0 < 2 := by decide
  constructor
  · refine (libc_services_correct Strings.flatRam_ramOn _).qsort 0x4000 4 2 0x2000 compareKeys ?_ rfl
    exact ⟨⟨rfl, rfl, rfl, rfl⟩, placed_records few, comparator_compareKeys positive _, fun _ _ => trivial⟩
  · refine (libc_services_correct Strings.flatRam_ramOn _).lsearch 0x3000 0x4000 4 2 0x2000 compareKeys ?_ rfl
      positive
    exact ⟨callsSearch_records 0x3000 0x4000 4 2, placed_records few, comparator_compareKeys positive _,
      fun _ _ => trivial, fun _ _ => trivial⟩

/-- Elements without bytes have the content of every key, but are not found. -/
theorem lsearch_passes_empty_elements :
    SearchCall (fun m address => m address) (· + 1 < 2 ^ 32) (fun _ => True) byKey 0x3000 0x4000 4 0 0x2000
        compareNothing (recordState 0x3000 0x4000 4 0) ∧
      ¬ LsearchFinds flatRam (fun m address => m address) (fun _ => True) byKey 0x3000 0x4000 4 0
        compareNothing (recordState 0x3000 0x4000 4 0) := by
  constructor
  · refine ⟨callsSearch_records 0x3000 0x4000 4 0, placed_records (by decide), ?_, fun _ _ => trivial,
      fun _ _ => trivial⟩
    intro k s left right _ _ _ _ _
    have equal : (compareNothing k s).result = 0 := result_setRegister s 0
    have same : byKey [] [] := Nat.le_refl _
    refine ⟨rfl, fun _ _ => rfl, ?_, ?_⟩
    · rw [equal]
      exact iff_of_false (by decide) (not_not_intro same)
    · rw [equal]
      exact iff_of_false (by decide) (not_not_intro same)
  · have ran (rounds : ℕ) : (serve flatRam (startLsearch flatRam) compareNothing rounds).run
        (recordState 0x3000 0x4000 4 0) = .ok (some 0) { recordState 0x3000 0x4000 4 0 with
          context := returnToCaller ((recordState 0x3000 0x4000 4 0).context.returnValue 0) } := rfl
    rintro (⟨calls, -, -, t, done, runs⟩ | ⟨lower, -⟩)
    · have here := (runs calls le_rfl).symm.trans (ran calls)
      obtain ⟨value, first, context⟩ := done.returned
      cases here
      have register := congrArg (fun c => (c.register v0).getD 0) context
      rcases first with ⟨i, -, -, -, rfl⟩ | ⟨unmatched, -⟩
      · rw [Nat.mul_zero] at register
        exact absurd register (by decide)
      · exact unmatched 0 (by decide) ⟨Nat.le_refl _, Nat.le_refl _⟩
    · exact absurd lower (by decide)

end Upse.Ps1.Libc
