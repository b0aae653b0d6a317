import Mathlib.Algebra.BigOperators.Ring.Finset
import Mathlib.Algebra.Order.BigOperators.Group.Finset
import Mathlib.Data.List.Basic
import Mathlib.Data.List.Perm.Basic
import Mathlib.Data.List.Range
import Mathlib.Order.Interval.Finset.Nat

/-!
# Spans that tile a range

A span is a half-open interval of addresses.  A list of spans tiles a range when every address of
the range lies in exactly one of them and no other address lies in any: there is no gap, no overlap
and no duplicate.  Tilings do not depend on the order of the spans, and survive splitting a span in
two and merging two that touch.
-/

/-- The addresses from `start` to `start + length`. -/
structure Span where
  start : ℕ
  length : ℕ
  deriving DecidableEq, Repr

namespace Span

/-- The address lies in the span. -/
def Contains (s : Span) (x : ℕ) : Prop := s.start ≤ x ∧ x < s.start + s.length

instance (s : Span) (x : ℕ) : Decidable (s.Contains x) := inferInstanceAs (Decidable (_ ∧ _))

/-- No address lies in both spans. -/
def Apart (s t : Span) : Prop := ∀ x, s.Contains x → ¬ t.Contains x

theorem Apart.ordered {s t : Span} (h : s.Apart t) (hs : 0 < s.length) (ht : 0 < t.length) :
    s.start + s.length ≤ t.start ∨ t.start + t.length ≤ s.start := by
  by_contra overlap
  have first := h s.start
  have second := h t.start
  simp only [Contains] at first second
  omega

end Span

/-- The number of spans an address lies in. -/
def coverage (spans : List Span) (x : ℕ) : ℕ := spans.countP fun s => s.Contains x

@[simp] theorem coverage_nil (x : ℕ) : coverage [] x = 0 := rfl

@[simp] theorem coverage_cons (s : Span) (spans : List Span) (x : ℕ) :
    coverage (s :: spans) x = coverage spans x + if s.Contains x then 1 else 0 := by
  simp [coverage, List.countP_cons]

@[simp] theorem coverage_append (spans spans' : List Span) (x : ℕ) :
    coverage (spans ++ spans') x = coverage spans x + coverage spans' x :=
  List.countP_append

theorem coverage_perm {spans spans' : List Span} (h : spans.Perm spans') (x : ℕ) :
    coverage spans x = coverage spans' x :=
  h.countP_eq _

theorem contains_split (start n m x : ℕ) :
    (if (⟨start, n + m⟩ : Span).Contains x then 1 else 0) =
      (if (⟨start, n⟩ : Span).Contains x then 1 else 0) +
        if (⟨start + n, m⟩ : Span).Contains x then 1 else 0 := by
  have split : (⟨start, n + m⟩ : Span).Contains x ↔
      (⟨start, n⟩ : Span).Contains x ∨ (⟨start + n, m⟩ : Span).Contains x := by
    simp only [Span.Contains]
    omega
  by_cases first : (⟨start, n⟩ : Span).Contains x
  · have notSecond : ¬ (⟨start + n, m⟩ : Span).Contains x := by
      simp only [Span.Contains] at first ⊢
      omega
    rw [if_pos (split.mpr (.inl first)), if_pos first, if_neg notSecond]
  · by_cases second : (⟨start + n, m⟩ : Span).Contains x
    · rw [if_pos (split.mpr (.inr second)), if_neg first, if_pos second]
    · rw [if_neg (fun h => (split.mp h).elim first second), if_neg first, if_neg second]

variable {spans : List Span}

theorem coverage_pos {s : Span} {x : ℕ} (member : s ∈ spans)
    (inside : s.Contains x) : 0 < coverage spans x :=
  List.countP_pos_iff.mpr ⟨s, member, by simpa using inside⟩

theorem coverage_le_one (apart : spans.Pairwise Span.Apart) (x : ℕ) :
    coverage spans x ≤ 1 := by
  induction apart with
  | nil => exact Nat.zero_le 1
  | @cons s spans first _ ih =>
    rw [coverage_cons]
    by_cases inside : s.Contains x
    · have other : coverage spans x = 0 := List.countP_eq_zero.mpr fun t member => by
        simpa using first t member x inside
      rw [other, if_pos inside]
    · rw [if_neg inside]
      exact ih

/-- The lengths of spans that lie in a range count the addresses they cover there. -/
theorem sum_coverage {a b : ℕ}
    (inside : ∀ s ∈ spans, a ≤ s.start ∧ s.start + s.length ≤ b) :
    ∑ x ∈ Finset.Ico a b, coverage spans x = (spans.map Span.length).sum := by
  induction spans with
  | nil => simp
  | cons s spans ih =>
    have covered : (Finset.Ico a b).filter s.Contains = Finset.Ico s.start (s.start + s.length) := by
      have := inside s List.mem_cons_self
      ext x
      simp only [Finset.mem_filter, Finset.mem_Ico, Span.Contains]
      omega
    have rest := ih fun t member => inside t (List.mem_cons_of_mem _ member)
    simp only [coverage_cons, Finset.sum_add_distrib, rest, Finset.sum_boole, covered,
      Nat.card_Ico, List.map_cons, List.sum_cons, Nat.cast_id]
    omega

theorem sum_length_le {a b : ℕ} (apart : spans.Pairwise Span.Apart)
    (inside : ∀ s ∈ spans, a ≤ s.start ∧ s.start + s.length ≤ b) :
    (spans.map Span.length).sum ≤ b - a := by
  calc (spans.map Span.length).sum
      = ∑ x ∈ Finset.Ico a b, coverage spans x := (sum_coverage inside).symm
    _ ≤ ∑ _x ∈ Finset.Ico a b, 1 := Finset.sum_le_sum fun x _ => coverage_le_one apart x
    _ = b - a := by simp

/-- The spans cover every address of the range once, and no other address. -/
def Tiles (spans : List Span) (range : Span) : Prop :=
  ∀ x, coverage spans x = if range.Contains x then 1 else 0

namespace Tiles

variable {spans spans' : List Span} {range s t : Span}

theorem congr (h : Tiles spans range) (same : ∀ x, coverage spans' x = coverage spans x) :
    Tiles spans' range :=
  fun x => (same x).trans (h x)

theorem perm (h : Tiles spans range) (p : spans'.Perm spans) : Tiles spans' range :=
  h.congr (coverage_perm p)

theorem pairwise (h : Tiles spans range) : spans.Pairwise Span.Apart := by
  have bounded : ∀ x, coverage spans x ≤ 1 := fun x => by
    rw [h x]
    split <;> omega
  clear h
  induction spans with
  | nil => exact .nil
  | cons s spans ih =>
    refine List.pairwise_cons.mpr ⟨fun t member x hs ht => ?_, ih fun x => ?_⟩
    · have both := bounded x
      rw [coverage_cons, if_pos hs] at both
      have covered := coverage_pos member ht
      omega
    · have both := bounded x
      rw [coverage_cons] at both
      omega

end Tiles

/-- Consecutive spans of one length tile the range they fill. -/
theorem tiles_progression (start length : ℕ) (count : ℕ) :
    Tiles ((List.range count).map fun i => ⟨start + i * length, length⟩) ⟨start, count * length⟩ := by
  intro x
  induction count with
  | zero => simp [Span.Contains]
  | succ count ih =>
    have whole := contains_split start (count * length) length x
    rw [List.range_succ, List.map_append, coverage_append, ih, Nat.succ_mul, whole]
    simp
