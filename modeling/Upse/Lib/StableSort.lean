import Mathlib.Data.List.Pairwise
import Mathlib.Data.Nat.Notation
import Mathlib.Order.Defs.Unbundled

/-!
# Stable sorting by exchanges of neighbours

A total preorder leaves elements unseparated that are different.  `Sorts` says that a list holds the
elements of another in order, and the unseparated ones as they stood.  Insertion sort reaches it by
exchanging neighbours that are out of order: `Inserting` is what holds of an array before each of its
comparisons.
-/

namespace StableSort

variable {α : Type} {le : α → α → Prop} [DecidableRel le]

/-- The elements of a list, those that the order does not separate as they stood. -/
structure Rearranges (le : α → α → Prop) [DecidableRel le] (l l' : List α) : Prop where
  perm : l'.Perm l
  stable : ∀ x, l'.filter (fun y => le x y ∧ le y x) = l.filter fun y => le x y ∧ le y x

/-- The stable arrangement of a list in order. -/
structure Sorts (le : α → α → Prop) [DecidableRel le] (l l' : List α) : Prop
    extends Rearranges le l l' where
  sorted : l'.Pairwise le

theorem Rearranges.refl (l : List α) : Rearranges le l l := ⟨.refl l, fun _ => rfl⟩

theorem Rearranges.trans {l m r : List α} (first : Rearranges le l m) (second : Rearranges le m r) :
    Rearranges le l r :=
  ⟨second.perm.trans first.perm, fun x => (second.stable x).trans (first.stable x)⟩

/-- Two neighbours out of order are separated by the order, so that they may be exchanged. -/
theorem rearranges_exchange [IsTrans α le] {x y : α} (out : ¬ le x y) (before after : List α) :
    Rearranges le (before ++ x :: y :: after) (before ++ y :: x :: after) := by
  refine ⟨(List.Perm.swap x y after).append_left before, fun z => ?_⟩
  have apart : ¬ ((le z x ∧ le x z) ∧ le z y ∧ le y z) := by
    rintro ⟨⟨-, first⟩, second, -⟩
    exact out (IsTrans.trans _ _ _ first second)
  simp only [List.filter_append, List.filter_cons]
  by_cases left : le z x ∧ le x z
  · have right : ¬ (le z y ∧ le y z) := fun right => apart ⟨left, right⟩
    simp [left, right]
  · simp [left]

/-! ### Arrays -/

/-- The first elements of an array. -/
def listed (c : ℕ → α) (n : ℕ) : List α := (List.range n).map c

/-- The array with two neighbours exchanged. -/
structure Exchanged (n k : ℕ) (c c' : ℕ → α) : Prop where
  low : c' k = c (k + 1)
  high : c' (k + 1) = c k
  others : ∀ i < n, i ≠ k → i ≠ k + 1 → c' i = c i

theorem listed_neighbours (c : ℕ → α) {n k : ℕ} (inside : k + 1 < n) :
    listed c n = listed c k ++ c k :: c (k + 1) :: (List.range' (k + 2) (n - (k + 2))).map c := by
  have split : List.range n = List.range k ++ k :: (k + 1) :: List.range' (k + 2) (n - (k + 2)) := by
    have length : n = k + (n - (k + 2) + 1 + 1) := by omega
    have parts := List.range'_append_1 (s := 0) (m := k) (n := n - (k + 2) + 1 + 1)
    rw [← length, Nat.zero_add, List.range'_succ, List.range'_succ] at parts
    rw [List.range_eq_range', List.range_eq_range']
    exact parts.symm
  rw [listed, split, List.map_append, List.map_cons, List.map_cons]
  rfl

theorem Exchanged.rearranges [IsTrans α le] {n k : ℕ} {c c' : ℕ → α} (h : Exchanged n k c c')
    (inside : k + 1 < n) (out : ¬ le (c k) (c (k + 1))) : Rearranges le (listed c n) (listed c' n) := by
  have front : listed c' k = listed c k := by
    refine List.map_congr_left fun i member => ?_
    have small := List.mem_range.mp member
    exact h.others i (by omega) (by omega) (by omega)
  have back : (List.range' (k + 2) (n - (k + 2))).map c' =
      (List.range' (k + 2) (n - (k + 2))).map c := by
    refine List.map_congr_left fun i member => ?_
    have bounds := List.mem_range'_1.mp member
    exact h.others i (by omega) (by omega) (by omega)
  rw [listed_neighbours c inside, listed_neighbours c' inside, front, back, h.low, h.high]
  exact rearranges_exchange out _ _

/-- The first elements of an array are in order. -/
def Ordered (le : α → α → Prop) (c : ℕ → α) (m : ℕ) : Prop := ∀ i j, i < j → j < m → le (c i) (c j)

omit [DecidableRel le] in
theorem Ordered.pairwise {c : ℕ → α} {n : ℕ} (h : Ordered le c n) : (listed c n).Pairwise le := by
  rw [listed, List.pairwise_map]
  exact List.pairwise_lt_range.imp_of_mem fun {i j} _ member lt => h i j lt (List.mem_range.mp member)

omit [DecidableRel le] in
theorem Ordered.le_of_le [Std.Total le] {c : ℕ → α} {m i j : ℕ} (h : Ordered le c m) (below : i ≤ j)
    (lt : j < m) : le (c i) (c j) := by
  rcases Nat.lt_or_eq_of_le below with before | rfl
  · exact h i j before lt
  · exact (Std.Total.total (r := le) (c i) (c i)).elim id id

/-! ### Insertion sort -/

/-- Before a comparison of insertion sort, the element at `inner` is on its way into the elements in
front of `outer`, which are in order but for it; those it has passed come after it. -/
structure Inserting (le : α → α → Prop) [DecidableRel le] (original : List α) (n : ℕ) (c : ℕ → α)
    (outer inner : ℕ) : Prop where
  rearranged : Rearranges le original (listed c n)
  positive : 0 < inner
  inner_le : inner ≤ outer
  outer_lt : outer < n
  ordered : ∀ i j, i < j → j ≤ outer → j ≠ inner → le (c i) (c j)

/-- The comparisons that bring insertion sort this far, at most. -/
def comparisons (outer inner : ℕ) : ℕ := outer * (outer - 1) / 2 + (outer - inner)

theorem comparisons_next (outer : ℕ) : comparisons (outer + 1) (outer + 1) = comparisons outer 0 := by
  have product : (outer + 1) * outer = outer * (outer - 1) + outer * 2 := by
    cases outer with
    | zero => rfl
    | succ n => rw [Nat.add_sub_cancel, ← Nat.mul_add, Nat.mul_comm]
  unfold comparisons
  rw [Nat.add_sub_cancel, product, Nat.add_mul_div_right _ _ (by decide)]
  omega

theorem comparisons_lt {outer inner : ℕ} (le : inner ≤ outer) (positive : 0 < inner) :
    comparisons outer inner < comparisons outer (inner - 1) := by
  unfold comparisons
  omega

theorem comparisons_self (n : ℕ) : comparisons n n = n * (n - 1) / 2 := by
  rw [comparisons, Nat.sub_self, Nat.add_zero]

/-- Insertion sort of `n` elements takes at most `n * (n - 1) / 2` comparisons. -/
theorem comparisons_lt_bound {outer inner n : ℕ} (positive : 0 < inner) (le : inner ≤ outer)
    (lt : outer < n) : comparisons outer inner < n * (n - 1) / 2 := by
  have round : comparisons outer inner < comparisons outer 0 := by
    unfold comparisons
    omega
  have last : comparisons (outer + 1) (outer + 1) ≤ n * (n - 1) / 2 := by
    rw [comparisons_self]
    exact Nat.div_le_div_right (Nat.mul_le_mul lt (Nat.sub_le_sub_right lt 1))
  rw [comparisons_next] at last
  omega

theorem Ordered.inserting {original : List α} {n m : ℕ} {c : ℕ → α} (h : Ordered le c m)
    (rearranged : Rearranges le original (listed c n)) (positive : 0 < m) (lt : m < n) :
    Inserting le original n c m m :=
  ⟨rearranged, positive, Nat.le_refl m, lt, fun i j below last other => h i j below (by omega)⟩

namespace Inserting

variable {original : List α} {n outer inner : ℕ} {c c' : ℕ → α}
  (h : Inserting le original n c outer inner)
include h

theorem arrived [IsTrans α le] (place : le (c (inner - 1)) (c inner)) : Ordered le c (outer + 1) := by
  intro i j below last
  have positive := h.positive
  by_cases here : j = inner
  · subst here
    by_cases neighbour : i = j - 1
    · rw [neighbour]
      exact place
    · have before := h.ordered i (j - 1) (by omega) (by have := h.inner_le; omega) (by omega)
      exact IsTrans.trans _ _ _ before place
  · exact h.ordered i j below (by omega) here

theorem pass [Std.Total le] (out : ¬ le (c (inner - 1)) (c inner))
    (exchanged : Exchanged n (inner - 1) c c') :
    ∀ i j, i < j → j ≤ outer → j ≠ inner - 1 → le (c' i) (c' j) := by
  have positive := h.positive
  have inner_le := h.inner_le
  have outer_lt := h.outer_lt
  have next : inner - 1 + 1 = inner := by omega
  have low : c' (inner - 1) = c inner := by rw [exchanged.low, next]
  have high : c' inner = c (inner - 1) := by rw [← exchanged.high, next]
  have others (i : ℕ) (small : i ≤ outer) (first : i ≠ inner - 1) (second : i ≠ inner) : c' i = c i :=
    exchanged.others i (by omega) first (by omega)
  intro i j below last other
  by_cases here : j = inner
  · rw [here, high]
    by_cases neighbour : i = inner - 1
    · rw [neighbour, low]
      exact (Std.Total.total _ _).resolve_left out
    · rw [others i (by omega) neighbour (by omega)]
      exact h.ordered i (inner - 1) (by omega) (by omega) (by omega)
  · rw [others j last other here]
    by_cases first : i = inner - 1
    · rw [first, low]
      exact h.ordered inner j (by omega) last here
    · by_cases second : i = inner
      · rw [second, high]
        exact h.ordered (inner - 1) j (by omega) last here
      · rw [others i (by omega) first second]
        exact h.ordered i j below last here

theorem rearranges_pass [IsTrans α le] (out : ¬ le (c (inner - 1)) (c inner))
    (exchanged : Exchanged n (inner - 1) c c') : Rearranges le original (listed c' n) := by
  have positive := h.positive
  have next : inner - 1 + 1 = inner := by omega
  refine h.rearranged.trans (exchanged.rearranges ?_ ?_)
  · have := h.inner_le
    have := h.outer_lt
    omega
  · rwa [next]

end Inserting

end StableSort
