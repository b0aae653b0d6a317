import Mathlib.Data.List.Nodup
import Mathlib.Data.Nat.Notation

/-!
# Linked lists in a memory of next pointers

`Path next a l` says that following `next` from `a` visits exactly the addresses `l` and ends at the
null address `0`.
-/

namespace NextPath

variable {next next' : ℕ → ℕ} {a b p : ℕ} {l front back : List ℕ}

/-- Following `next` from an address visits these addresses, none of them null, and ends at null. -/
def Path (next : ℕ → ℕ) : ℕ → List ℕ → Prop
  | a, [] => a = 0
  | a, b :: l => a = b ∧ b ≠ 0 ∧ Path next (next b) l

theorem Path.ne_zero (h : Path next a l) (member : b ∈ l) : b ≠ 0 := by
  induction l generalizing a with
  | nil => cases member
  | cons c l ih =>
    rcases List.mem_cons.mp member with rfl | rest
    · exact h.2.1
    · exact ih h.2.2 rest

theorem Path.congr (h : Path next a l) (same : ∀ b ∈ l, next' b = next b) : Path next' a l := by
  induction l generalizing a with
  | nil => exact h
  | cons c l ih =>
    refine ⟨h.1, h.2.1, ?_⟩
    rw [same c List.mem_cons_self]
    exact ih h.2.2 fun b member => same b (List.mem_cons_of_mem _ member)

theorem Path.successor (h : Path next a l) (member : p ∈ l) (leads : next p = b) (some : b ≠ 0) :
    ∃ front back, l = front ++ p :: b :: back := by
  induction l generalizing a with
  | nil => cases member
  | cons c l ih =>
    obtain ⟨-, -, rest⟩ := h
    rcases List.mem_cons.mp member with rfl | later
    · rw [leads] at rest
      cases l with
      | nil => exact absurd rest some
      | cons d l =>
        obtain rfl := rest.1
        exact ⟨[], l, rfl⟩
    · obtain ⟨front, back, rfl⟩ := ih rest later
      exact ⟨c :: front, back, rfl⟩

/-- Taking out an address other than the first: the pointer before it gets its successor. -/
theorem Path.unlink (h : Path next a (front ++ p :: b :: back))
    (bypass : next' p = next b) (same : ∀ c ∈ front ++ back, next' c = next c) : Path next' a (front ++ p :: back) := by
  induction front generalizing a with
  | nil =>
    obtain ⟨rfl, some, -, -, rest⟩ := h
    refine ⟨rfl, some, ?_⟩
    rw [bypass]
    exact rest.congr same
  | cons c front ih =>
    obtain ⟨rfl, some, rest⟩ := h
    refine ⟨rfl, some, ?_⟩
    rw [same a List.mem_cons_self]
    exact ih rest fun d member => same d (List.mem_cons_of_mem _ member)

end NextPath
