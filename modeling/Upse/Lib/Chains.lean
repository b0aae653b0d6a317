import Mathlib.Data.Finset.Card
import Mathlib.Logic.Relation

/-!
# Chains of links

Each item stops a chain, leads to another item, or leads nowhere there is.  `Chain link i items` says
that following the links from `i` visits exactly `items` and stops.  A `Walk` is of a traversal that
replaces the links as it goes: at an item it comes back to, it follows the replacement.
-/

/-- Where an item leads: it stops the chain, leads to another item, or nowhere. -/
inductive Link (ι : Type) where
  | stop
  | next (i : ι)
  | broken
  deriving DecidableEq

namespace Link

variable {ι : Type} {link again : ι → Link ι} {i j k : ι} {items seen rest : List ι}

/-- Following the links from an item visits exactly these items, and stops at the last of them. -/
inductive Chain (link : ι → Link ι) : ι → List ι → Prop
  | stop {i : ι} (last : link i = .stop) : Chain link i [i]
  | next {i j : ι} {items : List ι} (leads : link i = .next j) (rest : Chain link j items) :
      Chain link i (i :: items)

/-- Following the links leads from an item to another. -/
def Follows (link : ι → Link ι) : ι → ι → Prop :=
  Relation.ReflTransGen fun i j => link i = .next j

/-- Following the links from an item comes to one that leads back to itself. -/
def Cyclic (link : ι → Link ι) (i : ι) : Prop :=
  ∃ j k, Follows link i j ∧ link j = .next k ∧ Follows link k j

/-- Following the links from an item comes to one that leads nowhere. -/
def Broken (link : ι → Link ι) (i : ι) : Prop := ∃ j, Follows link i j ∧ link j = .broken

theorem Chain.unique (first : Chain link i items) (second : Chain link i rest) : items = rest := by
  induction first generalizing rest with
  | stop last =>
    cases second with
    | stop => rfl
    | next leads => rw [last] at leads; cases leads
  | next leads _ ih =>
    cases second with
    | stop last => rw [last] at leads; cases leads
    | next leads' tail =>
      obtain rfl := Link.next.inj (leads.symm.trans leads')
      rw [ih tail]

theorem Chain.suffix (chain : Chain link i items) (member : j ∈ items) :
    ∃ rest, Chain link j rest ∧ rest <:+ items := by
  induction chain with
  | stop last =>
    obtain rfl := List.mem_singleton.mp member
    exact ⟨_, .stop last, List.suffix_refl _⟩
  | next leads tail ih =>
    rcases List.mem_cons.mp member with rfl | later
    · exact ⟨_, .next leads tail, List.suffix_refl _⟩
    · obtain ⟨rest, chain, suffix⟩ := ih later
      exact ⟨rest, chain, suffix.trans (List.suffix_cons _ _)⟩

theorem Chain.nodup (chain : Chain link i items) : items.Nodup := by
  induction chain with
  | stop => exact List.nodup_singleton _
  | @next i j items leads tail ih =>
    refine List.nodup_cons.mpr ⟨fun member => ?_, ih⟩
    obtain ⟨rest, chain, suffix⟩ := tail.suffix member
    have length := suffix.length_le
    rw [← (Chain.next leads tail).unique chain, List.length_cons] at length
    omega

/-- What the links lead to from an item of a chain is on the chain. -/
theorem Chain.of_follows (chain : Chain link i items) (follows : Follows link i j) :
    ∃ rest, Chain link j rest ∧ rest <:+ items := by
  induction follows with
  | refl => exact ⟨items, chain, List.suffix_refl _⟩
  | tail _ leads ih =>
    obtain ⟨rest, chain, suffix⟩ := ih
    cases chain with
    | stop last => rw [last] at leads; cases leads
    | next leads' tail =>
      obtain rfl := Link.next.inj (leads.symm.trans leads')
      exact ⟨_, tail, (List.suffix_cons _ _).trans suffix⟩

theorem Chain.not_broken (chain : Chain link i items) : ¬ Broken link i := by
  rintro ⟨j, follows, broken⟩
  obtain ⟨rest, chain, -⟩ := chain.of_follows follows
  cases chain with
  | stop last => rw [last] at broken; cases broken
  | next leads => rw [leads] at broken; cases broken

theorem Chain.not_cyclic (chain : Chain link i items) : ¬ Cyclic link i := by
  rintro ⟨j, k, follows, leads, back⟩
  obtain ⟨rest, chain, -⟩ := chain.of_follows follows
  cases chain with
  | stop last => rw [last] at leads; cases leads
  | next leads' tail =>
    obtain rfl := Link.next.inj (leads.symm.trans leads')
    obtain ⟨again, chain, suffix⟩ := tail.of_follows back
    have length := suffix.length_le
    rw [chain.unique (.next leads tail), List.length_cons] at length
    omega

section Finite

variable [DecidableEq ι]

/-- Among finitely many items, the links from one stop, break, or come round to an item again. -/
theorem chain_or_malformed {items : Finset ι} (inside : ∀ i j, link i = .next j → j ∈ items)
    (start : i ∈ items) : (∃ visited, Chain link i visited) ∨ Cyclic link i ∨ Broken link i := by
  -- `seen` are the items before the one reached; what is left of the items bounds the way on.
  have walk (left : ℕ) : ∀ seen : Finset ι, seen ⊆ items → items.card - seen.card = left →
      ∀ j ∈ items, Follows link i j → (∀ s ∈ seen, ∃ k, link s = .next k ∧ Follows link k j) →
      (∀ s ∈ seen, Follows link i s) →
      (∃ visited, Chain link j visited) ∨ Cyclic link i ∨ Broken link i := by
    induction left with
    | zero =>
      intro seen subset none j member _ back reached
      have all : seen = items := Finset.eq_of_subset_of_card_le subset (by omega)
      obtain ⟨k, leads, follows⟩ := back j (all ▸ member)
      exact .inr (.inl ⟨j, k, reached j (all ▸ member), leads, follows⟩)
    | succ left ih =>
      intro seen subset some j member follows back reached
      by_cases again : j ∈ seen
      · obtain ⟨k, leads, round⟩ := back j again
        exact .inr (.inl ⟨j, k, follows, leads, round⟩)
      · cases leads : link j with
        | stop => exact .inl ⟨_, .stop leads⟩
        | broken => exact .inr (.inr ⟨j, follows, leads⟩)
        | next k =>
          have result := ih (insert j seen) (Finset.insert_subset member subset)
            (by rw [Finset.card_insert_of_notMem again]; omega) k (inside j k leads)
            (follows.tail leads) ?_ ?_
          · rcases result with ⟨visited, chain⟩ | malformed
            · exact .inl ⟨_, .next leads chain⟩
            · exact .inr malformed
          · intro s member
            rcases Finset.mem_insert.mp member with rfl | before
            · exact ⟨k, leads, .refl⟩
            · obtain ⟨first, leads', way⟩ := back s before
              exact ⟨first, leads', way.tail leads⟩
          · intro s member
            rcases Finset.mem_insert.mp member with rfl | before
            · exact follows
            · exact reached s before
  exact walk _ ∅ (Finset.empty_subset _) rfl i start .refl (by simp) (by simp)

/-! ### Links replaced on the way -/

/-- The link of an item in a traversal that has been at `seen`. -/
def relink (link again : ι → Link ι) (seen : List ι) (i : ι) : Link ι :=
  if i ∈ seen then again i else link i

/-- A traversal visits these items and stops, where it follows `link` at the items it comes to first
and `again` at those it comes back to. -/
inductive Walk (link again : ι → Link ι) : List ι → ι → List ι → Prop
  | stop {seen : List ι} {i : ι} (last : relink link again seen i = .stop) :
      Walk link again seen i [i]
  | next {seen : List ι} {i j : ι} {items : List ι} (leads : relink link again seen i = .next j)
      (rest : Walk link again (i :: seen) j items) : Walk link again seen i (i :: items)

theorem Chain.walk (chain : Chain link i items) (fresh : ∀ j ∈ items, j ∉ seen) :
    Walk link again seen i items := by
  induction chain generalizing seen with
  | stop last => exact .stop (by rw [relink, if_neg (fresh _ List.mem_cons_self), last])
  | @next i j items leads tail ih =>
    refine .next (by rw [relink, if_neg (fresh _ List.mem_cons_self), leads]) (ih fun k member => ?_)
    have unseen := fresh k (List.mem_cons_of_mem _ member)
    have distinct := (List.nodup_cons.mp (Chain.next leads tail).nodup).1
    rw [List.mem_cons, not_or]
    exact ⟨fun same => distinct (same ▸ member), unseen⟩

theorem Walk.unique (first : Walk link again seen i items) (second : Walk link again seen i rest) :
    items = rest := by
  induction first generalizing rest with
  | stop last =>
    cases second with
    | stop => rfl
    | next leads => rw [last] at leads; cases leads
  | next leads _ ih =>
    cases second with
    | stop last => rw [last] at leads; cases leads
    | next leads' tail =>
      obtain rfl := Link.next.inj (leads.symm.trans leads')
      rw [ih tail]

/-- The traversal comes to an item, whether it stops or not. -/
inductive Reaches (link again : ι → Link ι) : List ι → ι → ι → Prop
  | here {seen : List ι} {i : ι} : Reaches link again seen i i
  | next {seen : List ι} {i j k : ι} (leads : relink link again seen i = .next j)
      (rest : Reaches link again (i :: seen) j k) : Reaches link again seen i k

/-- A traversal along links that agree wherever it comes to visits the same items. -/
theorem Walk.reaches {link' : ι → Link ι} (walk : Walk link again seen i items)
    (agree : ∀ k, Reaches link' again seen i k → link k = link' k) :
    ∀ k ∈ items, Reaches link' again seen i k := by
  induction walk with
  | stop =>
    intro k member
    obtain rfl := List.mem_singleton.mp member
    exact .here
  | @next seen i j items leads rest ih =>
    have same : relink link' again seen i = .next j := by
      unfold relink at leads ⊢
      rwa [← agree i .here]
    refine List.forall_mem_cons.mpr ⟨.here, fun k member => .next same (ih ?_ k member)⟩
    exact fun k reaches => agree k (.next same reaches)

end Finite

end Link
