import Mathlib.Data.List.Sort
import Mathlib.Order.Defs.LinearOrder

/-!
# Ordered maps as lists with strictly ascending keys

An ordered map keeps its entries by ascending key, one for each key, so that what it holds for a key
and which entries it lists are the same thing.
-/

/-- A finite map kept as the list of its entries by strictly ascending key. -/
structure SortedMap (K V : Type) [LinearOrder K] where
  entries : List (K × V)
  sorted : entries.Pairwise fun a b => a.1 < b.1

namespace SortedMap

variable {K V : Type} [LinearOrder K] {m : SortedMap K V} {k k' : K} {v : V}

/-- The map without entries. -/
def empty : SortedMap K V := ⟨[], List.Pairwise.nil⟩

/-- What the map holds for a key. -/
def get? (m : SortedMap K V) (k : K) : Option V := (m.entries.find? (·.1 = k)).map Prod.snd

theorem eq_of_mem {a b : K × V} (ha : a ∈ m.entries) (hb : b ∈ m.entries) (same : a.1 = b.1) :
    a = b := by
  have keys : (m.entries.map Prod.fst).Nodup := List.pairwise_map.mpr (m.sorted.imp ne_of_lt)
  exact List.inj_on_of_nodup_map keys ha hb same

theorem get?_eq_some : m.get? k = some v ↔ (k, v) ∈ m.entries := by
  unfold get?
  rw [Option.map_eq_some_iff]
  constructor
  · rintro ⟨entry, found, rfl⟩
    have same : entry.1 = k := by simpa using List.find?_some found
    rw [← same]
    exact List.mem_of_find?_eq_some found
  · intro mem
    obtain ⟨entry, found⟩ : ∃ entry, m.entries.find? (·.1 = k) = some entry :=
      Option.isSome_iff_exists.mp (List.find?_isSome.mpr ⟨_, mem, decide_eq_true rfl⟩)
    have same : entry.1 = k := by simpa using List.find?_some found
    rw [eq_of_mem (List.mem_of_find?_eq_some found) mem same] at found
    exact ⟨_, found, rfl⟩

@[simp] theorem get?_empty : (empty : SortedMap K V).get? k = none := rfl

/-- Puts an entry at its place, instead of one of the same key. -/
def insert (k : K) (v : V) (m : SortedMap K V) : SortedMap K V where
  entries := m.entries.filter (·.1 < k) ++ (k, v) :: m.entries.filter (k < ·.1)
  sorted := by
    rw [List.pairwise_append, List.pairwise_cons]
    refine ⟨m.sorted.filter _, ⟨fun b mem => ?_, m.sorted.filter _⟩, fun a mem b mem' => ?_⟩
    · exact of_decide_eq_true (List.mem_filter.mp mem).2
    · have below : a.1 < k := of_decide_eq_true (List.mem_filter.mp mem).2
      rcases List.mem_cons.mp mem' with rfl | mem'
      · exact below
      · exact below.trans (of_decide_eq_true (List.mem_filter.mp mem').2)

theorem mem_insert {entry : K × V} :
    entry ∈ (m.insert k v).entries ↔ entry = (k, v) ∨ entry.1 ≠ k ∧ entry ∈ m.entries := by
  unfold insert
  rw [List.mem_append, List.mem_cons, List.mem_filter, List.mem_filter, decide_eq_true_iff,
    decide_eq_true_iff]
  constructor
  · rintro (⟨mem, lt⟩ | rfl | ⟨mem, lt⟩)
    · exact .inr ⟨lt.ne, mem⟩
    · exact .inl rfl
    · exact .inr ⟨lt.ne', mem⟩
  · rintro (rfl | ⟨other, mem⟩)
    · exact .inr (.inl rfl)
    · rcases other.lt_or_gt with lt | lt
      · exact .inl ⟨mem, lt⟩
      · exact .inr (.inr ⟨mem, lt⟩)

@[simp] theorem get?_insert : (m.insert k v).get? k' = if k' = k then some v else m.get? k' := by
  apply Option.ext
  intro w
  rw [get?_eq_some, mem_insert]
  split
  next same =>
    subst same
    simp [eq_comm]
  next other => simp [other, get?_eq_some]

/-- Keeps the entries whose keys satisfy a predicate. -/
def retain (keep : K → Bool) (m : SortedMap K V) : SortedMap K V :=
  ⟨m.entries.filter (keep ·.1), m.sorted.filter _⟩

@[simp] theorem get?_retain {keep : K → Bool} :
    (m.retain keep).get? k = if keep k then m.get? k else none := by
  apply Option.ext
  intro w
  rw [get?_eq_some, retain, List.mem_filter]
  split
  next kept => simp [kept, get?_eq_some]
  next dropped => simp [dropped]

/-- Removes the entry of a key. -/
def erase (k : K) (m : SortedMap K V) : SortedMap K V := m.retain (· ≠ k)

@[simp] theorem get?_erase : (m.erase k).get? k' = if k' = k then none else m.get? k' := by
  rw [erase, get?_retain]
  by_cases same : k' = k <;> simp [same]

end SortedMap

/-!
## Ordered sets as strictly ascending lists

An ordered set keeps its members in a strictly ascending list, so that it is determined by its
members, its first member is the least one, and removing members never disturbs the order.
-/

/-- A finite set kept as the strictly ascending list of its members. -/
structure SortedSet (α : Type) [LinearOrder α] where
  toList : List α
  sorted : toList.Pairwise (· < ·)

namespace SortedSet

variable {α : Type} [LinearOrder α]

@[ext] theorem ext_toList {s t : SortedSet α} (h : s.toList = t.toList) : s = t := by
  cases s
  cases t
  congr

instance : DecidableEq (SortedSet α) := fun s t =>
  decidable_of_iff (s.toList = t.toList) ⟨ext_toList, congrArg toList⟩

instance : Membership α (SortedSet α) := ⟨fun s a => a ∈ s.toList⟩

variable {s : SortedSet α}

theorem mem_def {a : α} : a ∈ s ↔ a ∈ s.toList := Iff.rfl

instance (a : α) (s : SortedSet α) : Decidable (a ∈ s) :=
  inferInstanceAs (Decidable (a ∈ s.toList))

/-- The set without members. -/
def empty : SortedSet α := ⟨[], List.Pairwise.nil⟩

@[simp] theorem toList_empty : (empty : SortedSet α).toList = [] := rfl

@[simp] theorem notMem_empty (a : α) : a ∉ (empty : SortedSet α) := by simp [mem_def]

theorem sorted_orderedInsert {a : α} {l : List α} (h : l.Pairwise (· < ·)) (ha : a ∉ l) :
    (l.orderedInsert (· ≤ ·) a).Pairwise (· < ·) := by
  have weak : (l.orderedInsert (· ≤ ·) a).Pairwise (· ≤ ·) :=
    (h.imp le_of_lt).orderedInsert _ _
  have nodup : (l.orderedInsert (· ≤ ·) a).Nodup :=
    (List.perm_orderedInsert (· ≤ ·) a l).nodup_iff.mpr
      (List.nodup_cons.mpr ⟨ha, h.imp ne_of_lt⟩)
  exact (List.pairwise_and_iff.mpr ⟨weak, nodup⟩).imp fun h => lt_of_le_of_ne h.1 h.2

/-- Adds a member at its place. -/
def insert (a : α) (s : SortedSet α) : SortedSet α :=
  if h : a ∈ s.toList then s
  else ⟨s.toList.orderedInsert (· ≤ ·) a, sorted_orderedInsert s.sorted h⟩

@[simp] theorem mem_insert {a b : α} : b ∈ s.insert a ↔ b = a ∨ b ∈ s := by
  unfold insert
  split
  · constructor
    · exact Or.inr
    · rintro (rfl | h)
      · assumption
      · exact h
  · simp [mem_def]

theorem insert_of_mem {a : α} (h : a ∈ s) : s.insert a = s := dif_pos h

/-- Removes a member. -/
def erase (a : α) (s : SortedSet α) : SortedSet α :=
  ⟨s.toList.filter (· ≠ a), s.sorted.filter _⟩

@[simp] theorem mem_erase {a b : α} : b ∈ s.erase a ↔ b ≠ a ∧ b ∈ s := by
  simp [erase, mem_def, and_comm]

/-- Keeps the members that satisfy a predicate. -/
def retain (keep : α → Bool) (s : SortedSet α) : SortedSet α :=
  ⟨s.toList.filter keep, s.sorted.filter _⟩

@[simp] theorem mem_retain {keep : α → Bool} {b : α} :
    b ∈ s.retain keep ↔ b ∈ s ∧ keep b = true := by
  simp [retain, mem_def]

/-- The least member. -/
def first (s : SortedSet α) : Option α := s.toList.head?

theorem first_eq_none : s.first = none ↔ s.toList = [] := by
  simp [first]

theorem first_mem {a : α} (h : s.first = some a) : a ∈ s :=
  List.mem_of_mem_head? h

theorem first_le {a b : α} (h : s.first = some a) (hb : b ∈ s) : a ≤ b := by
  obtain ⟨l, hl⟩ := List.head?_eq_some_iff.mp h
  have sorted := s.sorted
  rw [mem_def, hl] at hb
  rw [hl, List.pairwise_cons] at sorted
  rcases List.mem_cons.mp hb with rfl | hb
  · exact le_rfl
  · exact (sorted.1 b hb).le

theorem toList_erase_first {a : α} {l : List α} (h : s.toList = a :: l) :
    (s.erase a).toList = l := by
  have sorted := s.sorted
  rw [h, List.pairwise_cons] at sorted
  simp only [erase, h, List.filter_cons]
  rw [if_neg (by simp)]
  exact List.filter_eq_self.mpr fun b hb => decide_eq_true (sorted.1 b hb).ne'

end SortedSet
