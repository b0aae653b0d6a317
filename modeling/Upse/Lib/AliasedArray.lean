import Mathlib.Data.List.Forall2
import Mathlib.Logic.Function.Basic

/-!
# An array seen through aliases

The cells of an array are accessed through addresses.  Several addresses may name one cell, an address
may name none, where reads see one fixed value and writes are dropped, and an address may be refused.
`Window` is a state that holds such an array; `load` and `store` access one cell, `loads` and `stores`
one after the other.  What a sequence of stores leaves is seen through every name of a cell that it
writes, and nothing else changes.
-/

/-- A state that holds an array, what its addresses name, and what is read where they name nothing. -/
structure Window (σ ε A C V : Type) [DecidableEq C] where
  cell : σ → A → Except ε (Option C)
  contents : σ → C → V
  put : C → V → σ → σ
  floating : V
  cell_put : ∀ c v s, cell (put c v s) = cell s
  contents_put : ∀ c v s, contents (put c v s) = Function.update (contents s) c v

namespace Window

variable {σ ε A C V : Type} [DecidableEq C] (w : Window σ ε A C V)

/-- What a name reads as. -/
def read (s : σ) : Option C → V
  | some c => w.contents s c
  | none => w.floating

/-- The state after a write through a name. -/
def write (v : V) (s : σ) : Option C → σ
  | some c => w.put c v s
  | none => s

/-- Reads through an address. -/
def load (s : σ) (a : A) : Except ε V := (w.cell s a).map (w.read s)

/-- Writes through an address. -/
def store (a : A) (v : V) (s : σ) : Except ε σ := (w.cell s a).map (w.write v s)

/-- Reads through addresses in order. -/
def loads (s : σ) : List A → Except ε (List V)
  | [] => .ok []
  | a :: as => do
    let v ← w.load s a
    let vs ← loads s as
    return v :: vs

/-- Writes through addresses in order. -/
def stores : List (A × V) → σ → Except ε σ
  | [], s => .ok s
  | (a, v) :: rest, s => do
    let s ← w.store a v s
    stores rest s

variable {w} {s t : σ} {a b : A} {c : C} {v : V} {entries : List (A × V)}

theorem store_eq_ok : w.store a v s = .ok t ↔ ∃ name, w.cell s a = .ok name ∧ t = w.write v s name := by
  unfold store
  cases w.cell s a with
  | error e => exact ⟨nofun, fun ⟨_, named, _⟩ => nomatch named⟩
  | ok name =>
    constructor
    · intro h
      exact ⟨name, rfl, (Except.ok.inj h).symm⟩
    · rintro ⟨_, named, rfl⟩
      cases named
      rfl

theorem cell_write (name : Option C) : w.cell (w.write v s name) = w.cell s := by
  cases name with
  | none => rfl
  | some c => exact w.cell_put c v s

theorem contents_write_other {name : Option C} (other : name ≠ some c) :
    w.contents (w.write v s name) c = w.contents s c := by
  cases name with
  | none => rfl
  | some d =>
    have apart : c ≠ d := fun same => other (congrArg some same.symm)
    rw [write, w.contents_put, Function.update_of_ne apart]

theorem cell_stores (h : w.stores entries s = .ok t) : w.cell t = w.cell s := by
  induction entries generalizing s with
  | nil => cases h; rfl
  | cons entry rest ih =>
    obtain ⟨a, v⟩ := entry
    cases first : w.store a v s with
    | error e => rw [stores, first] at h; cases h
    | ok u =>
      rw [stores, first] at h
      obtain ⟨name, -, rfl⟩ := store_eq_ok.mp first
      rw [ih h, cell_write]

theorem rest_stores {R : Type} {rest : σ → R} (kept : ∀ c v s, rest (w.put c v s) = rest s)
    (h : w.stores entries s = .ok t) : rest t = rest s := by
  induction entries generalizing s with
  | nil => cases h; rfl
  | cons entry others ih =>
    obtain ⟨a, v⟩ := entry
    cases first : w.store a v s with
    | error e => rw [stores, first] at h; cases h
    | ok u =>
      rw [stores, first] at h
      obtain ⟨name, -, rfl⟩ := store_eq_ok.mp first
      rw [ih h]
      cases name with
      | none => rfl
      | some c => exact kept c v s

theorem contents_stores_other (h : w.stores entries s = .ok t)
    (other : ∀ entry ∈ entries, w.cell s entry.1 ≠ .ok (some c)) : w.contents t c = w.contents s c := by
  induction entries generalizing s with
  | nil => cases h; rfl
  | cons entry rest ih =>
    obtain ⟨a, v⟩ := entry
    cases first : w.store a v s with
    | error e => rw [stores, first] at h; cases h
    | ok u =>
      rw [stores, first] at h
      obtain ⟨name, named, rfl⟩ := store_eq_ok.mp first
      have unnamed : name ≠ some c := by
        rintro rfl
        exact other _ List.mem_cons_self named
      rw [ih h fun entry member => by
        rw [cell_write]
        exact other entry (List.mem_cons_of_mem _ member), contents_write_other unnamed]

theorem contents_stores (h : w.stores entries s = .ok t)
    (apart : entries.Pairwise fun x y => w.cell s x.1 = .ok (some c) → w.cell s y.1 ≠ .ok (some c))
    (member : (a, v) ∈ entries) (named : w.cell s a = .ok (some c)) : w.contents t c = v := by
  induction entries generalizing s with
  | nil => cases member
  | cons entry rest ih =>
    obtain ⟨b, x⟩ := entry
    rw [List.pairwise_cons] at apart
    cases first : w.store b x s with
    | error e => rw [stores, first] at h; cases h
    | ok u =>
      rw [stores, first] at h
      obtain ⟨name, names, rfl⟩ := store_eq_ok.mp first
      rcases List.mem_cons.mp member with same | later
      · cases same
        cases names.symm.trans named
        rw [contents_stores_other h fun entry member => by
          rw [cell_write]
          exact apart.1 entry member named]
        rw [write, w.contents_put, Function.update_self]
      · refine ih h ?_ later (by rw [cell_write]; exact named)
        simpa only [cell_write] using apart.2

/-- Where an address is not a name of a cell that was stored, it reads as before. -/
theorem load_stores_other (h : w.stores entries s = .ok t)
    (other : ∀ entry ∈ entries, ∀ c, w.cell s entry.1 = .ok (some c) → w.cell s b ≠ .ok (some c)) :
    w.load t b = w.load s b := by
  unfold load
  rw [cell_stores h]
  cases named : w.cell s b with
  | error e => rfl
  | ok name =>
    cases name with
    | none => rfl
    | some c =>
      have kept := contents_stores_other h fun entry member names => other entry member c names named
      exact congrArg Except.ok kept

theorem load_stores (h : w.stores entries s = .ok t)
    (apart : entries.Pairwise fun x y => w.cell s x.1 = .ok (some c) → w.cell s y.1 ≠ .ok (some c))
    (member : (a, v) ∈ entries) (named : w.cell s a = .ok (some c)) (other : w.cell s b = .ok (some c)) :
    w.load t b = .ok v := by
  unfold load
  rw [cell_stores h, other]
  exact congrArg Except.ok (contents_stores h apart member named)

/-! ### Addresses whose names are known -/

theorem loads_named {as : List A} {names : List (Option C)}
    (named : List.Forall₂ (fun a name => w.cell s a = .ok name) as names) :
    w.loads s as = .ok (names.map (w.read s)) := by
  induction named with
  | nil => rfl
  | cons first _ ih =>
    rw [loads, load, first, ih]
    rfl

theorem stores_named {as : List A} {names : List (Option C)}
    (named : List.Forall₂ (fun a name => w.cell s a = .ok name) as names) (vs : List V) :
    w.stores (as.zip vs) s = .ok ((names.zip vs).foldl (fun s entry => w.write entry.2 s entry.1) s) := by
  obtain ⟨cell, same⟩ : ∃ cell, w.cell s = cell := ⟨_, rfl⟩
  rw [same] at named
  induction named generalizing s vs with
  | nil => rfl
  | cons first rest ih =>
    cases vs with
    | nil => rfl
    | cons v vs =>
      rw [List.zip_cons_cons, stores, store, same, first]
      exact ih vs ((cell_write _).trans same)

theorem stores_accepted (accepted : ∀ entry ∈ entries, ∃ name, w.cell s entry.1 = .ok name) :
    ∃ t, w.stores entries s = .ok t := by
  induction entries generalizing s with
  | nil => exact ⟨s, rfl⟩
  | cons entry rest ih =>
    obtain ⟨name, named⟩ := accepted entry List.mem_cons_self
    rw [stores, store, named]
    refine ih fun other member => ?_
    rw [cell_write]
    exact accepted other (List.mem_cons_of_mem _ member)

end Window
