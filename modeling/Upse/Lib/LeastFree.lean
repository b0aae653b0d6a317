import Mathlib.Data.Finset.Card
import Mathlib.Logic.Function.Basic
import Mathlib.Order.Bounds.Basic
import Upse.Lib.Runs

/-!
# Finite maps that name their entries by the least free identifier

What a table of entries under stable identifiers is for: a finite map over a fixed set of
identifiers, whose client lets it choose the least identifier without an entry, or names one itself.
`Step` says what each call does and what it answers; `noRoom` and `notFree` are the errors of a map
without a free identifier and of an identifier that is not free.
-/

namespace LeastFree

/-- A call of a client. -/
inductive Call (K V : Type) where
  | insert (value : V)
  | insertAt (id : K) (value : V)
  | remove (id : K)
  | clear

/-- What a call that succeeds returns. -/
inductive Reply (K V : Type) where
  | inserted (id : K)
  | placed
  | removed (value : Option V)
  | cleared

variable {K V ε : Type} {ids : Finset K} {m : K → Option V} {id : K}

/-- The identifiers a map has an entry for. -/
def live (ids : Finset K) (m : K → Option V) : Finset K := ids.filter fun id => (m id).isSome

/-- The identifiers a map has no entry for. -/
def free (ids : Finset K) (m : K → Option V) : Set K := {id | id ∈ ids ∧ m id = none}

theorem mem_live : id ∈ live ids m ↔ id ∈ ids ∧ m id ≠ none := by
  rw [live, Finset.mem_filter, Option.isSome_iff_ne_none]

/-- A map without a free identifier has an entry for each. -/
theorem live_eq_of_free (none_free : ∀ id, id ∉ free ids m) : live ids m = ids :=
  Finset.filter_true_of_mem fun id member =>
    Option.isSome_iff_ne_none.mpr fun absent => none_free id ⟨member, absent⟩

/-- One call, what it answers and the map it leaves. -/
inductive Step [DecidableEq K] [LE K] (ids : Finset K) (noRoom notFree : ε) :
    (K → Option V) → Call K V × Except ε (Reply K V) → (K → Option V) → Prop
  | insert {m : K → Option V} {id : K} (value : V) (least : IsLeast (free ids m) id) :
      Step ids noRoom notFree m (.insert value, .ok (.inserted id)) (Function.update m id (some value))
  | full {m : K → Option V} (value : V) (used : live ids m = ids) :
      Step ids noRoom notFree m (.insert value, .error noRoom) m
  | insertAt {m : K → Option V} {id : K} (value : V) (unused : id ∈ free ids m) :
      Step ids noRoom notFree m (.insertAt id value, .ok .placed) (Function.update m id (some value))
  | refuse {m : K → Option V} {id : K} (value : V) (taken : id ∉ free ids m) :
      Step ids noRoom notFree m (.insertAt id value, .error notFree) m
  | remove {m : K → Option V} (id : K) :
      Step ids noRoom notFree m (.remove id, .ok (.removed (m id))) (Function.update m id none)
  | clear {m : K → Option V} : Step ids noRoom notFree m (.clear, .ok .cleared) fun _ => none

end LeastFree
