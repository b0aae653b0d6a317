import Mathlib.Data.Nat.Notation

/-!
# Programs that may panic

A program returns a value or an error, or it panics at a step that it does not check.  `Safe P x` says
that `x` does not panic and that what it returns satisfies `P`; its rules follow the structure of a
program, so that each unchecked step meets what the steps before it have established.
-/

namespace Panics

/-- An error the program returns, or a panic. -/
inductive Stop (ε : Type) where
  | error (e : ε)
  | panic
  deriving DecidableEq, Repr

/-- Programs that return errors and may panic. -/
abbrev MayPanic (ε : Type) := Except (Stop ε)

variable {ε α β : Type}

/-- `expect`, and what stands for it: an index in bounds, an addition without overflow. -/
def expect : Option α → MayPanic ε α
  | some a => .ok a
  | none => .error .panic

theorem expect_eq_ok {o : Option α} {a : α} : (expect o : MayPanic ε α) = .ok a ↔ o = some a := by
  cases o with
  | none => exact ⟨nofun, nofun⟩
  | some b => exact ⟨fun h => congrArg some (Except.ok.inj h), fun h => congrArg _ (Option.some.inj h)⟩

/-- The program does not panic, and what it returns satisfies the predicate. -/
def Safe (P : α → Prop) : MayPanic ε α → Prop
  | .ok a => P a
  | .error (.error _) => True
  | .error .panic => False

section Rules

variable {P : α → Prop} {Q : β → Prop} {x : MayPanic ε α} {f : α → MayPanic ε β}

theorem Safe.ne_panic (h : Safe P x) : x ≠ .error .panic := by
  rintro rfl
  exact h

theorem Safe.of_ok {a : α} (h : Safe P x) (same : x = .ok a) : P a := by
  subst same
  exact h

theorem Safe.mono {P' : α → Prop} (h : Safe P x) (le : ∀ a, P a → P' a) : Safe P' x := by
  match x, h with
  | .ok a, h => exact le a h
  | .error (.error _), _ => trivial

theorem Safe.bind (h : Safe P x) (next : ∀ a, P a → Safe Q (f a)) : Safe Q (x >>= f) := by
  match x, h with
  | .ok a, h => exact next a h
  | .error (.error _), _ => trivial

theorem Safe.ite {c : Prop} [Decidable c] {y : MayPanic ε α} (yes : c → Safe P x) (no : ¬ c → Safe P y) :
    Safe P (if c then x else y) := by
  split
  next h => exact yes h
  next h => exact no h

theorem safe_expect_bind {o : Option α} {a : α} (found : o = some a) (next : Safe Q (f a)) :
    Safe Q (expect o >>= f) := by
  subst found
  exact next

theorem safe_mapError_bind {φ : Type} {y : Except φ α} {g : φ → ε}
    (next : ∀ a, y = .ok a → Safe Q (f a)) :
    Safe Q (y.mapError (fun e => Stop.error (g e)) >>= f) := by
  cases y with
  | error e => trivial
  | ok a => exact next a rfl

theorem safe_mapM {items : List α} (each : ∀ item ∈ items, Safe Q (f item)) :
    Safe (fun results => results.length = items.length ∧ ∀ result ∈ results, Q result)
      (items.mapM f) := by
  induction items with
  | nil => exact ⟨rfl, nofun⟩
  | cons item items ih =>
    rw [List.mapM_cons]
    refine (each item List.mem_cons_self).bind fun result good => ?_
    refine (ih fun other member => each other (List.mem_cons_of_mem _ member)).bind fun results all => ?_
    exact ⟨congrArg (· + 1) all.1, List.forall_mem_cons.mpr ⟨good, all.2⟩⟩

theorem safe_foldlM {I : β → Prop} {items : List α} {g : β → α → MayPanic ε β} {b : β}
    (each : ∀ item ∈ items, ∀ b, I b → Safe I (g b item)) (start : I b) :
    Safe I (items.foldlM g b) := by
  induction items generalizing b with
  | nil => exact start
  | cons item items ih =>
    rw [List.foldlM_cons]
    refine (each item List.mem_cons_self b start).bind fun b' good => ?_
    exact ih (fun other member => each other (List.mem_cons_of_mem _ member)) good

theorem safe_forM {items : List α} {g : α → MayPanic ε PUnit}
    (each : ∀ item ∈ items, Safe (fun _ => True) (g item)) : Safe (fun _ => True) (items.forM g) := by
  induction items with
  | nil => trivial
  | cons item items ih =>
    show Safe _ (g item >>= fun _ => items.forM g)
    exact (each item List.mem_cons_self).bind fun _ _ =>
      ih fun other member => each other (List.mem_cons_of_mem _ member)

end Rules

end Panics
