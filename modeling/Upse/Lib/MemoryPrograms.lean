import Mathlib.Data.Nat.Notation

/-!
# Programs over a byte memory

A program loads and stores little-endian halfwords of a memory, and it panics where it indexes beyond
the memory or where its own checks fail.  It is kept as the tree of its accesses, so that the places
that it may touch are a property of the program, whatever the memory holds.
-/

namespace MemoryPrograms

/-- A halfword of the memory. -/
abbrev Halfword := BitVec 16

/-- A memory of `n` bytes. -/
abbrev Memory (n : ℕ) := Vector (BitVec 8) n

/-- A program, as the tree of its accesses. -/
inductive Program (α : Type) where
  | done (a : α)
  | panic
  | load (address : ℕ) (next : Halfword → Program α)
  | store (address : ℕ) (value : Halfword) (next : Program α)

variable {α β : Type}

namespace Program

/-- Sequencing. -/
def bind : Program α → (α → Program β) → Program β
  | done a, f => f a
  | panic, _ => panic
  | load address next, f => load address fun value => (next value).bind f
  | store address value next, f => store address value (next.bind f)

instance : Monad Program where
  pure := done
  bind := bind

@[simp] theorem pure_eq (a : α) : (pure a : Program α) = done a := rfl

@[simp] theorem done_bind (a : α) (f : α → Program β) : (done a >>= f) = f a := rfl

/-- `expect`, and what stands for it: a subtraction that does not wrap, an index in bounds. -/
def expect : Option α → Program α
  | some a => done a
  | none => panic

@[simp] theorem expect_some (a : α) : expect (some a) = done a := rfl

/-- A load of the halfword at an address. -/
def loadHalf (address : ℕ) : Program Halfword := load address done

/-- A store of a halfword at an address. -/
def storeHalf (address : ℕ) (value : Halfword) : Program Unit := store address value (done ())

/-- The program on a memory. -/
def run {n : ℕ} : Program α → Memory n → Option (α × Memory n)
  | done a, memory => some (a, memory)
  | panic, _ => none
  | load address next, memory =>
    if h : address + 1 < n then
      (next (memory[address + 1] ++ memory[address])).run memory
    else none
  | store address value next, memory =>
    if h : address + 1 < n then
      next.run ((memory.set address (value.setWidth 8)).set (address + 1) ((value >>> 8).setWidth 8))
    else none

/-- The program does not panic by itself, it touches addresses of `P` only, and what it returns
satisfies `Q`; all of it whatever the halfwords are that it loads. -/
def Confined (P : ℕ → Prop) (Q : α → Prop) : Program α → Prop
  | done a => Q a
  | panic => False
  | load address next => P address ∧ ∀ value, (next value).Confined P Q
  | store address _ next => P address ∧ next.Confined P Q

section Rules

variable {P : ℕ → Prop} {Q : α → Prop} {R : β → Prop} {p : Program α} {f : α → Program β}

theorem Confined.bind (h : p.Confined P Q) (next : ∀ a, Q a → (f a).Confined P R) :
    (p >>= f).Confined P R := by
  induction p with
  | done a => exact next a h
  | panic => exact h.elim
  | load address continues ih => exact ⟨h.1, fun value => ih value (h.2 value)⟩
  | store address value continues ih => exact ⟨h.1, ih h.2⟩

theorem Confined.mono {Q' : α → Prop} (h : p.Confined P Q) (le : ∀ a, Q a → Q' a) :
    p.Confined P Q' := by
  induction p with
  | done a => exact le a h
  | panic => exact h
  | load address continues ih => exact ⟨h.1, fun value => ih value (h.2 value)⟩
  | store address value continues ih => exact ⟨h.1, ih h.2⟩

theorem Confined.ite {c : Prop} [Decidable c] {q : Program α} (yes : c → p.Confined P Q)
    (no : ¬ c → q.Confined P Q) : (if c then p else q).Confined P Q := by
  split
  next h => exact yes h
  next h => exact no h

theorem confined_loadHalf {address : ℕ} (h : P address) :
    (loadHalf address).Confined P fun _ => True :=
  ⟨h, fun _ => trivial⟩

theorem confined_storeHalf {address : ℕ} {value : Halfword} (h : P address) :
    (storeHalf address value).Confined P fun _ => True :=
  ⟨h, trivial⟩

/-- A confined program that finds its addresses in the memory returns, and the bytes that belong to
none of them are as they were. -/
theorem Confined.run {n : ℕ} (h : p.Confined P Q) (inside : ∀ address, P address → address + 1 < n)
    (memory : Memory n) :
    ∃ a after, p.run memory = some (a, after) ∧ Q a ∧
      ∀ i, (∀ address, P address → i ≠ address ∧ i ≠ address + 1) → after[i]? = memory[i]? := by
  induction p generalizing memory with
  | done a => exact ⟨a, memory, rfl, h, fun _ _ => rfl⟩
  | panic => exact h.elim
  | load address next ih =>
    have bound := inside address h.1
    obtain ⟨a, after, ran, good, same⟩ := ih (memory[address + 1] ++ memory[address]) (h.2 _) memory
    exact ⟨a, after, (dif_pos bound).trans ran, good, same⟩
  | store address value next ih =>
    have bound := inside address h.1
    obtain ⟨a, after, ran, good, same⟩ := ih h.2
      ((memory.set address (value.setWidth 8)).set (address + 1) ((value >>> 8).setWidth 8))
    refine ⟨a, after, (dif_pos bound).trans ran, good, fun i apart => ?_⟩
    obtain ⟨first, second⟩ := apart address h.1
    rw [same i apart, Vector.getElem?_set_ne _ second.symm, Vector.getElem?_set_ne _ first.symm]

end Rules

theorem run_bind {n : ℕ} (p : Program α) (f : α → Program β) (memory : Memory n) :
    (p >>= f).run memory = (p.run memory).bind fun (a, after) => (f a).run after := by
  induction p generalizing memory with
  | done a => rfl
  | panic => rfl
  | load address next ih =>
    show (if h : address + 1 < n then _ else _) = Option.bind (if h : address + 1 < n then _ else _) _
    split
    next h => exact ih _ memory
    next h => rfl
  | store address value next ih =>
    show (if h : address + 1 < n then _ else _) = Option.bind (if h : address + 1 < n then _ else _) _
    split
    next h => exact ih _
    next h => rfl

end Program

end MemoryPrograms
