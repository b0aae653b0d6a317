import Mathlib.Data.List.Forall2
import Upse.Lib.ErrorState

/-!
# Items played from a source

A source hands out one item after another.  Whatever is collected from it or skipped is a stretch of
one tape: the items between two of its states are determined by where the stretch begins and how
long it is (`Plays.unique`), and a stretch splits at every point (`Plays.split`).
-/

open ErrorState

namespace Tape

variable {ε σ α β : Type} (next : EStateM ε σ α)

/-- The next items, in order. -/
def collect : ℕ → EStateM ε σ (List α)
  | 0 => return []
  | count + 1 => do
    let item ← next
    let items ← collect count
    return item :: items

/-- Passes over items. -/
def skip : ℕ → EStateM ε σ Unit
  | 0 => return ()
  | count + 1 => do
    let _ ← next
    skip count

/-- A source plays items from one state to another. -/
inductive Plays : σ → List α → σ → Prop
  | nil (s : σ) : Plays s [] s
  | cons {s t u : σ} {item : α} {items : List α} :
      next.run s = .ok item t → Plays t items u → Plays s (item :: items) u

variable {next} {s t u : σ} {items more : List α}

theorem run_collect_ok {count : ℕ} :
    (collect next count).run s = .ok items t ↔ items.length = count ∧ Plays next s items t := by
  induction count generalizing s t items with
  | zero =>
    rw [collect, run_pure_ok]
    constructor
    · rintro ⟨rfl, rfl⟩
      exact ⟨rfl, .nil s⟩
    · rintro ⟨empty, plays⟩
      obtain rfl := List.eq_nil_of_length_eq_zero empty
      cases plays
      exact ⟨rfl, rfl⟩
  | succ count ih =>
    simp only [collect, run_bind_ok, run_pure_ok, ih]
    constructor
    · rintro ⟨item, v, first, rest, _, ⟨length, plays⟩, rfl, rfl⟩
      exact ⟨by rw [List.length_cons, length], .cons first plays⟩
    · rintro ⟨length, plays⟩
      cases plays with
      | nil => cases length
      | cons first rest => exact ⟨_, _, first, _, _, ⟨Nat.succ.inj length, rest⟩, rfl, rfl⟩

theorem run_skip_ok {count : ℕ} :
    (skip next count).run s = .ok () t ↔ ∃ items, items.length = count ∧ Plays next s items t := by
  induction count generalizing s with
  | zero =>
    rw [skip, run_pure_ok]
    constructor
    · rintro ⟨-, rfl⟩
      exact ⟨[], rfl, .nil s⟩
    · rintro ⟨items, empty, plays⟩
      obtain rfl := List.eq_nil_of_length_eq_zero empty
      cases plays
      exact ⟨rfl, rfl⟩
  | succ count ih =>
    simp only [skip, run_bind_ok, ih]
    constructor
    · rintro ⟨item, v, first, items, length, plays⟩
      exact ⟨item :: items, by rw [List.length_cons, length], .cons first plays⟩
    · rintro ⟨items, length, plays⟩
      cases plays with
      | nil => cases length
      | cons first rest => exact ⟨_, _, first, _, Nat.succ.inj length, rest⟩

namespace Plays

theorem append (h : Plays next s items t) (h' : Plays next t more u) :
    Plays next s (items ++ more) u := by
  induction h with
  | nil => exact h'
  | cons first _ ih => exact .cons first (ih h')

theorem split (h : Plays next s (items ++ more) u) :
    ∃ t, Plays next s items t ∧ Plays next t more u := by
  induction items generalizing s with
  | nil => exact ⟨s, .nil s, h⟩
  | cons item items ih =>
    cases h with
    | cons first rest =>
      obtain ⟨t, left, right⟩ := ih rest
      exact ⟨t, .cons first left, right⟩

theorem unique (h : Plays next s items t) (h' : Plays next s more u)
    (length : items.length = more.length) : items = more ∧ t = u := by
  induction h generalizing more with
  | nil =>
    obtain rfl := List.eq_nil_of_length_eq_zero length.symm
    cases h'
    exact ⟨rfl, rfl⟩
  | cons first _ ih =>
    cases h' with
    | nil => cases length
    | cons first' rest' =>
      rw [first] at first'
      cases first'
      obtain ⟨rfl, rfl⟩ := ih rest' (Nat.succ.inj length)
      exact ⟨rfl, rfl⟩

end Plays

/-! ### Frames of two -/

/-- The items of frames of two, in order. -/
def interleave (frames : List (α × α)) : List α := frames.flatMap fun frame => [frame.1, frame.2]

@[simp] theorem interleave_nil : interleave ([] : List (α × α)) = [] := rfl

@[simp] theorem interleave_cons (frame : α × α) (frames : List (α × α)) :
    interleave (frame :: frames) = frame.1 :: frame.2 :: interleave frames := rfl

@[simp] theorem interleave_append (a b : List (α × α)) :
    interleave (a ++ b) = interleave a ++ interleave b := List.flatMap_append

@[simp] theorem length_interleave (frames : List (α × α)) :
    (interleave frames).length = frames.length * 2 := by
  induction frames with
  | nil => rfl
  | cons frame frames ih =>
    rw [interleave_cons, List.length_cons, List.length_cons, List.length_cons, ih]
    omega

theorem interleave_eq_nil {frames : List (α × α)} : interleave frames = [] ↔ frames = [] := by
  cases frames <;> simp

/-! ### Agreement with a tape -/

/-- Every item that is known agrees with the item of the tape at its place. -/
def Agrees (known : List (Option α)) (tape : List α) : Prop :=
  List.Forall₂ (fun item played => ∀ x, item = some x → x = played) known tape

namespace Agrees

theorem append {a b : List (Option α)} {x y : List α} (h : Agrees a x) (h' : Agrees b y) :
    Agrees (a ++ b) (x ++ y) := List.rel_append h h'

theorem known (items : List α) : Agrees (items.map some) items := by
  induction items with
  | nil => exact .nil
  | cons item items ih => exact .cons (fun _ h => (Option.some.inj h).symm) ih

theorem unknown (items : List α) : Agrees (List.replicate items.length none) items := by
  induction items with
  | nil => exact .nil
  | cons item items ih => exact .cons nofun ih

end Agrees

end Tape
