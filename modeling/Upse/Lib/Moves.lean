import Mathlib.Data.Nat.Notation
import Mathlib.Logic.Relation

/-!
# Paths as moves

A path of a tree of directories is a list of moves from the root: to stay, to go up, or to go down to a
name.  Eliminating the moves that stay, and those that go up with the ones they undo, leaves the names
of what the path denotes, or a move above the root.
-/

namespace Moves

/-- One component of a path. -/
inductive Move (ν : Type) where
  | stay
  | up
  | down (name : ν)

variable {ν : Type} {dir names : List ν} {a b moves : List (Move ν)} {name : ν}

/-- Where the moves lead from a directory, unless it is above the root. -/
def follow : List ν → List (Move ν) → Option (List ν)
  | dir, [] => some dir
  | dir, .stay :: moves => follow dir moves
  | [], .up :: _ => none
  | first :: rest, .up :: moves => follow (first :: rest).dropLast moves
  | dir, .down name :: moves => follow (dir ++ [name]) moves

/-- One elimination of a move that stays, or of one that goes up with the one it undoes. -/
inductive Eliminates : List (Move ν) → List (Move ν) → Prop
  | stay (a b : List (Move ν)) : Eliminates (a ++ .stay :: b) (a ++ b)
  | up (a b : List (Move ν)) (name : ν) : Eliminates (a ++ .down name :: .up :: b) (a ++ b)

/-- The moves denote a path of names: eliminations leave the moves down to them. -/
def Denotes (moves : List (Move ν)) (names : List ν) : Prop :=
  Relation.ReflTransGen Eliminates moves (names.map .down)

theorem follow_concat_up : follow (dir ++ [name]) (.up :: moves) = follow dir moves := by
  cases dir with
  | nil => rfl
  | cons first rest =>
    show follow ((first :: rest) ++ [name]).dropLast moves = _
    rw [List.dropLast_concat]

theorem follow_append : follow dir (a ++ b) = (follow dir a).bind (follow · b) := by
  induction a generalizing dir with
  | nil => rfl
  | cons move a ih =>
    cases move with
    | stay => exact ih
    | down name => exact ih
    | up =>
      cases dir with
      | nil => rfl
      | cons first rest => exact ih

theorem follow_down : follow dir (names.map .down) = some (dir ++ names) := by
  induction names generalizing dir with
  | nil => rw [List.append_nil]; rfl
  | cons name names ih =>
    show follow (dir ++ [name]) (names.map .down) = _
    rw [ih, List.append_assoc]
    rfl

theorem mem_of_follow (h : follow dir moves = some names) (member : name ∈ names) :
    name ∈ dir ∨ .down name ∈ moves := by
  induction moves generalizing dir with
  | nil =>
    cases h
    exact .inl member
  | cons move moves ih =>
    cases move with
    | stay => exact (ih h).imp_right (List.mem_cons_of_mem _)
    | up =>
      cases dir with
      | nil => cases h
      | cons first rest => exact (ih h).imp (List.dropLast_subset _ ·) (List.mem_cons_of_mem _)
    | down lower =>
      rcases ih h with before | later
      · rcases List.mem_append.mp before with before | here
        · exact .inl before
        · rw [List.mem_singleton.mp here]
          exact .inr List.mem_cons_self
      · exact .inr (List.mem_cons_of_mem _ later)

theorem Eliminates.follow (h : Eliminates a b) : Moves.follow dir a = Moves.follow dir b := by
  cases h with
  | stay a b =>
    rw [follow_append, follow_append]
    rfl
  | up a b name =>
    rw [follow_append, follow_append]
    congr 1
    funext reached
    exact follow_concat_up

theorem eliminates_of_follow (h : follow dir moves = some names) :
    Relation.ReflTransGen Eliminates (dir.map .down ++ moves) (names.map .down) := by
  induction moves generalizing dir with
  | nil =>
    cases h
    rw [List.append_nil]
  | cons move moves ih =>
    cases move with
    | stay => exact .head (.stay _ _) (ih h)
    | down name =>
      have later : Relation.ReflTransGen Eliminates ((dir ++ [name]).map .down ++ moves) _ := ih h
      rwa [List.map_append, List.append_assoc] at later
    | up =>
      rcases dir.eq_nil_or_concat with rfl | ⟨parent, name, rfl⟩
      · cases h
      · rw [List.concat_eq_append] at h ⊢
        rw [follow_concat_up] at h
        have undone := Eliminates.up (parent.map .down) moves name
        refine .head ?_ (ih h)
        rw [List.map_append, List.append_assoc]
        exact undone

/-- What the moves denote is where they lead from the root. -/
theorem denotes_iff : Denotes moves names ↔ follow [] moves = some names := by
  constructor
  · intro h
    have same : follow [] moves = follow [] (names.map .down) := by
      induction h using Relation.ReflTransGen.head_induction_on with
      | refl => rfl
      | head first _ ih => exact first.follow.trans ih
    rw [same, follow_down, List.nil_append]
  · exact eliminates_of_follow

theorem Denotes.unique {names' : List ν} (h : Denotes moves names) (h' : Denotes moves names') :
    names = names' :=
  Option.some.inj ((denotes_iff.mp h).symm.trans (denotes_iff.mp h'))

end Moves
