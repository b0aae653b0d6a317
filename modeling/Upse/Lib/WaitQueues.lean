import Mathlib.Data.List.Nodup
import Mathlib.Data.List.Perm.Basic
import Mathlib.Logic.Function.Basic
import Mathlib.Order.Basic
import Mathlib.Order.Lattice

/-!
# Queues of waiting parties

Parties wait for objects, and each object keeps a queue.  The queues are exact when every queue holds
exactly the parties that wait for its object, each once.  Joining a queue, leaving it, being taken
from its head and emptying it keep the queues exact, when the waits change with the queue.
-/

namespace WaitQueues

variable {T O : Type}

/-- Every queue holds exactly the parties that wait for its object, each once. -/
def Exact (waits : T → Option O) (queues : O → List T) : Prop :=
  ∀ o, (queues o).Nodup ∧ ∀ t, t ∈ queues o ↔ waits t = some o

namespace Exact

variable {waits : T → Option O} {queues : O → List T} {t : T} {o : O}

theorem empty : Exact (fun _ : T => (none : Option O)) fun _ => [] := by
  intro o
  simp

theorem not_mem (h : Exact waits queues) (idle : waits t = none) : t ∉ queues o := by
  intro member
  have waiting := ((h o).2 t).mp member
  rw [idle] at waiting
  cases waiting

theorem waits_head (h : Exact waits queues) {rest : List T} (head : queues o = t :: rest) :
    waits t = some o :=
  ((h o).2 t).mp (head ▸ List.mem_cons_self)

variable [DecidableEq T]

theorem single_eq_update (waits : T → Option O) (t : T) :
    (fun t' => if t' ∈ [t] then none else waits t') = Function.update waits t none := by
  funext t'
  by_cases eq : t' = t <;> simp [eq]

variable [DecidableEq O]

theorem join (h : Exact waits queues) (idle : waits t = none) {q : List T}
    (perm : q.Perm (t :: queues o)) :
    Exact (Function.update waits t (some o)) (Function.update queues o q) := by
  intro o'
  by_cases same : o' = o
  · subst same
    rw [Function.update_self]
    refine ⟨perm.nodup_iff.mpr (List.nodup_cons.mpr ⟨h.not_mem idle, (h o').1⟩), fun t' => ?_⟩
    rw [perm.mem_iff, List.mem_cons, (h o').2]
    by_cases eq : t' = t
    · simp [eq]
    · simp [eq]
  · rw [Function.update_of_ne same]
    refine ⟨(h o').1, fun t' => ?_⟩
    rw [(h o').2]
    by_cases eq : t' = t
    · subst eq
      simp [idle, Ne.symm same]
    · simp [eq]

theorem serve (h : Exact waits queues) {ready retained : List T}
    (perm : (queues o).Perm (ready ++ retained)) :
    Exact (fun t => if t ∈ ready then none else waits t) (Function.update queues o retained) := by
  have nodup := perm.nodup_iff.mp (h o).1
  obtain ⟨-, kept, apart⟩ := List.nodup_append.mp nodup
  intro o'
  by_cases same : o' = o
  · subst same
    rw [Function.update_self]
    refine ⟨kept, fun t => ?_⟩
    beta_reduce
    have queued := (perm.mem_iff (a := t)).symm.trans ((h o').2 t)
    rw [List.mem_append] at queued
    by_cases served : t ∈ ready
    · rw [if_pos served]
      exact ⟨fun member => absurd rfl (apart t served t member), fun none => by cases none⟩
    · rw [if_neg served, ← queued]
      exact ⟨.inr, fun member => member.resolve_left served⟩
  · rw [Function.update_of_ne same]
    refine ⟨(h o').1, fun t => ?_⟩
    beta_reduce
    rw [(h o').2]
    split
    next served =>
      have waiting := ((h o).2 t).mp (perm.mem_iff.mpr (List.mem_append_left _ served))
      rw [waiting]
      exact ⟨fun eq => absurd (Option.some.inj eq).symm same, fun none => by cases none⟩
    next => exact Iff.rfl

theorem dequeue (h : Exact waits queues) {rest : List T} (head : queues o = t :: rest) :
    Exact (Function.update waits t none) (Function.update queues o rest) := by
  rw [← single_eq_update]
  exact h.serve (.of_eq head)

theorem leave (h : Exact waits queues) (waiting : waits t = some o) :
    Exact (Function.update waits t none) (Function.update queues o ((queues o).filter (· ≠ t))) := by
  rw [← single_eq_update]
  apply h.serve
  have erased : (queues o).filter (· ≠ t) = (queues o).erase t := by
    rw [(h o).1.erase_eq_filter]
    exact List.filter_congr fun t' _ => by by_cases eq : t' = t <;> simp [eq]
  rw [erased]
  exact List.perm_cons_erase (((h o).2 t).mpr waiting)

theorem drain (h : Exact waits queues) :
    Exact (fun t => if t ∈ queues o then none else waits t) (Function.update queues o []) :=
  h.serve (by rw [List.append_nil])

end Exact

/-! ### Queues in the order of a key -/

variable {K : Type} [LinearOrder K] {key key' : T → K} {queue queue' : List T} {t : T}

/-- The parties of a queue stand in the order of their keys. -/
def Ordered (key : T → K) (queue : List T) : Prop := queue.Pairwise fun a b => key a ≤ key b

/-- A party joins a queue behind those whose key is no larger and ahead of the others. -/
def Joins (key : T → K) (t : T) (queue queue' : List T) : Prop :=
  ∃ ahead behind, queue = ahead ++ behind ∧ queue' = ahead ++ t :: behind ∧
    (∀ a ∈ ahead, key a ≤ key t) ∧ ∀ b ∈ behind, key t < key b

theorem Ordered.sublist (ordered : Ordered key queue) (sub : queue'.Sublist queue) :
    Ordered key queue' :=
  List.Pairwise.sublist sub ordered

theorem Ordered.congr (ordered : Ordered key queue) (same : ∀ t ∈ queue, key' t = key t) :
    Ordered key' queue := by
  refine List.Pairwise.imp_of_mem ?_ ordered
  intro a b memA memB le
  rw [same a memA, same b memB]
  exact le

theorem Ordered.head_le {rest : List T} (ordered : Ordered key (t :: rest)) :
    ∀ other ∈ t :: rest, key t ≤ key other := by
  intro other member
  rcases List.mem_cons.mp member with rfl | later
  · exact le_rfl
  · exact List.rel_of_pairwise_cons ordered later

theorem Ordered.join (ordered : Ordered key queue) (joins : Joins key t queue queue') :
    Ordered key queue' := by
  obtain ⟨ahead, behind, rfl, rfl, before, after⟩ := joins
  obtain ⟨first, last, across⟩ := List.pairwise_append.mp ordered
  refine List.pairwise_append.mpr ⟨first, List.pairwise_cons.mpr ⟨fun b member => ?_, last⟩, ?_⟩
  · exact (after b member).le
  · intro a memA b memB
    rcases List.mem_cons.mp memB with rfl | later
    · exact before a memA
    · exact across a memA b later

theorem insertIdx_eq_append {position : ℕ} (bound : position ≤ queue.length) :
    queue.insertIdx position t = queue.take position ++ t :: queue.drop position := by
  induction queue generalizing position with
  | nil =>
    obtain rfl := Nat.le_zero.mp bound
    rfl
  | cons a queue ih =>
    cases position with
    | zero => rfl
    | succ position => simp [ih (Nat.le_of_succ_le_succ bound)]

theorem Ordered.joins_findIdx (ordered : Ordered key queue) {larger : T → Bool}
    (larger_iff : ∀ x ∈ queue, larger x = true ↔ key t < key x) :
    Joins key t queue (match queue.findIdx? larger with
      | some position => queue.insertIdx position t
      | none => queue ++ [t]) := by
  split
  next position found =>
    obtain ⟨bound, first, none⟩ := List.findIdx?_eq_some_iff_getElem.mp found
    have split : queue.drop position = queue[position] :: queue.drop (position + 1) :=
      List.drop_eq_getElem_cons bound
    refine ⟨queue.take position, queue.drop position, (List.take_append_drop _ _).symm,
      insertIdx_eq_append (Nat.le_of_lt bound), fun a member => ?_, fun b member => ?_⟩
    · obtain ⟨j, lower, rfl⟩ := List.mem_take_iff_getElem.mp member
      have small := none j (by omega)
      rw [larger_iff _ (List.getElem_mem _)] at small
      exact not_lt.mp small
    · have start := (larger_iff _ (List.getElem_mem bound)).mp first
      have suffix : Ordered key (queue.drop position) := ordered.sublist (List.drop_sublist _ _)
      rw [split] at suffix member
      exact start.trans_le (suffix.head_le b member)
  next none =>
    have small := List.findIdx?_eq_none_iff.mp none
    refine ⟨queue, [], (List.append_nil _).symm, rfl, fun a member => not_lt.mp fun lt => ?_,
      fun b member => absurd member List.not_mem_nil⟩
    rw [← larger_iff a member, small a member] at lt
    cases lt

end WaitQueues
