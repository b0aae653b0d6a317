import Mathlib.Data.List.AList
import Mathlib.Data.Prod.Lex
import Upse.Lib.Sorted
import Upse.Support.Integers

/-!
# Stable-order scheduling of emulated events

The scheduler keeps its events in an ordered queue of (deadline, sequence, event) entries and, for
every active event, its entry.  The two views agree by construction, and so do the sequence numbers:
each entry has its own, below the next one to be given out.
-/

namespace Upse

/-- Identifies a replaceable event owned by a component. -/
abbrev EventId := ℕ

/-- An event removed from the scheduler for dispatch. -/
structure DueEvent where
  id : EventId
  deadline : Deadline
  deriving DecidableEq, Repr

/-- The sequence numbers are used up. -/
inductive SchedulerError where
  | sequenceExhausted
  deriving DecidableEq, Repr

namespace Scheduler

/-- One queue entry; entries are ordered by deadline, then sequence, then event. -/
structure Entry where
  deadline : Deadline
  sequence : ℕ
  id : EventId
  deriving DecidableEq, Repr

/-- The sort key of an entry. -/
def Entry.key (e : Entry) : ℕ ×ₗ ℕ ×ₗ ℕ := toLex (e.deadline, toLex (e.sequence, e.id))

theorem Entry.key_injective : Function.Injective Entry.key := by
  rintro ⟨d, q, i⟩ ⟨d', q', i'⟩ h
  simp only [Entry.key, EmbeddingLike.apply_eq_iff_eq, Prod.mk.injEq] at h
  obtain ⟨rfl, rfl, rfl⟩ := h
  rfl

instance : LinearOrder Entry := LinearOrder.lift' Entry.key Entry.key_injective

theorem Entry.lt_iff {e f : Entry} : e < f ↔ e.deadline < f.deadline ∨
    e.deadline = f.deadline ∧ (e.sequence < f.sequence ∨ e.sequence = f.sequence ∧ e.id < f.id) := by
  change e.key < f.key ↔ _
  simp [Entry.key, Prod.Lex.toLex_lt_toLex]

theorem Entry.deadline_le_of_le {e f : Entry} (h : e ≤ f) : e.deadline ≤ f.deadline := by
  rcases h.lt_or_eq with h | rfl
  · rcases Entry.lt_iff.mp h with h | h
    · exact h.le
    · exact h.1.le
  · exact le_rfl

end Scheduler

/-- A replaceable event queue with stable FIFO ordering at equal deadlines. -/
structure Scheduler where
  queue : SortedSet Scheduler.Entry
  active : AList fun _ : EventId => Deadline × ℕ
  nextSequence : ℕ
  agree : ∀ e, e ∈ queue ↔ active.lookup e.id = some (e.deadline, e.sequence)
  fresh : ∀ e ∈ queue, e.sequence < nextSequence
  distinct : ∀ e ∈ queue, ∀ f ∈ queue, e.sequence = f.sequence → e = f

namespace Scheduler

/-- An empty scheduler. -/
def new : Scheduler where
  queue := .empty
  active := ∅
  nextSequence := 0
  agree := by simp
  fresh := by simp
  distinct := by simp

/-- The deadline and sequence of an active event. -/
def pending (s : Scheduler) (id : EventId) : Option (Deadline × ℕ) := s.active.lookup id

variable {s : Scheduler} {now : Deadline}

theorem mem_queue {e : Entry} :
    e ∈ s.queue ↔ s.pending e.id = some (e.deadline, e.sequence) := s.agree e

/-- Drops the entry of an active event. -/
def discard (s : Scheduler) (e : Entry) (h : e ∈ s.queue) : Scheduler where
  queue := s.queue.erase e
  active := s.active.erase e.id
  nextSequence := s.nextSequence
  agree f := by
    rw [SortedSet.mem_erase, s.agree]
    by_cases same : f.id = e.id
    · rw [same, AList.lookup_erase, (s.agree e).mp h]
      constructor
      · rintro ⟨ne, eq⟩
        refine absurd ?_ ne
        cases e
        cases f
        simp_all
      · rintro ⟨⟩
    · rw [AList.lookup_erase_ne same, and_iff_right]
      rintro rfl
      exact same rfl
  fresh f hf := s.fresh f (SortedSet.mem_erase.mp hf).2
  distinct f hf g hg := s.distinct f (SortedSet.mem_erase.mp hf).2 g (SortedSet.mem_erase.mp hg).2

/-- Cancels an active event and reports whether it existed. -/
def cancel (s : Scheduler) (id : EventId) : Bool × Scheduler :=
  match h : s.active.lookup id with
  | none => (false, s)
  | some (deadline, sequence) => (true, s.discard ⟨deadline, sequence, id⟩ ((s.agree _).mpr h))

@[simp] theorem nextSequence_cancel (s : Scheduler) (id : EventId) :
    (s.cancel id).2.nextSequence = s.nextSequence := by
  unfold cancel
  split <;> rfl

theorem pending_discard (s : Scheduler) (e : Entry) (h : e ∈ s.queue) (id : EventId) :
    (s.discard e h).pending id = if id = e.id then none else s.pending id := by
  unfold pending discard
  split
  next same => rw [same, AList.lookup_erase]
  next ne => rw [AList.lookup_erase_ne ne]

theorem pending_cancel (s : Scheduler) (id other : EventId) :
    (s.cancel id).2.pending other = if other = id then none else s.pending other := by
  unfold cancel
  split
  next h =>
    split
    next same => rw [same]; exact h
    next => rfl
  next deadline sequence h =>
    exact pending_discard s ⟨deadline, sequence, id⟩ ((s.agree _).mpr h) other

theorem cancel_of_pending_none {id : EventId} (h : s.pending id = none) :
    s.cancel id = (false, s) := by
  unfold cancel
  split
  next => rfl
  next h' => rw [pending, h'] at h; cases h

/-- Inserts an event that is not active, with the next sequence number. -/
def enqueue (s : Scheduler) (id : EventId) (deadline : Deadline) (h : s.pending id = none) :
    Scheduler where
  queue := s.queue.insert ⟨deadline, s.nextSequence, id⟩
  active := s.active.insert id (deadline, s.nextSequence)
  nextSequence := s.nextSequence + 1
  agree e := by
    rw [SortedSet.mem_insert, s.agree]
    by_cases same : e.id = id
    · rw [same, AList.lookup_insert, show s.active.lookup id = none from h]
      obtain ⟨d, q, i⟩ := e
      subst same
      simp [eq_comm]
    · rw [AList.lookup_insert_ne same, or_iff_right]
      rintro rfl
      exact same rfl
  fresh e he := by
    rcases SortedSet.mem_insert.mp he with rfl | he
    · exact Nat.lt_succ_self _
    · exact Nat.lt_succ_of_lt (s.fresh e he)
  distinct e he f hf eq := by
    rcases SortedSet.mem_insert.mp he with rfl | he <;> rcases SortedSet.mem_insert.mp hf with rfl | hf
    · rfl
    · exact absurd eq.symm (s.fresh f hf).ne
    · exact absurd eq (s.fresh e he).ne
    · exact s.distinct e he f hf eq

@[simp] theorem nextSequence_enqueue (s : Scheduler) (id : EventId) (deadline : Deadline)
    (h : s.pending id = none) : (s.enqueue id deadline h).nextSequence = s.nextSequence + 1 := rfl

theorem pending_enqueue (s : Scheduler) (id : EventId) (deadline : Deadline)
    (h : s.pending id = none) (other : EventId) : (s.enqueue id deadline h).pending other =
      if other = id then some (deadline, s.nextSequence) else s.pending other := by
  unfold pending enqueue
  split
  next same => rw [same, AList.lookup_insert]
  next ne => rw [AList.lookup_insert_ne ne]

/-- Inserts or replaces an event.  A replaced event gets a new sequence number, and so follows the
events already scheduled at the same deadline. -/
def schedule (s : Scheduler) (id : EventId) (deadline : Deadline) :
    Except SchedulerError Scheduler :=
  match checkedAdd 64 s.nextSequence 1 with
  | none => .error .sequenceExhausted
  | some _ => .ok ((s.cancel id).2.enqueue id deadline (by rw [pending_cancel, if_pos rfl]))

theorem schedule_eq_error {id : EventId} {deadline : Deadline}
    (h : 2 ^ 64 ≤ s.nextSequence + 1) : s.schedule id deadline = .error .sequenceExhausted := by
  unfold schedule
  rw [checkedAdd_eq_none.mpr h]

theorem schedule_ok (id : EventId) (deadline : Deadline)
    (h : s.nextSequence + 1 < 2 ^ 64) : ∃ t, s.schedule id deadline = .ok t := by
  unfold schedule
  rw [checkedAdd_eq_some.mpr ⟨h, rfl⟩]
  exact ⟨_, rfl⟩

theorem schedule_spec {s t : Scheduler} {id : EventId} {deadline : Deadline}
    (h : s.schedule id deadline = .ok t) :
    s.nextSequence + 1 < 2 ^ 64 ∧ t.nextSequence = s.nextSequence + 1 ∧
      ∀ other, t.pending other =
        if other = id then some (deadline, s.nextSequence) else s.pending other := by
  unfold schedule at h
  split at h
  next => cases h
  next hs =>
    cases h
    refine ⟨(checkedAdd_eq_some.mp hs).1, ?_, fun other => ?_⟩
    · rw [nextSequence_enqueue, nextSequence_cancel]
    · rw [pending_enqueue, nextSequence_cancel, pending_cancel]
      split <;> rfl

/-- The next deadline, without removing its event. -/
def nextDeadline (s : Scheduler) : Option Deadline := s.queue.first.map (·.deadline)

/-- Removes the earliest event when it is due at or before `now`. -/
def popDue (s : Scheduler) (now : Deadline) : Option DueEvent × Scheduler :=
  match h : s.queue.first with
  | none => (none, s)
  | some e =>
    if e.deadline > now then (none, s)
    else (some ⟨e.id, e.deadline⟩, s.discard e (SortedSet.first_mem h))

theorem popDue_of_empty (h : s.queue.first = none) :
    s.popDue now = (none, s) := by
  unfold popDue
  split
  · rfl
  next first => rw [h] at first; cases first

theorem cancel_of_mem {e : Entry} (h : e ∈ s.queue) :
    s.cancel e.id = (true, s.discard e h) := by
  have active : s.active.lookup e.id = some (e.deadline, e.sequence) := (s.agree e).mp h
  unfold cancel
  split
  next none => rw [active] at none; cases none
  next found => rw [active] at found; cases found; rfl

theorem popDue_of_first {e : Entry} (h : s.queue.first = some e) :
    s.popDue now =
      if e.deadline ≤ now then (some ⟨e.id, e.deadline⟩, (s.cancel e.id).2) else (none, s) := by
  have member := SortedSet.first_mem h
  rw [cancel_of_mem member]
  unfold popDue
  split
  next empty => rw [h] at empty; cases empty
  next first =>
    rw [h] at first
    cases first
    by_cases reached : e.deadline ≤ now
    · rw [if_neg (not_lt.mpr reached), if_pos reached]
    · rw [if_pos (not_le.mp reached), if_neg reached]

theorem popDue_none {s t : Scheduler} (h : s.popDue now = (none, t)) : t = s := by
  unfold popDue at h
  split at h
  next => cases h; rfl
  next e first =>
    split at h
    · cases h; rfl
    · cases h

theorem popDue_some {s t : Scheduler} {due : DueEvent}
    (h : s.popDue now = (some due, t)) : ∃ e rest, s.queue.toList = e :: rest ∧ e.deadline ≤ now ∧
      due = ⟨e.id, e.deadline⟩ ∧ t.queue.toList = rest ∧ t.nextSequence = s.nextSequence ∧
      s.pending e.id = some (e.deadline, e.sequence) ∧
      ∀ id, t.pending id = if id = e.id then none else s.pending id := by
  unfold popDue at h
  split at h
  next => cases h
  next e first =>
    split at h
    next => cases h
    next reached =>
      cases h
      obtain ⟨rest, queue⟩ := List.head?_eq_some_iff.mp first
      have member := SortedSet.first_mem first
      exact ⟨e, rest, queue, not_lt.mp reached, rfl, SortedSet.toList_erase_first queue, rfl,
        mem_queue.mp member, fun id => pending_discard s e member id⟩

/-- Removes all active events while retaining a valid sequence order. -/
def clear (s : Scheduler) : Scheduler where
  queue := .empty
  active := ∅
  nextSequence := s.nextSequence
  agree := by simp
  fresh := by simp
  distinct := by simp

end Scheduler

end Upse
