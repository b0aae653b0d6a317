import Upse.Lib.Agenda
import Upse.Support.Scheduler

/-!
# The scheduler delivers as an agenda does

The queue and the active events together are an agenda: an event's entry is its deadline and the
sequence number of the call that scheduled it last, and the queue orders the entries by both.
-/

namespace Upse

namespace Scheduler

/-- The agenda the scheduler keeps. -/
def agenda (s : Scheduler) : Agenda EventId Deadline := ⟨s.pending, s.nextSequence⟩

/-- Calls whose sequence numbers can be told apart: the counter is checked. -/
def sequenceBound : ℕ := 2 ^ 64 - 1

/-- A call of the scheduler with its answer; a refused one leaves the scheduler as it was. -/
inductive Step : Scheduler → Agenda.Op EventId Deadline → Scheduler → Prop
  | schedule {s t : Scheduler} {id : EventId} {deadline : Deadline} :
      s.schedule id deadline = .ok t → Step s (.schedule id deadline) t
  | refused {s : Scheduler} {id : EventId} {deadline : Deadline} {e : SchedulerError} :
      s.schedule id deadline = .error e → Step s (.refused id deadline) s
  | cancel {s t : Scheduler} {id : EventId} {existed : Bool} :
      s.cancel id = (existed, t) → Step s (.cancel id existed) t
  | clear {s : Scheduler} : Step s .clear s.clear
  | popDue {s t : Scheduler} {now : Deadline} {due : Option DueEvent} :
      s.popDue now = (due, t) → Step s (.pop now (due.map fun e => (e.id, e.deadline))) t

theorem agenda_eq {s : Scheduler} {a : Agenda EventId Deadline}
    (entry : ∀ id, s.pending id = a.entry id) (calls : s.nextSequence = a.calls) :
    s.agenda = a := by
  obtain ⟨entries, count⟩ := a
  unfold agenda
  congr 1
  exact funext entry

theorem first_agenda {s : Scheduler} {e : Entry} (h : s.queue.first = some e) :
    s.agenda.First e.id e.deadline := by
  refine ⟨e.sequence, mem_queue.mp (SortedSet.first_mem h), ?_⟩
  intro other due call found
  have member : (⟨due, call, other⟩ : Entry) ∈ s.queue := mem_queue.mpr found
  rcases (SortedSet.first_le h member).lt_or_eq with before | same
  · rcases Entry.lt_iff.mp before with earlier | ⟨tie, order⟩
    · exact .inl earlier
    · refine .inr ⟨tie, ?_⟩
      rcases order with less | ⟨equal, -⟩
      · exact less.le
      · exact equal.le
  · subst same
    exact .inr ⟨rfl, le_rfl⟩

theorem notDue_of_popDue_none {s t : Scheduler} {now : Deadline} (h : s.popDue now = (none, t)) :
    ∀ id due call, s.pending id = some (due, call) → now < due := by
  intro id due call found
  have member : (⟨due, call, id⟩ : Entry) ∈ s.queue := mem_queue.mpr found
  cases first : s.queue.first with
  | none =>
    have empty := SortedSet.first_eq_none.mp first
    rw [SortedSet.mem_def, empty] at member
    cases member
  | some e =>
    rw [popDue_of_first first] at h
    split at h
    next => cases h
    next late =>
      have least := Entry.deadline_le_of_le (SortedSet.first_le first member)
      exact lt_of_lt_of_le (not_le.mp late) least

/-- Every call does what the agenda does, with an answer the agenda allows. -/
theorem Step.agenda {s t : Scheduler} {op : Agenda.Op EventId Deadline} (h : Step s op t) :
    Agenda.Next sequenceBound s.agenda op t.agenda := by
  cases h with
  | schedule run =>
    obtain ⟨fits, calls, pending⟩ := schedule_spec run
    refine ⟨?_, agenda_eq pending calls⟩
    show s.nextSequence < sequenceBound
    unfold sequenceBound
    omega
  | refused run =>
    refine ⟨?_, rfl⟩
    show sequenceBound ≤ s.nextSequence
    by_contra fits
    unfold sequenceBound at fits
    obtain ⟨t, succeeds⟩ := schedule_ok (s := s) _ _ (by omega)
    rw [succeeds] at run
    cases run
  | @cancel _ id existed run =>
    have removed : (s.cancel id).2 = t := congrArg Prod.snd run
    have answer : (s.cancel id).1 = existed := congrArg Prod.fst run
    refine ⟨?_, ?_⟩
    · show existed = (s.pending id).isSome
      rw [← answer]
      cases found : s.pending id with
      | none => rw [cancel_of_pending_none found]; rfl
      | some entry =>
        have member : (⟨entry.1, entry.2, id⟩ : Entry) ∈ s.queue := mem_queue.mpr found
        exact congrArg Prod.fst (cancel_of_mem member)
    · rw [← removed]
      exact agenda_eq (pending_cancel s id) (nextSequence_cancel s id)
  | clear => exact ⟨trivial, rfl⟩
  | @popDue _ now due run =>
    cases due with
    | none =>
      refine ⟨notDue_of_popDue_none run, ?_⟩
      rw [popDue_none run]
      rfl
    | some due =>
      obtain ⟨e, rest, queue, reached, rfl, -, calls, -, pending⟩ := popDue_some run
      have first : s.queue.first = some e := by rw [SortedSet.first, queue]; rfl
      exact ⟨⟨first_agenda first, reached⟩, agenda_eq pending calls⟩

/-- In every run from the empty scheduler, the calls and their answers are those of an agenda; the
queue and the active events describe the same set; the entry of an event is that of its latest call,
unless something has replaced, cancelled, cleared or delivered it since; and an event is delivered
from such an entry only, which is gone afterwards. -/
theorem refines_agenda {ops : List (Agenda.Op EventId Deadline)} {s : Scheduler}
    (run : Run Step new ops s) :
    Run (Agenda.Next sequenceBound) .empty ops s.agenda ∧
      (∀ e, e ∈ s.queue ↔ s.active.lookup e.id = some (e.deadline, e.sequence)) ∧
      (∀ id due, Agenda.Live ops id due ↔ ∃ sequence, s.pending id = some (due, sequence)) ∧
      ∀ now due t, s.popDue now = (some due, t) →
        Agenda.Live ops due.id due.deadline ∧ t.pending due.id = none := by
  have abstract : Run (Agenda.Next sequenceBound) .empty ops s.agenda :=
    run.history (H := fun ops s => Run (Agenda.Next sequenceBound) .empty ops s.agenda) (.refl _)
      fun _ _ _ _ before step => before.snoc step.agenda
  refine ⟨abstract, s.agree, Agenda.live_iff abstract, ?_⟩
  intro now due t popped
  have delivered := (Step.popDue popped).agenda
  refine ⟨Agenda.delivered_live abstract delivered, ?_⟩
  have gone : t.agenda.entry due.id = none := by
    rw [delivered.2]
    simp [Agenda.after, Agenda.put]
  exact gone

/-- A replaced event is delivered after the one it was scheduled before. -/
theorem refines_agenda_sample : ∃ s : Scheduler,
    Run (Agenda.Next sequenceBound) .empty
      [.schedule 1 3, .schedule 2 3, .schedule 1 3, .pop 3 (some (2, 3))] s.agenda := by
  obtain ⟨a, first⟩ := schedule_ok (s := new) 1 3 (by decide)
  obtain ⟨b, second⟩ := schedule_ok (s := a) 2 3 (by rw [(schedule_spec first).2.1]; decide)
  obtain ⟨c, third⟩ := schedule_ok (s := b) 1 3
    (by rw [(schedule_spec second).2.1, (schedule_spec first).2.1]; decide)
  have popped : (c.popDue 3).1 = some ⟨2, 3⟩ := by
    have computed : (do
        let a ← new.schedule 1 3
        let b ← a.schedule 2 3
        let c ← b.schedule 1 3
        return (c.popDue 3).1 : Except SchedulerError (Option DueEvent)).toOption =
          some (some ⟨2, 3⟩) := by decide +kernel
    simp only [first, second, third, bind, Except.bind] at computed
    exact Option.some.inj computed
  have delivers : c.popDue 3 = (some ⟨2, 3⟩, (c.popDue 3).2) := Prod.ext popped rfl
  have run : Run Step new [.schedule 1 3, .schedule 2 3, .schedule 1 3, .pop 3 (some (2, 3))]
      (c.popDue 3).2 :=
    (((Run.single (.schedule first)).snoc (.schedule second)).snoc (.schedule third)).snoc
      (.popDue delivers)
  exact ⟨_, (refines_agenda run).1⟩

end Scheduler

end Upse
