import Mathlib.Data.Prod.Lex
import Upse.Lib.Runs

/-!
# Timed first-in first-out delivery, the last writer winning

An agenda holds at most one entry for each identifier: the time it is due and the number of the call
that scheduled it.  Of the entries that are due, the one with the least time is delivered first, and
of those the one scheduled first.  A history of operations determines the agenda, and what may be
delivered next.
-/

/-- The entry of each identifier, and the number of calls that scheduled one. -/
structure Agenda (κ τ : Type) where
  entry : κ → Option (τ × ℕ)
  calls : ℕ

namespace Agenda

variable {κ τ : Type}

/-- An operation with its answer. -/
inductive Op (κ τ : Type) where
  | schedule (id : κ) (due : τ)
  | refused (id : κ) (due : τ)
  | cancel (id : κ) (existed : Bool)
  | clear
  | pop (now : τ) (popped : Option (κ × τ))

/-- Nothing is scheduled. -/
def empty : Agenda κ τ := ⟨fun _ => none, 0⟩

section Update

variable [DecidableEq κ]

/-- Sets or drops an entry. -/
def put (a : Agenda κ τ) (id : κ) (value : Option (τ × ℕ)) : Agenda κ τ :=
  { a with entry := fun other => if other = id then value else a.entry other }

/-- What an operation does to the agenda. -/
def after (a : Agenda κ τ) : Op κ τ → Agenda κ τ
  | .schedule id due => { a.put id (some (due, a.calls)) with calls := a.calls + 1 }
  | .refused _ _ => a
  | .cancel id _ => a.put id none
  | .clear => { a with entry := fun _ => none }
  | .pop _ none => a
  | .pop _ (some (id, _)) => a.put id none

end Update

section Allowed

variable [LinearOrder τ]

/-- The entry of `id` comes first: it is due at `due`, and every other entry is due later, or at the
same time and was scheduled later. -/
def First (a : Agenda κ τ) (id : κ) (due : τ) : Prop :=
  ∃ call, a.entry id = some (due, call) ∧
    ∀ other due' call', a.entry other = some (due', call') →
      due < due' ∨ due = due' ∧ call ≤ call'

/-- The answers an agenda allows, where `bound` calls can be told apart. -/
def Allows (bound : ℕ) (a : Agenda κ τ) : Op κ τ → Prop
  | .schedule _ _ => a.calls < bound
  | .refused _ _ => bound ≤ a.calls
  | .cancel id existed => existed = (a.entry id).isSome
  | .clear => True
  | .pop now none => ∀ id due call, a.entry id = some (due, call) → now < due
  | .pop now (some (id, due)) => a.First id due ∧ due ≤ now

/-- One operation of an agenda. -/
def Next [DecidableEq κ] (bound : ℕ) (a : Agenda κ τ) (op : Op κ τ) (b : Agenda κ τ) : Prop :=
  a.Allows bound op ∧ b = a.after op

end Allowed

/-! ### What is delivered -/

/-- The operations that end the life of the entry an identifier has. -/
def Op.Ends (id : κ) : Op κ τ → Prop
  | .schedule other _ => other = id
  | .cancel other _ => other = id
  | .clear => True
  | .pop _ (some (other, _)) => other = id
  | _ => False

/-- The entry an identifier has after a history: the latest call that scheduled it, which nothing
has replaced, cancelled, cleared or delivered since. -/
def Live (ops : List (Op κ τ)) (id : κ) (due : τ) : Prop :=
  ∃ before since, ops = before ++ .schedule id due :: since ∧ ∀ op ∈ since, ¬ op.Ends id

/-- The last operation decides: it schedules the entry, or leaves it as it was. -/
theorem live_snoc {ops : List (Op κ τ)} {op : Op κ τ} {id : κ} {due : τ} :
    Live (ops ++ [op]) id due ↔ op = .schedule id due ∨ ¬ op.Ends id ∧ Live ops id due := by
  constructor
  · rintro ⟨before, since, whole, none⟩
    rcases List.eq_nil_or_concat since with rfl | ⟨since', last, rfl⟩
    · exact .inl (List.singleton_inj.mp (List.append_inj' whole rfl).2)
    · rw [List.concat_eq_append, ← List.cons_append, ← List.append_assoc] at whole
      obtain ⟨rfl, same⟩ := List.append_inj' whole rfl
      cases same
      exact .inr ⟨none op (by simp), before, since', rfl,
        fun op' member => none op' (by simp [member])⟩
  · rintro (rfl | ⟨keeps, before, since, rfl, none⟩)
    · exact ⟨ops, [], rfl, by simp⟩
    · refine ⟨before, since ++ [op], by simp, ?_⟩
      intro op' member
      rcases List.mem_append.mp member with earlier | last
      · exact none op' earlier
      · rw [List.mem_singleton.mp last]
        exact keeps

theorem not_live_nil {id : κ} {due : τ} : ¬ Live [] id due := by
  rintro ⟨before, since, none, -⟩
  simp at none

variable [DecidableEq κ] [LinearOrder τ] {bound : ℕ}

theorem live_iff {ops : List (Op κ τ)} {a : Agenda κ τ} (run : Run (Next bound) empty ops a)
    (id : κ) (due : τ) : Live ops id due ↔ ∃ call, a.entry id = some (due, call) := by
  revert id due
  refine run.history (H := fun ops a => ∀ id due, Live ops id due ↔
    ∃ call, a.entry id = some (due, call)) ?_ ?_
  · intro id due
    simp [not_live_nil, empty]
  · rintro ops a op b ih ⟨-, rfl⟩ id due
    rw [live_snoc, ih]
    cases op with
    | schedule other due' =>
      by_cases same : other = id
      · subst same
        simp [after, put, Op.Ends, eq_comm]
      · simp [after, put, Op.Ends, same, Ne.symm same]
    | refused other due' => simp [after, Op.Ends]
    | cancel other existed =>
      by_cases same : other = id
      · simp [after, put, Op.Ends, same]
      · simp [after, put, Op.Ends, same, Ne.symm same]
    | clear => simp [after, Op.Ends]
    | pop now popped =>
      cases popped with
      | none => simp [after, Op.Ends]
      | some popped =>
        by_cases same : popped.1 = id
        · simp [after, put, Op.Ends, same]
        · simp [after, put, Op.Ends, same, Ne.symm same]

/-- Only live entries are delivered, at the time they were last scheduled for. -/
theorem delivered_live {ops : List (Op κ τ)} {a b : Agenda κ τ}
    (run : Run (Next bound) empty ops a) {now due : τ} {id : κ}
    (pop : Next bound a (.pop now (some (id, due))) b) : Live ops id due := by
  obtain ⟨⟨⟨call, entry, -⟩, -⟩, -⟩ := pop
  exact (live_iff run id due).mpr ⟨call, entry⟩

end Agenda
