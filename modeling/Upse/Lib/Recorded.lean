import Mathlib.Data.Nat.Notation
import Upse.Lib.ErrorState

/-!
# Programs with a record

A recorded program is one that also writes down events and stops at a failed requirement.  `Records`
says that it does what a program without the record does, that its requirements hold, and what it has
written down where the program returned and where it failed.
-/

namespace Recorded

open ErrorState

/-- How a recorded program stops early: with the program's error, or at a failed requirement. -/
inductive Fault (ε : Type) where
  | error (e : ε)
  | panic
  deriving DecidableEq

/-- Programs that also write down events. -/
abbrev RecordM (ε σ ω α : Type) := EStateM (Fault ε) (σ × List ω) α

variable {ε σ ω α β : Type}

/-- A program that writes nothing down. -/
def lift (y : EStateM ε σ α) : RecordM ε σ ω α := zoom Prod.fst (fun t s => (t, s.2)) .error y

/-- Writes an event down. -/
def emit (event : ω) : RecordM ε σ ω Unit := modify fun s => (s.1, s.2 ++ [event])

/-- Stops where the condition does not hold. -/
def require (c : Prop) [Decidable c] : RecordM ε σ ω Unit := throwIf (¬ c) .panic

/-- From `s` and any record, `x` does what `y` does and adds events to the record: they satisfy `Q` with
what is returned and left, and `E` where the run fails. -/
def Records (x : RecordM ε σ ω α) (y : EStateM ε σ α) (s : σ) (Q : List ω → α → σ → Prop)
    (E : List ω → Prop) : Prop :=
  ∀ record, match y.run s with
    | .ok a t => ∃ events, x.run (s, record) = .ok a (t, record ++ events) ∧ Q events a t
    | .error e t => ∃ events, x.run (s, record) = .error (.error e) (t, record ++ events) ∧ E events

variable {x : RecordM ε σ ω α} {y : EStateM ε σ α} {f : α → RecordM ε σ ω β} {g : α → EStateM ε σ β}
  {s : σ} {Q : List ω → α → σ → Prop} {R : List ω → β → σ → Prop} {E F : List ω → Prop}

theorem Records.mono {Q' : List ω → α → σ → Prop} (h : Records x y s Q E)
    (returned : ∀ events a t, Q events a t → Q' events a t) (failed : ∀ events, E events → F events) :
    Records x y s Q' F := by
  intro record
  have h := h record
  cases run : y.run s with
  | ok a t =>
    rw [run] at h
    obtain ⟨events, recorded, holds⟩ := h
    exact ⟨events, recorded, returned events a t holds⟩
  | error e t =>
    rw [run] at h
    obtain ⟨events, recorded, holds⟩ := h
    exact ⟨events, recorded, failed events holds⟩

theorem records_pure {a : α} (h : Q [] a s) :
    Records (pure a : RecordM ε σ ω α) (pure a) s Q E :=
  fun record => ⟨[], by rw [List.append_nil]; rfl, h⟩

theorem Records.bind (first : Records x y s Q F) (failed : ∀ events, F events → E events)
    (rest : ∀ events a t, Q events a t → Records (f a) (g a) t
      (fun later b u => R (events ++ later) b u) fun later => E (events ++ later)) :
    Records (x >>= f) (y >>= g) s R E := by
  intro record
  have first := first record
  rw [run_bind, run_bind]
  cases run : y.run s with
  | error e t =>
    rw [run] at first
    obtain ⟨events, recorded, holds⟩ := first
    exact ⟨events, by rw [recorded], failed events holds⟩
  | ok a t =>
    rw [run] at first
    obtain ⟨events, recorded, holds⟩ := first
    have rest := rest events a t holds (record ++ events)
    rw [recorded]
    dsimp only
    cases then_run : (g a).run t with
    | ok b u =>
      rw [then_run] at rest
      obtain ⟨later, recorded, holds⟩ := rest
      exact ⟨events ++ later, by rw [recorded, List.append_assoc], holds⟩
    | error e u =>
      rw [then_run] at rest
      obtain ⟨later, recorded, holds⟩ := rest
      exact ⟨events ++ later, by rw [recorded, List.append_assoc], holds⟩

theorem run_lift (s : σ) (record : List ω) :
    (lift y : RecordM ε σ ω α).run (s, record) = match y.run s with
      | .ok a t => .ok a (t, record)
      | .error e t => .error (.error e) (t, record) := by
  unfold lift zoom EStateM.run
  dsimp only
  cases y s <;> rfl

theorem records_lift (returned : ∀ a t, y.run s = .ok a t → Q [] a t) (failed : E []) :
    Records (lift y) y s Q E := by
  intro record
  rw [run_lift]
  cases run : y.run s with
  | ok a t => exact ⟨[], by rw [List.append_nil], returned a t run⟩
  | error e t => exact ⟨[], by rw [List.append_nil], failed⟩

theorem records_lift_bind (returned : ∀ a t, y.run s = .ok a t → Records (f a) (g a) t R E)
    (failed : E []) : Records (lift y >>= f) (y >>= g) s R E := by
  have first : Records (lift y) y s (fun (events : List ω) a t => events = [] ∧ y.run s = .ok a t)
      fun events => events = [] := records_lift (fun a t run => ⟨rfl, run⟩) rfl
  refine first.bind (fun events none => none ▸ failed) ?_
  rintro _ a t ⟨rfl, run⟩
  exact returned a t run

theorem records_okOr_bind {o : Option α} {e : ε}
    (found : ∀ a, o = some a → Records (f a) (g a) s R E) (failed : E []) :
    Records (lift (okOr o e) >>= f) (okOr o e >>= g) s R E := by
  refine records_lift_bind (fun a t run => ?_) failed
  obtain ⟨same, rfl⟩ := run_okOr_ok.mp run
  exact found a same

theorem records_ofExcept_bind {r : Except ε α}
    (returned : ∀ a, r = .ok a → Records (f a) (g a) s R E) (failed : E []) :
    Records (lift (ErrorState.ofExcept r) >>= f) (ErrorState.ofExcept r >>= g) s R E := by
  refine records_lift_bind (fun a t run => ?_) failed
  obtain ⟨same, rfl⟩ := run_ofExcept_ok_iff.mp run
  exact returned a same

theorem records_throwIf_bind {c : Prop} [Decidable c] {e : ε} {f : Unit → RecordM ε σ ω β}
    {g : Unit → EStateM ε σ β} (passed : ¬ c → Records (f ()) (g ()) s R E) (failed : E []) :
    Records (lift (throwIf c e) >>= f) (throwIf c e >>= g) s R E := by
  refine records_lift_bind (fun a t run => ?_) failed
  obtain ⟨holds, rfl⟩ := run_throwIf_ok.mp run
  exact passed holds

theorem records_emit_bind {event : ω} {f : Unit → RecordM ε σ ω α}
    (h : Records (f ()) y s (fun events => Q (event :: events)) fun events => E (event :: events)) :
    Records (emit event >>= f) y s Q E := by
  intro record
  have h := h (record ++ [event])
  cases run : y.run s with
  | ok a t =>
    rw [run] at h
    obtain ⟨events, recorded, holds⟩ := h
    exact ⟨event :: events, recorded.trans (by rw [List.append_assoc]; rfl), holds⟩
  | error e t =>
    rw [run] at h
    obtain ⟨events, recorded, holds⟩ := h
    exact ⟨event :: events, recorded.trans (by rw [List.append_assoc]; rfl), holds⟩

theorem records_require_bind {c : Prop} [Decidable c] {f : Unit → RecordM ε σ ω α} (holds : c)
    (h : Records (f ()) y s Q E) : Records (require c >>= f) y s Q E := by
  intro record
  have run : (require c >>= f).run (s, record) = (f ()).run (s, record) :=
    run_throwIf_bind (not_not_intro holds)
  rw [run]
  exact h record

theorem Records.ite {c : Prop} [Decidable c] {x' : RecordM ε σ ω α} {y' : EStateM ε σ α}
    (first : c → Records x y s Q E) (second : ¬ c → Records x' y' s Q E) :
    Records (if c then x else x') (if c then y else y') s Q E := by
  by_cases holds : c
  · rw [if_pos holds, if_pos holds]
    exact first holds
  · rw [if_neg holds, if_neg holds]
    exact second holds

/-- A loop: what holds of the events after each number of rounds. -/
theorem records_forM {ι : Type} {items : List ι} {f : ι → RecordM ε σ ω PUnit}
    {g : ι → EStateM ε σ PUnit} {I : ℕ → List ω → σ → Prop} {n : ℕ} {before : List ω}
    (start : I n before s)
    (round : ∀ item ∈ items, ∀ k < n + items.length, ∀ events t, I k events t →
      Records (f item) (g item) t (fun new _ u => I (k + 1) (events ++ new) u)
        fun new => E (events ++ new)) :
    Records (items.forM f) (items.forM g) s (fun new _ t => I (n + items.length) (before ++ new) t)
      fun new => E (before ++ new) := by
  induction items generalizing s n before with
  | nil => exact records_pure (by rwa [List.append_nil])
  | cons item items ih =>
    refine (round item List.mem_cons_self n (by simp) before s start).bind (fun _ => id) ?_
    intro events _ t kept
    have rest := ih kept fun other member k k_lt => round other (List.mem_cons_of_mem _ member) k (by
      rw [List.length_cons]
      omega)
    refine rest.mono (fun later _ u holds => ?_) fun later holds => ?_
    · rw [List.length_cons, ← List.append_assoc]
      rwa [Nat.add_assoc, Nat.add_comm 1] at holds
    · rwa [List.append_assoc] at holds

/-- A fold: what holds of the events and of what was built after each item. -/
theorem records_foldlM {ι γ : Type} {items : List ι} {f : γ → ι → RecordM ε σ ω γ}
    {g : γ → ι → EStateM ε σ γ} {I : List ω → γ → Prop} {c : γ} {before : List ω}
    (start : I before c)
    (round : ∀ item ∈ items, ∀ events c t, I events c →
      Records (f c item) (g c item) t (fun new c' _ => I (events ++ new) c')
        fun new => E (events ++ new)) :
    Records (items.foldlM f c) (items.foldlM g c) s (fun new c' _ => I (before ++ new) c')
      fun new => E (before ++ new) := by
  induction items generalizing s c before with
  | nil => exact records_pure (by rwa [List.append_nil])
  | cons item items ih =>
    rw [List.foldlM_cons, List.foldlM_cons]
    refine (round item List.mem_cons_self before c s start).bind (fun _ => id) fun events c' t kept => ?_
    have rest := ih (s := t) kept fun other member => round other (List.mem_cons_of_mem _ member)
    refine rest.mono (fun later d u holds => ?_) fun later holds => ?_
    · rwa [List.append_assoc] at holds
    · rwa [List.append_assoc] at holds

end Recorded
