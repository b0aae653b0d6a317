import Mathlib.Data.List.Basic

/-!
# Runs of a transition system

`Run next s es t` is a run from `s` to `t` whose steps are labelled, in order, by the events `es`.
An event is whatever an observer sees of a step (a request with its reply, a state before and a
state after), so that a property of a whole history is a property of the list of its events.
-/

/-- A run from one state to another, with the events of its steps in order. -/
inductive Run {σ ε : Type} (next : σ → ε → σ → Prop) : σ → List ε → σ → Prop
  | refl (s : σ) : Run next s [] s
  | snoc {s t u : σ} {es : List ε} {e : ε} :
      Run next s es t → next t e u → Run next s (es ++ [e]) u

namespace Run

variable {σ ε : Type} {next : σ → ε → σ → Prop} {s t u : σ} {es fs : List ε} {e : ε}

theorem single (h : next s e t) : Run next s [e] t := (refl s).snoc h

theorem append (h : Run next s es t) (h' : Run next t fs u) : Run next s (es ++ fs) u := by
  induction h' with
  | refl => simpa using h
  | snoc _ step ih => simpa [List.append_assoc] using ih.snoc step

theorem foldl (f : σ → ε → σ) (s : σ) (es : List ε) : Run (fun a e b => f a e = b) s es (es.foldl f s) := by
  induction es generalizing s with
  | nil => exact refl s
  | cons e es ih => exact (single rfl).append (ih (f s e))

/-- The induction rule: what holds at the start and is preserved by every step holds at the end. -/
theorem invariant {I : σ → Prop} (h : Run next s es t) (start : I s)
    (step : ∀ a f b, I a → next a f b → I b) : I t := by
  induction h with
  | refl => exact start
  | snoc _ hn ih => exact step _ _ _ ih hn

theorem restrict {P : ε → Prop} (h : Run next s es t) (all : ∀ f ∈ es, P f) :
    Run (fun a f b => next a f b ∧ P f) s es t := by
  induction h with
  | refl => exact refl _
  | snoc _ hn ih =>
    refine (ih fun f hf => all f (List.mem_append_left _ hf)).snoc ⟨hn, all _ ?_⟩
    exact List.mem_append_right _ (List.mem_singleton_self _)

theorem mono {next' : σ → ε → σ → Prop} (h : Run next s es t)
    (weaken : ∀ a f b, next a f b → next' a f b) : Run next' s es t := by
  induction h with
  | refl => exact refl _
  | snoc _ hn ih => exact ih.snoc (weaken _ _ _ hn)

/-- A relation between a whole history and the state it leads to. -/
theorem history {H : List ε → σ → Prop} (h : Run next s es t) (start : H [] s)
    (step : ∀ fs a f b, H fs a → next a f b → H (fs ++ [f]) b) : H es t := by
  induction h with
  | refl => exact start
  | snoc _ hn ih => exact step _ _ _ _ ih hn

end Run
