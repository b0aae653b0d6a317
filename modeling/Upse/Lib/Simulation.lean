import Upse.Lib.ErrorState

/-!
# Two runs of programs that fail

`Simulates R m n` says that `m` and `n`, started in related states, do the same: they return the
same value or fail with the same error, and leave related states.  The rules follow the structure
of a program, as those of `Leads` do for one run.

`Lockstep Q R s t m n` says it of one pair of states, where what the programs are depends on what they
have read from them, and of values that are related only.
-/

namespace ErrorState

variable {ε σ τ α β : Type} {R : σ → τ → Prop}

/-- Two outcomes agree: the same value or the same error, in related states. -/
def Agree (R : σ → τ → Prop) : EStateM.Result ε σ α → EStateM.Result ε τ α → Prop
  | .ok a s, .ok b t => a = b ∧ R s t
  | .error e s, .error f t => e = f ∧ R s t
  | _, _ => False

/-- From related states, both programs do the same. -/
def Simulates (R : σ → τ → Prop) (m : EStateM ε σ α) (n : EStateM ε τ α) : Prop :=
  ∀ s t, R s t → Agree R (m.run s) (n.run t)

variable {m : EStateM ε σ α} {n : EStateM ε τ α}

theorem Simulates.leaves (h : Simulates R m n) {s : σ}
    {t : τ} (hR : R s t) : R (leaves (m.run s)) (leaves (n.run t)) := by
  have agree := h s t hR
  cases hm : m.run s <;> cases hn : n.run t <;> rw [hm, hn] at agree
  · exact agree.2
  · exact agree.elim
  · exact agree.elim
  · exact agree.2

theorem Simulates.ok_left (h : Simulates R m n) {s s' : σ}
    {t : τ} {a : α} (hR : R s t) (run : m.run s = .ok a s') :
    ∃ t', n.run t = .ok a t' ∧ R s' t' := by
  have agree := h s t hR
  rw [run] at agree
  cases hn : n.run t with
  | ok b t' =>
    rw [hn] at agree
    exact ⟨t', by rw [agree.1], agree.2⟩
  | error e t' => rw [hn] at agree; exact agree.elim

theorem Simulates.ok_right (h : Simulates R m n) {s : σ}
    {t t' : τ} {a : α} (hR : R s t) (run : n.run t = .ok a t') :
    ∃ s', m.run s = .ok a s' ∧ R s' t' := by
  have agree := h s t hR
  rw [run] at agree
  cases hm : m.run s with
  | ok b s' =>
    rw [hm] at agree
    exact ⟨s', by rw [agree.1], agree.2⟩
  | error e s' => rw [hm] at agree; exact agree.elim

theorem simulates_pure (a : α) :
    Simulates R (pure a : EStateM ε σ α) (pure a : EStateM ε τ α) :=
  fun _ _ h => ⟨rfl, h⟩

theorem simulates_modify {f : σ → σ} {g : τ → τ} (h : ∀ s t, R s t → R (f s) (g t)) :
    Simulates R (modify f : EStateM ε σ PUnit) (modify g : EStateM ε τ PUnit) :=
  fun s t hR => ⟨rfl, h s t hR⟩

theorem Simulates.map (h : Simulates R m n) (f : α → β) :
    Simulates R (f <$> m) (f <$> n) := by
  intro s t hR
  have agree := h s t hR
  rw [run_map, run_map]
  cases hm : m.run s <;> cases hn : n.run t <;> rw [hm, hn] at agree
  · exact ⟨congrArg f agree.1, agree.2⟩
  · exact agree.elim
  · exact agree.elim
  · exact agree

theorem Simulates.bind {f : α → EStateM ε σ β}
    {g : α → EStateM ε τ β} (hm : Simulates R m n) (hf : ∀ a, Simulates R (f a) (g a)) :
    Simulates R (m >>= f) (n >>= g) := by
  intro s t hR
  have agree := hm s t hR
  rw [run_bind, run_bind]
  cases hs : m.run s with
  | ok a s' =>
    cases ht : n.run t with
    | ok b t' =>
      rw [hs, ht] at agree
      obtain ⟨rfl, related⟩ := agree
      exact hf a s' t' related
    | error e t' => rw [hs, ht] at agree; exact agree.elim
  | error e s' =>
    cases ht : n.run t with
    | ok b t' => rw [hs, ht] at agree; exact agree.elim
    | error e' t' => rw [hs, ht] at agree; exact agree

theorem simulates_zoom {κ φ : Type} {component : σ → κ} {component' : τ → κ}
    {replace : κ → σ → σ} {replace' : κ → τ → τ} {embed : ε → φ} (m : EStateM ε κ α)
    (same : ∀ s t, R s t → component s = component' t)
    (keep : ∀ c s t, R s t → R (replace c s) (replace' c t)) :
    Simulates R (zoom component replace embed m) (zoom component' replace' embed m) := by
  intro s t hR
  rw [run_zoom, run_zoom, same s t hR]
  cases m.run (component' t) with
  | ok a c => exact ⟨rfl, keep c s t hR⟩
  | error e c => exact ⟨rfl, keep c s t hR⟩

/-! ### From one pair of states -/

section Lockstep

variable {γ δ : Type} {P : α → β → Prop} {Q : γ → δ → Prop} {s : σ} {t : τ}

/-- Two outcomes match: related values or the same error, in related states. -/
def Matches (Q : γ → δ → Prop) (R : σ → τ → Prop) :
    EStateM.Result ε σ γ → EStateM.Result ε τ δ → Prop
  | .ok a s, .ok b t => Q a b ∧ R s t
  | .error e s, .error f t => e = f ∧ R s t
  | _, _ => False

/-- From this pair of states, both programs do the same. -/
def Lockstep (Q : γ → δ → Prop) (R : σ → τ → Prop) (s : σ) (t : τ) (m : EStateM ε σ γ)
    (n : EStateM ε τ δ) : Prop :=
  Matches Q R (m.run s) (n.run t)

theorem Lockstep.leaves {m : EStateM ε σ γ} {n : EStateM ε τ δ} (h : Lockstep Q R s t m n) :
    R (leaves (m.run s)) (leaves (n.run t)) := by
  unfold Lockstep at h
  cases hm : m.run s <;> cases hn : n.run t <;> rw [hm, hn] at h
  · exact h.2
  · exact h.elim
  · exact h.elim
  · exact h.2

theorem lockstep_pure {a : γ} {b : δ} (value : Q a b) (state : R s t) :
    Lockstep Q R s t (pure a : EStateM ε σ γ) (pure b : EStateM ε τ δ) :=
  ⟨value, state⟩

theorem lockstep_modify {f : σ → σ} {g : τ → τ} (h : R (f s) (g t)) :
    Lockstep Eq R s t (modify f : EStateM ε σ PUnit) (modify g : EStateM ε τ PUnit) :=
  ⟨rfl, h⟩

theorem lockstep_get_bind {f : σ → EStateM ε σ γ} {g : τ → EStateM ε τ δ}
    (h : Lockstep Q R s t (f s) (g t)) : Lockstep Q R s t (get >>= f) (get >>= g) := h

theorem Lockstep.ite {c : Prop} [Decidable c] {m m' : EStateM ε σ γ} {n n' : EStateM ε τ δ}
    (pos : c → Lockstep Q R s t m n) (neg : ¬ c → Lockstep Q R s t m' n') :
    Lockstep Q R s t (if c then m else m') (if c then n else n') := by
  by_cases h : c
  · rw [if_pos h, if_pos h]
    exact pos h
  · rw [if_neg h, if_neg h]
    exact neg h

theorem Lockstep.either {c : Prop} [Decidable c] {m m' : EStateM ε σ γ} {n n' : EStateM ε τ δ}
    (pos : Lockstep Q R s t m n) (neg : Lockstep Q R s t m' n') :
    Lockstep Q R s t (if c then m else m') (if c then n else n') :=
  .ite (fun _ => pos) fun _ => neg

/-- Sequencing: the second parts start from related values in related states. -/
theorem Lockstep.bind {m : EStateM ε σ α} {n : EStateM ε τ β} {f : α → EStateM ε σ γ}
    {g : β → EStateM ε τ δ} (hm : Lockstep P R s t m n)
    (hf : ∀ a b s' t', m.run s = .ok a s' → P a b → R s' t' → Lockstep Q R s' t' (f a) (g b)) :
    Lockstep Q R s t (m >>= f) (n >>= g) := by
  unfold Lockstep at hm ⊢
  rw [run_bind, run_bind]
  cases hs : m.run s <;> cases ht : n.run t <;> rw [hs, ht] at hm
  · exact hf _ _ _ _ hs hm.1 hm.2
  · exact hm.elim
  · exact hm.elim
  · exact hm

theorem Lockstep.returning {m : EStateM ε σ α} {n : EStateM ε τ α} {f : α → γ} {g : α → δ}
    (hm : Lockstep Eq R s t m n) (related : ∀ a, Q (f a) (g a)) :
    Lockstep Q R s t (m >>= fun a => pure (f a)) (n >>= fun a => pure (g a)) := by
  apply hm.bind
  intro a b s' t' _ same state
  subst same
  exact lockstep_pure (related a) state

theorem lockstep_zoom {κ φ : Type} {component : σ → κ} {component' : τ → κ}
    {replace : κ → σ → σ} {replace' : κ → τ → τ} {embed : ε → φ} (m : EStateM ε κ α)
    (same : component s = component' t) (keep : ∀ c, R (replace c s) (replace' c t)) :
    Lockstep Eq R s t (zoom component replace embed m) (zoom component' replace' embed m) := by
  unfold Lockstep
  rw [run_zoom, run_zoom, same]
  cases m.run (component' t) with
  | ok a c => exact ⟨rfl, keep c⟩
  | error e c => exact ⟨rfl, keep c⟩

end Lockstep

end ErrorState
