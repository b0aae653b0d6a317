import Mathlib.Logic.Relation

/-!
# Programs that fail and keep their state

`EStateM ε σ` programs without backtracking: a failed run leaves the state it had reached when it
failed.  `leaves` is the state after a run, whether it returned or failed, and `Leads R s m` says
that the run of `m` from `s` is a step of the relation `R`.  The rules for `Leads` follow the
structure of a program and need `R` to be reflexive and transitive only, so they lose nothing at a
failure.
-/

namespace ErrorState

export EStateM (run_bind run_get run_modify run_pure run_set)

variable {ε σ α β : Type}

/-- The value of an option, or the failure `e`. -/
def okOr (o : Option α) (e : ε) : EStateM ε σ α :=
  match o with
  | some a => pure a
  | none => throw e

/-- The value of a fallible pure function, or its failure. -/
def ofExcept (r : Except ε α) : EStateM ε σ α :=
  match r with
  | .ok a => pure a
  | .error e => throw e

/-- Fails with `e` where the condition holds. -/
def throwIf (c : Prop) [Decidable c] (e : ε) : EStateM ε σ Unit := if c then throw e else pure ()

/-- Runs a program on a component of the state, with its failures embedded. -/
def zoom {τ φ : Type} (component : σ → τ) (replace : τ → σ → σ) (embed : ε → φ)
    (m : EStateM ε τ α) : EStateM φ σ α := fun s =>
  match m.run (component s) with
  | .ok a t => .ok a (replace t s)
  | .error e t => .error (embed e) (replace t s)

/-- The state a run leaves, whether it returned or failed. -/
def leaves : EStateM.Result ε σ α → σ
  | .ok _ s => s
  | .error _ s => s

@[simp] theorem leaves_ok (a : α) (s : σ) : leaves (.ok a s : EStateM.Result ε σ α) = s := rfl

@[simp] theorem leaves_error (e : ε) (s : σ) :
    leaves (.error e s : EStateM.Result ε σ α) = s := rfl

/-- Whether a run returned. -/
def succeeds : EStateM.Result ε σ α → Bool
  | .ok _ _ => true
  | .error _ _ => false

theorem eq_ok_of_succeeds {r : EStateM.Result ε σ Unit} (h : succeeds r = true) :
    r = .ok () (leaves r) := by
  cases r with
  | ok a s => rfl
  | error e s => cases h

/-- The value a run returns. -/
def returned : EStateM.Result ε σ α → Option α
  | .ok a _ => some a
  | .error _ _ => none

theorem eq_ok_of_returned {r : EStateM.Result ε σ α} {a : α} (h : returned r = some a) :
    r = .ok a (leaves r) := by
  cases r with
  | ok b s => rw [Option.some.inj h]; rfl
  | error e s => cases h

theorem exists_ok_of_succeeds {r : EStateM.Result ε σ α} (h : succeeds r = true) :
    ∃ a s, r = .ok a s := by
  cases r with
  | ok a s => exact ⟨a, s, rfl⟩
  | error e s => cases h

/-! ## Running a program -/

@[simp] theorem run_throw (e : ε) (s : σ) :
    (throw e : EStateM ε σ α).run s = .error e s := rfl

@[simp] theorem run_throwIf (c : Prop) [Decidable c] (e : ε) (s : σ) :
    (throwIf c e : EStateM ε σ Unit).run s = if c then .error e s else .ok () s := by
  unfold throwIf
  split <;> rfl

@[simp] theorem run_okOr_some (a : α) (e : ε) (s : σ) :
    (okOr (some a) e : EStateM ε σ α).run s = .ok a s := rfl

@[simp] theorem run_okOr_none (e : ε) (s : σ) :
    (okOr none e : EStateM ε σ α).run s = .error e s := rfl

@[simp] theorem run_ofExcept_ok (a : α) (s : σ) :
    (ofExcept (.ok a) : EStateM ε σ α).run s = .ok a s := rfl

@[simp] theorem run_ofExcept_error (e : ε) (s : σ) :
    (ofExcept (.error e) : EStateM ε σ α).run s = .error e s := rfl

@[simp] theorem run_ite (c : Prop) [Decidable c] (m n : EStateM ε σ α) (s : σ) :
    (if c then m else n).run s = if c then m.run s else n.run s := by
  split <;> rfl

@[simp] theorem run_map (f : α → β) (m : EStateM ε σ α) (s : σ) :
    (f <$> m).run s =
      match m.run s with
      | .ok a t => .ok (f a) t
      | .error e t => .error e t := by
  simp only [Functor.map, EStateM.map, EStateM.run]
  cases m s <;> rfl

@[simp] theorem leaves_map (f : α → β) (m : EStateM ε σ α) (s : σ) :
    leaves ((f <$> m).run s) = leaves (m.run s) := by
  rw [run_map]
  cases m.run s <;> rfl

/-- A successful sequence splits into two successful runs. -/
theorem run_bind_ok {m : EStateM ε σ α} {f : α → EStateM ε σ β} {s u : σ} {b : β} :
    (m >>= f).run s = .ok b u ↔ ∃ a t, m.run s = .ok a t ∧ (f a).run t = .ok b u := by
  rw [run_bind]
  cases m.run s with
  | ok a t => simp [and_assoc]
  | error e t => simp

/-! ### What a successful run says -/

section Successful

variable {s t u : σ} {a b : α} {e : ε}

theorem run_pure_ok : (pure a : EStateM ε σ α).run s = .ok b t ↔ a = b ∧ s = t := by
  simp

theorem run_get_ok : (get : EStateM ε σ σ).run s = .ok t u ↔ s = t ∧ s = u := by
  simp

theorem run_set_ok {a : PUnit} : (set t : EStateM ε σ PUnit).run s = .ok a u ↔ t = u := by
  simp

theorem run_modify_ok {f : σ → σ} {a : PUnit} :
    (modify f : EStateM ε σ PUnit).run s = .ok a t ↔ f s = t := by
  simp

theorem run_throw_ok : (throw e : EStateM ε σ α).run s = .ok a t ↔ False := by
  simp

theorem run_okOr_ok {o : Option α} :
    (okOr o e : EStateM ε σ α).run s = .ok a t ↔ o = some a ∧ s = t := by
  cases o <;> simp

theorem run_ofExcept_ok_iff {r : Except ε α} :
    (ofExcept r : EStateM ε σ α).run s = .ok a t ↔ r = .ok a ∧ s = t := by
  cases r <;> simp

theorem run_throwIf_ok {c : Prop} [Decidable c] {a : Unit} :
    (throwIf c e : EStateM ε σ Unit).run s = .ok a t ↔ ¬ c ∧ s = t := by
  rw [run_throwIf]
  split <;> simp_all

end Successful

/-! ### Runs on a component -/

section Components

variable {τ φ : Type} {component : σ → τ} {replace : τ → σ → σ} {embed : ε → φ}
  {m : EStateM ε τ α} {s t : σ}

/-- A run on a component, put back whether it succeeded or failed. -/
theorem run_zoom :
    (zoom component replace embed m).run s =
      match m.run (component s) with
      | .ok a t => .ok a (replace t s)
      | .error e t => .error (embed e) (replace t s) := rfl

theorem leaves_zoom :
    leaves ((zoom component replace embed m).run s) = replace (leaves (m.run (component s))) s := by
  rw [run_zoom]
  cases m.run (component s) <;> rfl

theorem run_zoom_ok {a : α} :
    (zoom component replace embed m).run s = .ok a t ↔
      ∃ c, m.run (component s) = .ok a c ∧ t = replace c s := by
  rw [run_zoom]
  cases m.run (component s) with
  | ok b c =>
    simp only [EStateM.Result.ok.injEq]
    constructor
    · rintro ⟨rfl, rfl⟩
      exact ⟨c, ⟨rfl, rfl⟩, rfl⟩
    · rintro ⟨_, ⟨rfl, rfl⟩, rfl⟩
      exact ⟨rfl, rfl⟩
  | error e c => simp

theorem run_zoom_error {e : φ} (run : (zoom component replace embed m).run s = .error e t) :
    ∃ e' c, m.run (component s) = .error e' c ∧ e = embed e' ∧ t = replace c s := by
  rw [run_zoom] at run
  cases ran : m.run (component s) with
  | ok a c => rw [ran] at run; cases run
  | error e' c =>
    rw [ran] at run
    cases run
    exact ⟨e', c, rfl, rfl, rfl⟩

theorem run_zoom_congr {second : σ → τ} (same : m.run (component s) = m.run (second s)) :
    (zoom component replace embed m).run s = (zoom second replace embed m).run s := by
  rw [run_zoom, run_zoom, same]

end Components

/-! ### Steps that succeed -/

section Forward

variable {s t : σ} {a : α} {f : α → EStateM ε σ β}

theorem run_bind_of_ok {m : EStateM ε σ α} (h : m.run s = .ok a t) :
    (m >>= f).run s = (f a).run t := by
  rw [run_bind, h]

theorem run_bind_of_error {m : EStateM ε σ α} {e : ε} (h : m.run s = .error e t) :
    (m >>= f).run s = .error e t := by
  rw [run_bind, h]

theorem run_get_bind {f : σ → EStateM ε σ β} : (get >>= f).run s = (f s).run s := rfl

theorem run_modify_bind {g : σ → σ} {f : PUnit → EStateM ε σ β} :
    (modify g >>= f).run s = (f ⟨⟩).run (g s) := rfl

theorem run_okOr_bind {o : Option α} {e : ε} (h : o = some a) :
    (okOr o e >>= f).run s = (f a).run s := by
  rw [h]
  rfl

theorem run_ofExcept_bind {r : Except ε α} (h : r = .ok a) :
    (ofExcept r >>= f).run s = (f a).run s := by
  rw [h]
  rfl

theorem run_throwIf_bind {c : Prop} [Decidable c] {e : ε} {f : Unit → EStateM ε σ β} (h : ¬ c) :
    (throwIf c e >>= f).run s = (f ()).run s := by
  unfold throwIf
  rw [if_neg h]
  rfl

theorem forM_range_succ {n : Nat} {f : Nat → EStateM ε σ PUnit} :
    (List.range (n + 1)).forM f = f 0 >>= fun _ => (List.range n).forM fun i => f (i + 1) := by
  show forM (List.range (n + 1)) f = f 0 >>= fun _ => forM (List.range n) fun i => f (i + 1)
  rw [List.range_succ_eq_map, List.forM_cons, List.forM_map]

end Forward

theorem exists_ok_of_isOk {r : Except ε α} (h : r.isOk = true) : ∃ a, r = .ok a := by
  cases r with
  | ok a => exact ⟨a, rfl⟩
  | error e => cases h

variable {f : α → Except ε β} {x : Except ε α}

theorem ofExcept_bind {r : Except ε α} :
    (ofExcept (r >>= f) : EStateM ε σ β) = ofExcept r >>= fun a => ofExcept (f a) := by
  cases r <;> rfl

theorem ofExcept_foldlM {ι γ : Type} {items : List ι} {f : γ → ι → Except ε γ} {c : γ} :
    (ofExcept (items.foldlM f c) : EStateM ε σ γ) =
      items.foldlM (fun c item => ofExcept (f c item)) c := by
  induction items generalizing c with
  | nil => rfl
  | cons item items ih =>
    rw [List.foldlM_cons, List.foldlM_cons, ofExcept_bind]
    exact bind_congr fun c' => ih

theorem except_mapError_ok {φ : Type} {f : ε → φ} {a : α} :
    x.mapError f = .ok a ↔ x = .ok a := by
  cases x with
  | error e => exact ⟨nofun, nofun⟩
  | ok b => exact ⟨fun h => by cases h; rfl, fun h => by cases h; rfl⟩

theorem except_mapError_bind {φ : Type} {g : ε → φ} :
    (x >>= f).mapError g = x.mapError g >>= fun a => (f a).mapError g := by
  cases x <;> rfl

theorem except_bind_ok {b : β} :
    (x >>= f) = .ok b ↔ ∃ a, x = .ok a ∧ f a = .ok b := by
  cases x with
  | error e => exact ⟨nofun, fun ⟨_, failed, _⟩ => by cases failed⟩
  | ok a => exact ⟨fun h => ⟨a, rfl, h⟩, fun ⟨_, same, h⟩ => by cases same; exact h⟩

/-! ## Steps of a relation -/

/-- The run of `m` from `s`, successful or not, is a step of `R`. -/
def Leads (R : σ → σ → Prop) (s : σ) (m : EStateM ε σ α) : Prop := R s (leaves (m.run s))

section Rules

variable {R : σ → σ → Prop} {s : σ}
variable {m : EStateM ε σ α} {f : α → EStateM ε σ β}

theorem Leads.mono {R' : σ → σ → Prop} (h : Leads R s m)
    (hR : ∀ s t, R s t → R' s t) : Leads R' s m :=
  hR s _ h

theorem Leads.of_ok {a : α} {t : σ} (h : Leads R s m)
    (run : m.run s = .ok a t) : R s t := by
  unfold Leads at h
  rwa [run] at h

theorem leads_pure [Std.Refl R] (a : α) : Leads R s (pure a : EStateM ε σ α) :=
  Std.Refl.refl s

theorem leads_throw [Std.Refl R] (e : ε) : Leads R s (throw e : EStateM ε σ α) :=
  Std.Refl.refl s

theorem leads_modify {f : σ → σ} (h : R s (f s)) :
    Leads R s (modify f : EStateM ε σ PUnit) := h

theorem leads_set {t : σ} (h : R s t) : Leads R s (set t : EStateM ε σ PUnit) := h

theorem leads_okOr [Std.Refl R] (o : Option α) (e : ε) : Leads R s (okOr o e : EStateM ε σ α) := by
  cases o
  · exact leads_throw e
  · exact leads_pure _

theorem leads_ofExcept [Std.Refl R] (r : Except ε α) : Leads R s (ofExcept r : EStateM ε σ α) := by
  cases r
  · exact leads_throw _
  · exact leads_pure _

theorem Leads.map (hm : Leads R s m) (f : α → β) : Leads R s (f <$> m) := by
  unfold Leads at *
  rw [run_map]
  cases h : m.run s <;> rw [h] at hm <;> exact hm

theorem Leads.returning {g : α → β} (hm : Leads R s m) : Leads R s (m >>= fun a => pure (g a)) := by
  rw [bind_pure_comp]
  exact hm.map g

/-- Sequencing: the second part starts where the first one succeeded. -/
theorem Leads.bind [IsTrans σ R] (hm : Leads R s m)
    (hf : ∀ a t, m.run s = .ok a t → Leads R t (f a)) : Leads R s (m >>= f) := by
  unfold Leads at *
  rw [run_bind]
  cases h : m.run s with
  | ok a t =>
    rw [h] at hm
    exact IsTrans.trans _ _ _ hm (hf a t h)
  | error e t =>
    rw [h] at hm
    exact hm

/-- A traversal is steps of what it does to each item. -/
theorem leads_mapM [Std.Refl R] [IsTrans σ R] {ι : Type} {items : List ι} {f : ι → EStateM ε σ α}
    (h : ∀ item s, Leads R s (f item)) : Leads R s (items.mapM f) := by
  induction items generalizing s with
  | nil => exact leads_pure []
  | cons item items ih =>
    rw [List.mapM_cons]
    exact (h item s).bind fun a t _ => Leads.bind ih fun b u _ => leads_pure _

theorem leads_ok_bind [IsTrans σ R] {a : α} {t : σ}
    (run : m.run s = .ok a t) (hm : R s t) (hf : Leads R t (f a)) : Leads R s (m >>= f) := by
  unfold Leads at *
  rw [run_bind, run]
  exact IsTrans.trans _ _ _ hm hf

theorem leads_get_bind {f : σ → EStateM ε σ β} (hf : Leads R s (f s)) : Leads R s (get >>= f) := hf

theorem leads_modify_bind [IsTrans σ R] {g : σ → σ} {f : PUnit → EStateM ε σ β} (hg : R s (g s))
    (hf : Leads R (g s) (f ⟨⟩)) : Leads R s (modify g >>= f) :=
  IsTrans.trans _ _ _ hg hf

theorem leads_okOr_bind [Std.Refl R] {o : Option α} {e : ε}
    (hf : ∀ a, o = some a → Leads R s (f a)) : Leads R s (okOr o e >>= f) := by
  cases o with
  | none => exact Std.Refl.refl s
  | some a => exact hf a rfl

theorem leads_ofExcept_bind [Std.Refl R] {r : Except ε α}
    (hf : ∀ a, r = .ok a → Leads R s (f a)) : Leads R s (ofExcept r >>= f) := by
  cases r with
  | error e => exact Std.Refl.refl s
  | ok a => exact hf a rfl

theorem leads_throwIf_bind [Std.Refl R] {c : Prop} [Decidable c] {e : ε}
    {f : Unit → EStateM ε σ β} (hf : ¬ c → Leads R s (f ())) : Leads R s (throwIf c e >>= f) := by
  unfold throwIf
  by_cases h : c
  · rw [if_pos h]
    exact Std.Refl.refl s
  · rw [if_neg h]
    exact hf h

theorem Leads.ite {c : Prop} [Decidable c] {m n : EStateM ε σ α} (hm : c → Leads R s m)
    (hn : ¬ c → Leads R s n) : Leads R s (if c then m else n) := by
  split
  next h => exact hm h
  next h => exact hn h

/-- A choice between programs that make a step whatever is chosen. -/
theorem Leads.either {c : Prop} [Decidable c] {m n : EStateM ε σ α} (hm : Leads R s m)
    (hn : Leads R s n) : Leads R s (if c then m else n) :=
  .ite (fun _ => hm) fun _ => hn

/-- The run of `m` from `s` is a step of `R`, and what it returns satisfies `Q`. -/
def Yields (R : σ → σ → Prop) (Q : α → Prop) (s : σ) (m : EStateM ε σ α) : Prop :=
  Leads R s m ∧ ∀ a t, m.run s = .ok a t → Q a

theorem yields_pure [Std.Refl R] {Q : α → Prop} {a : α} (h : Q a) :
    Yields R Q s (pure a : EStateM ε σ α) :=
  ⟨leads_pure a, fun _ _ run => (run_pure_ok.mp run).1 ▸ h⟩

theorem Leads.yields [IsTrans σ R] {Q : β → Prop}
    (hm : Leads R s m) (hf : ∀ a t, m.run s = .ok a t → Yields R Q t (f a)) :
    Yields R Q s (m >>= f) := by
  refine ⟨hm.bind fun a t run => (hf a t run).1, fun b u run => ?_⟩
  obtain ⟨a, t, first, second⟩ := run_bind_ok.mp run
  exact (hf a t first).2 b u second

theorem Yields.ite {c : Prop} [Decidable c] {Q : α → Prop} {m n : EStateM ε σ α}
    (hm : c → Yields R Q s m) (hn : ¬ c → Yields R Q s n) :
    Yields R Q s (if c then m else n) := by
  split
  next h => exact hm h
  next h => exact hn h

theorem Yields.either {c : Prop} [Decidable c] {Q : α → Prop} {m n : EStateM ε σ α}
    (hm : Yields R Q s m) (hn : Yields R Q s n) : Yields R Q s (if c then m else n) :=
  .ite (fun _ => hm) fun _ => hn

end Rules

theorem leads_get {R : σ → σ → Prop} [Std.Refl R] {s : σ} :
    Leads R s (get : EStateM ε σ σ) := Std.Refl.refl s

theorem leads_zoom {R : σ → σ → Prop} {τ φ : Type} {component : σ → τ} {replace : τ → σ → σ}
    {embed : ε → φ} {m : EStateM ε τ α} {s : σ}
    (h : R s (replace (leaves (m.run (component s))) s)) :
    Leads R s (zoom component replace embed m) := by
  unfold Leads
  change R s (leaves (match m.run (component s) with
    | .ok a t => EStateM.Result.ok a (replace t s)
    | .error e t => .error (embed e) (replace t s)))
  cases run : m.run (component s) <;> rw [run] at h <;> exact h

/-! ### Steps that keep a predicate -/

/-- The steps after which a predicate holds if it held before. -/
def Keeps (I : σ → Prop) (s t : σ) : Prop := I s → I t

instance (I : σ → Prop) : Std.Refl (Keeps I) := ⟨fun _ => id⟩

instance (I : σ → Prop) : IsTrans σ (Keeps I) := ⟨fun _ _ _ first second => second ∘ first⟩

/-- The steps that end where a predicate holds, wherever they start. -/
def Ends (P : σ → Prop) (_ t : σ) : Prop := P t

instance (P : σ → Prop) : IsTrans σ (Ends P) := ⟨fun _ _ _ _ second => second⟩

/-! ## What a successful run establishes -/

/-- Where the run of `m` from `s` returns, what it returns and the state it leaves satisfy `Q`. -/
def Returns (Q : α → σ → Prop) (s : σ) (m : EStateM ε σ α) : Prop := ∀ a t, m.run s = .ok a t → Q a t

section Success

variable {P : α → σ → Prop} {Q : β → σ → Prop} {s : σ}

theorem returns_pure {a : α} (h : P a s) : Returns P s (pure a : EStateM ε σ α) := by
  intro b t run
  obtain ⟨rfl, rfl⟩ := run_pure_ok.mp run
  exact h

theorem returns_throw (e : ε) : Returns P s (throw e : EStateM ε σ α) := by
  intro b t run
  cases run

variable {f : α → EStateM ε σ β}

theorem Returns.bind {m : EStateM ε σ α} (hm : Returns P s m)
    (hf : ∀ a t, P a t → Returns Q t (f a)) : Returns Q s (m >>= f) := by
  intro b u run
  obtain ⟨a, t, first, second⟩ := run_bind_ok.mp run
  exact hf a t (hm a t first) b u second

theorem Returns.mono {P' : α → σ → Prop} {m : EStateM ε σ α} (h : Returns P s m)
    (weaker : ∀ a t, P a t → P' a t) : Returns P' s m :=
  fun a t run => weaker a t (h a t run)

theorem returns_get_bind {f : σ → EStateM ε σ β} (hf : Returns Q s (f s)) :
    Returns Q s (get >>= f) := hf

theorem returns_modify {f : σ → σ} {P : PUnit → σ → Prop} (h : P ⟨⟩ (f s)) :
    Returns P s (modify f : EStateM ε σ PUnit) := by
  intro a t run
  obtain rfl := run_modify_ok.mp run
  exact h

theorem returns_modify_bind {g : σ → σ} {f : PUnit → EStateM ε σ β} (hf : Returns Q (g s) (f ⟨⟩)) :
    Returns Q s (modify g >>= f) := hf

theorem returns_okOr_bind {o : Option α} {e : ε}
    (hf : ∀ a, o = some a → Returns Q s (f a)) : Returns Q s (okOr o e >>= f) := by
  cases o with
  | none => exact nofun
  | some a => exact hf a rfl

theorem returns_ofExcept_bind {r : Except ε α}
    (hf : ∀ a, r = .ok a → Returns Q s (f a)) : Returns Q s (ofExcept r >>= f) := by
  cases r with
  | error e => exact nofun
  | ok a => exact hf a rfl

theorem returns_throwIf_bind {c : Prop} [Decidable c] {e : ε} {f : Unit → EStateM ε σ β}
    (hf : ¬ c → Returns Q s (f ())) : Returns Q s (throwIf c e >>= f) := by
  unfold throwIf
  by_cases h : c
  · rw [if_pos h]
    exact nofun
  · rw [if_neg h]
    exact hf h

theorem Returns.ite {c : Prop} [Decidable c] {m n : EStateM ε σ α} (hm : c → Returns P s m)
    (hn : ¬ c → Returns P s n) : Returns P s (if c then m else n) := by
  split
  next h => exact hm h
  next h => exact hn h

theorem Returns.either {c : Prop} [Decidable c] {m n : EStateM ε σ α} (hm : Returns P s m)
    (hn : Returns P s n) : Returns P s (if c then m else n) :=
  .ite (fun _ => hm) fun _ => hn

theorem returns_forM_foldl {ι γ : Type} {I : γ → σ → Prop} {g : γ → ι → γ} {items : List ι}
    {f : ι → EStateM ε σ PUnit} {c : γ} (h : I c s)
    (round : ∀ item ∈ items, ∀ c t, I c t → Returns (fun _ => I (g c item)) t (f item)) :
    Returns (fun _ => I (items.foldl g c)) s (items.forM f) := by
  induction items generalizing s c with
  | nil => exact returns_pure h
  | cons item items ih =>
    refine Returns.bind (round item List.mem_cons_self c s h) fun _ t kept => ?_
    exact ih kept fun other mem => round other (List.mem_cons_of_mem _ mem)

/-- A traversal establishes what its items establish one after the other. -/
theorem returns_mapM {ι : Type} {P : List α → σ → Prop} {items : List ι} {f : ι → EStateM ε σ α}
    (before : List α) (h : P before s)
    (step : ∀ item before t, P before t → Returns (fun a => P (before ++ [a])) t (f item)) :
    Returns (fun results => P (before ++ results)) s (items.mapM f) := by
  induction items generalizing before s with
  | nil => exact returns_pure ((List.append_nil before).symm ▸ h)
  | cons item items ih =>
    rw [List.mapM_cons]
    refine (step item before s h).bind fun a t first => ?_
    refine (ih (before ++ [a]) first).bind fun results u all => ?_
    exact returns_pure (by rwa [List.append_cons])

end Success

/-! ## What a failed run leaves -/

/-- A failed run of `m` from `s` leaves a state that satisfies `P`. -/
def Fails (P : σ → Prop) (s : σ) (m : EStateM ε σ α) : Prop := ∀ e t, m.run s = .error e t → P t

section Failures

variable {P : σ → Prop} {s : σ}
variable {m : EStateM ε σ α} {f : α → EStateM ε σ β}

theorem fails_of_ok {a : α} {t : σ} (run : m.run s = .ok a t) : Fails P s m := by
  intro e u failed
  rw [run] at failed
  cases failed

theorem fails_pure (a : α) : Fails P s (pure a : EStateM ε σ α) := by
  intro e t run
  cases run

theorem fails_throw (e : ε) (h : P s) : Fails P s (throw e : EStateM ε σ α) := by
  intro e' t run
  cases run
  exact h

theorem fails_okOr (o : Option α) (e : ε) (h : P s) : Fails P s (okOr o e : EStateM ε σ α) := by
  cases o with
  | none => exact fails_throw e h
  | some a => exact fails_pure a

theorem fails_ofExcept (r : Except ε α) (h : P s) :
    Fails P s (ofExcept r : EStateM ε σ α) := by
  cases r with
  | error e => exact fails_throw e h
  | ok a => exact fails_pure a

theorem fails_modify (f : σ → σ) : Fails P s (modify f : EStateM ε σ PUnit) := by
  intro e t run
  cases run

/-- Sequencing: the second part starts where the first one succeeded. -/
theorem Fails.bind (hm : Fails P s m)
    (hf : ∀ a t, m.run s = .ok a t → Fails P t (f a)) : Fails P s (m >>= f) := by
  intro e u run
  rw [run_bind] at run
  cases ran : m.run s with
  | ok a t =>
    rw [ran] at run
    exact hf a t ran e u run
  | error e' t =>
    rw [ran] at run
    cases run
    exact hm _ _ ran

theorem fails_get_bind {f : σ → EStateM ε σ β} (hf : Fails P s (f s)) : Fails P s (get >>= f) := hf

theorem fails_okOr_bind {o : Option α} {e : ε} (h : P s)
    (hf : ∀ a, o = some a → Fails P s (f a)) : Fails P s (okOr o e >>= f) := by
  cases o with
  | none => exact fails_throw e h
  | some a => exact hf a rfl

theorem fails_ofExcept_bind {r : Except ε α} (h : P s)
    (hf : ∀ a, r = .ok a → Fails P s (f a)) : Fails P s (ofExcept r >>= f) := by
  cases r with
  | error e => exact fails_throw e h
  | ok a => exact hf a rfl

theorem fails_throwIf_bind {c : Prop} [Decidable c] {e : ε} {f : Unit → EStateM ε σ β} (h : P s)
    (hf : ¬ c → Fails P s (f ())) : Fails P s (throwIf c e >>= f) := by
  unfold throwIf
  split
  · exact fails_throw e h
  next hc => exact hf hc

theorem fails_zoom {τ φ : Type} {component : σ → τ} {replace : τ → σ → σ} {embed : ε → φ}
    {m : EStateM ε τ α} (h : Fails (fun c => P (replace c s)) (component s) m) :
    Fails P s (zoom component replace embed m) := by
  intro e t run
  obtain ⟨e', c, ran, -, rfl⟩ := run_zoom_error run
  exact h e' c ran

/-- What a successful run does and what a failed one leaves make a step. -/
theorem leads_of_fails {R : σ → σ → Prop}
    (ok : ∀ a t, m.run s = .ok a t → R s t) (fails : Fails (R s) s m) : Leads R s m := by
  unfold Leads
  cases ran : m.run s with
  | ok a t => exact ok a t ran
  | error e t => exact fails e t ran

theorem Fails.map (hm : Fails P s m) (f : α → β) : Fails P s (f <$> m) := by
  intro e t run
  rw [run_map] at run
  cases ran : m.run s with
  | ok a u => rw [ran] at run; cases run
  | error e' u =>
    rw [ran] at run
    cases run
    exact hm _ _ ran

end Failures

end ErrorState
