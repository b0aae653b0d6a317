import Mathlib.Data.Nat.Notation
import Mathlib.Data.Int.Notation

/-!
# Rings as unbounded histories

A ring of `n` slots that is written at one slot after the other holds the last `n` values of the
sequence that it was fed, each at the slot of its time; what came before the sequence is the value that
the ring starts with.
-/

namespace HistoryRings

variable {α : Type} {n : ℕ}

/-- The slot of a time. -/
def slot (n : ℕ) (time : ℤ) : ℕ := (time % n).toNat

/-- A sequence with what came before it. -/
def history (before : α) (x : ℕ → α) (time : ℤ) : α := if 0 ≤ time then x time.toNat else before

theorem history_natCast (before : α) (x : ℕ → α) (t : ℕ) : history before x t = x t := by
  simp [history]

/-- The ring holds the last `n` values before `now`. -/
def Holds (ring : Vector α n) (x : ℤ → α) (now : ℤ) : Prop :=
  ∀ time, now - n ≤ time → time < now → ring[slot n time]? = some (x time)

theorem holds_replicate (before : α) (x : ℕ → α) :
    Holds (Vector.replicate n before) (history before x) 0 := by
  intro time first last
  have positive : (0 : ℤ) < n := by omega
  have nonneg := Int.emod_nonneg time (by omega : (n : ℤ) ≠ 0)
  have bound := Int.emod_lt_of_pos time positive
  have inside : slot n time < n := by
    unfold slot
    omega
  rw [Vector.getElem?_eq_getElem inside, Vector.getElem_replicate, history, if_neg (by omega)]

theorem Holds.push {ring : Vector α n} {x : ℤ → α} {now : ℤ} (h : Holds ring x now) {i : ℕ}
    (bound : i < n) (here : i = slot n now) : Holds (ring.set i (x now)) x (now + 1) := by
  intro time first last
  by_cases latest : time = now
  · subst latest
    rw [← here, Vector.getElem?_set_self]
  · have positive : (0 : ℤ) < n := by omega
    have apart : i ≠ slot n time := by
      intro same
      have nonneg := Int.emod_nonneg time (by omega : (n : ℤ) ≠ 0)
      have nonneg' := Int.emod_nonneg now (by omega : (n : ℤ) ≠ 0)
      have remainders : now % n = time % n := by
        unfold slot at here same
        omega
      have multiple : (n : ℤ) ∣ now - time :=
        Int.dvd_of_emod_eq_zero (Int.emod_eq_emod_iff_emod_sub_eq_zero.mp remainders)
      have := Int.le_of_dvd (by omega) multiple
      omega
    rw [Vector.getElem?_set_ne _ apart]
    exact h time (by omega) (by omega)

theorem Holds.read {ring : Vector α n} {x : ℤ → α} {now : ℤ} (h : Holds ring x now) {i : ℕ}
    (bound : i < n) {time : ℤ} (here : i = slot n time) (first : now - n ≤ time) (last : time < now) :
    ring[i] = x time := by
  have found := h time first last
  rw [← here, Vector.getElem?_eq_getElem bound] at found
  exact Option.some.inj found

end HistoryRings

/-!
## Windows of a ring

A memory of `size` cells that is written and read from a cursor on, around its end.  A window no longer
than the memory holds what was written last, and every cell outside it is left alone.
-/

namespace RingWindows

variable {α : Type} {size : ℕ}

/-- How far a cell is behind the cursor. -/
def offset (size cursor x : ℕ) : ℕ := (x + size - cursor % size) % size

/-- Replaces the cells from the cursor on. -/
def put (size : ℕ) (memory : ℕ → α) (cursor : ℕ) (values : List α) : ℕ → α := fun x =>
  if x < size then (values[offset size cursor x]?).getD (memory x) else memory x

/-- The cells from the cursor on. -/
def get (size : ℕ) (memory : ℕ → α) (cursor : ℕ) : ℕ → List α
  | 0 => []
  | count + 1 => memory (cursor % size) :: get size memory (cursor + 1) count

theorem offset_mod (cursor x : ℕ) : offset size (cursor % size) x = offset size cursor x := by
  unfold offset
  rw [Nat.mod_mod]

theorem put_mod (memory : ℕ → α) (cursor : ℕ) (values : List α) :
    put size memory (cursor % size) values = put size memory cursor values := by
  funext x
  unfold put
  rw [offset_mod]

theorem offset_lt {x : ℕ} (inside : x < size) (cursor : ℕ) : offset size cursor x < size :=
  Nat.mod_lt _ (Nat.zero_lt_of_lt inside)

theorem offset_cases (cursor : ℕ) {x : ℕ} (inside : x < size) :
    (cursor % size ≤ x ∧ offset size cursor x = x - cursor % size) ∨
      (x < cursor % size ∧ offset size cursor x = x + size - cursor % size) := by
  have bound := Nat.mod_lt cursor (Nat.zero_lt_of_lt inside)
  unfold offset
  by_cases after : cursor % size ≤ x
  · refine .inl ⟨after, ?_⟩
    rw [show x + size - cursor % size = x - cursor % size + size by omega, Nat.add_mod_right,
      Nat.mod_eq_of_lt (by omega)]
  · exact .inr ⟨by omega, Nat.mod_eq_of_lt (by omega)⟩

theorem add_mod_cases (cursor : ℕ) {k : ℕ} (small : k ≤ size) (positive : 0 < size) :
    (cursor % size + k < size ∧ (cursor + k) % size = cursor % size + k) ∨
      (size ≤ cursor % size + k ∧ (cursor + k) % size = cursor % size + k - size) := by
  have bound := Nat.mod_lt cursor positive
  have sum : (cursor + k) % size = (cursor % size + k) % size := (Nat.mod_add_mod cursor size k).symm
  rw [sum]
  by_cases short : cursor % size + k < size
  · exact .inl ⟨short, Nat.mod_eq_of_lt short⟩
  · have wraps : (cursor % size + k) % size = (cursor % size + k - size) % size := Nat.mod_eq_sub_mod (by omega)
    exact .inr ⟨by omega, wraps.trans (Nat.mod_eq_of_lt (by omega))⟩

theorem offset_add {cursor k : ℕ} (small : k < size) : offset size cursor ((cursor + k) % size) = k := by
  have positive := Nat.zero_lt_of_lt small
  have bound := Nat.mod_lt cursor positive
  have inside := Nat.mod_lt (cursor + k) positive
  obtain ⟨before, same⟩ | ⟨after, same⟩ := add_mod_cases cursor (Nat.le_of_lt small) positive <;>
    obtain ⟨low, here⟩ | ⟨high, here⟩ := offset_cases cursor inside <;>
    omega

/-- Moving the cursor on brings the cells behind it nearer, and those that it passes to the end. -/
theorem offset_succ {cursor x k : ℕ} (inside : x < size) (small : k ≤ size) :
    offset size (cursor + k) x = if k ≤ offset size cursor x then offset size cursor x - k
      else offset size cursor x + size - k := by
  have positive := Nat.zero_lt_of_lt inside
  have bound := Nat.mod_lt cursor positive
  have bound' := Nat.mod_lt (cursor + k) positive
  obtain ⟨before, same⟩ | ⟨after, same⟩ := add_mod_cases cursor small positive <;>
    obtain ⟨low, here⟩ | ⟨high, here⟩ := offset_cases cursor inside <;>
    obtain ⟨low', here'⟩ | ⟨high', here'⟩ := offset_cases (cursor + k) inside <;>
    split <;>
    omega

/-- One window after the other is one window. -/
theorem put_append (memory : ℕ → α) (cursor : ℕ) {xs ys : List α} (fits : xs.length + ys.length ≤ size) :
    put size (put size memory cursor xs) (cursor + xs.length) ys = put size memory cursor (xs ++ ys) := by
  funext x
  unfold put
  split
  next inside =>
    rw [offset_succ inside (by omega)]
    have bound := offset_lt inside cursor
    split
    next after => rw [List.getElem?_append_right after, List.getElem?_eq_none after, Option.getD_none]
    next passed =>
      rw [List.getElem?_eq_none (by omega : ys.length ≤ offset size cursor x + size - xs.length), Option.getD_none,
        List.getElem?_append_left (Nat.not_le.mp passed)]
  next => rfl

theorem get_put (memory : ℕ → α) (cursor : ℕ) {values : List α} (fits : values.length ≤ size) :
    get size (put size memory cursor values) cursor values.length = values := by
  have general (k count : ℕ) (whole : k + count = values.length) :
      get size (put size memory cursor values) (cursor + k) count = values.drop k := by
    induction count generalizing k with
    | zero =>
      rw [List.drop_eq_nil_of_le (by omega)]
      rfl
    | succ count ih =>
      have inside : k < values.length := by omega
      have positive : 0 < size := by omega
      rw [get, Nat.add_assoc, ih (k + 1) (by omega), List.drop_eq_getElem_cons inside]
      unfold put
      rw [if_pos (Nat.mod_lt _ positive), offset_add (by omega), List.getElem?_eq_getElem inside, Option.getD_some]
  exact general 0 values.length (Nat.zero_add _)

theorem put_outside (memory : ℕ → α) {cursor : ℕ} {values : List α} {x : ℕ}
    (outside : ∀ k < values.length, x ≠ (cursor + k) % size) : put size memory cursor values x = memory x := by
  unfold put
  split
  next inside =>
    have bound := offset_lt inside cursor
    have start := Nat.mod_lt cursor (Nat.zero_lt_of_lt inside)
    by_cases within : offset size cursor x < values.length
    · have here : x = (cursor + offset size cursor x) % size := by
        obtain ⟨before, same⟩ | ⟨after, same⟩ :=
            add_mod_cases cursor (Nat.le_of_lt bound) (Nat.zero_lt_of_lt inside) <;>
          obtain ⟨low, near⟩ | ⟨high, near⟩ := offset_cases cursor inside <;>
          omega
      exact absurd here (outside _ within)
    · rw [List.getElem?_eq_none (Nat.not_lt.mp within), Option.getD_none]
  next => rfl

theorem length_get (memory : ℕ → α) (cursor count : ℕ) : (get size memory cursor count).length = count := by
  induction count generalizing cursor with
  | zero => rfl
  | succ count ih => exact congrArg (· + 1) (ih (cursor + 1))

theorem get_add (memory : ℕ → α) (cursor m n : ℕ) :
    get size memory cursor (m + n) = get size memory cursor m ++ get size memory (cursor + m) n := by
  induction m generalizing cursor with
  | zero => rw [Nat.zero_add]; rfl
  | succ m ih =>
    rw [Nat.add_right_comm, get, ih, get, List.cons_append, Nat.add_assoc cursor, Nat.add_comm 1 m]

theorem get_mod (memory : ℕ → α) (cursor count : ℕ) :
    get size memory (cursor % size) count = get size memory cursor count := by
  induction count generalizing cursor with
  | zero => rfl
  | succ count ih =>
    rw [get, get, Nat.mod_mod, ← ih (cursor % size + 1), Nat.mod_add_mod, ih]

end RingWindows
