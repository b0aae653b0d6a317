import Mathlib.Order.Interval.Finset.Nat
import Upse.Bios.FixedTable
import Upse.Lib.ErrorState
import Upse.Lib.LeastFree
import Upse.Lib.Panics

/-!
# Tables as the source keeps them

`FixedTable` carries the number of its slots and the count of the occupied ones by construction.  Here
the fields are on their own, as in the source: the operations update the slots and the count one after
the other, an index out of bounds, a count over a `usize` and a count below zero are panics, and what an
operation has done when it fails stays done.  They do what those of `FixedTable` do, and over whole runs
a table is a finite map whose insertions take the least free identifier.
-/

namespace Upse

open ErrorState Panics

/-- The slots of a table, its first identifier and the count it maintains. -/
structure RawTable (T : Type) where
  entries : List (Option T)
  firstId : ℕ
  len : ℕ

namespace RawTable

variable {T : Type} {N firstId : ℕ}

/-- An operation on a table in place; `N` is the capacity in its type. -/
abbrev InPlace (T : Type) := EStateM (Stop KernelError) (RawTable T)

/-- An empty table whose first slot has `firstId`. -/
def new (N firstId : ℕ) : RawTable T := ⟨(List.range N).map fun _ => none, firstId, 0⟩

/-- Removes every entry without changing identifier assignment. -/
def clear : InPlace T Unit :=
  modify fun t => { t with entries := t.entries.map fun _ => none, len := 0 }

/-- `u32::try_from` of a `usize`. -/
def tryU32 (n : ℕ) : Option ℕ := if n < 2 ^ 32 then some n else none

/-- The slot of an identifier. -/
def index (N : ℕ) (t : RawTable T) (id : ℕ) : Option ℕ := do
  let index ← checkedSub id t.firstId
  if index < N then some index else none

/-- The identifier that insertion would use next. -/
def nextId (t : RawTable T) : Option ℕ := do
  let index ← t.entries.findIdx? Option.isNone
  checkedAdd 32 t.firstId (← tryU32 index)

/-- Inserts into a specific unoccupied slot. -/
def insertAt (N id : ℕ) (value : T) : InPlace T Unit := do
  let index ← okOr ((← get).index N id) (.error .illegalObject)
  let entry ← okOr (← get).entries[index]? .panic
  throwIf entry.isSome (.error .illegalObject)
  modify fun t => { t with entries := t.entries.set index (some value) }
  let len ← okOr (checkedAdd 64 (← get).len 1) .panic
  modify fun t => { t with len := len }

/-- Inserts into the lowest available slot. -/
def insert (N : ℕ) (value : T) : InPlace T ℕ := do
  let id ← okOr (← get).nextId (.error .noMemory)
  insertAt N id value
  return id

/-- Removes one entry. -/
def remove (N id : ℕ) : InPlace T (Option T) := do
  match (← get).index N id with
  | none => return none
  | some index =>
    match (← get).entries[index]? with
    | none => return none
    | some removed =>
      modify fun t => { t with entries := t.entries.set index none }
      if removed.isSome then
        let len ← okOr (checkedSub (← get).len 1) .panic
        modify fun t => { t with len := len }
      return removed

/-- One table entry. -/
protected def get (N : ℕ) (t : RawTable T) (id : ℕ) : Option T := do
  let index ← t.index N id
  let entry ← t.entries[index]?
  entry

/-- The occupied entries in identifier order. -/
def iter (t : RawTable T) : List (ℕ × T) :=
  t.entries.zipIdx.filterMap fun (entry, index) => do
    let value ← entry
    let id ← checkedAdd 32 t.firstId (← tryU32 index)
    return (id, value)

/-- One operation of a client. -/
def perform (N : ℕ) : LeastFree.Call ℕ T → InPlace T (LeastFree.Reply ℕ T)
  | .insert value => .inserted <$> insert N value
  | .insertAt id value => do
    insertAt N id value
    return .placed
  | .remove id => .removed <$> remove N id
  | .clear => do
    clear
    return .cleared

/-- What an operation answers, and the table it leaves. -/
def outcome {ε σ α : Type} : EStateM.Result ε σ α → Except ε α × σ
  | .ok a s => (.ok a, s)
  | .error e s => (.error e, s)

/-- An operation with its answer. -/
abbrev Event (T : Type) := LeastFree.Call ℕ T × Except (Stop KernelError) (LeastFree.Reply ℕ T)

/-- One operation of a client, with its answer and the table it leaves. -/
def Next (N : ℕ) (t : RawTable T) (event : Event T) (u : RawTable T) : Prop :=
  outcome ((perform N event.1).run t) = (event.2, u)

/-- Operations that fail: with an error, or without an entry to remove. -/
def Failed : Except (Stop KernelError) (LeastFree.Reply ℕ T) → Prop
  | .ok (.removed none) => True
  | .ok _ => False
  | .error _ => True

end RawTable

/-! ## What the operations do -/

namespace FixedTable

variable {T : Type} {N firstId : ℕ}

/-- The fields of a table. -/
def raw (t : FixedTable T N firstId) : RawTable T := ⟨t.entries, firstId, t.len⟩

theorem raw_new : (new : FixedTable T N firstId).raw = RawTable.new N firstId := by
  simp [raw, new, RawTable.new]

theorem raw_index (t : FixedTable T N firstId) (id : ℕ) : t.raw.index N id = t.index id := rfl

theorem tryU32_bind (i : ℕ) :
    (RawTable.tryU32 i).bind (checkedAdd 32 firstId) = checkedAdd 32 firstId i := by
  unfold RawTable.tryU32
  split
  next => rfl
  next overflows => exact (checkedAdd_eq_none.mpr (by omega)).symm

theorem raw_nextId (t : FixedTable T N firstId) : t.raw.nextId = t.nextId := by
  unfold RawTable.nextId nextId
  congr 1
  funext i
  exact tryU32_bind i

theorem raw_get (t : FixedTable T N firstId) (id : ℕ) : t.raw.get N id = t.get id := by
  unfold RawTable.get FixedTable.get
  congr 1

theorem raw_iter (t : FixedTable T N firstId) : t.raw.iter = t.iter := by
  unfold RawTable.iter iter
  congr 1
  funext ⟨entry, i⟩
  show entry.bind _ = entry.bind _
  congr 1
  funext value
  rw [← tryU32_bind]
  cases RawTable.tryU32 i with
  | none => rfl
  | some j =>
    show (checkedAdd 32 firstId j).bind _ = (checkedAdd 32 firstId j).map _
    rw [Option.map_eq_bind]
    rfl

variable {t : FixedTable T N firstId}

theorem set_of_free {i : ℕ} (slot : t.entries[i]? = some none) :
    t.entries.set i none = t.entries := by
  obtain ⟨bound, free⟩ := List.getElem?_eq_some_iff.mp slot
  rw [← free, List.set_getElem_self]

theorem len_lt {i : ℕ} (slot : t.entries[i]? = some none) : t.len < N := by
  obtain ⟨bound, -⟩ := List.getElem?_eq_some_iff.mp slot
  have filled : (t.entries.set i none).countP Option.isSome < (t.entries.set i none).length := by
    refine lt_of_le_of_ne List.countP_le_length fun all => ?_
    have used := List.countP_eq_length.mp all none (List.mem_set bound none)
    cases used
  rw [List.length_set, t.size_eq] at filled
  rw [t.len_eq]
  rwa [set_of_free slot] at filled

theorem len_pos {i : ℕ} {value : T}
    (slot : t.entries[i]? = some (some value)) : 0 < t.len := by
  rw [t.len_eq]
  exact List.countP_pos_iff.mpr ⟨_, List.mem_of_getElem? slot, rfl⟩

/-- How an operation ends in place: a failure leaves the table. -/
def ending (t : FixedTable T N firstId) {α : Type} :
    Except KernelError (α × FixedTable T N firstId) → EStateM.Result (Stop KernelError) (RawTable T) α
  | .ok (a, u) => .ok a u.raw
  | .error e => .error (.error e) t.raw

theorem run_insertAt (fits : N < 2 ^ 64) (t : FixedTable T N firstId) (id : ℕ) (value : T) :
    (RawTable.insertAt N id value).run t.raw = t.ending ((t.insertAt id value).map fun u => ((), u)) := by
  unfold RawTable.insertAt
  rw [run_get_bind, raw_index]
  unfold insertAt
  split
  next missing => rw [missing]; rfl
  next i hindex =>
    rw [hindex, run_okOr_bind rfl, run_get_bind]
    obtain ⟨entry, hentry⟩ := t.slot_isSome (index_eq_some.mp hindex).2
    rw [run_okOr_bind (show t.raw.entries[i]? = some entry from hentry)]
    split
    next slot =>
      cases hentry.symm.trans slot
      have room : checkedAdd 64 t.len 1 = some (t.len + 1) := by
        have below := len_lt slot
        exact checkedAdd_eq_some.mpr ⟨by omega, rfl⟩
      rw [run_throwIf_bind (by simp), run_modify_bind, run_get_bind]
      exact run_okOr_bind room
    next taken =>
      cases entry with
      | none => exact absurd hentry taken
      | some other => rfl

theorem run_insert (fits : N < 2 ^ 64) (t : FixedTable T N firstId) (value : T) :
    (RawTable.insert N value).run t.raw = t.ending (t.insert value) := by
  unfold RawTable.insert insert
  rw [run_get_bind, raw_nextId]
  split
  next full => rw [full]; rfl
  next id next =>
    rw [next, run_okOr_bind rfl, run_bind, run_insertAt fits]
    cases t.insertAt id value <;> rfl

theorem raw_remove {id i : ℕ} {value : T} (found : t.index id = some i)
    (slot : t.entries[i]? = some (some value)) :
    (t.remove id).2.raw = ⟨t.entries.set i none, firstId, t.len - 1⟩ := by
  unfold remove
  split
  next missing => cases found.symm.trans missing
  next j hindex =>
    cases found.symm.trans hindex
    split
    next => rfl
    next free => exact absurd slot (free value)

theorem run_remove (t : FixedTable T N firstId) (id : ℕ) :
    (RawTable.remove N id).run t.raw = .ok (t.get id) (t.remove id).2.raw := by
  unfold RawTable.remove
  rw [run_get_bind, raw_index]
  cases hindex : t.index id with
  | none =>
    have missing : t.get id = none := by rw [FixedTable.get, hindex]; rfl
    rw [missing, remove_snd_of_none missing]
    rfl
  | some i =>
    obtain ⟨rfl, hi⟩ := index_eq_some.mp hindex
    obtain ⟨entry, slot⟩ := t.slot_isSome hi
    have found : t.get (firstId + i) = entry := by rw [get_add t hi, slot]; rfl
    dsimp only
    rw [run_get_bind, show t.raw.entries[i]? = some entry from slot]
    dsimp only
    rw [run_modify_bind]
    cases entry with
    | none =>
      have same : (⟨t.entries.set i none, firstId, t.len⟩ : RawTable T) = t.raw := by
        rw [set_of_free slot]
        rfl
      rw [found, remove_snd_of_none found]
      exact congrArg (EStateM.Result.ok none) same
    | some value =>
      rw [found, raw_remove hindex slot]
      exact run_okOr_bind (checkedSub_eq_some.mpr ⟨len_pos slot, rfl⟩)

theorem run_clear (t : FixedTable T N firstId) :
    (RawTable.clear : RawTable.InPlace T Unit).run t.raw = .ok () t.clear.raw := by
  have cleared : t.entries.map (fun _ => (none : Option T)) = List.replicate N none := by
    rw [List.map_const', t.size_eq]
  show EStateM.Result.ok () (⟨t.entries.map fun _ => none, firstId, 0⟩ : RawTable T) = _
  rw [cleared]
  rfl

/-! ## Tables as finite maps -/

open LeastFree

/-- The identifiers of a table. -/
def ids (N firstId : ℕ) : Finset ℕ := Finset.Ico firstId (firstId + N)

theorem mem_ids {id : ℕ} : id ∈ ids N firstId ↔ firstId ≤ id ∧ id < firstId + N := Finset.mem_Ico

theorem mem_free {id : ℕ} :
    id ∈ free (ids N firstId) t.get ↔ (firstId ≤ id ∧ id < firstId + N) ∧ t.get id = none :=
  and_congr_left' mem_ids

theorem not_free_of_nextId (fits : firstId + N ≤ 2 ^ 32)
    (none_next : t.nextId = none) (id : ℕ) : id ∉ free (ids N firstId) t.get := by
  intro member
  obtain ⟨⟨low, high⟩, absent⟩ := mem_free.mp member
  obtain ⟨i, rfl⟩ := Nat.exists_eq_add_of_le low
  obtain ⟨entry, slot⟩ := t.slot_isSome (show i < N by omega)
  rw [get_add t (by omega), slot] at absent
  cases found : t.entries.findIdx? Option.isNone with
  | none =>
    have used := List.findIdx?_eq_none_iff.mp found entry (List.mem_of_getElem? slot)
    rw [show entry = none from absent] at used
    cases used
  | some j =>
    obtain ⟨bound, -, -⟩ := List.findIdx?_eq_some_iff_getElem.mp found
    rw [t.size_eq] at bound
    unfold nextId at none_next
    rw [found, Option.bind_some, checkedAdd_eq_none] at none_next
    omega

theorem isLeast_nextId {id : ℕ} (next : t.nextId = some id) :
    IsLeast (free (ids N firstId) t.get) id := by
  obtain ⟨absent, low, high, used⟩ := nextId_eq_some next
  refine ⟨mem_free.mpr ⟨⟨low, high⟩, absent⟩, fun j member => ?_⟩
  obtain ⟨⟨above, -⟩, unused⟩ := mem_free.mp member
  by_contra below
  exact used j above (Nat.lt_of_not_le below) unused

theorem get_eq_update {t u : FixedTable T N firstId} {id : ℕ} {entry : Option T}
    (entries : ∀ j, u.get j = if j = id then entry else t.get j) :
    u.get = Function.update t.get id entry := by
  funext j
  rw [entries, Function.update_apply]

theorem insertAt_eq_error {id : ℕ} {value : T} {e : KernelError}
    (h : t.insertAt id value = .error e) :
    e = .illegalObject ∧ id ∉ free (ids N firstId) t.get := by
  constructor
  · unfold insertAt at h
    split at h
    next => cases h; rfl
    next =>
      split at h
      next => cases h
      next => cases h; rfl
  · intro member
    obtain ⟨⟨low, high⟩, absent⟩ := mem_free.mp member
    obtain ⟨u, inserted⟩ := insertAt_of_free value absent low high
    cases inserted.symm.trans h

theorem insert_eq_error (fits : firstId + N ≤ 2 ^ 32) {value : T}
    {e : KernelError} (h : t.insert value = .error e) :
    e = .noMemory ∧ live (ids N firstId) t.get = ids N firstId := by
  unfold insert at h
  split at h
  next none_next =>
    cases h
    exact ⟨rfl, live_eq_of_free (not_free_of_nextId fits none_next)⟩
  next id next =>
    obtain ⟨absent, low, high, -⟩ := nextId_eq_some next
    obtain ⟨u, inserted⟩ := insertAt_of_free value absent low high
    rw [inserted] at h
    cases h

/-- The calls of a finite map over the identifiers of a table, with the errors of the table. -/
abbrev MapStep (N firstId : ℕ) :=
  LeastFree.Step (V := T) (ids N firstId) (Stop.error KernelError.noMemory) (.error .illegalObject)

/-- An operation does what it does to the finite map of its entries, and a failure leaves the table. -/
theorem step_of_next (fits : firstId + N ≤ 2 ^ 32) {u : RawTable T}
    {event : RawTable.Event T} (next : RawTable.Next N t.raw event u) :
    ∃ t' : FixedTable T N firstId, u = t'.raw ∧ MapStep N firstId t.get event t'.get ∧
      (RawTable.Failed event.2 → t' = t) := by
  have width : N < 2 ^ 64 := by omega
  obtain ⟨call, answer⟩ := event
  unfold RawTable.Next at next
  cases call with
  | insert value =>
    rw [RawTable.perform, run_map, run_insert width] at next
    cases inserted : t.insert value with
    | ok result =>
      obtain ⟨id, t'⟩ := result
      rw [inserted] at next
      cases next
      obtain ⟨found, -, -, -, entries⟩ := insert_eq_ok inserted
      refine ⟨t', rfl, ?_, False.elim⟩
      rw [get_eq_update entries]
      exact .insert value (isLeast_nextId found)
    | error e =>
      obtain ⟨rfl, full⟩ := insert_eq_error fits inserted
      rw [inserted] at next
      cases next
      exact ⟨t, rfl, .full value full, fun _ => rfl⟩
  | insertAt id value =>
    rw [RawTable.perform, run_bind, run_insertAt width] at next
    cases inserted : t.insertAt id value with
    | ok t' =>
      rw [inserted] at next
      cases next
      obtain ⟨absent, low, high, entries⟩ := insertAt_eq_ok inserted
      refine ⟨t', rfl, ?_, False.elim⟩
      rw [get_eq_update entries]
      exact .insertAt value (mem_free.mpr ⟨⟨low, high⟩, absent⟩)
    | error e =>
      obtain ⟨rfl, taken⟩ := insertAt_eq_error inserted
      rw [inserted] at next
      cases next
      exact ⟨t, rfl, .refuse value taken, fun _ => rfl⟩
  | remove id =>
    rw [RawTable.perform, run_map, run_remove] at next
    cases next
    refine ⟨(t.remove id).2, rfl, ?_, fun failed => ?_⟩
    · rw [get_eq_update (get_remove t id)]
      exact .remove id
    · cases found : t.get id with
      | none => exact remove_snd_of_none found
      | some value =>
        rw [found] at failed
        exact failed.elim
  | clear =>
    rw [RawTable.perform, run_bind_of_ok (run_clear t)] at next
    cases next
    refine ⟨t.clear, rfl, ?_, False.elim⟩
    have emptied : t.clear.get = fun _ => none := funext get_new
    rw [emptied]
    exact .clear

theorem run_raw (fits : firstId + N ≤ 2 ^ 32)
    {events : List (RawTable.Event T)} {t : RawTable T}
    (run : Run (RawTable.Next N) (RawTable.new N firstId) events t) :
    ∃ t' : FixedTable T N firstId, t = t'.raw ∧
      Run (MapStep N firstId) (fun _ => none) events t'.get := by
  refine run.history (H := fun events t => ∃ t' : FixedTable T N firstId, t = t'.raw ∧
    Run (MapStep N firstId) (fun _ => none) events t'.get) ⟨new, raw_new.symm, ?_⟩ ?_
  · rw [show (new : FixedTable T N firstId).get = fun _ => none from funext get_new]
    exact .refl _
  · rintro events _ event u ⟨t, rfl, before⟩ next
    obtain ⟨t', rfl, step, -⟩ := step_of_next fits next
    exact ⟨t', rfl, before.snoc step⟩

theorem length_iter (fits : firstId + N ≤ 2 ^ 32) (t : FixedTable T N firstId) :
    t.iter.length = t.len := by
  have visited : ∀ row ∈ t.entries.zipIdx, (row.1.bind fun value =>
      (checkedAdd 32 firstId row.2).map fun id => (id, value)).isSome = row.1.isSome := by
    rintro ⟨entry, i⟩ member
    obtain ⟨bound, -⟩ := List.getElem?_eq_some_iff.mp (List.mem_zipIdx_iff_getElem?.mp member)
    rw [t.size_eq] at bound
    have inside : checkedAdd 32 firstId i = some (firstId + i) := checkedAdd_eq_some.mpr ⟨by omega, rfl⟩
    cases entry <;> simp [inside]
  calc t.iter.length
      = t.entries.zipIdx.countP fun row => row.1.isSome := by
        rw [iter, List.length_filterMap_eq_countP]
        exact List.countP_congr fun row member => by rw [visited row member]
    _ = (t.entries.zipIdx.map Prod.fst).countP Option.isSome := by
        rw [List.countP_map]
        rfl
    _ = t.len := by rw [List.zipIdx_map_fst, t.len_eq]

theorem len_eq_card (fits : firstId + N ≤ 2 ^ 32) (t : FixedTable T N firstId) :
    t.len = (live (ids N firstId) t.get).card := by
  have listed : live (ids N firstId) t.get = (t.iter.map Prod.fst).toFinset := by
    ext id
    rw [mem_live, mem_ids, List.mem_toFinset, List.mem_map, Option.ne_none_iff_exists']
    constructor
    · rintro ⟨-, value, found⟩
      exact ⟨(id, value), (mem_iter fits).mpr found, rfl⟩
    · rintro ⟨⟨_, value⟩, member, rfl⟩
      have found := (mem_iter fits).mp member
      exact ⟨range_of_get found, value, found⟩
  have distinct : (t.iter.map Prod.fst).Nodup :=
    List.pairwise_map.mpr (t.iter_sorted.imp ne_of_lt)
  rw [listed, List.toFinset_card_of_nodup distinct, List.length_map, length_iter fits]

end FixedTable

namespace RawTable

open LeastFree FixedTable

variable {T : Type} {N firstId : ℕ}

/-- A table is a finite map whose insertions take the least free identifier: over every run of
operations on an empty table they answer what those of the map answer and leave its entries; iteration
lists these by identifier and the count is their number; no operation panics, and one that fails
leaves the table. -/
theorem calls_act_on_map (fits : firstId + N ≤ 2 ^ 32)
    {events : List (Event T)} {t : RawTable T} (run : Run (Next N) (new N firstId) events t) :
    Run (MapStep N firstId) (fun _ => none) events (t.get N) ∧
      (∀ id value, t.get N id = some value → id ∈ ids N firstId) ∧
      (∀ id value, (id, value) ∈ t.iter ↔ t.get N id = some value) ∧
      t.iter.Pairwise (fun a b => a.1 < b.1) ∧
      t.len = (live (ids N firstId) (t.get N)).card ∧
      ∀ call answer u, Next N t (call, answer) u → answer ≠ .error .panic ∧ (Failed answer → u = t) := by
  obtain ⟨table, rfl, mapped⟩ := run_raw fits run
  have entries : table.raw.get N = table.get := funext (raw_get table)
  rw [entries, raw_iter]
  refine ⟨mapped, fun id value found => mem_ids.mpr (range_of_get found), fun id value => mem_iter fits,
    table.iter_sorted, len_eq_card fits table, fun call answer u next => ?_⟩
  obtain ⟨table', rfl, step, kept⟩ := step_of_next fits next
  refine ⟨?_, fun failed => congrArg raw (kept failed)⟩
  rintro rfl
  cases step

/-- Two entries fill a table of two; the first is removed and its identifier is used again. -/
theorem calls_act_on_map_sample :
    Run (MapStep 2 1) (fun _ => none)
      [(.insertAt 2 9, .ok .placed), (.insert 7, .ok (.inserted 1)),
        (.insert 5, .error (.error .noMemory)), (.remove 1, .ok (.removed (some 7))),
        (.insert 5, .ok (.inserted 1))]
      (RawTable.get 2 ⟨[some 5, some 9], 1, 2⟩) := by
  have placed : Next 2 (new 2 1) (.insertAt 2 9, .ok .placed) ⟨[none, some 9], 1, 1⟩ := rfl
  have inserted : Next 2 ⟨[none, some 9], 1, 1⟩ (.insert 7, .ok (.inserted 1))
      ⟨[some 7, some 9], 1, 2⟩ := rfl
  have full : Next 2 ⟨[some 7, some 9], 1, 2⟩ (.insert 5, .error (.error .noMemory))
      ⟨[some 7, some 9], 1, 2⟩ := rfl
  have removed : Next 2 ⟨[some 7, some 9], 1, 2⟩ (.remove 1, .ok (.removed (some 7)))
      ⟨[none, some 9], 1, 1⟩ := rfl
  have again : Next 2 ⟨[none, some 9], 1, 1⟩ (.insert 5, .ok (.inserted 1))
      ⟨[some 5, some 9], 1, 2⟩ := rfl
  have run := ((((Run.single placed).snoc inserted).snoc full).snoc removed).snoc again
  exact (calls_act_on_map (by decide) run).1

end RawTable

end Upse
