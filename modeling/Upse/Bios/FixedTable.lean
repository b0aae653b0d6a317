import Mathlib.Data.List.Basic
import Upse.Bios.Error

/-!
# Fixed-capacity tables with stable identifiers

A table of `N` slots; slot `i` has the identifier `firstId + i`.  The first identifier and the
capacity never change, so they are parameters; the number of slots and the count of occupied ones
are carried by construction.
-/

namespace Upse

/-- Instance-owned fixed-capacity table with stable positive identifiers. -/
structure FixedTable (T : Type) (N firstId : ℕ) where
  entries : List (Option T)
  len : ℕ
  size_eq : entries.length = N
  len_eq : len = entries.countP Option.isSome

namespace FixedTable

variable {T : Type} {N firstId : ℕ}

/-- An empty table. -/
def new : FixedTable T N firstId where
  entries := List.replicate N none
  len := 0
  size_eq := List.length_replicate
  len_eq := by simp [List.countP_replicate]

/-- Removes every entry without changing identifier assignment. -/
def clear (_t : FixedTable T N firstId) : FixedTable T N firstId := new

/-- The fixed maximum number of entries. -/
def capacity (_t : FixedTable T N firstId) : ℕ := N

/-- The slot of an identifier. -/
def index (_t : FixedTable T N firstId) (id : ℕ) : Option ℕ :=
  (checkedSub id firstId).bind fun index => if index < N then some index else none

/-- The identifier that insertion would use next. -/
def nextId (t : FixedTable T N firstId) : Option ℕ :=
  (t.entries.findIdx? Option.isNone).bind fun index => checkedAdd 32 firstId index

/-- One table entry. -/
def get (t : FixedTable T N firstId) (id : ℕ) : Option T :=
  (t.index id).bind fun index => (t.entries[index]?).join

/-- Inserts into a specific unoccupied slot. -/
def insertAt (t : FixedTable T N firstId) (id : ℕ) (value : T) :
    Except KernelError (FixedTable T N firstId) :=
  match t.index id with
  | none => .error .illegalObject
  | some index =>
    match h : t.entries[index]? with
    | some none => .ok
        { entries := t.entries.set index (some value)
          len := t.len + 1
          size_eq := by rw [List.length_set, t.size_eq]
          len_eq := by
            obtain ⟨bound, slot⟩ := List.getElem?_eq_some_iff.mp h
            rw [List.countP_set bound, slot, t.len_eq]
            simp }
    | _ => .error .illegalObject

/-- Inserts into the lowest available slot. -/
def insert (t : FixedTable T N firstId) (value : T) :
    Except KernelError (ℕ × FixedTable T N firstId) :=
  match t.nextId with
  | none => .error .noMemory
  | some id => (t.insertAt id value).map fun table => (id, table)

/-- Rewrites one occupied entry in place; a free slot stays free. -/
def modify (t : FixedTable T N firstId) (id : ℕ) (f : T → T) : FixedTable T N firstId :=
  match t.index id with
  | none => t
  | some index =>
    match h : t.entries[index]? with
    | some (some value) =>
        { entries := t.entries.set index (some (f value))
          len := t.len
          size_eq := by rw [List.length_set, t.size_eq]
          len_eq := by
            obtain ⟨bound, slot⟩ := List.getElem?_eq_some_iff.mp h
            have occupied : 0 < t.entries.countP Option.isSome :=
              List.countP_pos_iff.mpr ⟨_, List.getElem_mem bound, by rw [slot]; rfl⟩
            rw [List.countP_set bound, slot, t.len_eq]
            simp
            omega }
    | _ => t

/-- Removes one entry. -/
def remove (t : FixedTable T N firstId) (id : ℕ) : Option T × FixedTable T N firstId :=
  match t.index id with
  | none => (none, t)
  | some index =>
    match h : t.entries[index]? with
    | some (some value) => (some value,
        { entries := t.entries.set index none
          len := t.len - 1
          size_eq := by rw [List.length_set, t.size_eq]
          len_eq := by
            obtain ⟨bound, slot⟩ := List.getElem?_eq_some_iff.mp h
            rw [List.countP_set bound, slot, t.len_eq]
            simp })
    | _ => (none, t)

/-- The occupied entries in identifier order. -/
def iter (t : FixedTable T N firstId) : List (ℕ × T) :=
  t.entries.zipIdx.filterMap fun (entry, index) =>
    entry.bind fun value => (checkedAdd 32 firstId index).map fun id => (id, value)

/-! ## A table as a finite map -/

variable {t : FixedTable T N firstId} {id : ℕ} {value : T}

theorem index_eq_some {id i : ℕ} :
    t.index id = some i ↔ id = firstId + i ∧ i < N := by
  unfold index
  rw [Option.bind_eq_some_iff]
  constructor
  · rintro ⟨j, hj, h⟩
    obtain ⟨le, rfl⟩ := checkedSub_eq_some.mp hj
    split at h
    · cases h
      omega
    · cases h
  · rintro ⟨rfl, h⟩
    exact ⟨i, checkedSub_eq_some.mpr ⟨by omega, by omega⟩, by simp [h]⟩

theorem get_add (t : FixedTable T N firstId) {i : ℕ} (h : i < N) :
    t.get (firstId + i) = (t.entries[i]?).join := by
  unfold get
  rw [index_eq_some.mpr ⟨rfl, h⟩, Option.bind_some]

theorem get_eq_some :
    t.get id = some value ↔ ∃ i, id = firstId + i ∧ i < N ∧ t.entries[i]? = some (some value) := by
  unfold get
  rw [Option.bind_eq_some_iff]
  simp only [index_eq_some, Option.join_eq_some_iff, and_assoc]

theorem range_of_get (h : t.get id = some value) :
    firstId ≤ id ∧ id < firstId + N := by
  obtain ⟨i, rfl, hi, -⟩ := get_eq_some.mp h
  omega

theorem slot_isSome (t : FixedTable T N firstId) {i : ℕ} (h : i < N) :
    ∃ entry, t.entries[i]? = some entry :=
  ⟨_, List.getElem?_eq_getElem (by rw [t.size_eq]; exact h)⟩

variable {t u : FixedTable T N firstId}

theorem ext_entries (same : t.entries = u.entries) : t = u := by
  obtain ⟨entries, len, size, rfl⟩ := t
  obtain ⟨entries', len', size', rfl⟩ := u
  cases same
  rfl

theorem ext_get (h : ∀ id, t.get id = u.get id) : t = u := by
  apply ext_entries
  apply List.ext_getElem?
  intro i
  by_cases hi : i < N
  · obtain ⟨a, ha⟩ := t.slot_isSome hi
    obtain ⟨b, hb⟩ := u.slot_isSome hi
    have same := h (firstId + i)
    rw [get_add t hi, get_add u hi, ha, hb] at same
    rw [ha, hb]
    exact congrArg some same
  · rw [List.getElem?_eq_none (by rw [t.size_eq]; omega),
      List.getElem?_eq_none (by rw [u.size_eq]; omega)]

@[simp] theorem get_new (id : ℕ) : (new : FixedTable T N firstId).get id = none := by
  rw [Option.eq_none_iff_forall_ne_some]
  intro value h
  obtain ⟨i, -, -, h⟩ := get_eq_some.mp h
  simp [new, List.getElem?_replicate] at h

theorem get_of_set {i : ℕ} {entry : Option T} (hi : i < N)
    (h : u.entries = t.entries.set i entry) (id : ℕ) :
    u.get id = if id = firstId + i then entry else t.get id := by
  by_cases hid : id = firstId + i
  · subst hid
    rw [if_pos rfl, get_add u hi, h, List.getElem?_set_self (by rw [t.size_eq]; exact hi)]
    rfl
  · rw [if_neg hid]
    unfold get
    have same : u.index id = t.index id := rfl
    rw [same]
    cases hj : t.index id with
    | none => rfl
    | some j =>
      obtain ⟨rfl, -⟩ := index_eq_some.mp hj
      rw [Option.bind_some, Option.bind_some, h, List.getElem?_set_ne (by omega)]

theorem insertAt_eq_ok
    (h : t.insertAt id value = .ok u) : t.get id = none ∧ firstId ≤ id ∧ id < firstId + N ∧
      ∀ j, u.get j = if j = id then some value else t.get j := by
  unfold insertAt at h
  split at h
  next => cases h
  next index hindex =>
    obtain ⟨rfl, hi⟩ := index_eq_some.mp hindex
    split at h
    next slot =>
      cases h
      refine ⟨?_, by omega, by omega, fun j => get_of_set hi rfl j⟩
      rw [get_add t hi, slot]
      rfl
    next => cases h

theorem insertAt_of_free (value : T) (free : t.get id = none)
    (low : firstId ≤ id) (high : id < firstId + N) : ∃ u, t.insertAt id value = .ok u := by
  obtain ⟨i, rfl⟩ := Nat.exists_eq_add_of_le low
  have hi : i < N := by omega
  unfold insertAt
  rw [index_eq_some.mpr ⟨rfl, hi⟩]
  obtain ⟨entry, hentry⟩ := t.slot_isSome hi
  rw [get_add t hi, hentry] at free
  cases entry with
  | some _ => cases free
  | none =>
    dsimp only
    split
    next => exact ⟨_, rfl⟩
    next h => exact absurd hentry (h)

theorem nextId_eq_some (h : t.nextId = some id) :
    t.get id = none ∧ firstId ≤ id ∧ id < firstId + N ∧
      ∀ j, firstId ≤ j → j < id → t.get j ≠ none := by
  unfold nextId at h
  obtain ⟨i, hi, hid⟩ := Option.bind_eq_some_iff.mp h
  obtain ⟨-, rfl⟩ := checkedAdd_eq_some.mp hid
  obtain ⟨bound, free, least⟩ := List.findIdx?_eq_some_iff_getElem.mp hi
  have hN : i < N := by rw [← t.size_eq]; exact bound
  refine ⟨?_, by omega, by omega, fun j low high => ?_⟩
  · rw [get_add t hN, List.getElem?_eq_getElem bound]
    simpa using free
  · obtain ⟨k, rfl⟩ := Nat.exists_eq_add_of_le low
    have hk : k < i := by omega
    have used := least k hk
    rw [get_add t (by omega), List.getElem?_eq_getElem (by omega)]
    simpa using used

theorem insert_eq_ok
    (h : t.insert value = .ok (id, u)) : t.nextId = some id ∧ t.get id = none ∧ firstId ≤ id ∧
      id < firstId + N ∧ ∀ j, u.get j = if j = id then some value else t.get j := by
  unfold insert at h
  split at h
  next => cases h
  next next hnext =>
    cases hins : t.insertAt next value with
    | error e => rw [hins] at h; cases h
    | ok table =>
      rw [hins] at h
      cases h
      exact ⟨hnext, insertAt_eq_ok hins⟩

theorem get_modify (t : FixedTable T N firstId) (id : ℕ) (f : T → T) (j : ℕ) :
    (t.modify id f).get j = if j = id then (t.get id).map f else t.get j := by
  unfold modify
  split
  next h =>
    split
    next same =>
      subst same
      rw [get, h]
      rfl
    next => rfl
  next index hindex =>
    obtain ⟨rfl, hi⟩ := index_eq_some.mp hindex
    split
    next value slot =>
      rw [get_of_set (t := t) hi rfl, get_add t hi, slot]
      rfl
    next hslot =>
      split
      next same =>
        subst same
        obtain ⟨entry, hentry⟩ := t.slot_isSome hi
        rw [get_add t hi, hentry]
        cases entry with
        | none => rfl
        | some value => exact absurd hentry (hslot value)
      next => rfl

theorem modify_modify (t : FixedTable T N firstId) (id : ℕ) (f g : T → T) :
    (t.modify id f).modify id g = t.modify id fun value => g (f value) := by
  refine ext_get fun j => ?_
  simp only [get_modify, if_true]
  split
  next => rw [Option.map_map]; rfl
  next => rfl

theorem modify_of_get {f : T → T}
    (found : t.get id = some value) (same : f value = value) : t.modify id f = t := by
  refine ext_get fun j => ?_
  rw [get_modify]
  split
  next eq => rw [eq, found, Option.map_some, same]
  next => rfl

@[simp] theorem remove_fst (t : FixedTable T N firstId) (id : ℕ) : (t.remove id).1 = t.get id := by
  unfold remove
  split
  next h => rw [get, h]; rfl
  next index hindex =>
    obtain ⟨rfl, hi⟩ := index_eq_some.mp hindex
    rw [get_add t hi]
    split
    next value slot => exact (congrArg Option.join slot).symm
    next hslot =>
      obtain ⟨entry, hentry⟩ := t.slot_isSome hi
      rw [hentry]
      cases entry with
      | none => rfl
      | some value => exact absurd hentry (hslot value)

theorem get_remove (t : FixedTable T N firstId) (id j : ℕ) :
    (t.remove id).2.get j = if j = id then none else t.get j := by
  have found := t.remove_fst id
  revert found
  unfold remove
  split
  next h =>
    intro found
    split
    next same => subst same; exact found.symm
    next => rfl
  next index hindex =>
    obtain ⟨rfl, hi⟩ := index_eq_some.mp hindex
    split
    next value slot =>
      intro _
      rw [get_of_set (t := t) hi rfl]
    next =>
      intro found
      split
      next same => subst same; exact found.symm
      next => rfl

theorem remove_snd_of_none (h : t.get id = none) :
    (t.remove id).2 = t := by
  refine ext_get fun j => ?_
  rw [get_remove]
  split
  next same => rw [same, h]
  next => rfl

theorem mem_iter (fits : firstId + N ≤ 2 ^ 32) :
    (id, value) ∈ t.iter ↔ t.get id = some value := by
  unfold iter
  rw [List.mem_filterMap, get_eq_some]
  constructor
  · rintro ⟨⟨entry, i⟩, hmem, h⟩
    obtain ⟨v, rfl, h⟩ := Option.bind_eq_some_iff.mp h
    obtain ⟨j, hj, h⟩ := Option.map_eq_some_iff.mp h
    obtain ⟨-, rfl⟩ := checkedAdd_eq_some.mp hj
    cases h
    have slot := List.mem_zipIdx_iff_getElem?.mp hmem
    obtain ⟨bound, -⟩ := List.getElem?_eq_some_iff.mp slot
    exact ⟨i, rfl, by rw [← t.size_eq]; exact bound, slot⟩
  · rintro ⟨i, rfl, hi, slot⟩
    refine ⟨(some value, i), List.mem_zipIdx_iff_getElem?.mpr slot, ?_⟩
    have fit : checkedAdd 32 firstId i = some (firstId + i) :=
      checkedAdd_eq_some.mpr ⟨by omega, rfl⟩
    simp [fit]

theorem iter_sorted (t : FixedTable T N firstId) : t.iter.Pairwise fun a b => a.1 < b.1 := by
  have indices : t.entries.zipIdx.Pairwise fun a b => a.2 < b.2 := by
    rw [← List.pairwise_map (f := Prod.snd) (R := (· < ·)), List.zipIdx_map_snd]
    exact List.pairwise_lt_range'
  refine List.Pairwise.filterMap _ ?_ indices
  rintro ⟨entry, i⟩ ⟨entry', j⟩ lt a ha b hb
  obtain ⟨v, -, ha⟩ := Option.bind_eq_some_iff.mp ha
  obtain ⟨m, hm, rfl⟩ := Option.map_eq_some_iff.mp ha
  obtain ⟨w, -, hb⟩ := Option.bind_eq_some_iff.mp hb
  obtain ⟨n, hn, rfl⟩ := Option.map_eq_some_iff.mp hb
  obtain ⟨-, rfl⟩ := checkedAdd_eq_some.mp hm
  obtain ⟨-, rfl⟩ := checkedAdd_eq_some.mp hn
  exact Nat.add_lt_add_left lt firstId

theorem iter_new (fits : firstId + N ≤ 2 ^ 32) : (new : FixedTable T N firstId).iter = [] := by
  apply List.eq_nil_iff_forall_not_mem.mpr
  rintro ⟨id, value⟩ member
  rw [mem_iter fits, get_new] at member
  cases member

theorem nodup_iter (t : FixedTable T N firstId) : t.iter.Nodup :=
  t.iter_sorted.imp fun lt same => absurd (congrArg Prod.fst same) lt.ne

theorem perm_insert
    (fits : firstId + N ≤ 2 ^ 32) (h : t.insert value = .ok (id, u)) :
    u.iter.Perm ((id, value) :: t.iter) := by
  obtain ⟨-, free, -, -, entries⟩ := insert_eq_ok h
  have absent : (id, value) ∉ t.iter := by
    rw [mem_iter fits, free]
    exact nofun
  apply (List.perm_ext_iff_of_nodup u.nodup_iter (List.nodup_cons.mpr ⟨absent, t.nodup_iter⟩)).mpr
  rintro ⟨j, other⟩
  rw [List.mem_cons, mem_iter fits, mem_iter fits, entries]
  split
  next same =>
    subst same
    simp [free, eq_comm]
  next differs => simp [differs]

theorem perm_remove
    (fits : firstId + N ≤ 2 ^ 32) (h : t.get id = some value) :
    t.iter.Perm ((id, value) :: (t.remove id).2.iter) := by
  have absent : (id, value) ∉ (t.remove id).2.iter := by
    rw [mem_iter fits, get_remove, if_pos rfl]
    exact nofun
  apply (List.perm_ext_iff_of_nodup t.nodup_iter
    (List.nodup_cons.mpr ⟨absent, (t.remove id).2.nodup_iter⟩)).mpr
  rintro ⟨j, other⟩
  rw [List.mem_cons, mem_iter fits, mem_iter fits, get_remove]
  split
  next same =>
    subst same
    simp [h, eq_comm]
  next differs => simp [differs]

end FixedTable

end Upse
