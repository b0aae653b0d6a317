import Upse.Bios.Allocations
import Upse.Hw.Ps2.Memory
import Upse.Support.Bytes

/-!
# Arguments of a module

A module starts with an argument vector in a block of system memory: the table of pointers with its
null, the launch name, and the argument block of the caller as it is.
-/

namespace Upse.Iop

open ErrorState

/-- Failure of a service, as the caller of the service layer sees it. -/
inductive BackendError where
  | message (text : String)
  | kernel (source : KernelError)
  | memory (source : MemoryError)
  deriving DecidableEq, Repr

/-- The parts of the machine that arguments are marshalled in. -/
structure MarshalState where
  allocator : SystemMemory
  memory : Memory

/-! ### Main memory as the services use it -/

/-- Bytes from an address on, which wraps around the address space. -/
def readIopRam (memory : Memory) (address : Word) : ℕ → Except MemoryError Bytes
  | 0 => return []
  | size + 1 => do
    let byte ← memory.readU8 address
    let rest ← readIopRam memory (address + 1) size
    return byte :: rest

/-- Writes byte by byte; a failure leaves the bytes in front of it written. -/
def writeIopRam (address : Word) : Bytes → EStateM MemoryError Memory Unit
  | [] => return ()
  | byte :: input => do
    set (← ErrorState.ofExcept ((← get).writeU8 address byte))
    writeIopRam (address + 1) input

/-! ### Marshalling -/

/-- The offsets at which the strings of an argument block begin; every round passes a NUL. -/
def argumentOffsets (arguments : Bytes) : ℕ → ℕ → Except BackendError (List ℕ)
  | 0, _ => return []
  | rounds + 1, cursor =>
    if cursor < arguments.length then
      match (arguments.drop cursor).findIdx? (· = 0) with
      | none => .error (.message "module argument is not NUL-terminated")
      | some terminator =>
        match checkedAdd 64 cursor (terminator + 1) with
        | none => .error (.message "module argument block overflows host width")
        | some next => do
          let offsets ← argumentOffsets arguments rounds next
          return cursor :: offsets
    else return []

/-- Replaces the bytes from an offset on. -/
def copyFromSlice (block : Bytes) (offset : ℕ) (bytes : Bytes) : Bytes :=
  block.take offset ++ (bytes ++ block.drop (offset + bytes.length))

/-- Enters the addresses of the arguments in the table, behind that of the launch name. -/
def writePointers (address argumentBase : ℕ) : List ℕ → ℕ → Bytes → Except BackendError Bytes
  | [], _, block => return block
  | offset :: offsets, index, block =>
    if argumentBase + offset < 2 ^ 32 then
      writePointers address argumentBase offsets (index + 1)
        (copyFromSlice block ((index + 1) * 4) (leBytes 4 (address + (argumentBase + offset))))
    else .error (.message "module argv address exceeds IOP width")

/-- Writes the arguments of a module. -/
def marshalModuleArguments (path arguments : Bytes) : EStateM BackendError MarshalState (ℕ × ℕ) := do
  let offsets ← ErrorState.ofExcept (argumentOffsets arguments (arguments.length + 1) 0)
  let argc ← okOr (checkedAdd 64 offsets.length 1)
    (.message "module argument count overflows host width")
  let pointerBytes ← okOr ((checkedAdd 64 argc 1).bind (checkedMul 64 · 4))
    (.message "module argv table overflows host width")
  let launchName := ascii "/" ++ path
  let stringBytes ← okOr ((checkedAdd 64 launchName.length 1).bind (checkedAdd 64 · arguments.length))
    (.message "module argv strings overflow host width")
  let size ← okOr ((checkedAdd 64 pointerBytes stringBytes).filter (· < 2 ^ 32))
    (.message "module argv block exceeds IOP width")
  let allocation ← zoom MarshalState.allocator (fun a s => { s with allocator := a }) .kernel
    (SystemMemory.allocate .first size 0)
  let argumentBase := pointerBytes + (launchName.length + 1)
  let block := copyFromSlice (List.replicate size 0) 0 (leBytes 4 (allocation.address + pointerBytes))
  let block := copyFromSlice block pointerBytes launchName
  let block := copyFromSlice block argumentBase arguments
  let block ← ErrorState.ofExcept (writePointers allocation.address argumentBase offsets 0 block)
  let s ← get
  match (writeIopRam (BitVec.ofNat 32 allocation.address) block).run s.memory with
  | .error error memory =>
    set (⟨leaves ((SystemMemory.free allocation.address).run s.allocator), memory⟩ : MarshalState)
    throw (.memory error)
  | .ok _ memory =>
    set (⟨s.allocator, memory⟩ : MarshalState)
    return (allocation.address, min argc (2 ^ 32 - 1))

/-! ### Bytes of a block -/

section Blocks

variable {block bytes other : Bytes} {offset start : ℕ}

theorem getElem?_of_holdsAt (holds : HoldsAt block offset bytes) {i : ℕ} (h : i < bytes.length) :
    block[offset + i]? = some bytes[i] := by
  obtain ⟨front, rest, rfl, rfl⟩ := holds
  rw [List.getElem?_append_right (Nat.le_add_right _ _), Nat.add_sub_cancel_left,
    List.getElem?_append_left h, List.getElem?_eq_getElem h]

theorem length_copyFromSlice (le : offset + bytes.length ≤ block.length) :
    (copyFromSlice block offset bytes).length = block.length := by
  unfold copyFromSlice
  rw [List.length_append, List.length_append, List.length_take, List.length_drop]
  omega

theorem holdsAt_copyFromSlice (le : offset + bytes.length ≤ block.length) :
    HoldsAt (copyFromSlice block offset bytes) offset bytes :=
  ⟨block.take offset, _, by rw [List.length_take]; omega, rfl⟩

theorem kept_copyFromSlice (holds : HoldsAt block start other)
    (le : offset + bytes.length ≤ block.length)
    (apart : start + other.length ≤ offset ∨ offset + bytes.length ≤ start) :
    HoldsAt (copyFromSlice block offset bytes) start other := by
  obtain ⟨front, rest, rfl, rfl⟩ := holds
  unfold copyFromSlice
  rcases apart with before | after
  · refine ⟨front, rest.take (offset - front.length - other.length) ++ (bytes ++
      (front ++ (other ++ rest)).drop (offset + bytes.length)), rfl, ?_⟩
    rw [List.take_append, List.take_of_length_le (by omega), List.take_append,
      List.take_of_length_le (by omega)]
    simp only [List.append_assoc]
  · refine ⟨front.take offset ++ (bytes ++ front.drop (offset + bytes.length)), rest, ?_, ?_⟩
    · rw [List.length_append, List.length_append, List.length_take, List.length_drop]
      omega
    · rw [List.take_append_of_le_length (by omega), List.drop_append_of_le_length (by omega)]
      simp only [List.append_assoc]

end Blocks

/-! ### Offsets and pointers -/

/-- Strings as the caller passes them: each with its NUL. -/
def terminated (strings : List Bytes) : Bytes := (strings.map (· ++ [0])).flatten

/-- Where strings begin that follow each other from an offset on. -/
def offsetsFrom : ℕ → List Bytes → List ℕ
  | _, [] => []
  | start, string :: strings => start :: offsetsFrom (start + (string.length + 1)) strings

theorem terminated_cons (string : Bytes) (strings : List Bytes) :
    terminated (string :: strings) = string ++ 0 :: terminated strings := by
  unfold terminated
  rw [List.map_cons, List.flatten_cons, List.append_assoc]
  rfl

theorem length_offsetsFrom (start : ℕ) (strings : List Bytes) :
    (offsetsFrom start strings).length = strings.length := by
  induction strings generalizing start with
  | nil => rfl
  | cons string strings ih => rw [offsetsFrom, List.length_cons, ih, List.length_cons]

theorem length_le_terminated (strings : List Bytes) : strings.length ≤ (terminated strings).length := by
  induction strings with
  | nil => exact Nat.le_refl _
  | cons string strings ih =>
    rw [terminated_cons, List.length_append, List.length_cons, List.length_cons]
    omega

/-- Each string stands at its offset with its NUL, and in front of the strings behind it. -/
theorem holdsAt_offsetsFrom {block : Bytes} (strings : List Bytes) {start : ℕ}
    (holds : HoldsAt block start (terminated strings)) (i : ℕ)
    (h : i < (offsetsFrom start strings).length) (h' : i < strings.length) :
    HoldsAt block (offsetsFrom start strings)[i] (strings[i] ++ [0]) ∧
      start ≤ (offsetsFrom start strings)[i] ∧
      (offsetsFrom start strings)[i] + strings[i].length + 1 ≤ start + (terminated strings).length := by
  induction strings generalizing start i with
  | nil => exact absurd h' (Nat.not_lt_zero i)
  | cons string strings ih =>
    have whole : terminated (string :: strings) = (string ++ [0]) ++ terminated strings := by
      rw [terminated_cons, List.append_assoc]
      rfl
    have length : (terminated (string :: strings)).length =
        string.length + 1 + (terminated strings).length := by
      rw [whole, List.length_append, List.length_append, List.length_singleton]
    rw [whole] at holds
    cases i with
    | zero =>
      refine ⟨holds.left, Nat.le_refl _, ?_⟩
      show start + string.length + 1 ≤ _
      omega
    | succ i =>
      have rest := holds.right
      rw [List.length_append, List.length_singleton] at rest
      have inside : i < (offsetsFrom (start + (string.length + 1)) strings).length :=
        Nat.lt_of_succ_lt_succ h
      have inside' : i < strings.length := Nat.lt_of_succ_lt_succ h'
      obtain ⟨stands, low, high⟩ := ih rest i inside inside'
      refine ⟨stands, ?_, ?_⟩
      · show start ≤ (offsetsFrom (start + (string.length + 1)) strings)[i]
        omega
      · show (offsetsFrom (start + (string.length + 1)) strings)[i] + strings[i].length + 1 ≤ _
        omega

theorem offsetsFrom_ordered (strings : List Bytes) (start i j : ℕ) (before : i < j)
    (h : j < (offsetsFrom start strings).length) (h' : i < strings.length) :
    (offsetsFrom start strings)[i] + strings[i].length + 1 ≤ (offsetsFrom start strings)[j] := by
  induction strings generalizing start i j with
  | nil => exact absurd h' (Nat.not_lt_zero i)
  | cons string strings ih =>
    cases j with
    | zero => exact absurd before (Nat.not_lt_zero i)
    | succ j =>
      have inside : j < (offsetsFrom (start + (string.length + 1)) strings).length :=
        Nat.lt_of_succ_lt_succ h
      cases i with
      | zero =>
        have inside' := inside
        rw [length_offsetsFrom] at inside'
        have behind : HoldsAt (List.replicate (start + (string.length + 1)) 0 ++
            (terminated strings ++ [])) (start + (string.length + 1)) (terminated strings) :=
          ⟨_, [], List.length_replicate, rfl⟩
        have low := (holdsAt_offsetsFrom strings behind j inside inside').2.1
        show start + string.length + 1 ≤ (offsetsFrom (start + (string.length + 1)) strings)[j]
        omega
      | succ i =>
        exact ih _ i j (Nat.lt_of_succ_lt_succ before) inside (Nat.lt_of_succ_lt_succ h')

theorem findIdx?_string {string rest : Bytes} (nonzero : (0 : Byte) ∉ string) :
    (string ++ 0 :: rest).findIdx? (· = 0) = some string.length := by
  rw [List.findIdx?_append, List.findIdx?_eq_none_iff.mpr fun b member => ?_]
  · simp [List.findIdx?_cons]
  · simp only [decide_eq_false_iff_not]
    rintro rfl
    exact nonzero member

theorem argumentOffsets_eq (strings : List Bytes) (front : Bytes) (rounds : ℕ) {offsets : List ℕ}
    (nonzero : ∀ string ∈ strings, (0 : Byte) ∉ string) (enough : strings.length < rounds)
    (found : argumentOffsets (front ++ terminated strings) rounds front.length = .ok offsets) :
    offsets = offsetsFrom front.length strings := by
  induction strings generalizing front rounds offsets with
  | nil =>
    obtain ⟨rounds, rfl⟩ : ∃ n, rounds = n + 1 := ⟨rounds - 1, by omega⟩
    rw [argumentOffsets, if_neg (by simp [terminated])] at found
    cases found
    rfl
  | cons string strings ih =>
    rw [List.length_cons] at enough
    obtain ⟨rounds, rfl⟩ : ∃ n, rounds = n + 1 := ⟨rounds - 1, by omega⟩
    have whole : front ++ terminated (string :: strings) =
        (front ++ (string ++ [0])) ++ terminated strings := by
      rw [terminated_cons]
      simp only [List.append_assoc, List.cons_append, List.nil_append]
    have length : (front ++ (string ++ [0])).length = front.length + (string.length + 1) := by
      simp
    rw [argumentOffsets, if_pos (by rw [whole, List.length_append, length]; omega),
      List.drop_left, terminated_cons, findIdx?_string (nonzero string List.mem_cons_self)] at found
    dsimp only at found
    cases sum : checkedAdd 64 front.length (string.length + 1) with
    | none =>
      rw [sum] at found
      cases found
    | some next =>
      obtain ⟨-, rfl⟩ := checkedAdd_eq_some.mp sum
      rw [sum, ← terminated_cons, whole, ← length] at found
      obtain ⟨rest, foundRest, same⟩ := ErrorState.except_bind_ok.mp found
      cases same
      rw [offsetsFrom, ← length, ih _ rounds (fun s member => nonzero s (List.mem_cons_of_mem _ member))
        (by omega) foundRest]

theorem argumentOffsets_unterminated (strings : List Bytes) (front : Bytes) {last : Bytes} (rounds : ℕ)
    (nonzero : ∀ string ∈ strings, (0 : Byte) ∉ string) (enough : strings.length < rounds)
    (nonempty : last ≠ []) (unterminated : (0 : Byte) ∉ last) :
    ∃ e, argumentOffsets (front ++ (terminated strings ++ last)) rounds front.length = .error e := by
  induction strings generalizing front rounds with
  | nil =>
    obtain ⟨rounds, rfl⟩ : ∃ n, rounds = n + 1 := ⟨rounds - 1, by omega⟩
    have positive := List.length_pos_iff.mpr nonempty
    have missing : last.findIdx? (· = 0) = none := by
      refine List.findIdx?_eq_none_iff.mpr fun b member => ?_
      simp only [decide_eq_false_iff_not]
      rintro rfl
      exact unterminated member
    have empty : terminated [] ++ last = last := rfl
    rw [empty, argumentOffsets, if_pos (by rw [List.length_append]; omega), List.drop_left, missing]
    exact ⟨_, rfl⟩
  | cons string strings ih =>
    rw [List.length_cons] at enough
    obtain ⟨rounds, rfl⟩ : ∃ n, rounds = n + 1 := ⟨rounds - 1, by omega⟩
    have whole : front ++ (terminated (string :: strings) ++ last) =
        (front ++ (string ++ [0])) ++ (terminated strings ++ last) := by
      rw [terminated_cons]
      simp only [List.append_assoc, List.cons_append, List.nil_append]
    have length : (front ++ (string ++ [0])).length = front.length + (string.length + 1) := by
      simp
    rw [argumentOffsets, if_pos (by rw [whole, List.length_append, length]; omega), List.drop_left,
      terminated_cons, List.append_assoc, List.cons_append,
      findIdx?_string (nonzero string List.mem_cons_self)]
    dsimp only
    cases sum : checkedAdd 64 front.length (string.length + 1) with
    | none => exact ⟨_, rfl⟩
    | some next =>
      obtain ⟨-, rfl⟩ := checkedAdd_eq_some.mp sum
      obtain ⟨e, refused⟩ := ih (front ++ (string ++ [0])) rounds
        (fun s member => nonzero s (List.mem_cons_of_mem _ member)) (by omega)
      rw [← length, ← List.cons_append, ← List.append_assoc string, ← terminated_cons, whole]
      dsimp only
      rw [refused]
      exact ⟨e, rfl⟩

theorem writePointers_holds {address argumentBase : ℕ} (offsets : List ℕ) {index : ℕ}
    {block block' : Bytes} (le : (index + 1 + offsets.length) * 4 ≤ block.length)
    (written : writePointers address argumentBase offsets index block = .ok block') :
    block'.length = block.length ∧
      (∀ start other, HoldsAt block start other →
        start + other.length ≤ (index + 1) * 4 ∨ (index + 1 + offsets.length) * 4 ≤ start →
        HoldsAt block' start other) ∧
      ∀ i (h : i < offsets.length), argumentBase + offsets[i] < 2 ^ 32 ∧
        HoldsAt block' ((index + 1 + i) * 4) (leBytes 4 (address + (argumentBase + offsets[i]))) := by
  induction offsets generalizing index block with
  | nil =>
    cases written
    exact ⟨rfl, fun _ _ holds _ => holds, fun i h => absurd h (Nat.not_lt_zero i)⟩
  | cons offset offsets ih =>
    rw [List.length_cons] at le
    rw [writePointers] at written
    split at written
    next fits =>
      have room : (index + 1) * 4 +
          (leBytes 4 (address + (argumentBase + offset))).length ≤ block.length := by
        rw [length_leBytes]
        omega
      have length := length_copyFromSlice room
      obtain ⟨same, kept, entered⟩ := ih (by rw [length]; omega) written
      refine ⟨same.trans length, fun start other holds apart => ?_, ?_⟩
      · rw [List.length_cons] at apart
        refine kept start other (kept_copyFromSlice holds room ?_) (by omega)
        rw [length_leBytes]
        omega
      · rintro (_ | i) h
        · refine ⟨fits, kept _ _ (holdsAt_copyFromSlice room) (.inl ?_)⟩
          rw [length_leBytes]
          omega
        · have shift : index + 1 + (i + 1) = index + 1 + 1 + i := by omega
          rw [shift]
          exact entered i (Nat.lt_of_succ_lt_succ h)
    next => cases written

end Upse.Iop
