import Upse.Bios.Modules.Registry
import Upse.Machine.Ps2.Arguments

/-!
# The argument vector of a module is that of C

What was marshalled is read back from main memory: the pointers lead to the launch name and the
arguments, which lie in the block one after the other behind the table.
-/

namespace Upse.Iop

open ErrorState

/-! ### Main memory -/

theorem classify_ram {address : ℕ} (inside : address < ramSize) :
    Memory.classify (BitVec.ofNat 32 address) =
      .ok (.ram ⟨address % ramSize, Nat.mod_lt _ (by decide)⟩) := by
  have small : address < 0x200000 := inside
  have value : (BitVec.ofNat 32 address).toNat = address := by
    rw [BitVec.toNat_ofNat]
    omega
  have physical : (BitVec.ofNat 32 address &&& 0x1fffffff).toNat = address := by
    rw [BitVec.toNat_and, value]
    show address &&& (2 ^ 29 - 1) = address
    rw [Nat.and_two_pow_sub_one_eq_mod]
    omega
  have translated : Memory.translate (BitVec.ofNat 32 address) = .ok address := by
    unfold Memory.translate
    rw [if_pos (.inl (by omega)), physical]
  unfold Memory.classify
  rw [translated]
  refine congrArg Except.ok (if_pos ?_)
  unfold ramMirrorEnd
  omega

theorem readU8_ram (memory : Memory) {address : ℕ} (inside : address < ramSize) :
    memory.readU8 (BitVec.ofNat 32 address) = .ok (ramByte memory address) := by
  unfold Memory.readU8
  rw [classify_ram inside]
  rfl

theorem writeU8_ram (memory : Memory) {address : ℕ} (value : Byte) (inside : address < ramSize) :
    ∃ memory', memory.writeU8 (BitVec.ofNat 32 address) value = .ok memory' ∧
      ramByte memory' address = value ∧
      ∀ other < ramSize, other ≠ address → ramByte memory' other = ramByte memory other := by
  refine ⟨_, by unfold Memory.writeU8; rw [classify_ram inside]; rfl, ?_, fun other h apart => ?_⟩
  · exact Function.update_self _ _ _
  · refine Function.update_of_ne (fun same => apart ?_) _ _
    rwa [Fin.mk.injEq, Nat.mod_eq_of_lt h, Nat.mod_eq_of_lt inside] at same

theorem ofNat_succ (address : ℕ) : BitVec.ofNat 32 address + 1 = BitVec.ofNat 32 (address + 1) :=
  (BitVec.ofNat_add address 1).symm

theorem run_writeIopRam (bytes : Bytes) (memory : Memory) (address : ℕ)
    (inside : address + bytes.length ≤ ramSize) :
    ∃ memory', (writeIopRam (BitVec.ofNat 32 address) bytes).run memory = .ok () memory' ∧
      (∀ i (h : i < bytes.length), ramByte memory' (address + i) = bytes[i]) ∧
      ∀ other < ramSize, other < address ∨ address + bytes.length ≤ other →
        ramByte memory' other = ramByte memory other := by
  induction bytes generalizing memory address with
  | nil => exact ⟨memory, rfl, fun i h => absurd h (Nat.not_lt_zero i), fun _ _ _ => rfl⟩
  | cons byte bytes ih =>
    rw [List.length_cons] at inside
    obtain ⟨memory', written, here, others⟩ := writeU8_ram memory byte
      (show address < ramSize by omega)
    obtain ⟨memory'', ran, stand, kept⟩ := ih memory' (address + 1) (by omega)
    refine ⟨memory'', ?_, ?_, ?_⟩
    · rw [writeIopRam, run_get_bind, run_ofExcept_bind written, ofNat_succ]
      exact ran
    · rintro (_ | i) h
      · exact (kept address (by omega) (.inl (Nat.lt_succ_self _))).trans here
      · rw [show address + (i + 1) = address + 1 + i by omega]
        exact stand i (Nat.lt_of_succ_lt_succ h)
    · intro other h apart
      rw [List.length_cons] at apart
      rw [kept other h (by omega)]
      exact others other h (by omega)

theorem readIopRam_eq (bytes : Bytes) (memory : Memory) (address : ℕ)
    (inside : address + bytes.length ≤ ramSize)
    (holds : ∀ i (h : i < bytes.length), ramByte memory (address + i) = bytes[i]) :
    readIopRam memory (BitVec.ofNat 32 address) bytes.length = .ok bytes := by
  induction bytes generalizing address with
  | nil => rfl
  | cons byte bytes ih =>
    rw [List.length_cons] at inside
    have rest := ih (address + 1) (by omega) fun i h => by
      rw [show address + 1 + i = address + (i + 1) by omega]
      exact holds (i + 1) (Nat.succ_lt_succ h)
    rw [List.length_cons, readIopRam, readU8_ram memory (by omega), ofNat_succ, rest]
    exact congrArg (fun b => Except.ok (b :: bytes)) (holds 0 (Nat.zero_lt_succ _))

theorem readIopRam_of_holdsAt {block bytes : Bytes} {offset address : ℕ} {memory : Memory}
    (inside : address + block.length ≤ ramSize)
    (stand : ∀ i (h : i < block.length), ramByte memory (address + i) = block[i])
    (holds : HoldsAt block offset bytes) :
    readIopRam memory (BitVec.ofNat 32 (address + offset)) bytes.length = .ok bytes := by
  have le := holds.length_le
  refine readIopRam_eq bytes memory _ (by omega) fun i h => ?_
  rw [Nat.add_assoc, stand (offset + i) (by omega)]
  exact List.getElem_of_getElem? (getElem?_of_holdsAt holds h) |>.2

/-! ### The vector -/

/-- In the block a table of pointers with its null, and behind it, one after the other, the strings
they lead to. -/
structure ArgumentVector (memory : Memory) (block : Allocation) (argc : ℕ) (strings : List Bytes)
    (pointers : List ℕ) : Prop where
  count : argc = strings.length
  table : pointers.length = strings.length
  pointer : ∀ i (h : i < pointers.length),
    readIopRam memory (BitVec.ofNat 32 (block.address + 4 * i)) 4 = .ok (leBytes 4 pointers[i])
  null : readIopRam memory (BitVec.ofNat 32 (block.address + 4 * argc)) 4 = .ok (leBytes 4 0)
  string : ∀ i (h : i < pointers.length) (h' : i < strings.length),
    readIopRam memory (BitVec.ofNat 32 pointers[i]) (strings[i].length + 1) = .ok (strings[i] ++ [0])
  low : ∀ i (h : i < pointers.length), block.address + 4 * (argc + 1) ≤ pointers[i]
  high : ∀ i (h : i < pointers.length) (h' : i < strings.length),
    pointers[i] + strings[i].length + 1 ≤ block.stop
  apart : ∀ i j (h : i < strings.length) (h' : i < pointers.length) (h'' : j < pointers.length),
    i < j → pointers[i] + strings[i].length + 1 ≤ pointers[j]

theorem allocated {start stop : Word} {fresh allocator allocator' : SystemMemory}
    {ops : List MemoryOp} {size : ℕ} {a : Allocation}
    (created : SystemMemory.new start stop = .ok fresh)
    (reached : Run SystemMemory.Next fresh ops allocator)
    (ran : (SystemMemory.allocate .first size 0).run allocator = .ok a allocator') :
    a ∈ allocator'.live ∧ a ∉ allocator.live ∧ a.address + size ≤ a.stop ∧ a.stop ≤ stop.toNat := by
  obtain ⟨sound, range⟩ := SystemMemory.sound_run created reached
  have stops : allocator.stop = stop.toNat := congrArg Prod.snd range
  unfold SystemMemory.allocate at ran
  obtain ⟨e, failed⟩ | ⟨reserved, selected, id, table, positive, power, rounded, found, inserted, run⟩ :=
    SystemMemory.allocateAligned_cases allocator .first size 0 sysmemQuantum
  · rw [failed] at ran
    cases ran
  · rw [run] at ran
    cases ran
    obtain ⟨dvd, fits⟩ := sound.select power found
    obtain ⟨quantum, enough⟩ := alignUp_spec ⟨8, rfl⟩ rounded
    have perm := (FixedTable.perm_insert (by decide) inserted).map Prod.snd
    refine ⟨perm.mem_iff.mpr List.mem_cons_self, fun old => ?_, Nat.add_le_add_left enough _,
      stops ▸ fits.le_stop⟩
    have clear := fits.clear _ old
    simp only [Allocation.stop] at clear
    omega

theorem holdsAt_append {block bytes rest : Bytes} {offset : ℕ} (holds : HoldsAt block offset bytes)
    (behind : HoldsAt block (offset + bytes.length) rest) : HoldsAt block offset (bytes ++ rest) := by
  obtain ⟨front, back, rfl, rfl⟩ := holds
  obtain ⟨front', back', length, same⟩ := behind
  rw [← List.append_assoc] at same
  obtain ⟨-, rfl⟩ := List.append_inj same (by rw [List.length_append, length])
  exact ⟨front, back', rfl, by rw [List.append_assoc]⟩

/-- The block as it is written: the table, the launch name and the caller's strings. -/
structure Laid (block : Bytes) (address pointerBytes : ℕ) (launchName : Bytes)
    (strings : List Bytes) : Prop where
  first : HoldsAt block 0 (leBytes 4 (address + pointerBytes))
  rest : ∀ i (_ : i < strings.length)
    (h' : i < (offsetsFrom (pointerBytes + (launchName.length + 1)) strings).length),
    HoldsAt block (4 * (i + 1))
      (leBytes 4 (address + (offsetsFrom (pointerBytes + (launchName.length + 1)) strings)[i]))
  null : HoldsAt block (4 * (strings.length + 1)) (leBytes 4 0)
  name : HoldsAt block pointerBytes (launchName ++ [0])
  arguments : HoldsAt block (pointerBytes + (launchName.length + 1)) (terminated strings)

theorem offsetsFrom_shift (start shift : ℕ) (strings : List Bytes) :
    offsetsFrom (start + shift) strings = (offsetsFrom shift strings).map (start + ·) := by
  induction strings generalizing shift with
  | nil => rfl
  | cons string strings ih => rw [offsetsFrom, Nat.add_assoc, ih, offsetsFrom, List.map_cons]

theorem holdsAt_replicate {size : ℕ} (offset n : ℕ) (le : offset + n ≤ size) :
    HoldsAt (List.replicate size (0 : Byte)) offset (List.replicate n 0) := by
  refine ⟨List.replicate offset 0, List.replicate (size - offset - n) 0, List.length_replicate, ?_⟩
  rw [List.replicate_append_replicate, List.replicate_append_replicate]
  congr 1
  omega

theorem laid_of_written {address pointerBytes size : ℕ} {launchName block : Bytes}
    {strings : List Bytes} (table : pointerBytes = (strings.length + 2) * 4)
    (whole : size = pointerBytes + (launchName.length + 1 + (terminated strings).length))
    (written : writePointers address (pointerBytes + (launchName.length + 1)) (offsetsFrom 0 strings) 0
      (copyFromSlice (copyFromSlice (copyFromSlice (List.replicate size 0) 0
        (leBytes 4 (address + pointerBytes))) pointerBytes launchName)
        (pointerBytes + (launchName.length + 1)) (terminated strings)) = .ok block) :
    block.length = size ∧ Laid block address pointerBytes launchName strings := by
  have zeros : (List.replicate size (0 : Byte)).length = size := List.length_replicate
  have four : (leBytes 4 (address + pointerBytes)).length = 4 := length_leBytes _ _
  have room : 0 + (leBytes 4 (address + pointerBytes)).length ≤
      (List.replicate size (0 : Byte)).length := by omega
  have length := length_copyFromSlice room
  set first := copyFromSlice (List.replicate size (0 : Byte)) 0 (leBytes 4 (address + pointerBytes))
  have room' : pointerBytes + launchName.length ≤ first.length := by omega
  have length' := length_copyFromSlice room'
  set second := copyFromSlice first pointerBytes launchName
  have room'' : pointerBytes + (launchName.length + 1) + (terminated strings).length ≤
      second.length := by omega
  have length'' := length_copyFromSlice room''
  set third := copyFromSlice second (pointerBytes + (launchName.length + 1)) (terminated strings)
  have count := length_offsetsFrom 0 strings
  obtain ⟨same, kept, entered⟩ := writePointers_holds (offsetsFrom 0 strings)
    (by rw [count]; omega) written
  rw [count] at kept
  -- What no pointer covers is as the three copies left it.
  have untouched {start : ℕ} {bytes : Bytes} (holds : HoldsAt (List.replicate size (0 : Byte)) start bytes)
      (clear : 4 ≤ start) (clear' : start + bytes.length ≤ pointerBytes ∨
        start = pointerBytes + launchName.length ∧ bytes.length = 1) : HoldsAt third start bytes := by
    refine kept_copyFromSlice (kept_copyFromSlice (kept_copyFromSlice holds room ?_) room' ?_) room'' ?_
    all_goals omega
  refine ⟨by omega, ?_, fun i h h' => ?_, ?_, ?_, ?_⟩
  · refine kept _ _ (kept_copyFromSlice (kept_copyFromSlice (holdsAt_copyFromSlice room) room' ?_)
      room'' ?_) ?_
    all_goals omega
  · have inside : i < (offsetsFrom 0 strings).length := by omega
    obtain ⟨-, holds⟩ := entered i inside
    have place : (0 + 1 + i) * 4 = 4 * (i + 1) := by omega
    rw [place] at holds
    have value : (offsetsFrom (pointerBytes + (launchName.length + 1)) strings)[i] =
        pointerBytes + (launchName.length + 1) + (offsetsFrom 0 strings)[i] := by
      have shifted := offsetsFrom_shift (pointerBytes + (launchName.length + 1)) 0 strings
      rw [Nat.add_zero] at shifted
      simp only [shifted, List.getElem_map]
    rw [value]
    exact holds
  · have null : leBytes 4 0 = List.replicate 4 0 := rfl
    rw [null]
    refine kept _ _ (untouched (holdsAt_replicate _ _ ?_) ?_ (.inl ?_)) ?_
    all_goals
      try rw [List.length_replicate]
      omega
  · have name := holdsAt_append (kept_copyFromSlice (holdsAt_copyFromSlice room') room'' (.inl (by omega)))
      (untouched (holdsAt_replicate (pointerBytes + launchName.length) 1 (by omega))
        (by omega) (.inr ⟨rfl, rfl⟩))
    refine kept _ _ name (.inr ?_)
    omega
  · exact kept _ _ (holdsAt_copyFromSlice room'') (by omega)

theorem Laid.vector {block launchName : Bytes} {strings : List Bytes} {pointerBytes : ℕ}
    {memory : Memory} {a : Allocation}
    (laid : Laid block a.address pointerBytes launchName strings)
    (table : pointerBytes = (strings.length + 2) * 4)
    (whole : block.length = pointerBytes + (launchName.length + 1 + (terminated strings).length))
    (fits : a.address + block.length ≤ a.stop) (inside : a.stop ≤ ramSize)
    (stand : ∀ i (h : i < block.length), ramByte memory (a.address + i) = block[i]) :
    ArgumentVector memory a (strings.length + 1) (launchName :: strings)
      ((a.address + pointerBytes) ::
        (offsetsFrom (pointerBytes + (launchName.length + 1)) strings).map (a.address + ·)) := by
  have read {bytes : Bytes} {offset : ℕ} (holds : HoldsAt block offset bytes) :
      readIopRam memory (BitVec.ofNat 32 (a.address + offset)) bytes.length = .ok bytes :=
    readIopRam_of_holdsAt (fits.trans inside) stand holds
  have count := length_offsetsFrom (pointerBytes + (launchName.length + 1)) strings
  refine ⟨rfl, ?_, ?_, ?_, ?_, ?_, ?_, ?_⟩
  · rw [List.length_cons, List.length_map, count, List.length_cons]
  · rintro (_ | i) h
    · exact read laid.first
    · rw [List.length_cons, List.length_map] at h
      have h' : i < (offsetsFrom (pointerBytes + (launchName.length + 1)) strings).length := by omega
      have entry := read (laid.rest i (by omega) h')
      rw [length_leBytes] at entry
      simpa only [List.getElem_cons_succ, List.getElem_map] using entry
  · exact read laid.null
  · rintro (_ | i) h h'
    · have name := read laid.name
      rwa [List.length_append] at name
    · rw [List.length_cons, List.length_map] at h
      have inside' : i < (offsetsFrom (pointerBytes + (launchName.length + 1)) strings).length := by
        omega
      have inside'' : i < strings.length := by omega
      have string := read (holdsAt_offsetsFrom strings laid.arguments i inside' inside'').1
      rw [List.length_append, List.length_singleton] at string
      simpa only [List.getElem_cons_succ, List.getElem_map] using string
  · rintro (_ | i) h
    · show a.address + 4 * (strings.length + 1 + 1) ≤ a.address + pointerBytes
      omega
    · rw [List.length_cons, List.length_map] at h
      have inside' : i < (offsetsFrom (pointerBytes + (launchName.length + 1)) strings).length := by
        omega
      have low := (holdsAt_offsetsFrom strings laid.arguments i inside' (by omega)).2.1
      simp only [List.getElem_cons_succ, List.getElem_map]
      omega
  · rintro (_ | i) h h'
    · show a.address + pointerBytes + launchName.length + 1 ≤ a.stop
      omega
    · rw [List.length_cons, List.length_map] at h
      have inside' : i < (offsetsFrom (pointerBytes + (launchName.length + 1)) strings).length := by
        omega
      have high := (holdsAt_offsetsFrom strings laid.arguments i inside' (by omega)).2.2
      simp only [List.getElem_cons_succ, List.getElem_map]
      omega
  · rintro i (_ | j) h h' h'' before
    · exact absurd before (Nat.not_lt_zero i)
    · rw [List.length_cons, List.length_map] at h''
      have inside' : j < (offsetsFrom (pointerBytes + (launchName.length + 1)) strings).length := by
        omega
      have low := (holdsAt_offsetsFrom strings laid.arguments j inside' (by omega)).2.1
      rcases i with _ | i
      · simp only [List.getElem_cons_zero, List.getElem_cons_succ, List.getElem_map]
        omega
      · have ordered := offsetsFrom_ordered strings (pointerBytes + (launchName.length + 1))
          i j (by omega) inside' (by omega)
        simp only [List.getElem_cons_succ, List.getElem_map]
        omega

/-- Where marshalling returned, its two passes fitted together. -/
theorem marshal_ok {path : Bytes} {strings : List Bytes} {allocator : SystemMemory} {memory : Memory}
    {address argc : ℕ} {s : MarshalState} (nonzero : ∀ string ∈ strings, (0 : Byte) ∉ string)
    (ran : (marshalModuleArguments path (terminated strings)).run ⟨allocator, memory⟩ =
      .ok (address, argc) s) :
    ∃ a allocator' block memory' pointerBytes size,
      pointerBytes = (strings.length + 2) * 4 ∧
      size = pointerBytes + ((ascii "/" ++ path).length + 1 + (terminated strings).length) ∧
      size < 2 ^ 32 ∧
      (SystemMemory.allocate .first size 0).run allocator = .ok a allocator' ∧
      writePointers a.address (pointerBytes + ((ascii "/" ++ path).length + 1)) (offsetsFrom 0 strings)
        0 (copyFromSlice (copyFromSlice (copyFromSlice (List.replicate size 0) 0
          (leBytes 4 (a.address + pointerBytes))) pointerBytes (ascii "/" ++ path))
          (pointerBytes + ((ascii "/" ++ path).length + 1)) (terminated strings)) = .ok block ∧
      (writeIopRam (BitVec.ofNat 32 a.address) block).run memory = .ok () memory' ∧
      s = ⟨allocator', memory'⟩ ∧ address = a.address ∧ argc = strings.length + 1 := by
  unfold marshalModuleArguments at ran
  obtain ⟨offsets, s', step, ran⟩ := run_bind_ok.mp ran
  obtain ⟨found, rfl⟩ := run_ofExcept_ok_iff.mp step
  have offsets_eq := argumentOffsets_eq strings [] _ nonzero
    (Nat.lt_succ_of_le (length_le_terminated strings)) found
  obtain ⟨count, s', step, ran⟩ := run_bind_ok.mp ran
  obtain ⟨counted, rfl⟩ := run_okOr_ok.mp step
  obtain ⟨-, rfl⟩ := checkedAdd_eq_some.mp counted
  obtain ⟨pointerBytes, s', step, ran⟩ := run_bind_ok.mp ran
  obtain ⟨tabled, rfl⟩ := run_okOr_ok.mp step
  obtain ⟨entries, added, tabled⟩ := Option.bind_eq_some_iff.mp tabled
  obtain ⟨-, rfl⟩ := checkedAdd_eq_some.mp added
  obtain ⟨-, rfl⟩ := checkedMul_eq_some.mp tabled
  obtain ⟨stringBytes, s', step, ran⟩ := run_bind_ok.mp ran
  obtain ⟨summed, rfl⟩ := run_okOr_ok.mp step
  obtain ⟨named, added, summed⟩ := Option.bind_eq_some_iff.mp summed
  obtain ⟨-, rfl⟩ := checkedAdd_eq_some.mp added
  obtain ⟨-, rfl⟩ := checkedAdd_eq_some.mp summed
  obtain ⟨size, s', step, ran⟩ := run_bind_ok.mp ran
  obtain ⟨sized, rfl⟩ := run_okOr_ok.mp step
  obtain ⟨sized, narrow⟩ := Option.filter_eq_some_iff.mp sized
  obtain ⟨-, rfl⟩ := checkedAdd_eq_some.mp sized
  obtain ⟨a, s', step, ran⟩ := run_bind_ok.mp ran
  obtain ⟨allocator', allocated, rfl⟩ := run_zoom_ok.mp step
  obtain ⟨block, s', step, ran⟩ := run_bind_ok.mp ran
  obtain ⟨written, rfl⟩ := run_ofExcept_ok_iff.mp step
  rw [run_get_bind] at ran
  have lengths : offsets.length = strings.length := by rw [offsets_eq, length_offsetsFrom]
  have narrow := of_decide_eq_true narrow
  dsimp only at ran
  cases stored : (writeIopRam (BitVec.ofNat 32 a.address) block).run memory with
  | error e memory' =>
    rw [stored] at ran
    cases ran
  | ok done memory' =>
    rw [stored] at ran
    cases ran
    rw [lengths] at narrow allocated written
    rw [offsets_eq] at written
    refine ⟨a, allocator', block, memory', _, _, rfl, rfl, narrow, allocated, written, stored, rfl,
      rfl, ?_⟩
    rw [lengths]
    exact Nat.min_eq_left (by omega)

/-- The arguments of a module are marshalled as the argument vector of C, in a block of their own; a
block of arguments whose last string is not ended is refused before anything is allocated. -/
theorem marshalled_vector_faithful {fresh allocator : SystemMemory} {ops : List MemoryOp}
    (created : SystemMemory.new (BitVec.ofNat 32 defaultHeapStart) (BitVec.ofNat 32 defaultHeapEnd) =
      .ok fresh)
    (reached : Run SystemMemory.Next fresh ops allocator) (memory : Memory) (path : Bytes)
    (strings : List Bytes) (nonzero : ∀ string ∈ strings, (0 : Byte) ∉ string) :
    (∀ address argc s, (marshalModuleArguments path (terminated strings)).run ⟨allocator, memory⟩ =
        .ok (address, argc) s →
      ∃ a ∈ s.allocator.live, a ∉ allocator.live ∧ a.address = address ∧
        argc = strings.length + 1 ∧
        ∃ pointers, ArgumentVector s.memory a argc ((ascii "/" ++ path) :: strings) pointers) ∧
    ∀ last, last ≠ [] → (0 : Byte) ∉ last →
      ∃ e, (marshalModuleArguments path (terminated strings ++ last)).run ⟨allocator, memory⟩ =
        .error e ⟨allocator, memory⟩ := by
  refine ⟨fun address argc s called => ?_, fun last nonempty unterminated => ?_⟩
  · obtain ⟨a, allocator', block, memory', pointerBytes, size, table, whole, narrow, ran, written, stored,
      rfl, rfl, rfl⟩ := marshal_ok nonzero called
    obtain ⟨live, new, fits, inside⟩ := allocated created reached ran
    have inRam : a.stop ≤ ramSize := inside
    obtain ⟨length, laid⟩ := laid_of_written table whole written
    obtain ⟨memory'', stored', stand, -⟩ := run_writeIopRam block memory a.address (by omega)
    rw [stored] at stored'
    cases stored'
    exact ⟨a, live, new, rfl, rfl, _, laid.vector table (length.trans whole) (by omega) inRam stand⟩
  · obtain ⟨e, refused⟩ := argumentOffsets_unterminated strings []
      ((terminated strings ++ last).length + 1) nonzero (by
        have le := length_le_terminated strings
        rw [List.length_append]
        omega) nonempty unterminated
    refine ⟨e, ?_⟩
    unfold marshalModuleArguments
    have refused : argumentOffsets (terminated strings ++ last)
      ((terminated strings ++ last).length + 1) 0 = .error e := refused
    rw [refused]
    rfl

/-- A module `a` started with the arguments `b` and the empty string. -/
def startedModule : EStateM.Result BackendError MarshalState (ℕ × ℕ) :=
  (marshalModuleArguments [0x61] (terminated [[0x62], []])).run
    ⟨⟨defaultHeapStart, defaultHeapEnd, .new⟩, .new .strict⟩

theorem marshalled_vector_faithful_sample :
    ∃ a ∈ (leaves startedModule).allocator.live, a.address = 0x10000 ∧
      ∃ pointers, ArgumentVector (leaves startedModule).memory a 3 [[0x2f, 0x61], [0x62], []]
        pointers := by
  have ran : startedModule = .ok (0x10000, 3) (leaves startedModule) :=
    eq_ok_of_returned (by decide +kernel)
  have created : SystemMemory.new (BitVec.ofNat 32 defaultHeapStart)
      (BitVec.ofNat 32 defaultHeapEnd) = .ok ⟨defaultHeapStart, defaultHeapEnd, .new⟩ := rfl
  obtain ⟨a, live, -, address, -, vector⟩ := (marshalled_vector_faithful created (.refl _)
    (.new .strict) [0x61] [[0x62], []] (by decide)).1 _ _ _ ran
  exact ⟨a, live, address, vector⟩

end Upse.Iop
