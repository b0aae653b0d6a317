import Upse.Services.Ioman

/-!
# Descriptors as cursors

What a program may know of the file manager: each open descriptor is a cursor over the contents of its
file.  Every call of the services is an act on the cursor of its own descriptor, or no act at all, and
what the reads of a descriptor deliver is the file from the cursor on.
-/

namespace Upse.Services

/-- A position in the contents of a file. -/
structure Cursor where
  contents : Bytes
  position : ℕ
  deriving DecidableEq, Repr

/-- The cursors of the open descriptors. -/
abbrev Cursors := ℕ → Option Cursor

/-- What a successful read takes. -/
def Cursor.taken (cursor : Cursor) (size : ℕ) : Bytes := (cursor.contents.drop cursor.position).take size

/-- The cursor after a read. -/
def Cursor.advance (cursor : Cursor) (size : ℕ) : Cursor :=
  { cursor with position := cursor.position + (cursor.taken size).length }

/-- The position that a seek names, from the start, from the cursor or from the end; positions go up to
the largest signed value. -/
def Cursor.target (cursor : Cursor) (offset : ℤ) : ℕ → Option ℤ
  | 0 => some offset
  | 1 => some (min (cursor.position + offset) (2 ^ 63 - 1))
  | 2 => some (min (cursor.contents.length + offset) (2 ^ 63 - 1))
  | _ => none

/-- What a call may do: an act on the cursor of its descriptor with its result, or a failure that
leaves the cursors and the guest memory. -/
inductive Acts (fs : ReadOnlyFileSystem) (cursors : Cursors) (call : IomanCall) :
    Except ServiceError ℤ → GuestMemory → Cursors → Prop
  | opened {path : Str} {contents : Bytes} {fd : ℕ} : call.service = .openFile →
      readCString call.memory call.a0.toNat maxGuestString = .ok path →
      fs.file (normalizeDevicePath path) = .ok contents → 3 ≤ fd → cursors fd = none →
      (∀ other, 3 ≤ other → other < fd → (cursors other).isSome) →
      Acts fs cursors call (.ok fd) call.memory (Function.update cursors fd (some ⟨contents, 0⟩))
  | closed {cursor : Cursor} : call.service = .close → cursors call.a0.toNat = some cursor →
      Acts fs cursors call (.ok 0) call.memory (Function.update cursors call.a0.toNat none)
  | delivered {cursor : Cursor} : call.service = .read → cursors call.a0.toNat = some cursor →
      Acts fs cursors call (.ok (min call.a2.toNat (cursor.contents.length - cursor.position) : ℕ))
        (call.memory.store call.a1.toNat (cursor.taken call.a2.toNat))
        (Function.update cursors call.a0.toNat (some (cursor.advance call.a2.toNat)))
  | moved {cursor : Cursor} {position : ℕ} : call.service = .lseek → cursors call.a0.toNat = some cursor →
      cursor.target call.a1.toInt call.a2.toNat = some position →
      Acts fs cursors call (.ok (min position (2 ^ 31 - 1))) call.memory
        (Function.update cursors call.a0.toNat (some { cursor with position }))
  | failed {result : Except ServiceError ℤ} : (∀ value, result = .ok value → value < 0) →
      Acts fs cursors call result call.memory cursors

/-- The cursors of a file manager. -/
def cursors (fs : ReadOnlyFileSystem) (self : IoManager) : Cursors := fun fd =>
  (self.file fd).map fun file => ⟨(fs.file file.path).toOption.getD [], file.offset⟩

/-- Every open file is in the file system, at an offset that a seek can name. -/
def Sound (fs : ReadOnlyFileSystem) (self : IoManager) : Prop :=
  ∀ fd file, self.file fd = some file →
    ∃ contents, fs.file file.path = .ok contents ∧ file.offset < 2 ^ 63

section Calls

variable {fs : ReadOnlyFileSystem} {self : IoManager} {call : IomanCall}

theorem sound_new : Sound fs .new := by
  intro fd file h
  rw [IoManager.file_new] at h
  cases h

theorem cursors_of_file {fd : ℕ} {file : OpenFile} {contents : Bytes} (here : self.file fd = some file)
    (found : fs.file file.path = .ok contents) : cursors fs self fd = some ⟨contents, file.offset⟩ := by
  rw [cursors, here, Option.map_some, found]
  rfl

theorem cursors_setFile {fd : ℕ} (inside : fd < 16) (slot : Option OpenFile) :
    cursors fs (self.setFile fd slot) = Function.update (cursors fs self) fd
      (slot.map fun file => ⟨(fs.file file.path).toOption.getD [], file.offset⟩) := by
  funext other
  unfold cursors
  rw [IoManager.file_setFile inside]
  by_cases same : other = fd
  · subst same
    rw [Function.update_self, Function.update_self]
  · rw [Function.update_of_ne same, Function.update_of_ne same]

theorem Sound.setFile (sound : Sound fs self) {fd : ℕ} (inside : fd < 16) {slot : Option OpenFile}
    (new : ∀ file, slot = some file → ∃ contents, fs.file file.path = .ok contents ∧ file.offset < 2 ^ 63) :
    Sound fs (self.setFile fd slot) := by
  intro other file h
  rw [IoManager.file_setFile inside] at h
  by_cases same : other = fd
  · subst same
    rw [Function.update_self] at h
    exact new file h
  · rw [Function.update_of_ne same] at h
    exact sound other file h

/-- The reply to a call is an act on cursors, and the manager stays sound. -/
def Answers (fs : ReadOnlyFileSystem) (self : IoManager) (call : IomanCall) (reply : Reply) : Prop :=
  Acts fs (cursors fs self) call reply.result reply.memory (cursors fs reply.ioman) ∧ Sound fs reply.ioman

theorem answers_failed (sound : Sound fs self) {result : Except ServiceError ℤ}
    (negative : ∀ value, result = .ok value → value < 0) : Answers fs self call ⟨result, self, call.memory⟩ :=
  ⟨.failed negative, sound⟩

theorem negative_of {value : ℤ} (h : value < 0) :
    ∀ other, (.ok value : Except ServiceError ℤ) = .ok other → other < 0 := by
  rintro _ ⟨⟩
  exact h

theorem answers_open (sound : Sound fs self) (service : call.service = .openFile) {path : Str}
    (read : readCString call.memory call.a0.toNat maxGuestString = .ok path) :
    Answers fs self call ⟨.ok (self.openFile fs path call.a1).1, (self.openFile fs path call.a1).2, call.memory⟩ := by
  unfold IoManager.openFile
  split
  next => exact answers_failed sound (negative_of (by decide : -eacces < 0))
  next =>
    dsimp only
    cases found : fs.file (normalizeDevicePath path) with
    | error e => exact answers_failed sound (negative_of (by decide : (-2 : ℤ) < 0))
    | ok contents =>
      cases free : self.firstFree with
      | none => exact answers_failed sound (negative_of (by decide : -emfile < 0))
      | some fd =>
        obtain ⟨low, inside, empty, taken⟩ := IoManager.firstFree_spec free
        refine ⟨?_, sound.setFile inside ?_⟩
        · show Acts fs _ call (.ok fd) call.memory (cursors fs (self.setFile fd _))
          rw [cursors_setFile inside, Option.map_some, found]
          refine .opened service read found low (by rw [cursors, empty]; rfl) fun other first last => ?_
          rw [cursors, Option.isSome_map]
          exact taken other first last
        · rintro _ ⟨⟩
          exact ⟨contents, found, Nat.two_pow_pos 63⟩

theorem answers_close (sound : Sound fs self) (service : call.service = .close) :
    Answers fs self call ⟨.ok (self.close call.a0.toNat).1, (self.close call.a0.toNat).2, call.memory⟩ := by
  unfold IoManager.close
  cases here : self.file call.a0.toNat with
  | none => exact answers_failed sound (negative_of (by decide : -ebadf < 0))
  | some file =>
    obtain ⟨contents, found, -⟩ := sound _ file here
    refine ⟨?_, sound.setFile (IoManager.file_lt here) nofun⟩
    show Acts fs _ call (.ok 0) call.memory (cursors fs (self.setFile call.a0.toNat none))
    rw [cursors_setFile (IoManager.file_lt here)]
    exact .closed service (cursors_of_file here found)

theorem answers_read (sound : Sound fs self) (service : call.service = .read) :
    Answers fs self call (self.read fs call.a0.toNat call.a1.toNat call.a2.toNat call.memory) := by
  unfold IoManager.read
  split
  next => exact answers_failed sound nofun
  next =>
    cases here : self.file call.a0.toNat with
    | none => exact answers_failed sound (negative_of (by decide))
    | some file =>
      obtain ⟨contents, found, short⟩ := sound _ file here
      dsimp only
      rw [found]
      dsimp only
      cases written : writeMemory call.memory call.a1.toNat
          ((contents.drop file.offset).take (min (contents.drop file.offset).length call.a2.toNat)) with
      | error e => exact answers_failed sound nofun
      | ok memory =>
        obtain ⟨-, rfl⟩ := writeMemory_eq_ok.mp written
        have length := fs.length_lt _ _ found
        have taken : (contents.drop file.offset).take (min (contents.drop file.offset).length call.a2.toNat) =
            Cursor.taken ⟨contents, file.offset⟩ call.a2.toNat := by
          rw [Nat.min_comm, Cursor.taken, ← List.take_take, List.take_length]
        have count : min (contents.drop file.offset).length call.a2.toNat =
            min call.a2.toNat (contents.length - file.offset) := by
          rw [List.length_drop, Nat.min_comm]
        refine ⟨?_, sound.setFile (IoManager.file_lt here) ?_⟩
        · show Acts fs _ call (.ok (min (contents.drop file.offset).length call.a2.toNat : ℕ))
            (call.memory.store call.a1.toNat _) (cursors fs (self.setFile call.a0.toNat _))
          rw [cursors_setFile (IoManager.file_lt here), Option.map_some, found, taken, count]
          have advanced : (⟨contents, file.offset + min call.a2.toNat (contents.length - file.offset)⟩ : Cursor) =
              Cursor.advance ⟨contents, file.offset⟩ call.a2.toNat := by
            rw [Cursor.advance, Cursor.taken, List.length_take, List.length_drop]
          show Acts fs _ call _ _ (Function.update _ _
            (some ⟨contents, file.offset + min call.a2.toNat (contents.length - file.offset)⟩))
          rw [advanced]
          exact .delivered service (cursors_of_file here found)
        · rintro _ ⟨⟩
          refine ⟨contents, found, ?_⟩
          dsimp only
          rw [count]
          omega

theorem target_of_seekBase {contents : Bytes} {position whence : ℕ} {offset base : ℤ}
    (length : contents.length < 2 ^ 63) (short : position < 2 ^ 63)
    (named : IoManager.seekBase contents position whence = some base) (lower : -2 ^ 31 ≤ offset)
    (upper : offset < 2 ^ 31) :
    Cursor.target ⟨contents, position⟩ offset whence = some (IoManager.saturatingAddI64 base offset) := by
  unfold IoManager.saturatingAddI64
  match whence, named with
  | 0, named =>
    cases named
    exact congrArg some (by omega)
  | 1, named =>
    rw [IoManager.seekBase, if_pos short] at named
    cases named
    refine congrArg some ?_
    dsimp only
    omega
  | 2, named =>
    rw [IoManager.seekBase, if_pos length] at named
    cases named
    refine congrArg some ?_
    dsimp only
    omega

theorem answers_seek (sound : Sound fs self) (service : call.service = .lseek) :
    Answers fs self call ⟨.ok (self.seek fs call.a0.toNat call.a1.toInt call.a2.toNat).1,
      (self.seek fs call.a0.toNat call.a1.toInt call.a2.toNat).2, call.memory⟩ := by
  unfold IoManager.seek
  cases here : self.file call.a0.toNat with
  | none => exact answers_failed sound (negative_of (by decide : -ebadf < 0))
  | some file =>
    obtain ⟨contents, found, short⟩ := sound _ file here
    dsimp only
    rw [found]
    dsimp only
    have length := fs.length_lt _ _ found
    have lower := BitVec.le_toInt call.a1
    have upper := BitVec.toInt_lt (x := call.a1)
    cases named : IoManager.seekBase contents file.offset call.a2.toNat with
    | none => exact answers_failed sound (negative_of (by decide : -einval < 0))
    | some base =>
      have target := target_of_seekBase length short named lower upper
      dsimp only
      split
      next below => exact answers_failed sound (negative_of (by decide : -einval < 0))
      next above =>
        have position : IoManager.saturatingAddI64 base call.a1.toInt =
          ((IoManager.saturatingAddI64 base call.a1.toInt).toNat : ℤ) := (Int.toNat_of_nonneg (by omega)).symm
        refine ⟨?_, sound.setFile (IoManager.file_lt here) ?_⟩
        · show Acts fs _ call (.ok (min (IoManager.saturatingAddI64 base call.a1.toInt) (2 ^ 31 - 1))) call.memory
            (cursors fs (self.setFile call.a0.toNat _))
          rw [cursors_setFile (IoManager.file_lt here), Option.map_some, found, position]
          rw [position] at target
          exact .moved service (cursors_of_file here found) target
        · rintro _ ⟨⟩
          refine ⟨contents, found, ?_⟩
          dsimp only
          unfold IoManager.saturatingAddI64
          omega

/-- Every call of the services is an act on cursors. -/
theorem answers_dispatch (sound : Sound fs self) (call : IomanCall) :
    Answers fs self call (dispatchIoman fs call self) := by
  unfold dispatchIoman
  cases service : call.service with
  | openFile =>
    dsimp only
    cases read : readCString call.memory call.a0.toNat maxGuestString with
    | error e => exact answers_failed sound nofun
    | ok path => exact answers_open sound service read
  | close => exact answers_close sound service
  | read => exact answers_read sound service
  | lseek => exact answers_seek sound service

theorem sound_afterCalls (sound : Sound fs self) (calls : List IomanCall) : Sound fs (afterCalls fs calls self) := by
  induction calls generalizing self with
  | nil => exact sound
  | cons call calls ih => exact ih (answers_dispatch sound call).2

theorem read_returns (sound : Sound fs self) {cursor : Cursor} (service : call.service = .read)
    (here : cursors fs self call.a0.toNat = some cursor) (small : call.a2.toNat ≤ maxIoBytes)
    (takes : ∀ size ≤ call.a2.toNat, InRange call.memory call.a1.toNat size ∧
      call.memory.accepts call.a1.toNat size = true) :
    (dispatchIoman fs call self).result =
      .ok (min call.a2.toNat (cursor.contents.length - cursor.position) : ℕ) := by
  obtain ⟨file, opened, same⟩ := Option.map_eq_some_iff.mp here
  obtain ⟨contents, found, -⟩ := sound _ file opened
  rw [found] at same
  subst same
  unfold dispatchIoman IoManager.read
  rw [service]
  dsimp only
  rw [if_neg (by omega), opened]
  dsimp only
  rw [found]
  dsimp only
  have room := takes ((contents.drop file.offset).take
    (min (contents.drop file.offset).length call.a2.toNat)).length (by rw [List.length_take]; omega)
  rw [writeMemory_eq_ok.mpr ⟨room, rfl⟩]
  dsimp only
  rw [List.length_drop, Nat.min_comm]
  rfl

end Calls

/-! ### Consecutive reads -/

section Reads

variable (fs : ReadOnlyFileSystem) (fd : ℕ)

/-- What a call delivers of the file of a descriptor: the bytes that the guest finds at the address. -/
def delivery (call : IomanCall) (reply : Reply) : Bytes :=
  if call.service = .read ∧ call.a0.toNat = fd then
    match reply.result with
    | .ok value => reply.memory.bytes call.a1.toNat value.toNat
    | .error _ => []
  else []

/-- What calls deliver of the file of a descriptor, one after the other. -/
def deliveries : List IomanCall → IoManager → Bytes
  | [], _ => []
  | call :: calls, self =>
    delivery fd call (dispatchIoman fs call self) ++ deliveries calls (dispatchIoman fs call self).ioman

variable {fs fd} {self : IoManager} {call : IomanCall} {before : Cursors} {result : Except ServiceError ℤ}
  {memory : GuestMemory} {after : Cursors} {cursor : Cursor}

theorem length_taken (cursor : Cursor) (size : ℕ) :
    (cursor.taken size).length = min size (cursor.contents.length - cursor.position) := by
  rw [Cursor.taken, List.length_take, List.length_drop]

theorem Acts.moves (acts : Acts fs before call result memory after) (here : before fd = some cursor)
    (mine : call.a0.toNat = fd → call.service ≠ .close ∧ call.service ≠ .lseek) (ioman : IoManager) :
    after fd = some { cursor with
      position := cursor.position + (delivery fd call ⟨result, ioman, memory⟩).length } ∧
    delivery fd call ⟨result, ioman, memory⟩ =
      (cursor.contents.drop cursor.position).take (delivery fd call ⟨result, ioman, memory⟩).length := by
  have none_delivered (silent : delivery fd call ⟨result, ioman, memory⟩ = []) (still : after fd = before fd) :
      after fd = some { cursor with
        position := cursor.position + (delivery fd call ⟨result, ioman, memory⟩).length } ∧
      delivery fd call ⟨result, ioman, memory⟩ =
        (cursor.contents.drop cursor.position).take (delivery fd call ⟨result, ioman, memory⟩).length := by
    rw [silent, still, here]
    exact ⟨rfl, rfl⟩
  cases acts with
  | @opened path contents new service read found low free taken =>
    refine none_delivered (if_neg fun reads => ?_) (Function.update_of_ne ?_ ..)
    · rw [service] at reads
      exact nomatch reads.1
    · rintro rfl
      rw [free] at here
      cases here
  | @closed other service opened =>
    have apart : fd ≠ call.a0.toNat := fun same => (mine same.symm).1 service
    exact none_delivered (if_neg fun reads => apart reads.2.symm) (Function.update_of_ne apart ..)
  | @moved other position service opened target =>
    have apart : fd ≠ call.a0.toNat := fun same => (mine same.symm).2 service
    exact none_delivered (if_neg fun reads => apart reads.2.symm) (Function.update_of_ne apart ..)
  | @delivered other service opened =>
    by_cases same : call.a0.toNat = fd
    · subst same
      cases opened.symm.trans here
      have bytes : delivery call.a0.toNat call
          ⟨.ok (min call.a2.toNat (cursor.contents.length - cursor.position) : ℕ), ioman,
            call.memory.store call.a1.toNat (cursor.taken call.a2.toNat)⟩ = cursor.taken call.a2.toNat := by
        rw [delivery, if_pos ⟨service, rfl⟩]
        dsimp only
        rw [Int.toNat_natCast, ← length_taken]
        exact GuestMemory.bytes_store ..
      rw [bytes, Function.update_self]
      refine ⟨rfl, ?_⟩
      rw [length_taken, Cursor.taken, ← List.length_drop, ← List.take_take, List.take_length]
    · exact none_delivered (if_neg fun reads => same reads.2) (Function.update_of_ne (Ne.symm same) ..)
  | failed negative =>
    refine none_delivered ?_ rfl
    unfold delivery
    split
    next =>
      split
      next value ok =>
        rw [Int.toNat_of_nonpos (negative value ok).le]
        rfl
      next => rfl
    next => rfl

/-- Calls that neither close a descriptor nor seek in it deliver its file from the cursor on. -/
theorem deliveries_eq (sound : Sound fs self) (here : cursors fs self fd = some cursor)
    {calls : List IomanCall}
    (mine : ∀ call ∈ calls, call.a0.toNat = fd → call.service ≠ .close ∧ call.service ≠ .lseek) :
    cursors fs (afterCalls fs calls self) fd =
      some { cursor with position := cursor.position + (deliveries fs fd calls self).length } ∧
    deliveries fs fd calls self =
      (cursor.contents.drop cursor.position).take (deliveries fs fd calls self).length := by
  induction calls generalizing self cursor with
  | nil => exact ⟨here, rfl⟩
  | cons call calls ih =>
    obtain ⟨acts, sound'⟩ := answers_dispatch sound call
    obtain ⟨moved, first⟩ := acts.moves here (mine call List.mem_cons_self) (dispatchIoman fs call self).ioman
    obtain ⟨last, rest⟩ := ih sound' moved fun other member => mine other (List.mem_cons_of_mem _ member)
    rw [deliveries, afterCalls, List.length_append]
    refine ⟨?_, ?_⟩
    · rw [last, Nat.add_assoc]
    · rw [List.take_add, ← first, List.drop_drop]
      exact congrArg _ rest

end Reads

/-- The descriptors of a program are independent cursors over immutable files, whatever it calls. -/
theorem descriptors_are_cursors (fs : ReadOnlyFileSystem) (calls : List IomanCall) :
    let self := afterCalls fs calls .new
    (∀ call : IomanCall,
      Acts fs (cursors fs self) call (dispatchIoman fs call self).result (dispatchIoman fs call self).memory
        (cursors fs (dispatchIoman fs call self).ioman)) ∧
    (∀ (call : IomanCall) (cursor : Cursor), call.service = .read →
      cursors fs self call.a0.toNat = some cursor → call.a2.toNat ≤ maxIoBytes →
      (∀ size ≤ call.a2.toNat, InRange call.memory call.a1.toNat size ∧
        call.memory.accepts call.a1.toNat size = true) →
      (dispatchIoman fs call self).result =
        .ok (min call.a2.toNat (cursor.contents.length - cursor.position) : ℕ)) ∧
    ∀ (fd : ℕ) (cursor : Cursor) (later : List IomanCall), cursors fs self fd = some cursor →
      (∀ call ∈ later, call.a0.toNat = fd → call.service ≠ .close ∧ call.service ≠ .lseek) →
      cursors fs (afterCalls fs later self) fd =
        some { cursor with position := cursor.position + (deliveries fs fd later self).length } ∧
      deliveries fs fd later self =
        (cursor.contents.drop cursor.position).take (deliveries fs fd later self).length := by
  intro self
  have sound : Sound fs self := sound_afterCalls sound_new calls
  exact ⟨fun call => (answers_dispatch sound call).1,
    fun call cursor service here small takes => read_returns sound service here small takes,
    fun fd cursor later here mine => deliveries_eq sound here mine⟩

/-- A file system whose only file is `a`. -/
def oneFile : ReadOnlyFileSystem where
  file path := if path = [0x61] then .ok [1, 2, 3] else .error "missing"
  length_lt := by
    intro path contents h
    split at h
    · cases h
      decide
    · cases h

/-- A memory of 4096 bytes with the path `a` at 256. -/
def pathMemory : GuestMemory where
  range := ⟨0, 4096⟩
  accepts _ _ := true
  byte address := if address = 256 then 0x61 else 0

/-- The first open file, of which two bytes are read. -/
theorem descriptors_are_cursors_read :
    (dispatchIoman oneFile ⟨.read, 3, 512, 2, pathMemory⟩
      (afterCalls oneFile [⟨.openFile, 256, 1, 0, pathMemory⟩] .new)).result = .ok 2 := by
  refine (descriptors_are_cursors oneFile [⟨.openFile, 256, 1, 0, pathMemory⟩]).2.1
    ⟨.read, 3, 512, 2, pathMemory⟩ ⟨[1, 2, 3], 0⟩ rfl (by decide +kernel) (by decide) fun size small => ⟨?_, rfl⟩
  have small : size ≤ 2 := small
  refine ⟨Nat.zero_le _, ?_, ?_⟩
  · show 512 + size ≤ 4096
    omega
  · show 512 + size < 2 ^ 32
    omega

end Upse.Services
