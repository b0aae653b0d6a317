import Upse.Services.Memory
import Mathlib.Logic.Function.Basic

/-!
# The read-only file manager of the IOP

Descriptors of open files over an immutable file system.  A descriptor is the path of its file and an
offset into it, which seeks may take beyond the end.
-/

namespace Upse.Services

/-- `ReadOnlyFileSystem`: the complete contents of a path, or a diagnostic.  No slice of bytes is longer
than `isize` can say. -/
structure ReadOnlyFileSystem where
  file : Str → Except String Bytes
  length_lt : ∀ path contents, file path = .ok contents → contents.length < 2 ^ 63

/-- `OpenFile`. -/
structure OpenFile where
  path : Str
  offset : ℕ
  deriving DecidableEq, Repr

/-- `IoManager`. -/
structure IoManager where
  files : Vector (Option OpenFile) 16

/-- What a call returns, and the manager and the guest memory after it. -/
structure Reply where
  result : Except ServiceError ℤ
  ioman : IoManager
  memory : GuestMemory

def firstFileDescriptor : ℕ := 3
def maxIoBytes : ℕ := 16 * 1024 * 1024
def maxGuestString : ℕ := 4096
def fioORdonly : Word := 1
def writeFlags : Word := 0x0f02
def ebadf : ℤ := 9
def eacces : ℤ := 13
def einval : ℤ := 22
def emfile : ℤ := 24

/-- `normalize_device_path`. -/
def normalizeDevicePath (path : Str) : Str :=
  let path := path.map fun byte => if byte = 0x5c then 0x2f else byte
  let path := if 0x3a ∈ path then (path.dropWhile (· ≠ 0x3a)).tail else path
  path.dropWhile (· = 0x2f)

namespace IoManager

/-- `IoManager::new`. -/
def new : IoManager := ⟨Vector.replicate 16 none⟩

/-- The open file of a descriptor. -/
def file (self : IoManager) (fd : ℕ) : Option OpenFile := self.files[fd]?.join

/-- The manager with another slot for a descriptor. -/
def setFile (self : IoManager) (fd : ℕ) (slot : Option OpenFile) : IoManager :=
  ⟨self.files.setIfInBounds fd slot⟩

/-- The lowest free descriptor. -/
def firstFree (self : IoManager) : Option ℕ :=
  ((self.files.toList.drop firstFileDescriptor).findIdx? Option.isNone).map (· + firstFileDescriptor)

/-- `open`. -/
def openFile (self : IoManager) (fs : ReadOnlyFileSystem) (path : Str) (flags : Word) : ℤ × IoManager :=
  if flags &&& writeFlags ≠ 0 ∨ flags &&& 3 ≠ fioORdonly then (-eacces, self)
  else
    let path := normalizeDevicePath path
    match fs.file path with
    | .error _ => (-2, self)
    | .ok _ =>
      match self.firstFree with
      | none => (-emfile, self)
      | some index => (index, self.setFile index (some { path, offset := 0 }))

/-- `close`. -/
def close (self : IoManager) (fd : ℕ) : ℤ × IoManager :=
  match self.file fd with
  | none => (-ebadf, self)
  | some _ => (0, self.setFile fd none)

/-- `read`. -/
def read (self : IoManager) (fs : ReadOnlyFileSystem) (fd address size : ℕ) (memory : GuestMemory) : Reply :=
  if maxIoBytes < size then ⟨.error (.resourceLimit "single ioman read"), self, memory⟩
  else
    match self.file fd with
    | none => ⟨.ok (-ebadf), self, memory⟩
    | some file =>
      match fs.file file.path with
      | .error message => ⟨.error (.vfs message), self, memory⟩
      | .ok data =>
        let remaining := data.drop file.offset
        let count := min remaining.length size
        match writeMemory memory address (remaining.take count) with
        | .error e => ⟨.error e, self, memory⟩
        | .ok memory => ⟨.ok count, self.setFile fd (some { file with offset := file.offset + count }), memory⟩

/-- The base of a seek, by `whence`. -/
def seekBase (data : Bytes) (offset whence : ℕ) : Option ℤ :=
  match whence with
  | 0 => some 0
  | 1 => some (if offset < 2 ^ 63 then offset else 2 ^ 63 - 1)
  | 2 => some (if data.length < 2 ^ 63 then data.length else 2 ^ 63 - 1)
  | _ => none

/-- `saturating_add` of 64-bit values. -/
def saturatingAddI64 (a b : ℤ) : ℤ := max (-2 ^ 63) (min (2 ^ 63 - 1) (a + b))

/-- `seek`. -/
def seek (self : IoManager) (fs : ReadOnlyFileSystem) (fd : ℕ) (offset : ℤ) (whence : ℕ) : ℤ × IoManager :=
  match self.file fd with
  | none => (-ebadf, self)
  | some file =>
    match fs.file file.path with
    | .error _ => (-ebadf, self)
    | .ok data =>
      match seekBase data file.offset whence with
      | none => (-einval, self)
      | some base =>
        let position := saturatingAddI64 base offset
        if position < 0 then (-einval, self)
        else (min position (2 ^ 31 - 1), self.setFile fd (some { file with offset := position.toNat }))

end IoManager

/-- The calls of a program: the ordinals 4, 5, 6 and 8 of the library. -/
inductive IomanService where
  | openFile
  | close
  | read
  | lseek
  deriving DecidableEq, Repr

/-- A call with its arguments, on what the guest memory holds then. -/
structure IomanCall where
  service : IomanService
  a0 : Word
  a1 : Word
  a2 : Word
  memory : GuestMemory

/-- `dispatch_ioman`. -/
def dispatchIoman (fs : ReadOnlyFileSystem) (call : IomanCall) (self : IoManager) : Reply :=
  match call.service with
  | .openFile =>
    match readCString call.memory call.a0.toNat maxGuestString with
    | .error e => ⟨.error e, self, call.memory⟩
    | .ok path =>
      let (value, ioman) := self.openFile fs path call.a1
      ⟨.ok value, ioman, call.memory⟩
  | .close =>
    let (value, ioman) := self.close call.a0.toNat
    ⟨.ok value, ioman, call.memory⟩
  | .read => self.read fs call.a0.toNat call.a1.toNat call.a2.toNat call.memory
  | .lseek =>
    let (value, ioman) := self.seek fs call.a0.toNat call.a1.toInt call.a2.toNat
    ⟨.ok value, ioman, call.memory⟩

/-- The manager after calls. -/
def afterCalls (fs : ReadOnlyFileSystem) : List IomanCall → IoManager → IoManager
  | [], self => self
  | call :: calls, self => afterCalls fs calls (dispatchIoman fs call self).ioman

/-! ### Slots -/

namespace IoManager

variable {self : IoManager} {fd : ℕ}

@[simp] theorem file_new (fd : ℕ) : new.file fd = none := by
  unfold file new
  by_cases inside : fd < 16
  · simp [inside]
  · simp [inside]

theorem file_lt {file : OpenFile} (h : self.file fd = some file) : fd < 16 := by
  by_contra outside
  rw [IoManager.file, Vector.getElem?_eq_none (by omega)] at h
  cases h

theorem file_setFile (inside : fd < 16) (slot : Option OpenFile) :
    (self.setFile fd slot).file = Function.update self.file fd slot := by
  funext other
  unfold file setFile
  by_cases same : other = fd
  · subst same
    rw [Function.update_self, Vector.getElem?_setIfInBounds_self, if_pos inside]
    rfl
  · rw [Function.update_of_ne same, Vector.getElem?_setIfInBounds_ne (Ne.symm same)]

theorem firstFree_spec (h : self.firstFree = some fd) :
    3 ≤ fd ∧ fd < 16 ∧ self.file fd = none ∧ ∀ other, 3 ≤ other → other < fd → (self.file other).isSome := by
  obtain ⟨index, found, rfl⟩ := Option.map_eq_some_iff.mp h
  obtain ⟨inside, free, taken⟩ := List.findIdx?_eq_some_iff_getElem.mp found
  rw [List.length_drop, Vector.length_toList] at inside
  unfold firstFileDescriptor at *
  have slot (i : ℕ) (lt : i + 3 < 16) : self.file (i + 3) = self.files[i + 3] := by
    rw [IoManager.file, Vector.getElem?_eq_getElem lt]
    rfl
  refine ⟨by omega, by omega, ?_, fun other low high => ?_⟩
  · rw [slot index (by omega)]
    simpa [Nat.add_comm] using free
  · obtain ⟨i, rfl⟩ : ∃ i, other = i + 3 := ⟨other - 3, by omega⟩
    rw [slot i (by omega)]
    have := taken i (by omega)
    simpa [Nat.add_comm, Option.isSome_iff_ne_none] using this

end IoManager

end Upse.Services
