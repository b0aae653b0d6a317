import Upse.Bios.Ps1.Heap
import Upse.Support.Bytes

/-!
# Memory and string services of the PS1 firmware

`memcpy`, `memmove` and the scans `strpbrk`, `strspn`, `strcspn`, `strstr` and `strtok`.  A scan reads
no more of a string than the bound on memory operations; the tokenizer works on a copy of its string
in a buffer of the firmware.
-/

namespace Upse.Ps1.Strings

open ErrorState

/-- Where `strtok` copies its string. -/
def strtokBufferAddress : ℕ := 0xc000
/-- The size of that buffer. -/
def strtokBufferSize : ℕ := 256

/-- The part of the firmware's state the string services use. -/
structure StringHle where
  limits : HleLimits
  strtokNext : Option ℕ
  deriving DecidableEq, Repr

/-- The firmware, the registers and the guest memory during a call. -/
structure StringState (M : Type) where
  bios : StringHle
  context : CpuContext
  memory : M

/-- Programs of the string services. -/
abbrev StringM (M : Type) := EStateM BiosError (StringState M)

section Accesses

variable {M : Type}

/-- An argument in its register. -/
def argument (index : ℕ) : StringM M ℕ := do return (← get).context.argument index

/-- Puts a result in `v0`. -/
def returnValue (value : ℕ) : StringM M Unit :=
  modify fun s => { s with context := s.context.returnValue value }

/-- Sets where `strtok` goes on. -/
def setStrtokNext (next : Option ℕ) : StringM M Unit :=
  modify fun s => { s with bios := { s.bios with strtokNext := next } }

/-- The bound on memory operations. -/
def memoryLimit : StringM M ℕ := do return (← get).bios.limits.memoryOperationBytes

/-- Refuses sizes over the bound. -/
def checkMemorySize (size : ℕ) : StringM M Unit := do
  let limit ← memoryLimit
  throwIf (limit < size) (.memoryOperationLimit size limit)

/-- The next offset. -/
def increment (offset : ℕ) : StringM M ℕ := okOr (checkedAdd 32 offset 1) .addressOverflow

variable (ram : GuestBytes M)

/-- Runs an access of the guest's memory. -/
def onGuestMemory {α : Type} (address : ℕ) (operation : MemoryOperation)
    (m : EStateM GuestMemoryError M α) : StringM M α :=
  zoom StringState.memory (fun memory s => { s with memory := memory })
    (.guestMemory address operation) m

/-- Reads a byte at an offset. -/
def readByte (base offset : ℕ) : StringM M (BitVec 8) := do
  let address ← okOr (checkedAdd 32 base offset) .addressOverflow
  onGuestMemory address .read (ram.readU8 address)

/-- Writes a byte at an offset. -/
def writeByte (base offset : ℕ) (value : BitVec 8) : StringM M Unit := do
  let address ← okOr (checkedAdd 32 base offset) .addressOverflow
  onGuestMemory address .write (ram.writeU8 address value)

/-- Reads a byte of a string within the bound. -/
def readStringByte (source offset : ℕ) : StringM M (BitVec 8) := do
  let limit ← memoryLimit
  throwIf (limit ≤ offset) (.memoryOperationLimit (min u32Max (offset + 1)) limit)
  readByte ram source offset

end Accesses

section Services

variable {M : Type} (ram : GuestBytes M)

/-! ### Copies -/

/-- Copies one byte. -/
def copyByte (source destination offset : ℕ) : StringM M Unit := do
  let value ← readByte ram source offset
  writeByte ram destination offset value

/-- Whether a copy runs from the end: where it would overwrite what it has still to read. -/
def runsBackwards (overlapSafe : Bool) (source destination size : ℕ) : StringM M Bool :=
  if overlapSafe = true ∧ source < destination then do
    let stop ← okOr (checkedAdd 32 source size) .addressOverflow
    return destination < stop
  else return false

/-- `memcpy` and `memmove`. -/
def memoryCopy (overlapSafe : Bool) : StringM M ℕ := do
  let destination ← argument 0
  let source ← argument 1
  let size ← argument 2
  checkMemorySize size
  let backwards ← runsBackwards overlapSafe source destination size
  forRange (fun i => copyByte ram source destination (if backwards then size - 1 - i else i)) 0 size
  returnValue destination
  return memoryCycles size

/-! ### Scans -/

/-- A scan takes at most one round for each byte the bound lets it read, and one in which it fails. -/
def scanRounds : StringM M ℕ := do return (← memoryLimit) + 1

/-- The list from an offset on. -/
def stringContainsLoop (list : ℕ) (target : BitVec 8) : ℕ → ℕ → StringM M Bool
  | 0, _ => throw .addressOverflow
  | rounds + 1, offset => do
    let value ← readStringByte ram list offset
    if value = 0 then return false
    else if value = target then return true
    else stringContainsLoop list target rounds (← increment offset)

/-- Whether a byte is in a list. -/
def stringContains (list : ℕ) (target : BitVec 8) : StringM M Bool := do
  if list = 0 then return false
  else stringContainsLoop ram list target (← scanRounds) 0

/-- The offset at which the scan ends, and whether it ends at a byte of the list. -/
def stringPbrkLoop (source list : ℕ) : ℕ → ℕ → StringM M (ℕ × Bool)
  | 0, _ => throw .addressOverflow
  | rounds + 1, offset => do
    let value ← readStringByte ram source offset
    if value = 0 then return (offset, false)
    else if ← stringContains ram list value then return (offset, true)
    else stringPbrkLoop source list rounds (← increment offset)

/-- `strpbrk`. -/
def stringPbrk : StringM M ℕ := do
  let source ← argument 0
  let list ← argument 1
  if source = 0 ∨ list = 0 then
    returnValue 0
    return 4
  else
    let (offset, found) ← stringPbrkLoop ram source list (← scanRounds) 0
    let result ← if found then okOr (checkedAdd 32 source offset) .addressOverflow else pure 0
    returnValue result
    return memoryCycles (min u32Max (offset + 1))

/-- The string from an offset on. -/
def stringSpanLoop (source list : ℕ) (accept : Bool) : ℕ → ℕ → StringM M ℕ
  | 0, _ => throw .addressOverflow
  | rounds + 1, offset => do
    let value ← readStringByte ram source offset
    if value = 0 then return offset
    else if (← stringContains ram list value) ≠ accept then return offset
    else stringSpanLoop source list accept rounds (← increment offset)

/-- `strspn` and `strcspn`. -/
def stringSpan (accept : Bool) : StringM M ℕ := do
  let source ← argument 0
  let list ← argument 1
  if source = 0 then
    returnValue 0
    return 4
  else
    let offset ← stringSpanLoop ram source list accept (← scanRounds) 0
    returnValue offset
    return memoryCycles (min u32Max (offset + 1))

/-- Reads a string of fewer than `limit` bytes. -/
def readTtyLoop (source limit : ℕ) : ℕ → ℕ → StringM M (List (BitVec 8))
  | 0, _ => throw (.memoryOperationLimit limit limit)
  | rounds + 1, offset => do
    let byte ← readByte ram source offset
    if byte = 0 then return []
    else return byte :: (← readTtyLoop source limit rounds (offset + 1))

/-- Reads a string up to a limit. -/
def readTtyString (source limit : ℕ) : StringM M (List (BitVec 8)) := do
  let limit := min limit (← memoryLimit)
  readTtyLoop ram source limit limit 0

/-- Whether the bytes stand in the string at an offset. -/
def comparesAt (haystack offset : ℕ) : List (BitVec 8) → ℕ → StringM M Bool
  | [], _ => return true
  | expected :: needle, needleOffset => do
    let candidate ← okOr (checkedAdd 32 offset needleOffset) .addressOverflow
    if (← readStringByte ram haystack candidate) ≠ expected then return false
    else comparesAt haystack offset needle (needleOffset + 1)

/-- The offset at which the search ends, and whether the needle stands there. -/
def stringStringLoop (haystack : ℕ) (needle : List (BitVec 8)) : ℕ → ℕ → StringM M (ℕ × Bool)
  | 0, _ => throw .addressOverflow
  | rounds + 1, offset => do
    if (← readStringByte ram haystack offset) = 0 then return (offset, false)
    else if ← comparesAt ram haystack offset needle 0 then return (offset, true)
    else stringStringLoop haystack needle rounds (← increment offset)

/-- `strstr`. -/
def stringString : StringM M ℕ := do
  let haystack ← argument 0
  let needleAddress ← argument 1
  if haystack = 0 ∨ needleAddress = 0 then
    returnValue 0
    return 4
  else
    let needle ← readTtyString ram needleAddress (← memoryLimit)
    if needle = [] then
      returnValue haystack
      return 4
    else
      let (offset, found) ← stringStringLoop ram haystack needle (← scanRounds) 0
      let result ← if found then okOr (checkedAdd 32 haystack offset) .addressOverflow else pure 0
      returnValue result
      return memoryCycles (min u32Max (offset + 1))

/-! ### The tokenizer -/

/-- Writes bytes one after the other. -/
def writeBytes (base : ℕ) : List (BitVec 8) → ℕ → StringM M Unit
  | [], _ => return ()
  | value :: rest, offset => do
    writeByte ram base offset value
    writeBytes base rest (offset + 1)

/-- The cursor advances by at most the whole address space. -/
def tokenRounds : ℕ := 2 ^ 32

/-- Passes delimiters: the first byte of a token with the number of bytes passed, or only that number
at the end of the string. -/
def skipDelimiters (delimiters : ℕ) : ℕ → ℕ → ℕ → StringM M (Option ℕ × ℕ)
  | 0, _, _ => throw .addressOverflow
  | rounds + 1, cursor, scanned => do
    let value ← readStringByte ram cursor 0
    if value = 0 then return (none, scanned)
    else if ← stringContains ram delimiters value then
      skipDelimiters delimiters rounds (← increment cursor) (← increment scanned)
    else return (some cursor, scanned)

/-- Passes a token and ends it in the buffer: where the next one is looked for, and the number of
bytes passed. -/
def endToken (delimiters : ℕ) : ℕ → ℕ → ℕ → StringM M (Option ℕ × ℕ)
  | 0, _, _ => throw .addressOverflow
  | rounds + 1, cursor, scanned => do
    let value ← readStringByte ram cursor 0
    if value = 0 then return (none, scanned)
    else if ← stringContains ram delimiters value then
      writeByte ram cursor 0 0
      return (some (← increment cursor), scanned)
    else
      let cursor ← increment cursor
      let scanned ← increment scanned
      checkMemorySize scanned
      endToken delimiters rounds cursor scanned

/-- Takes a new string into the buffer. -/
def loadTokens (source : ℕ) : StringM M Unit :=
  if source = 0 then pure ()
  else do
    let input ← readTtyString ram source strtokBufferSize
    writeBytes ram strtokBufferAddress (input ++ [0]) 0
    setStrtokNext (some strtokBufferAddress)

/-- The next token from a cursor in the buffer. -/
def nextToken (delimiters cursor : ℕ) : StringM M ℕ := do
  match ← skipDelimiters ram delimiters tokenRounds cursor 0 with
  | (none, scanned) =>
    setStrtokNext none
    returnValue 0
    return memoryCycles (min u32Max (scanned + 1))
  | (some token, scanned) =>
    let (next, scanned) ← endToken ram delimiters tokenRounds token scanned
    setStrtokNext next
    returnValue token
    return memoryCycles (min u32Max (scanned + 1))

/-- `strtok`. -/
def stringToken : StringM M ℕ := do
  let source ← argument 0
  let delimiters ← argument 1
  if delimiters = 0 then
    returnValue 0
    return 4
  else
    loadTokens ram source
    match (← get).bios.strtokNext with
    | none =>
      returnValue 0
      return 6
    | some cursor => nextToken ram delimiters cursor

end Services

end Upse.Ps1.Strings
