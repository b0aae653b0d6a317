import Upse.Services.Memory

/-!
# String services of the IOP

The services of `sysclib` read their operands as host strings: what is not valid UTF-8 in them is replaced
before anything is compared, searched or copied.
-/

namespace Upse.Services

open Psf

def maxMemoryOperation : ℕ := 16 * 1024 * 1024
def maxString : ℕ := 4096

/-- `checked_size`. -/
def checkedSize (size : ℕ) : Except ServiceError ℕ :=
  if maxMemoryOperation < size then .error (.resourceLimit "memory operation") else .ok size

/-- `wrapping_add` of 32-bit values. -/
def wrappingAdd (a b : ℕ) : ℕ := (a + b) % 2 ^ 32

/-- A pointer to an offset in a string, or null. -/
def pointerTo (address : ℕ) (position : Option ℕ) : Option ℕ := position.bind fun offset => checkedAdd 32 address offset

section Services

variable (guest : GuestMemory)

/-- `strlen`. -/
def strlen (address : ℕ) : Except ServiceError ℕ := do
  return (← readCString guest address maxString).length

/-- `strcat`. -/
def strcat (destination source : ℕ) : Except ServiceError (ℕ × GuestMemory) := do
  let destinationText ← readCString guest destination maxString
  let sourceText ← readCString guest source maxString
  let guest ← writeMemory guest (wrappingAdd destination destinationText.length) (sourceText ++ [0])
  return (destination, guest)

/-- `strchr`, and `strrchr` from the end. -/
def strchr (address value : ℕ) (reverse : Bool) : Except ServiceError ℕ := do
  let string ← readCString guest address maxString
  let needle : Byte := BitVec.ofNat 8 value
  let position :=
    if reverse then (string.reverse.findIdx? (· == needle)).map (string.length - 1 - ·)
    else string.findIdx? (· == needle)
  return (pointerTo address position).getD
    (if needle = 0 then wrappingAdd address string.length else 0)

/-- `Vec::cmp`. -/
def compareBytes : Bytes → Bytes → ℤ
  | [], [] => 0
  | [], _ :: _ => -1
  | _ :: _, [] => 1
  | x :: xs, y :: ys => if x.toNat < y.toNat then -1 else if y.toNat < x.toNat then 1 else compareBytes xs ys

/-- `compare_strings`. -/
def compareStrings (left right : ℕ) (limit : Option ℕ) : Except ServiceError ℤ := do
  let left ← readCString guest left maxString
  let right ← readCString guest right maxString
  match limit with
  | some limit => return compareBytes (left.take limit) (right.take limit)
  | none => return compareBytes left right

/-- `copy_string`. -/
def copyString (destination source : ℕ) (limit : Option ℕ) : Except ServiceError (ℕ × GuestMemory) := do
  let bytes ← readCString guest source maxString
  let bytes ← match limit with
    | some limit => do
      let limit ← checkedSize limit
      pure (bytes.take limit ++ List.replicate (limit - bytes.length) 0)
    | none => pure (bytes ++ [0])
  let guest ← writeMemory guest destination bytes
  return (destination, guest)

/-- `string_span`. -/
def stringSpan (address set : ℕ) (accept : Bool) : Except ServiceError ℕ := do
  let string ← readCString guest address maxString
  let set ← readCString guest set maxString
  return (string.takeWhile fun byte => set.contains byte == accept).length

/-- `strncat`. -/
def strncat (destination source limit : ℕ) : Except ServiceError (ℕ × GuestMemory) := do
  let destinationText ← readCString guest destination maxString
  let sourceText ← readCString guest source maxString
  let limit ← checkedSize limit
  let guest ← writeMemory guest (wrappingAdd destination destinationText.length) (sourceText.take limit ++ [0])
  return (destination, guest)

/-- `strpbrk`. -/
def strpbrk (address set : ℕ) : Except ServiceError ℕ := do
  let string ← readCString guest address maxString
  let set ← readCString guest set maxString
  return (pointerTo address (string.findIdx? fun byte => set.contains byte)).getD 0

/-- `str::find`: the first offset at which the needle begins. -/
def findString (haystack needle : Str) : Option ℕ :=
  if needle.isPrefixOf haystack then some 0
  else
    match haystack with
    | [] => none
    | _ :: rest => (findString rest needle).map (· + 1)

/-- `strstr`. -/
def strstr (haystack needle : ℕ) : Except ServiceError ℕ := do
  let haystackText ← readCString guest haystack maxString
  let needleText ← readCString guest needle maxString
  return (pointerTo haystack (findString haystackText needleText)).getD 0

end Services

end Upse.Services
