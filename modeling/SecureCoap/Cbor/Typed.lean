import SecureCoap.Cbor.Decode

/-!
# Decoding CBOR into given types

A typed reader opens the next item, skipping its tags, and fails as soon as its head shows another
kind of item than the expected one. What is inside of an array or a map is read element by element.
-/

namespace SecureCoap

namespace Cbor

/-- An item whose tags are skipped. Of an array or a map only the start is read; its elements may
have `levels` further levels inside. -/
structure Opened where
  head : Head
  levels : Nat

def Found.ofNegative (n : Nat) : Found :=
  if 0x8000000000000000 ≤ n then .wideInteger (-1 - n) else .integer (-1 - n)

def Head.found : Head → Found
  | .unsigned n => .integer n
  | .negative n => .ofNegative n
  | .bytes _ => .bytes
  | .text s => .text s
  | .array _ => .array
  | .map _ => .map
  | .bool b => .boolean b
  | .null => .null
  | .float bits => .float bits

namespace Reader

def openItem : (levels : Nat) → Reader Opened
  | 0 => do
    match ← head? with
    | none | some (.array _) | some (.map _) => fail .tooDeep
    | some head => return ⟨head, 0⟩
  | levels + 1 => do
    match ← head? with
    | none => openItem levels
    | some (.array count) => return ⟨.array count, levels⟩
    | some (.map count) => return ⟨.map count, levels⟩
    | some head => return ⟨head, levels + 1⟩

def wrongType {α : Type} (item : Opened) (expected : Expected) : Reader α :=
  throw (.wrongType item.head.found expected)

/-! ### Numbers, texts and null -/

def integer (low high : Int) (expected : Expected) (levels : Nat) : Reader Int := do
  let item ← openItem levels
  match item.head with
  | .unsigned n =>
    if low ≤ n ∧ n ≤ high then return n else throw (.wrongValue (.integer n) expected)
  | .negative n =>
    if 0x8000000000000000 ≤ n then wrongType item expected
    else if low ≤ -1 - (n : Int) ∧ -1 - (n : Int) ≤ high then return -1 - n
    else throw (.wrongValue (.integer (-1 - n)) expected)
  | _ => wrongType item expected

def int32 : (levels : Nat) → Reader Int := integer (-0x80000000) 0x7FFFFFFF .int32

def uint64 (levels : Nat) : Reader Nat := Int.toNat <$> integer 0 0xFFFFFFFFFFFFFFFF .uint64 levels

def uint8 (levels : Nat) : Reader UInt8 :=
  UInt8.ofInt <$> integer 0 255 .uint8 levels

/-- A text, or a byte string that is the UTF-8 form of one. -/
def text (levels : Nat) : Reader String := do
  let item ← openItem levels
  match item.head with
  | .text s => return s
  | .bytes bs =>
    match Utf8.decode? bs with
    | some s => return s
    | none => throw (.wrongValue .bytes .text)
  | _ => wrongType item .text

/-- Null or undefined. -/
def null (levels : Nat) : Reader Unit := do
  let item ← openItem levels
  match item.head with
  | .null => return ()
  | _ => wrongType item .null

/-! ### Elements of an array, one at a time -/

/-- Whether an array of which `count` elements are left goes on. -/
def more (count : Option Nat) : Reader Bool := do
  match count with
  | some n => return n ≠ 0
  | none =>
    match ← peek? with
    | none => fail .endOfArray
    | some b => return b ≠ 0xFF

/-- The next element of an array of which `count` are left, unless the array ends here. -/
def element? {α : Type} (read : Reader α) (count : Option Nat) : Reader (Option α) := do
  if ← more count then return some (← read) else return none

def close (count : Option Nat) : Reader Unit := do
  match count with
  | some 0 => return ()
  | some _ => fail .trailingData
  | none =>
    match ← next? with
    | some 0xFF => return ()
    | some _ => fail .trailingData
    | none => fail .endOfArray

def rest (count : Option Nat) : Option Nat := count.map (· - 1)

/-! ### Byte strings and pairs -/

/-- A byte string, the UTF-8 form of a text, or an array of numbers of 8 bits. -/
def bytes (levels : Nat) : Reader Bytes := do
  let item ← openItem levels
  match item.head with
  | .bytes bs => return bs
  | .text s => return Utf8.encode s
  | .array count => elements .endOfArray count (uint8 item.levels)
  | _ => wrongType item .bytes

def pair {α β : Type} (first : Nat → Reader α) (second : Nat → Reader β) (levels : Nat) :
    Reader (α × β) := do
  let item ← openItem levels
  match item.head with
  | .array count =>
    match ← element? (first item.levels) count with
    | none => throw (.wrongLength 0 .pair)
    | some x =>
      match ← element? (second item.levels) (rest count) with
      | none => throw (.wrongLength 1 .pair)
      | some y =>
        close (rest (rest count))
        return (x, y)
  | _ => wrongType item .pair

end Reader

end Cbor

end SecureCoap
