import SecureCoap.Cbor.Error
import SecureCoap.Text.Utf8

/-!
# Reading CBOR from the front of a byte string

A cursor is what is left of the input and how much of it was consumed. A reader consumes some of
it or fails. The head of an item is all of an integer, a string or a simple value, and the start of
an array or a map.

Missing bytes of a string or of a longer argument are reported at the end of the input, counted
from the base of the cursor. A moving cursor puts its base to both ends of every string.
-/

namespace SecureCoap

namespace Cbor

/-- A place in an input. -/
structure Cursor where
  rest : Bytes
  offset : Nat
  base : Nat
  moving : Bool
deriving DecidableEq, Repr

def Cursor.fixed (bs : Bytes) : Cursor := ⟨bs, 0, 0, false⟩

/-- The start of an input with a moving base. -/
def Cursor.sliding (bs : Bytes) : Cursor := ⟨bs, 0, 0, true⟩

abbrev Reader := StateT Cursor (Except DecodeError)

namespace Reader

/-! ### Bytes -/

def fail {α : Type} (fault : Fault) : Reader α := do throw (.malformed fault (← get).offset)

def peek? : Reader (Option UInt8) := do return (← get).rest.head?

def next? : Reader (Option UInt8) := do
  let c ← get
  match c.rest with
  | [] => return none
  | b :: rest =>
    set { c with rest, offset := c.offset + 1 }
    return some b

def byte : Reader UInt8 := do
  match ← next? with
  | some b => return b
  | none => fail .endOfValue

def take (n : Nat) : Reader Bytes := do
  let c ← get
  let bs := c.rest.take n
  if bs.length < n then throw (.malformed .endOfValue (c.offset + c.rest.length - c.base))
  set { c with rest := c.rest.drop n, offset := c.offset + n }
  return bs

/-- Moves the base of a moving cursor here. -/
def rebase : Reader Unit := modify fun c => if c.moving then { c with base := c.offset } else c

/-! ### Arguments and strings -/

/-- The argument announced by the low five bits of an initial byte; none for an indefinite
length. -/
def argument (info : Nat) : Reader (Option Nat) := do
  if info < 24 then return some info
  else if info = 24 then return some (← byte).toNat
  else if info < 28 then return some (Bytes.toNat (← take (1 <<< (info - 24))))
  else if info = 31 then return none
  else fail .unassigned

/-- The next chunk of a string of indefinite length and major type `major`, or none at its end. -/
def chunk? (major : Nat) : Reader (Option Bytes) := do
  let initial := (← byte).toNat
  if initial = 0xFF then return none
  if initial / 32 ≠ major ∨ 28 ≤ initial % 32 then fail .unexpectedCode
  match ← argument (initial % 32) with
  | some length => return some (← take length)
  | none => fail .unexpectedCode

def chunks (major : Nat) : (n : Nat) → Reader Bytes
  | 0 => fail .endOfValue
  | n + 1 => do
    match ← chunk? major with
    | none => return []
    | some bs => return bs ++ (← chunks major n)

/-- The content of a string of indefinite length. Every chunk takes at least a byte, so that the
number of bytes left is enough. -/
def indefiniteString (major : Nat) : Reader Bytes := do
  rebase
  chunks major ((← get).rest.length + 1)

def decodeText (bs : Bytes) : Reader String := do
  match Utf8.decode? bs with
  | some s => return s
  | none => throw (.malformed .invalidText ((← get).offset - bs.length + Utf8.validLength bs))

def byteString : (length : Option Nat) → Reader Bytes
  | some length => do
    rebase
    let bs ← take length
    rebase
    return bs
  | none => do
    let bs ← indefiniteString 2
    rebase
    return bs

def textString : (length : Option Nat) → Reader String
  | some length => do
    if 0x10000000000000000 ≤ (← get).offset + length then fail .lengthOutOfRange
    rebase
    let bs ← take length
    rebase
    decodeText bs
  | none => do
    let bs ← indefiniteString 3
    rebase
    decodeText bs

end Reader

/-! ### Heads -/

/-- An item without its tags, as far as it can be told without reading other items. -/
inductive Head where
  | unsigned (n : Nat)
  /-- The integer `-1 - n`. -/
  | negative (n : Nat)
  | bytes (bs : Bytes)
  | text (s : String)
  /-- An array of so many elements, or of all up to a break. -/
  | array (count : Option Nat)
  /-- A map of so many entries, or of all up to a break. -/
  | map (count : Option Nat)
  | bool (b : Bool)
  | null
  | float (bits : UInt64)
deriving DecidableEq, Repr

namespace Reader

def definite (info : Nat) : Reader Nat := do
  match ← argument info with
  | some n => return n
  | none => fail .unassigned

def simple (info : Nat) : Reader Head := do
  if info = 20 then return .bool false
  else if info = 21 then return .bool true
  else if info = 22 ∨ info = 23 then return .null
  else if info = 25 then return .float (Binary.half.widen (Bytes.toNat (← take 2)))
  else if info = 26 then return .float (Binary.single.widen (Bytes.toNat (← take 4)))
  else if info = 27 then return .float (UInt64.ofNat (Bytes.toNat (← take 8)))
  else if info = 31 then fail .unexpectedCode
  else fail .unassigned

/-- The head of the next item, or none for a tag. -/
def head? : Reader (Option Head) := do
  let initial := (← byte).toNat
  let info := initial % 32
  match initial / 32 with
  | 0 => return some (.unsigned (← definite info))
  | 1 => return some (.negative (← definite info))
  | 2 => return some (.bytes (← byteString (← argument info)))
  | 3 => return some (.text (← textString (← argument info)))
  | 4 => return some (.array (← argument info))
  | 5 => return some (.map (← argument info))
  | 6 => do
    let _ ← definite info
    return none
  | _ => return some (← simple info)

/-! ### Elements -/

def times {α : Type} (read : Reader α) : (n : Nat) → Reader (List α)
  | 0 => return []
  | n + 1 => do
    let x ← read
    return x :: (← times read n)

/-- The results of reading elements up to a break; at most `n` of them. -/
def untilBreak {α : Type} (atEnd : Fault) (read : Reader α) : (n : Nat) → Reader (List α)
  | 0 => fail atEnd
  | n + 1 => do
    match ← peek? with
    | none => fail atEnd
    | some 0xFF =>
      let _ ← next?
      return []
    | some _ =>
      let x ← read
      return x :: (← untilBreak atEnd read n)

/-- The elements of an array or a map. Every element takes at least a byte, so that the number of
bytes left is enough for one of indefinite length. -/
def elements {α : Type} (atEnd : Fault) (count : Option Nat) (read : Reader α) :
    Reader (List α) := do
  match count with
  | some n => times read n
  | none => untilBreak atEnd read ((← get).rest.length + 1)

def foldTimes {σ : Type} (step : σ → Reader σ) : (n : Nat) → σ → Reader σ
  | 0, s => return s
  | n + 1, s => do foldTimes step n (← step s)

def foldUntilBreak {σ : Type} (atEnd : Fault) (step : σ → Reader σ) : (n : Nat) → σ → Reader σ
  | 0, _ => fail atEnd
  | n + 1, s => do
    match ← peek? with
    | none => fail atEnd
    | some 0xFF =>
      let _ ← next?
      return s
    | some _ => foldUntilBreak atEnd step n (← step s)

def foldElements {σ : Type} (atEnd : Fault) (count : Option Nat) (step : σ → Reader σ) (s : σ) :
    Reader σ := do
  match count with
  | some n => foldTimes step n s
  | none => foldUntilBreak atEnd step ((← get).rest.length + 1) s

def finish : Reader Unit := do
  match ← next? with
  | none => return ()
  | some _ => fail .trailingData

def runAll {α : Type} (read : Reader α) (start : Cursor) : Except DecodeError α :=
  (do let x ← read; finish; return x : Reader α).run' start

end Reader

end Cbor

end SecureCoap
