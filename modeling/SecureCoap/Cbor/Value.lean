import SecureCoap.Cbor.Error
import SecureCoap.Cbor.Header

/-!
# CBOR values

Values as trees, their encoding, and the order of map keys: by major type, integers by magnitude,
strings, arrays and maps by length, and then by their bytes. The entries of a map are kept in that
order, one for each key.
-/

namespace SecureCoap

namespace Cbor

/-- A data item. A map lists its entries in the order of their keys. -/
inductive Value where
  | null
  | bool (b : Bool)
  | int (n : Int)
  | float (bits : UInt64)
  | bytes (bs : Bytes)
  | text (s : String)
  | array (items : List Value)
  | map (entries : List (Value × Value))
deriving Repr, BEq, Inhabited

/-! ### Encoding -/

mutual

/-- The encoding of a value, if all its integers are in range. -/
def Value.encode? : Value → Option Bytes
  | .null => some encodeNull
  | .bool b => some (encodeBool b)
  | .int n => if InRange n then some (encodeInt n) else none
  | .float bits => some (encodeFloat bits)
  | .bytes bs => some (encodeBytes bs)
  | .text s => some (encodeText s)
  | .array items => (Value.encodeItems? items).map (header 4 items.length ++ ·)
  | .map entries => (Value.encodeEntries? entries).map (header 5 entries.length ++ ·)

def Value.encodeItems? : List Value → Option Bytes
  | [] => some []
  | v :: vs => do return (← v.encode?) ++ (← Value.encodeItems? vs)

def Value.encodeEntries? : List (Value × Value) → Option Bytes
  | [] => some []
  | (k, v) :: es => do return (← k.encode?) ++ (← v.encode?) ++ (← Value.encodeEntries? es)

end

/-! ### Order -/

def Value.major : Value → Nat
  | .int n => if 0 ≤ n then 0 else 1
  | .bytes _ => 2
  | .text _ => 3
  | .array _ => 4
  | .map _ => 5
  | .null | .bool _ | .float _ => 7

/-- What decides between values of one major type before their bytes do: the magnitude of an
integer, or the length of a string, an array or a map. -/
def Value.size : Value → Nat
  | .int n => n.natAbs
  | .bytes bs => bs.length
  | .text s => (Utf8.encode s).length
  | .array items => items.length
  | .map entries => entries.length
  | .null | .bool _ | .float _ => 0

/-- What decides between values of one major type and size. -/
def Value.tieBreak : Value → Bytes
  | .int _ => []
  | .bytes bs => bs
  | .text s => Utf8.encode s
  | v => v.encode?.getD []

def Value.compare (v w : Value) : Ordering :=
  (Ord.compare v.major w.major).then <|
    (Ord.compare v.size w.size).then <|
      List.compareLex Ord.compare v.tieBreak w.tieBreak

/-! ### Maps -/

/-- Enters a value under a key. A key that is there already stays and gets the new value. -/
def insertEntry (k v : Value) : List (Value × Value) → List (Value × Value)
  | [] => [(k, v)]
  | (k', v') :: es =>
    match k.compare k' with
    | .lt => (k, v) :: (k', v') :: es
    | .eq => (k', v) :: es
    | .gt => (k', v') :: insertEntry k v es

def Value.ofEntries (entries : List (Value × Value)) : Value :=
  .map (entries.foldl (fun es (k, v) => insertEntry k v es) [])

def lookupEntry? (k : Value) : List (Value × Value) → Option Value
  | [] => none
  | (k', v) :: es => if k.compare k' = .eq then some v else lookupEntry? k es

/-- The byte string at the end of a path of integer keys through nested maps. -/
def Value.nestedBytes? : (path : List Int) → Value → Option Bytes
  | [], .bytes bs => some bs
  | key :: path, .map entries => lookupEntry? (.int key) entries >>= Value.nestedBytes? path
  | _, _ => none

/-! ### Encoding as items and sequences -/

def Value.encode (v : Value) : Except Error Bytes :=
  match v.encode? with
  | some bs => .ok bs
  | none => .error .numberOutOfRange

/-- The encoding without its first byte: for an array of at most 23 elements, these one after
another. -/
def Value.encodeSequence (v : Value) : Except Error Bytes := v.encode.map (List.drop 1)

end Cbor

end SecureCoap
