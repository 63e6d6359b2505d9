import SecureCoap.Cbor.Typed
import SecureCoap.Session.Config

/-!
# Configurations as CBOR

A configuration is read from a map of its fields, each by name or by index, or from an array of
them in order. What is not mentioned keeps its standard value, and unknown fields are skipped.
-/

namespace SecureCoap

namespace Session

open Cbor

inductive ConfigField where
  | connectionId
  | timeout
  | transfer
  | path
  | identity
  | credential
deriving DecidableEq, Repr

namespace ConfigField

/-- The fields in the order of their indices. -/
def all : List ConfigField := [connectionId, timeout, transfer, path, identity, credential]

def name : ConfigField → String
  | connectionId => "connection_id"
  | timeout => "response_timeout"
  | transfer => "credential_transfer"
  | path => "edhoc_path"
  | identity => "identity"
  | credential => "credential"

def ofName? (name : Bytes) : Option ConfigField := all.find? fun f => Utf8.encode f.name = name

end ConfigField

namespace Config

/-! ### Values of fields -/

/-- The elements of an array of numbers of 8 bits. -/
def bytesOfItems? : List Value → Option Bytes
  | [] => some []
  | .int n :: vs => if 0 ≤ n ∧ n < 256 then (UInt8.ofInt n :: ·) <$> bytesOfItems? vs else none
  | _ => none

/-- The connection identifier that a value stands for: an integer of 8 bits for itself, and what
can be read as a byte string for that. -/
def connectionIdOf? : Value → Option Edhoc.ConnectionId
  | .int n => if -128 ≤ n ∧ n ≤ 127 then some (.int n) else none
  | .bytes bs => some (.bytes bs)
  | .text s => some (.bytes (Utf8.encode s))
  | .array items => .bytes <$> bytesOfItems? items
  | _ => none

/-- Reads a connection identifier; the item is read in full before it is judged. -/
def readConnectionId (levels : Nat) : Reader Edhoc.ConnectionId := do
  match connectionIdOf? (← Reader.value false levels) with
  | some id => return id
  | none => throw (.noForm "ConnectionId")

def unknownTransfer {α : Type} (name : String) : Reader α :=
  throw (.unknownName name Edhoc.CredentialTransfer.byReference.name
    Edhoc.CredentialTransfer.byValue.name)

def transferOfName? (name : Bytes) : Option Edhoc.CredentialTransfer :=
  [.byReference, .byValue].find? fun t => Utf8.encode t.name = name

def readTransferName (levels : Nat) : Reader Edhoc.CredentialTransfer := do
  let item ← Reader.openItem levels
  match item.head with
  | .text s => (transferOfName? (Utf8.encode s)).elim (unknownTransfer s) pure
  | .bytes bs => (transferOfName? bs).elim (unknownTransfer (Utf8.decodeLossy bs)) pure
  | .unsigned 0 => return .byReference
  | .unsigned 1 => return .byValue
  | .unsigned n => throw (.wrongValue (.integer n) (.named "variant index 0 <= i < 2"))
  | _ => Reader.wrongType item (.named "variant identifier")

/-- Reads a way to send a credential: its name, or an array of name and null, or a map of one entry
from name to null. -/
def readTransfer (levels : Nat) : Reader Edhoc.CredentialTransfer := do
  let some initial ← Reader.peek? | Reader.fail .endOfValue
  if 0x80 ≤ initial ∧ initial ≤ 0x9F ∨ initial = 0xA1 then
    let item ← Reader.openItem levels
    match item.head with
    | .array count =>
      match ← Reader.element? (readTransferName item.levels) count with
      | none => Reader.fail .arrayTooShort
      | some transfer =>
        match ← Reader.element? (Reader.null item.levels) (Reader.rest count) with
        | none => Reader.fail .arrayTooLong
        | some () =>
          Reader.close (Reader.rest (Reader.rest count))
          return transfer
    | _ =>
      let transfer ← readTransferName item.levels
      Reader.null item.levels
      return transfer
  else readTransferName levels

def readField (levels : Nat) (config : Config) : ConfigField → Reader Config
  | .connectionId => return { config with connectionId := ← readConnectionId levels }
  | .timeout => return { config with timeout := 1000 * (← Reader.uint64 levels) }
  | .transfer => return { config with transfer := ← readTransfer levels }
  | .path => return { config with path := ← Reader.text levels }
  | .identity => return { config with identity := ← Reader.bytes levels }
  | .credential => return { config with credential := ← Reader.bytes levels }

/-! ### Maps and arrays of fields -/

/-- What has been read of a map: the configuration so far and the fields that were there. -/
structure Partial where
  config : Config
  seen : List ConfigField

def readKey (levels : Nat) : Reader (Option ConfigField) := do
  let item ← Reader.openItem levels
  match item.head with
  | .unsigned n => return ConfigField.all[n]?
  | .text s => return ConfigField.ofName? (Utf8.encode s)
  | .bytes bs => return ConfigField.ofName? bs
  | _ => Reader.wrongType item (.named "field identifier")

/-- Reads an entry of a map. A field that was there before is an error before its value is. -/
def readEntry (levels : Nat) (done : Partial) : Reader Partial := do
  match ← readKey levels with
  | none =>
    let _ ← Reader.value true levels
    return done
  | some field =>
    if field ∈ done.seen then throw (.duplicateField field.name)
    return ⟨← readField levels done.config field, field :: done.seen⟩

/-- Reads the elements of an array into the fields in order, as far as there are any. -/
def readFields (levels : Nat) : (fields : List ConfigField) → (count : Option Nat) → Config →
    Reader Config
  | [], count, config => do
    Reader.close count
    return config
  | field :: fields, count, config => do
    match ← Reader.element? (readField levels config field) count with
    | some config => readFields levels fields (Reader.rest count) config
    | none => readFields levels fields count config

def read (levels : Nat) : Reader Config := do
  let item ← Reader.openItem levels
  match item.head with
  | .map count =>
    return (← Reader.foldElements .endOfMap count (readEntry item.levels) ⟨.standard, []⟩).config
  | .array count => readFields item.levels ConfigField.all count .standard
  | _ => Reader.wrongType item (.named "struct InitiatorConfig")

def decode (bs : Bytes) : Except DecodeError Config :=
  (read maxLevels).runAll (.fixed bs)

end Config

end Session

end SecureCoap
