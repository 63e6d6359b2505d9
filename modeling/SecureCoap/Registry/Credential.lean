import SecureCoap.Bytes.Hex
import SecureCoap.Cbor.Decode

/-!
# Credentials

A credential is one CBOR item. If it is a claims set with a key in it, the identifier of that key
names the credential.
-/

namespace SecureCoap

namespace Registry

inductive Error where
  /-- Two different credentials have this key. -/
  | duplicateKey (key : Bytes)
  | invalidCredential (error : Cbor.Error)
  | hex (error : HexError)
deriving DecidableEq, Repr

def Error.message : Error → String
  | duplicateKey key => s!"Different credentials share the key {Hex.encode key}"
  | invalidCredential error => s!"Credential is not valid CBOR: {error.message}"
  | hex error => error.message

def Error.sources : Error → List String
  | duplicateKey _ => []
  | invalidCredential error => error.message :: error.sources
  | hex error => [error.message]

/-- The path from a claims set through its confirmation claim and the key in that to the
identifier of the key. -/
def kidPath : List Int := [8, 1, 2]

/-- An encoded credential, and the key identifier in it if there is one. -/
structure Credential where
  bytes : Bytes
  kid : Option Bytes
deriving DecidableEq, Repr

def Credential.ofBytes (bytes : Bytes) : Except Error Credential := do
  let value ← (Cbor.decodeValue bytes).mapError .invalidCredential
  return ⟨bytes, value.nestedBytes? kidPath⟩

def Credential.ofHex (text : String) : Except Error Credential := do
  Credential.ofBytes (← (Hex.decode text).mapError .hex)

end Registry

end SecureCoap
