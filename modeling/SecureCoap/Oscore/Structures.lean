import SecureCoap.Cbor.Header
import SecureCoap.Oscore.Algorithm

/-!
# Inputs of key schedule and encryption

What a key is derived for, and what a message is authenticated together with, are arrays in CBOR.
-/

namespace SecureCoap

namespace Oscore

inductive KeyMaterial where
  | key
  | iv
deriving DecidableEq, Repr

def KeyMaterial.name : KeyMaterial → String
  | key => "Key"
  | iv => "IV"

/-- The context information for deriving `length` bytes: the identifier of an endpoint, or none for
what both share, the identifier of the context, the algorithm, and what the bytes are for. -/
def info (id : Bytes) (idContext : Option Bytes) (aead : AeadAlgorithm) (type : String)
    (length : Nat) : Bytes :=
  Cbor.encodeArray [
    Cbor.encodeBytes id,
    idContext.elim Cbor.encodeNull Cbor.encodeBytes,
    Cbor.encodeInt aead.coseId,
    Cbor.encodeText type,
    Cbor.encodeInt length]

def version : Int := 1

/-- What is authenticated of the request that a message is or answers: its sender and its partial
initialisation vector. No options are. -/
def aadArray (aead : AeadAlgorithm) (kid piv : Bytes) : Bytes :=
  Cbor.encodeArray [
    Cbor.encodeInt version,
    Cbor.encodeArray [Cbor.encodeInt aead.coseId],
    Cbor.encodeBytes kid,
    Cbor.encodeBytes piv,
    Cbor.encodeBytes []]

def aad (aead : AeadAlgorithm) (kid piv : Bytes) : Bytes :=
  Cbor.encodeArray [
    Cbor.encodeText "Encrypt0",
    Cbor.encodeBytes [],
    Cbor.encodeBytes (aadArray aead kid piv)]

end Oscore

end SecureCoap
