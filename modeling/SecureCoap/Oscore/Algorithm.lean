import SecureCoap.Bytes

/-!
# Algorithms of a security context
-/

namespace SecureCoap

namespace Oscore

inductive AeadAlgorithm where
  /-- AES-CCM with a key of 128 bits, a tag of 64 bits and messages of up to 16 bits of length. -/
  | aesCcm16_64_128
deriving DecidableEq, Repr

def AeadAlgorithm.name : AeadAlgorithm → String
  | aesCcm16_64_128 => "AesCcm16_64_128"

def AeadAlgorithm.coseId : AeadAlgorithm → Int
  | aesCcm16_64_128 => 10

def AeadAlgorithm.keyLength : AeadAlgorithm → Nat
  | aesCcm16_64_128 => 16

def AeadAlgorithm.nonceLength : AeadAlgorithm → Nat
  | aesCcm16_64_128 => 13

/-- The hash function of the key schedule. -/
inductive HashAlgorithm where
  | sha256
deriving DecidableEq, Repr

def HashAlgorithm.name : HashAlgorithm → String
  | sha256 => "Sha256"

end Oscore

end SecureCoap
