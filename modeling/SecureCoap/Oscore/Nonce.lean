import SecureCoap.Bytes

/-!
# Nonces

A nonce is the common initialisation vector of a context, masked with the length of the identifier
of whoever chose the partial initialisation vector, that identifier, and the partial
initialisation vector.
-/

namespace SecureCoap

namespace Oscore

/-- The room that the partial initialisation vector has in a nonce. -/
def pivRoom : Nat := 5

/-- The room that an identifier has in a nonce of this length. -/
def idRoom (nonceLength : Nat) : Nat := nonceLength - 1 - pivRoom

/-- The nonce for a partial initialisation vector of the endpoint `id`. Of what does not fit into
its field, the last bytes count. -/
def nonce (piv id commonIv : Bytes) : Bytes :=
  let id := Bytes.takeRight (idRoom commonIv.length) id
  let piv := Bytes.takeRight pivRoom piv
  Bytes.xor
    (UInt8.ofNat id.length :: Bytes.padLeft (idRoom commonIv.length) id
      ++ Bytes.padLeft pivRoom piv)
    commonIv

end Oscore

end SecureCoap
