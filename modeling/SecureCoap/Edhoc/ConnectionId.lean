import SecureCoap.Cbor.Header
import SecureCoap.Edhoc.Error

/-!
# Connection identifiers

Each side of a handshake chooses an identifier for it, a small integer or a byte string. As a
sender or recipient identifier it is a byte string: that of the integer's encoding, or the byte
string itself.
-/

namespace SecureCoap

namespace Edhoc

inductive ConnectionId where
  /-- An integer; only those from -24 to 23 are identifiers that a peer can be told. -/
  | int (n : Int)
  | bytes (bs : Bytes)
deriving DecidableEq, Repr

/-- The identifier as a sender or recipient identifier. An integer that takes more than a byte is
refused. -/
def ConnectionId.toOscoreId : ConnectionId → Except Error Bytes
  | int n => if -24 ≤ n ∧ n ≤ 23 then .ok (Cbor.encodeInt n) else .error (.invalidConnectionId n)
  | bytes bs => .ok bs

end Edhoc

end SecureCoap
