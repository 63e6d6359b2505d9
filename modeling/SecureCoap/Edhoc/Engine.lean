import SecureCoap.Edhoc.Message

/-!
# The engine of a handshake

The messages of a handshake are made and understood by an engine, which is given from outside. It
answers queries one at a time, and each answer may change its state or be a failure.
-/

namespace SecureCoap

namespace Edhoc

/-- The cipher suite that contexts can be derived for. -/
def suite2 : Int := 2

/-- What an engine is asked for. -/
inductive Query where
  /-- `length` bytes for a label and context information. -/
  | exporter (label : Nat) (context : Bytes) (length : Nat)
  | firstMessage (id : ConnectionId)
  | secondMessage (message : Bytes)
  /-- Whether the second message comes from the owner of the peer's credential. -/
  | verifyPeer (identity credential peerCredential : Bytes)
  | finalMessage (transfer : CredentialTransfer)
deriving DecidableEq, Repr

def Query.Reply : Query → Type
  | exporter .. | firstMessage _ | finalMessage _ => Bytes
  | secondMessage _ => SecondMessage
  | verifyPeer .. => Unit

/-- An implementation of the handshake with states `ε`. -/
structure Engine (ε : Type) where
  suite : ε → Int
  answer : (query : Query) → ε → Except Error query.Reply × ε

end Edhoc

end SecureCoap
