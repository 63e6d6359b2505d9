import SecureCoap.Edhoc.ConnectionId

/-!
# What the messages of a handshake say
-/

namespace SecureCoap

namespace Edhoc

inductive CredentialTransfer where
  /-- Only the key identifier; the peer has the credential. -/
  | byReference
  /-- The credential itself. -/
  | byValue
deriving DecidableEq, Repr

def CredentialTransfer.name : CredentialTransfer → String
  | byReference => "ByReference"
  | byValue => "ByValue"

/-- External authorization data that comes with a message. -/
structure EadItem where
  label : Int
  value : Option Bytes
deriving DecidableEq, Repr

/-- Whether a receiver that does not understand the item has to abort. -/
def EadItem.isCritical (item : EadItem) : Bool := item.label < 0

/-- What the second message tells before it is verified: the responder's connection identifier,
how it refers to its credential, and external authorization data. -/
structure SecondMessage where
  connectionId : ConnectionId
  credentialId : Bytes
  ead : Option EadItem
deriving DecidableEq, Repr

end Edhoc

end SecureCoap
