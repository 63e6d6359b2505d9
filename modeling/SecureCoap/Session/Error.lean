import SecureCoap.Edhoc.Error
import SecureCoap.Oscore.Error

/-!
# What can go wrong with a session
-/

namespace SecureCoap

namespace Session

inductive TransportError where
  | timeout
  | unreachable (destination : String)
  | other (text : String)
deriving DecidableEq, Repr

def TransportError.message : TransportError → String
  | timeout => "Timed out waiting for response"
  | unreachable destination => s!"Destination {destination} unreachable"
  | other text => s!"Transport error: {text}"

inductive Error where
  | unsupportedSuite (suite : Int)
  | unknownPeer (id : Bytes)
  /-- The peer is known, but could not prove it. -/
  | authenticationFailed (error : Edhoc.Error)
  | identifierCollision (id : Bytes)
  /-- The second message has external data that must be understood, and is not. -/
  | criticalEad (label : Int)
  | transport (error : TransportError)
  | edhoc (error : Edhoc.Error)
  | oscore (error : Oscore.Error)
  | cbor (error : Cbor.Error)
deriving DecidableEq, Repr

namespace Error

/-- Whether starting over with a new handshake might succeed. -/
def isRetryable : Error → Bool
  | transport _ => true
  | _ => false

def message : Error → String
  | unsupportedSuite suite => s!"Unsupported cipher suite {suite}"
  | unknownPeer id => s!"Unknown peer {Hex.encode id}"
  | authenticationFailed error => s!"Peer authentication failed: {error.message}"
  | identifierCollision id => s!"Sender and recipient ID are both {Hex.encode id}"
  | criticalEad label => s!"Unsupported critical EAD item {label}"
  | transport error => error.message
  | edhoc error => error.message
  | oscore error => error.message
  | cbor error => error.message

def sources : Error → List String
  | authenticationFailed error => error.message :: error.sources
  | transport error => [error.message]
  | edhoc error => error.message :: error.sources
  | oscore error => error.message :: error.sources
  | cbor error => error.message :: error.sources
  | _ => []

end Error

end Session

end SecureCoap
