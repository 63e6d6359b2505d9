import SecureCoap.Bytes.Hex
import SecureCoap.Session.Phase

/-!
# Log entries

What is worth telling about the work of the library, as data. An entry has a level, a message that
is the same for all entries of its kind, and named fields.
-/

namespace SecureCoap

inductive LogLevel where
  | debug
  | info
  | warning
deriving DecidableEq, Repr

def LogLevel.name : LogLevel → String
  | debug => "DEBUG"
  | info => "INFO"
  | warning => "WARN"

inductive LogEntry where
  | noKeyIdentifier (credential : Bytes)
  | registryLoaded (credentials keys : Nat)
  | derivingContext (suite : Int) (senderId recipientId : Bytes)
  /-- The final message goes along with the request of this sequence number. -/
  | combining (sequenceNumber length : Nat)
  | contextRegistered (destination : String) (senderId : Bytes)
  | phaseChange (before after : Session.Phase)
  | ignoringEad (label : Int)
  | established (destination : String) (senderId recipientId : Bytes)
  | aborted (destination : String) (phase : Session.Phase) (error : String) (retryable : Bool)
deriving DecidableEq, Repr

namespace LogEntry

def level : LogEntry → LogLevel
  | noKeyIdentifier .. | derivingContext .. | combining .. | contextRegistered .. | phaseChange ..
  | ignoringEad .. => .debug
  | registryLoaded .. | established .. => .info
  | aborted .. => .warning

def message : LogEntry → String
  | noKeyIdentifier .. => "Credential has no kid, only usable by value"
  | registryLoaded .. => "Loaded credential registry"
  | derivingContext .. => "Deriving OSCORE context"
  | combining .. => "Combining EDHOC message_3 with request"
  | contextRegistered .. => "Registered security context"
  | phaseChange .. => "Handshake state change"
  | ignoringEad .. => "Ignoring non-critical EAD item"
  | established .. => "OSCORE session established"
  | aborted .. => "Handshake aborted"

def fields : LogEntry → List (String × String)
  | noKeyIdentifier credential => [("credential", Hex.encode credential)]
  | registryLoaded credentials keys =>
    [("credentials", toString credentials), ("keys", toString keys)]
  | derivingContext suite senderId recipientId =>
    [("suite", toString suite), ("sender_id", Hex.encode senderId),
      ("recipient_id", Hex.encode recipientId)]
  | combining sequenceNumber length =>
    [("sequence_number", toString sequenceNumber), ("message_3_len", toString length)]
  | contextRegistered destination senderId =>
    [("destination", destination), ("sender_id", Hex.encode senderId)]
  | phaseChange before after => [("from", before.name), ("to", after.name)]
  | ignoringEad label => [("label", toString label)]
  | established destination senderId recipientId =>
    [("destination", destination), ("sender_id", Hex.encode senderId),
      ("recipient_id", Hex.encode recipientId)]
  | aborted destination phase error retryable =>
    [("destination", destination), ("state", phase.name), ("error", error),
      ("retryable", toString retryable)]

end LogEntry

end SecureCoap
