/-!
# Phases of a handshake
-/

namespace SecureCoap

namespace Session

inductive Phase where
  | start
  | sentFirst
  | receivedSecond
  | verified
  | contextReady
  /-- The first request went out, with the final message. -/
  | sentFirstRequest
  | established
  | aborted
deriving DecidableEq, Repr

def Phase.name : Phase → String
  | start => "Start"
  | sentFirst => "Sent1"
  | receivedSecond => "Received2"
  | verified => "Verified"
  | contextReady => "ContextReady"
  | sentFirstRequest => "FirstRequestSent"
  | established => "Established"
  | aborted => "Aborted"

end Session

end SecureCoap
