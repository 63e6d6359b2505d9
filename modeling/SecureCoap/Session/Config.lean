import SecureCoap.Edhoc.Message

/-!
# Configuration of an initiator
-/

namespace SecureCoap

namespace Session

structure Config where
  connectionId : Edhoc.ConnectionId
  /-- How long a response may take, in milliseconds. -/
  timeout : Nat
  transfer : Edhoc.CredentialTransfer
  /-- Where the responder takes handshake messages. -/
  path : String
  /-- The private authentication key. -/
  identity : Bytes
  credential : Bytes
deriving DecidableEq, Repr

def Config.standard : Config where
  connectionId := .int 8
  timeout := 10000
  transfer := .byReference
  path := ".well-known/edhoc"
  identity := []
  credential := []

/-- The names in the path, which are separated by slashes and not empty. -/
def Config.pathSegments (config : Config) : List String :=
  (config.path.splitOn "/").filter (· ≠ "")

end Session

end SecureCoap
