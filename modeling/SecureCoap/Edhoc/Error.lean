import SecureCoap.Cbor.Error

/-!
# What can go wrong in a handshake
-/

namespace SecureCoap

namespace Edhoc

inductive Error where
  | peerError (code : Int) (info : String)
  /-- An integer that is no connection identifier. -/
  | invalidConnectionId (n : Int)
  | engine (text : String)
  | cbor (error : Cbor.Error)
deriving DecidableEq, Repr

def Error.message : Error → String
  | peerError code info => s!"Peer sent error message ({code}): {info}"
  | invalidConnectionId n => s!"Connection identifier {n} doesn't fit in one byte"
  | engine text => s!"EDHOC error: {text}"
  | cbor error => error.message

def Error.sources : Error → List String
  | cbor error => error.message :: error.sources
  | _ => []

end Edhoc

end SecureCoap
