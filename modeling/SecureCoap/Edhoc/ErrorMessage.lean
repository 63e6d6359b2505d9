import SecureCoap.Cbor.Typed
import SecureCoap.Edhoc.Error

/-!
# Messages as payloads

The first message of a handshake is announced by a truth value in front. In place of any message a
peer may send an error message, a sequence of a code and a text.
-/

namespace SecureCoap

namespace Edhoc

/-- The code of an error that is described by its text only. -/
def unspecifiedCode : Int := 1

/-- The payload that carries the first message: the value true in place of a connection
identifier, and the message. -/
def firstPayload (message : Bytes) : Bytes := Cbor.encodeBool true ++ message

def buildErrorMessage (text : String) : Bytes :=
  Cbor.encodeInt unspecifiedCode ++ Cbor.encodeText text

def extractErrorMessage (message : Bytes) : Except Error (Int × String) :=
  (Cbor.decodeSequence (.pair .int32 .text Cbor.maxLevels) 2 message).mapError .cbor

/-- Fails with what an error message says, and accepts anything else. -/
def failOnErrorMessage (message : Bytes) : Except Error Unit :=
  match extractErrorMessage message with
  | .ok (code, info) => .error (.peerError code info)
  | .error _ => .ok ()

end Edhoc

end SecureCoap
