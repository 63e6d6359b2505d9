import SecureCoap.Bytes.Hex
import SecureCoap.Coap.Packet

/-!
# What can go wrong with protected messages
-/

namespace SecureCoap

namespace Oscore

/-- The options that no protected message may have. -/
inductive Unsupported where
  | observe
  | block2
  | block1
  | size2
  | size1
  | noResponse
deriving DecidableEq, Repr

def Unsupported.name : Unsupported → String
  | observe => "Observe"
  | block2 => "Block2"
  | block1 => "Block1"
  | size2 => "Size2"
  | size1 => "Size1"
  | noResponse => "NoResponse"

def Unsupported.number : Unsupported → Nat
  | observe => Coap.Options.observe
  | block2 => Coap.Options.block2
  | block1 => Coap.Options.block1
  | size2 => Coap.Options.size2
  | size1 => Coap.Options.size1
  | noResponse => Coap.Options.noResponse

def Unsupported.ofNumber? (number : Nat) : Option Unsupported :=
  [observe, block2, block1, size2, size1, noResponse].find? fun o => o.number = number

inductive Error where
  /-- There is no value that tells how the message is protected. -/
  | noOption
  /-- A request that does not tell its sender and sequence number. -/
  | noKidPiv
  | replayDetected
  | unsupportedOption (option : Unsupported)
  | idTooLong (id : Bytes)
  | sequenceNumberExhausted
  | malformedPlaintext
  /-- More key material was asked for than can be derived. -/
  | derivation
  /-- A message could not be encrypted, or is not authentic. -/
  | encryption
  | coap (error : Coap.Error)
deriving DecidableEq, Repr

def Error.message : Error → String
  | noOption => "CoAP request doesn't contain OSCORE option"
  | noKidPiv => "CoAP request doesn't have kid or piv"
  | replayDetected => "This message has been received already"
  | unsupportedOption option => s!"Message contains an unsupported option: {option.name}"
  | idTooLong id => s!"ID {Hex.encode id} is too long for the nonce of the AEAD"
  | sequenceNumberExhausted => "Sender sequence number exhausted"
  | malformedPlaintext => "Decrypted plaintext is not a CoAP message"
  | derivation => "invalid number of blocks, too large output"
  | encryption => "Error using AEAD"
  | coap error => error.message

/-- The wordings of the causes of an error: it is always its own. -/
def Error.sources (_ : Error) : List String := []

end Oscore

end SecureCoap
