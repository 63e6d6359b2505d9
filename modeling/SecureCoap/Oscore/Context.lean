import SecureCoap.Crypto.Primitives
import SecureCoap.Oscore.Error
import SecureCoap.Oscore.Nonce
import SecureCoap.Oscore.PartialIv
import SecureCoap.Oscore.ReplayWindow
import SecureCoap.Oscore.Structures

/-!
# Security contexts

Two endpoints that share a secret each derive a context from it: keys for either direction, a common
initialisation vector, the sequence number of the next message that is sent, and a window over the
sequence numbers of received ones.
-/

namespace SecureCoap

namespace Oscore

/-- What a context is derived from. -/
structure Parameters where
  masterSecret : Bytes
  masterSalt : Bytes
  senderId : Bytes
  recipientId : Bytes
  idContext : Option Bytes
  aead : AeadAlgorithm
  hash : HashAlgorithm
  windowSize : Nat
deriving DecidableEq, Repr

def standardWindowSize : Nat := 32

/-- Parameters that are standard in everything but the secret, the salt and the identifiers. -/
def Parameters.standard (masterSecret masterSalt senderId recipientId : Bytes) : Parameters where
  masterSecret := masterSecret
  masterSalt := masterSalt
  senderId := senderId
  recipientId := recipientId
  idContext := none
  aead := .aesCcm16_64_128
  hash := .sha256
  windowSize := standardWindowSize

def Parameters.swap (p : Parameters) : Parameters :=
  { p with senderId := p.recipientId, recipientId := p.senderId }

structure Context where
  aead : AeadAlgorithm
  hash : HashAlgorithm
  idContext : Option Bytes
  commonIv : Bytes
  senderId : Bytes
  senderKey : Bytes
  /-- The sequence number of the next message. -/
  sequenceNumber : Nat
  recipientId : Bytes
  recipientKey : Bytes
  window : ReplayWindow
deriving DecidableEq, Repr

/-- What identifies a request, so that the response to it can be processed: the sender of the
request and its partial initialisation vector. -/
structure RequestId where
  kid : Bytes
  piv : Bytes
deriving DecidableEq, Repr

def RequestId.sequenceNumber (id : RequestId) : Nat := PartialIv.toNumber id.piv

namespace Context

def material (crypto : Primitives) (p : Parameters) (id : Bytes) (kind : KeyMaterial)
    (length : Nat) : Except Error Bytes :=
  match crypto.derive p.masterSalt p.masterSecret (info id p.idContext p.aead kind.name length)
    length with
  | some bs => .ok bs
  | none => .error .derivation

/-- Fails if an identifier does not fit into a nonce. -/
def checkId (aead : AeadAlgorithm) (id : Bytes) : Except Error Unit :=
  if idRoom aead.nonceLength < id.length then .error (.idTooLong id) else .ok ()

def derive (crypto : Primitives) (p : Parameters) : Except Error Context := do
  checkId p.aead p.senderId
  checkId p.aead p.recipientId
  let senderKey ← material crypto p p.senderId .key p.aead.keyLength
  let recipientKey ← material crypto p p.recipientId .key p.aead.keyLength
  let commonIv ← material crypto p [] .iv p.aead.nonceLength
  return {
    aead := p.aead
    hash := p.hash
    idContext := p.idContext
    commonIv
    senderId := p.senderId
    senderKey
    sequenceNumber := 0
    recipientId := p.recipientId
    recipientKey
    window := .new p.windowSize }

/-- The partial initialisation vector of the next message, unless the sequence numbers are used
up. -/
def nextPiv (ctx : Context) : Except Error Bytes :=
  if ctx.sequenceNumber ≤ PartialIv.maxNumber then .ok (PartialIv.ofNumber ctx.sequenceNumber)
  else .error .sequenceNumberExhausted

/-- The context after a message took the next sequence number. -/
def advance (ctx : Context) : Context := { ctx with sequenceNumber := ctx.sequenceNumber + 1 }

/-- The context after a message with this sequence number was accepted. -/
def accept (ctx : Context) (n : Nat) : Context := { ctx with window := ctx.window.strikeOut n }

end Context

end Oscore

end SecureCoap
