/-!
# Message codes

The code of a message tells whether it is a request or a response, and of what kind. Codes that are
not assigned are all the same reserved code.
-/

namespace SecureCoap

namespace Coap

inductive Method where
  | get
  | post
  | put
  | delete
deriving DecidableEq, Repr

inductive Status where
  | created
  | deleted
  | valid
  | changed
  | content
  | continued
  | badRequest
  | unauthorized
  | badOption
  | forbidden
  | notFound
  | methodNotAllowed
  | notAcceptable
  | requestEntityIncomplete
  | preconditionFailed
  | requestEntityTooLarge
  | unsupportedContentFormat
  | tooManyRequests
  | internalServerError
  | notImplemented
  | badGateway
  | serviceUnavailable
  | gatewayTimeout
  | proxyingNotSupported
deriving DecidableEq, Repr

inductive Code where
  | empty
  | request (method : Method)
  | response (status : Status)
  /-- A code without a meaning. -/
  | reserved
deriving DecidableEq, Repr

def Method.toByte : Method → UInt8
  | get => 0x01
  | post => 0x02
  | put => 0x03
  | delete => 0x04

def Status.toByte : Status → UInt8
  | created => 0x41
  | deleted => 0x42
  | valid => 0x43
  | changed => 0x44
  | content => 0x45
  | continued => 0x5F
  | badRequest => 0x80
  | unauthorized => 0x81
  | badOption => 0x82
  | forbidden => 0x83
  | notFound => 0x84
  | methodNotAllowed => 0x85
  | notAcceptable => 0x86
  | requestEntityIncomplete => 0x88
  | preconditionFailed => 0x8C
  | requestEntityTooLarge => 0x8D
  | unsupportedContentFormat => 0x8F
  | internalServerError => 0x90
  | notImplemented => 0x91
  | badGateway => 0x92
  | serviceUnavailable => 0x93
  | gatewayTimeout => 0x94
  | proxyingNotSupported => 0x95
  | tooManyRequests => 0x9D

def Code.toByte : Code → UInt8
  | empty => 0x00
  | request method => method.toByte
  | response status => status.toByte
  | reserved => 0xFF

def Code.assigned : List Code := [
  .empty, .request .get, .request .post, .request .put, .request .delete,
  .response .created, .response .deleted, .response .valid, .response .changed,
  .response .content, .response .continued, .response .badRequest, .response .unauthorized,
  .response .badOption, .response .forbidden, .response .notFound, .response .methodNotAllowed,
  .response .notAcceptable, .response .requestEntityIncomplete, .response .preconditionFailed,
  .response .requestEntityTooLarge, .response .unsupportedContentFormat,
  .response .tooManyRequests, .response .internalServerError, .response .notImplemented,
  .response .badGateway, .response .serviceUnavailable, .response .gatewayTimeout,
  .response .proxyingNotSupported]

def Code.ofByte (b : UInt8) : Code := (assigned.find? fun c => c.toByte = b).getD .reserved

theorem Code.ofByte_toByte (c : Code) : ofByte c.toByte = c := by
  cases c with
  | empty => rfl
  | request method => cases method <;> rfl
  | response status => cases status <;> rfl
  | reserved => rfl

def Code.isResponse : Code → Bool
  | response _ => true
  | _ => false

end Coap

end SecureCoap
