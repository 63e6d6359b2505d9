import SecureCoap.Binary.Interchange
import SecureCoap.Binary.Shortest
import SecureCoap.Bytes
import SecureCoap.Bytes.Hex
import SecureCoap.Cbor.ByteString
import SecureCoap.Cbor.Decode
import SecureCoap.Cbor.Error
import SecureCoap.Cbor.Header
import SecureCoap.Cbor.Reader
import SecureCoap.Cbor.Typed
import SecureCoap.Cbor.Value
import SecureCoap.Checked
import SecureCoap.Coap.Code
import SecureCoap.Coap.Options
import SecureCoap.Coap.Packet
import SecureCoap.Crypto.Aes
import SecureCoap.Crypto.Ccm
import SecureCoap.Crypto.Hkdf
import SecureCoap.Crypto.Primitives
import SecureCoap.Crypto.Sha256
import SecureCoap.Edhoc.ConnectionId
import SecureCoap.Edhoc.Engine
import SecureCoap.Edhoc.Error
import SecureCoap.Edhoc.ErrorMessage
import SecureCoap.Edhoc.Message
import SecureCoap.History
import SecureCoap.Log
import SecureCoap.Oscore.Algorithm
import SecureCoap.Oscore.Call
import SecureCoap.Oscore.Checked
import SecureCoap.Oscore.Context
import SecureCoap.Oscore.Error
import SecureCoap.Oscore.Message
import SecureCoap.Oscore.Nonce
import SecureCoap.Oscore.OptionValue
import SecureCoap.Oscore.PartialIv
import SecureCoap.Oscore.Protection
import SecureCoap.Oscore.ReplayWindow
import SecureCoap.Oscore.Structures
import SecureCoap.Proofs.Bytes
import SecureCoap.Proofs.Cbor.ByteString
import SecureCoap.Proofs.Cbor.ByteStringLength
import SecureCoap.Proofs.Cbor.Grammar
import SecureCoap.Proofs.Cbor.Header
import SecureCoap.Proofs.Cbor.Item
import SecureCoap.Proofs.Cbor.Order
import SecureCoap.Proofs.Cbor.Reader
import SecureCoap.Proofs.Cbor.Sequence
import SecureCoap.Proofs.Cbor.Typed
import SecureCoap.Proofs.Checked
import SecureCoap.Proofs.Coap.Options
import SecureCoap.Proofs.Coap.Packet
import SecureCoap.Proofs.Computation
import SecureCoap.Proofs.Crypto.Ccm
import SecureCoap.Proofs.Crypto.Primitives
import SecureCoap.Proofs.Edhoc.ErrorMessage
import SecureCoap.Proofs.History
import SecureCoap.Proofs.Oscore.Authenticity
import SecureCoap.Proofs.Oscore.Binding
import SecureCoap.Proofs.Oscore.Checked
import SecureCoap.Proofs.Oscore.Delivery
import SecureCoap.Proofs.Oscore.Derivation
import SecureCoap.Proofs.Oscore.Exposure
import SecureCoap.Proofs.Oscore.History
import SecureCoap.Proofs.Oscore.KeySeparation
import SecureCoap.Proofs.Oscore.Nonce
import SecureCoap.Proofs.Oscore.NonceUniqueness
import SecureCoap.Proofs.Oscore.Numbering
import SecureCoap.Proofs.Oscore.OptionValue
import SecureCoap.Proofs.Oscore.OuterFields
import SecureCoap.Proofs.Oscore.Pair
import SecureCoap.Proofs.Oscore.PartialIv
import SecureCoap.Proofs.Oscore.Protection
import SecureCoap.Proofs.Oscore.Replay
import SecureCoap.Proofs.Oscore.ReplayWindow
import SecureCoap.Proofs.Oscore.RoundTrip
import SecureCoap.Proofs.Oscore.Structures
import SecureCoap.Proofs.Registry.Basic
import SecureCoap.Proofs.Registry.Credential
import SecureCoap.Proofs.Session.Authentication
import SecureCoap.Proofs.Session.ClearedOptions
import SecureCoap.Proofs.Session.Combined
import SecureCoap.Proofs.Session.Courses
import SecureCoap.Proofs.Session.Derivation
import SecureCoap.Proofs.Session.ErrorMessages
import SecureCoap.Proofs.Session.Established
import SecureCoap.Proofs.Session.FailedCalls
import SecureCoap.Proofs.Session.Failure
import SecureCoap.Proofs.Session.Interleaving
import SecureCoap.Proofs.Session.NonceUniqueness
import SecureCoap.Proofs.Session.Numbering
import SecureCoap.Proofs.Session.OneShot
import SecureCoap.Proofs.Session.Piggyback
import SecureCoap.Proofs.Session.Registration
import SecureCoap.Proofs.Session.Responder
import SecureCoap.Proofs.Session.Restart
import SecureCoap.Proofs.Session.Rules
import SecureCoap.Proofs.Session.Transcript
import SecureCoap.Proofs.Session.Transport
import SecureCoap.Registry.Basic
import SecureCoap.Registry.Credential
import SecureCoap.Session.Config
import SecureCoap.Session.ConfigFormat
import SecureCoap.Session.Derivation
import SecureCoap.Session.Error
import SecureCoap.Session.Handshake
import SecureCoap.Session.Phase
import SecureCoap.Session.Piggyback
import SecureCoap.Session.Transcript
import SecureCoap.Session.Transport
import SecureCoap.Session.Use
import SecureCoap.Text.Quoted
import SecureCoap.Text.Unprintable
import SecureCoap.Text.Utf8
