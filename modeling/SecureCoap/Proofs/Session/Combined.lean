import SecureCoap.Proofs.Cbor.ByteString
import SecureCoap.Proofs.Oscore.Derivation
import SecureCoap.Proofs.Oscore.RoundTrip
import SecureCoap.Proofs.Session.OneShot

/-!
# Requests that carry a message

The option that marks a request with a message in front stays outside, so a request that has it of
its own keeps it. If requests come without it, it means what it is to mean, and what was put
together is taken apart again: a byte string tells where it ends, whatever ciphertext follows.
-/

namespace SecureCoap

namespace Session

open Oscore (Call Context)

/-! ### The option that marks a message in front -/

theorem has_combine (message : Bytes) (sent : Coap.Packet) :
    (combine message sent).options.has Coap.Options.edhoc = true := by
  rw [Coap.Options.has_iff]
  have hvalues : (combine message sent).options.values Coap.Options.edhoc =
      sent.options.values Coap.Options.edhoc ++ [[]] := by
    unfold Coap.Options.values
    rw [(carries_combine message sent).marker]
    rfl
  rw [hvalues]
  exact List.append_ne_nil_of_right_ne_nil _ (List.cons_ne_nil _ _)

/-! ### Separating the message -/

/-- The packet `q` is `packet` without this message in front of its payload, and without the option
that marks it. -/
structure Separated (packet : Coap.Packet) (message : Bytes) (q : Coap.Packet) : Prop where
  byteString : Cbor.IsByteString message
  payload : message ++ q.payload = packet.payload
  version : q.version = packet.version
  type : q.type = packet.type
  code : q.code = packet.code
  messageId : q.messageId = packet.messageId
  token : q.token = packet.token
  marker : q.options.values Coap.Options.edhoc = []
  others : ∀ n, n ≠ Coap.Options.edhoc → q.options.values? n = packet.options.values? n

theorem splitCombined_of_not_has {packet : Coap.Packet}
    (h : packet.options.has Coap.Options.edhoc = false) :
    splitCombined packet = .ok (none, packet) := by
  unfold splitCombined
  rw [h]
  rfl

theorem splitCombined_eq_ok {packet q : Coap.Packet} {message? : Option Bytes}
    (hmarked : packet.options.has Coap.Options.edhoc = true) :
    splitCombined packet = .ok (message?, q) ↔
      ∃ n, Cbor.byteStringLength packet.payload = .ok n ∧
        message? = some (packet.payload.take n) ∧
        q = { packet with
          options := packet.options.clear Coap.Options.edhoc
          payload := packet.payload.drop n } := by
  unfold splitCombined
  rw [if_pos hmarked]
  cases Cbor.byteStringLength packet.payload with
  | error e =>
    constructor
    · intro h
      cases h
    · intro h
      obtain ⟨n, h, -⟩ := h
      cases h
  | ok n =>
    constructor
    · intro h
      cases h
      exact ⟨n, rfl, rfl, rfl⟩
    · intro h
      obtain ⟨n', hn, rfl, rfl⟩ := h
      cases hn
      rfl

theorem separated_of_split {packet q : Coap.Packet} {message? : Option Bytes}
    (hmarked : packet.options.has Coap.Options.edhoc = true)
    (h : splitCombined packet = .ok (message?, q)) :
    ∃ message, message? = some message ∧ Separated packet message q := by
  obtain ⟨n, hn, rfl, rfl⟩ := (splitCombined_eq_ok hmarked).mp h
  obtain ⟨-, hbytes⟩ := Cbor.isByteString_take hn
  refine ⟨packet.payload.take n, rfl, hbytes, List.take_append_drop n packet.payload, rfl, rfl, rfl,
    rfl, rfl, ?_, ?_⟩
  · show (packet.options.clear Coap.Options.edhoc).values _ = _
    rw [Coap.Options.values_clear, if_pos rfl]
  · intro n hn
    exact Coap.Options.values?_clear_of_ne packet.options hn

/-- What is separated has nothing left to separate. -/
theorem Separated.split {packet q : Coap.Packet} {message : Bytes}
    (h : Separated packet message q) :
    splitCombined q = .ok (none, q) :=
  splitCombined_of_not_has ((q.options.has_eq_false_iff Coap.Options.edhoc).mpr h.marker)

theorem split_combine {message : Bytes} (hmessage : Cbor.IsByteString message) {sent : Coap.Packet}
    (hplain : sent.options.has Coap.Options.edhoc = false) :
    ∃ q, splitCombined (combine message sent) = .ok (some message, q) ∧ q.SameAs sent := by
  have hlength : Cbor.byteStringLength (combine message sent).payload = .ok message.length :=
    Cbor.byteStringLength_append hmessage sent.payload
  have htake : (combine message sent).payload.take message.length = message := List.take_left ..
  have hdrop : (combine message sent).payload.drop message.length = sent.payload :=
    List.drop_left ..
  refine ⟨_, (splitCombined_eq_ok (has_combine message sent)).mpr ⟨_, hlength, ?_, rfl⟩,
    rfl, rfl, rfl, rfl, rfl, ?_, hdrop⟩
  · rw [htake]
  · intro n
    show ((combine message sent).options.clear Coap.Options.edhoc).values n = _
    rw [Coap.Options.values_clear]
    split
    · next hn =>
      rw [hn, (sent.options.has_eq_false_iff Coap.Options.edhoc).mp hplain]
    · next hn =>
      unfold Coap.Options.values
      rw [(carries_combine message sent).others n hn]

namespace EdhocContext

variable {crypto : Primitives} {c : Context} {pending : Option Bytes} {before : List Call}
  {m : Coap.Packet} {p : Protected}

/-! ### Requests after other calls -/

theorem has_carrying (pending : Option Bytes) (sent : Coap.Packet) :
    (carrying pending sent).options.has Coap.Options.edhoc = true ↔
      pending.isSome = true ∨ sent.options.has Coap.Options.edhoc = true := by
  cases pending with
  | none =>
    constructor
    · intro h
      exact Or.inr h
    · intro h
      rcases h with h | h
      · cases h
      · exact h
  | some message => exact iff_of_true (has_combine message sent) (Or.inl rfl)

theorem of_protected_after
    (hok : (((⟨c, pending⟩ : EdhocContext).after crypto before).protect crypto m).1 = .ok p) :
    ∃ sent, ((c.after crypto before).protectRequest crypto m).1 = .ok (sent, p.request) ∧
      sent.options.has Coap.Options.edhoc = m.options.has Coap.Options.edhoc ∧
      p.carried = (if spent crypto c before then none else pending) ∧
      p.packet = carrying p.carried sent := by
  rw [after_eq, protect_eq, mapError_eq_ok] at hok
  obtain ⟨⟨sent, id⟩, hsent, rfl⟩ := map_eq_ok.mp hok
  obtain ⟨option, ciphertext, hsent'⟩ := Context.outer_of_protectRequest hsent
  refine ⟨sent, hsent, ?_, rfl, rfl⟩
  -- The option is one of those that stay outside, so the request keeps what it has of it.
  unfold Coap.Options.has
  rw [hsent', Oscore.values_outer (by decide)]

theorem protect_of_protectable {e : EdhocContext}
    (hencrypts : crypto.EncryptsUpTo Coap.maxPacketLength) (hm : Oscore.Protectable m)
    (hnumber : e.context.sequenceNumber ≤ Oscore.PartialIv.maxNumber) :
    ∃ p, (e.protect crypto m).1 = .ok p := by
  obtain ⟨packet, id, hplain⟩ := Context.protectRequest_of_protectable hencrypts hm hnumber
  rw [protect_eq, hplain]
  exact ⟨_, rfl⟩

/-- Two requests in a row, of which the first one takes the message along. -/
theorem protect_second (hencrypts : crypto.EncryptsUpTo Coap.maxPacketLength) {m' : Coap.Packet}
    (hm : Oscore.Protectable m) (hm' : Oscore.Protectable m')
    (hnumber : c.sequenceNumber < Oscore.PartialIv.maxNumber) (pending : Option Bytes) :
    spent crypto c [.protectRequest m] = true ∧
      ∃ p, (((⟨c, pending⟩ : EdhocContext).after crypto [.protectRequest m]).protect crypto m').1 =
        .ok p := by
  obtain ⟨packet, id, hperform⟩ :=
    Context.perform_protectRequest_of_protectable hencrypts hm (Nat.le_of_lt hnumber)
  refine ⟨?_, protect_of_protectable hencrypts hm' ?_⟩
  · rw [spent_cons, hperform]
    rfl
  · rw [after_eq]
    show (c.perform crypto (.protectRequest m)).2.sequenceNumber ≤ _
    rw [hperform]
    exact hnumber

/-! ### What the option tells -/

/-- A short request that is marked, although no message is in front of it. -/
def markedRequest : Coap.Packet :=
  { Context.shortRequest with options := Coap.Options.empty.add Coap.Options.edhoc [] }

theorem protectable_markedRequest : Oscore.Protectable markedRequest where
  code := by decide
  supported := by decide
  numbers := by decide
  length := by decide

theorem protect_testVector :
    ∃ a p, Context.derive Oscore.TestVector.crypto Oscore.TestVector.client = .ok a ∧
      spent Oscore.TestVector.crypto a [.protectRequest Context.shortRequest] = true ∧
      (((⟨a, some [0x40]⟩ : EdhocContext).after Oscore.TestVector.crypto
        [.protectRequest Context.shortRequest]).protect Oscore.TestVector.crypto
          markedRequest).1 = .ok p := by
  obtain ⟨a, -, ha, -, -⟩ := Oscore.TestVector.derive_client
  have hnumber : a.sequenceNumber < Oscore.PartialIv.maxNumber := by
    rw [Context.sequenceNumber_of_derive ha]
    decide
  obtain ⟨hspent, p, hp⟩ := protect_second (Oscore.TestVector.encryptsUpTo.mono (by decide))
    Context.protectable_shortRequest protectable_markedRequest hnumber (some [0x40])
  exact ⟨a, p, ha, hspent, hp⟩

/-- A request that goes out is marked if it carries the message or has the option of its own. So the
option tells what it is to tell of all requests but those that have it of their own and do not carry
the message. -/
theorem marked_iff
    (hok : (((⟨c, pending⟩ : EdhocContext).after crypto before).protect crypto m).1 = .ok p) :
    (∃ sent, ((c.after crypto before).protectRequest crypto m).1 = .ok (sent, p.request) ∧
      p.packet.payload = p.carried.getD [] ++ sent.payload) ∧
      p.carried = (if spent crypto c before then none else pending) ∧
      (p.packet.options.has Coap.Options.edhoc = true ↔
        p.carried.isSome = true ∨ m.options.has Coap.Options.edhoc = true) ∧
      ((p.packet.options.has Coap.Options.edhoc = true ↔ p.carried.isSome = true) ↔
        (m.options.has Coap.Options.edhoc = true → p.carried.isSome = true)) := by
  obtain ⟨sent, hsent, hsame, hcarried, hpacket⟩ := of_protected_after hok
  have hmarked : p.packet.options.has Coap.Options.edhoc = true ↔
      p.carried.isSome = true ∨ m.options.has Coap.Options.edhoc = true := by
    rw [hpacket, has_carrying, hsame]
  refine ⟨⟨sent, hsent, by rw [hpacket, payload_carrying]⟩, hcarried, hmarked, ?_⟩
  rw [hmarked]
  constructor
  · intro h hbrought
    exact h.mp (Or.inr hbrought)
  · intro h
    exact ⟨fun hor => hor.elim id h, Or.inl⟩

theorem marked_iff_testVector :
    ∃ a p, Context.derive Oscore.TestVector.crypto Oscore.TestVector.client = .ok a ∧
      (((⟨a, some [0x40]⟩ : EdhocContext).after Oscore.TestVector.crypto
        [.protectRequest Context.shortRequest]).protect Oscore.TestVector.crypto
          markedRequest).1 = .ok p ∧
      (∃ sent, ((a.after Oscore.TestVector.crypto
          [.protectRequest Context.shortRequest]).protectRequest Oscore.TestVector.crypto
            markedRequest).1 = .ok (sent, p.request) ∧
        p.packet.payload = p.carried.getD [] ++ sent.payload) ∧
      p.carried = (if spent Oscore.TestVector.crypto a [.protectRequest Context.shortRequest] then
        none else some [0x40]) ∧
      (p.packet.options.has Coap.Options.edhoc = true ↔
        p.carried.isSome = true ∨ markedRequest.options.has Coap.Options.edhoc = true) ∧
      ((p.packet.options.has Coap.Options.edhoc = true ↔ p.carried.isSome = true) ↔
        (markedRequest.options.has Coap.Options.edhoc = true → p.carried.isSome = true)) := by
  obtain ⟨a, p, ha, -, hok⟩ := protect_testVector
  exact ⟨a, p, ha, hok, marked_iff hok⟩

/-- The message is gone with the first request, and the second one is marked all the same. -/
theorem marked_without_message :
    ∃ a p, Context.derive Oscore.TestVector.crypto Oscore.TestVector.client = .ok a ∧
      spent Oscore.TestVector.crypto a [.protectRequest Context.shortRequest] = true ∧
      (((⟨a, some [0x40]⟩ : EdhocContext).after Oscore.TestVector.crypto
        [.protectRequest Context.shortRequest]).protect Oscore.TestVector.crypto
          markedRequest).1 = .ok p ∧
      p.carried = none ∧
      ¬(p.packet.options.has Coap.Options.edhoc = true ↔ p.carried.isSome = true) := by
  obtain ⟨a, p, ha, hspent, hok⟩ := protect_testVector
  obtain ⟨sent, -, hsame, hcarried, hpacket⟩ := of_protected_after hok
  rw [hspent, if_pos rfl] at hcarried
  have hmarked : p.packet.options.has Coap.Options.edhoc = true := by
    rw [hpacket, hcarried]
    exact hsame
  refine ⟨a, p, ha, hspent, hok, hcarried, ?_⟩
  intro h
  have hsome := h.mp hmarked
  rw [hcarried] at hsome
  cases hsome

/-! ### Taking apart what was put together -/

/-- If requests come without the option, the message that the first one takes along is separated
from it, and what is left is the request as the security context protects it. Later requests are
left alone. Whatever is separated from a marked packet is one byte string, with nothing lost and
nothing else changed, and then nothing is left to separate. -/
theorem split_undoes_combine (crypto : Primitives) :
    (∀ (c : Context) (message : Bytes) (before : List Call) (m : Coap.Packet) (p : Protected),
      Cbor.IsByteString message → m.options.has Coap.Options.edhoc = false →
      (((⟨c, some message⟩ : EdhocContext).after crypto before).protect crypto m).1 = .ok p →
      if spent crypto c before then splitCombined p.packet = .ok (none, p.packet)
      else
        ∃ sent q, ((c.after crypto before).protectRequest crypto m).1 = .ok (sent, p.request) ∧
          splitCombined p.packet = .ok (some message, q) ∧ q.SameAs sent) ∧
    ∀ (packet q : Coap.Packet) (message? : Option Bytes),
      packet.options.has Coap.Options.edhoc = true → splitCombined packet = .ok (message?, q) →
      ∃ message, message? = some message ∧ Separated packet message q ∧
        splitCombined q = .ok (none, q) := by
  constructor
  · intro c message before m p hmessage hplain hok
    obtain ⟨sent, hsent, hsame, hcarried, hpacket⟩ := of_protected_after hok
    rw [hplain] at hsame
    rw [hpacket, hcarried]
    split
    · exact splitCombined_of_not_has hsame
    · obtain ⟨q, hsplit, hq⟩ := split_combine hmessage hsame
      exact ⟨sent, q, hsent, hsplit, hq⟩
  · intro packet q message? hmarked hsplit
    obtain ⟨message, hmessage, hseparated⟩ := separated_of_split hmarked hsplit
    exact ⟨message, hmessage, hseparated, hseparated.split⟩

theorem split_undoes_combine_testVector :
    ∃ a p sent q, Context.derive Oscore.TestVector.crypto Oscore.TestVector.client = .ok a ∧
      Cbor.IsByteString [0x43, 1, 2, 3] ∧
      Context.shortRequest.options.has Coap.Options.edhoc = false ∧
      (((⟨a, some [0x43, 1, 2, 3]⟩ : EdhocContext).after Oscore.TestVector.crypto []).protect
        Oscore.TestVector.crypto Context.shortRequest).1 = .ok p ∧
      (a.protectRequest Oscore.TestVector.crypto Context.shortRequest).1 = .ok (sent, p.request) ∧
      splitCombined p.packet = .ok (some [0x43, 1, 2, 3], q) ∧ q.SameAs sent ∧
      p.packet.options.has Coap.Options.edhoc = true ∧
      Separated p.packet [0x43, 1, 2, 3] q ∧ splitCombined q = .ok (none, q) := by
  obtain ⟨a, -, ha, -, -⟩ := Oscore.TestVector.derive_client
  have hmessage : Cbor.IsByteString [0x43, 1, 2, 3] := by decide
  have hplain : Context.shortRequest.options.has Coap.Options.edhoc = false := by decide
  have hnumber : a.sequenceNumber ≤ Oscore.PartialIv.maxNumber := by
    rw [Context.sequenceNumber_of_derive ha]
    exact Nat.zero_le _
  obtain ⟨p, hok⟩ : ∃ p, (((⟨a, some [0x43, 1, 2, 3]⟩ : EdhocContext).after
      Oscore.TestVector.crypto []).protect Oscore.TestVector.crypto
        Context.shortRequest).1 = .ok p :=
    protect_of_protectable (Oscore.TestVector.encryptsUpTo.mono (by decide))
      Context.protectable_shortRequest hnumber
  obtain ⟨hcombined, hmarked⟩ := split_undoes_combine Oscore.TestVector.crypto
  obtain ⟨sent, q, hsent, hsplit, hq⟩ := hcombined a _ [] _ p hmessage hplain hok
  have hhas : p.packet.options.has Coap.Options.edhoc = true := by
    obtain ⟨sent', -, -, hcarried, hpacket⟩ := of_protected_after hok
    rw [hpacket, hcarried]
    exact has_combine _ sent'
  obtain ⟨message, hmessage', hseparated, hagain⟩ := hmarked p.packet q _ hhas hsplit
  cases hmessage'
  exact ⟨a, p, sent, q, ha, hmessage, hplain, hok, hsent, hsplit, hq, hhas, hseparated, hagain⟩

end EdhocContext

end Session

end SecureCoap
