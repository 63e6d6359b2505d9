import SecureCoap.Proofs.Oscore.OuterFields
import SecureCoap.Proofs.Session.Combined
import SecureCoap.Proofs.Session.Courses
import SecureCoap.Proofs.Session.Registration

/-!
# What an established handshake did

A handshake that ends with a session has asked the engine for all messages, has sent two packets,
and has gone through all phases in order. The session is what these acts come to.
-/

namespace SecureCoap

namespace Session

open Oscore (Context)

variable {ε τ : Type} {s : Setting ε τ}

/-! ### Packets of a handshake -/

/-- The packet posts the first message to the configured path, and has no other options. -/
structure Greeting (config : Config) (message : Bytes) (packet : Coap.Packet) : Prop where
  code : packet.code = .request .post
  payload : packet.payload = 0xF5 :: message
  path : packet.options.values Coap.Options.uriPath =
    ((config.path.splitOn "/").filter (· ≠ "")).map Utf8.encode
  nothingElse : ∀ n, n ≠ Coap.Options.uriPath → packet.options.values n = []

theorem greeting_messageRequest (config : Config) (message : Bytes) :
    Greeting config message (Handshake.messageRequest config (Edhoc.firstPayload message)) := by
  have hoptions : (Handshake.messageRequest config (Edhoc.firstPayload message)).options =
      Coap.Options.empty.addValues Coap.Options.uriPath (config.pathSegments.map Utf8.encode) := by
    unfold Coap.Options.addValues
    rw [List.foldl_map]
    rfl
  refine ⟨rfl, rfl, ?_, ?_⟩
  · rw [hoptions, Coap.Options.values_addValues_self]
    rfl
  · intro n hn
    rw [hoptions]
    unfold Coap.Options.values
    rw [Coap.Options.values?_addValues_of_ne _ hn]
    rfl

/-- The packet is the request, protected by the context under the sequence number zero as `sent`,
and carries the final message in front of the ciphertext. -/
structure FirstRequest (crypto : Primitives) (context : Context) (request : Coap.Packet)
    (final : Bytes) (sent packet : Coap.Packet) : Prop where
  identified : (context.protectRequest crypto request).1 = .ok (sent, ⟨context.senderId, [0x00]⟩)
  encrypted : ∃ sealing,
    context.requestSealing request = .ok (sealing, ⟨context.senderId, [0x00]⟩) ∧
      sealing.run crypto = .ok sent.payload
  carries : Carries final sent packet
  marked : packet.options.has Coap.Options.edhoc = true
  partialIv : Oscore.OptionValue.ofPacket packet = .ok ⟨some context.senderId, some [0x00]⟩

theorem firstRequest_of_protect {crypto : Primitives} {context : Context} {request : Coap.Packet}
    {final : Bytes} {message : Protected} (hnumber : context.sequenceNumber = 0)
    (h : ((⟨context, some final⟩ : EdhocContext).protect crypto request).1 = .ok message) :
    message.request = ⟨context.senderId, [0x00]⟩ ∧
      ∃ sent, FirstRequest crypto context request final sent message.packet := by
  rw [EdhocContext.protect_eq, mapError_eq_ok] at h
  obtain ⟨⟨sent, id⟩, hprotect, rfl⟩ := map_eq_ok.mp h
  have hseal := Context.protectRequest_eq_ok.mp hprotect
  obtain ⟨sealing, ciphertext, hsealing, hrun, hsent⟩ := Context.sealRequest_eq_ok.mp hseal
  obtain rfl : id = ⟨context.senderId, [0x00]⟩ := by
    obtain ⟨-, hid, -⟩ := Context.requestSealing_eq_ok.mp hsealing
    rw [hid, hnumber]
    rfl
  have hcarries := carries_combine final sent
  have hvalue : Oscore.OptionValue.ofPacket (combine final sent) =
      Oscore.OptionValue.ofPacket sent := by
    apply Oscore.OptionValue.ofPacket_congr
    unfold Coap.Options.values
    rw [hcarries.others _ (by decide)]
  refine ⟨rfl, sent, hprotect, ⟨sealing, hsealing, ?_⟩, hcarries, has_combine final sent, ?_⟩
  · rw [hsent]
    exact hrun
  · show Oscore.OptionValue.ofPacket (combine final sent) = _
    rw [hvalue, Context.ofPacket_of_sealRequest hseal]

/-! ### What came up -/

/-- A packet that went out, what the link gave back for it, and the response in that. -/
structure Exchange where
  packet : Coap.Packet
  reply : Reply
  response : Coap.Packet

/-- What came up in a handshake, in the order in which it did. -/
structure Account where
  first : Bytes
  greeting : Exchange
  second : Edhoc.SecondMessage
  peer : Registry.Credential
  final : Bytes
  secret : Bytes
  salt : Bytes
  /-- The context as it was derived. -/
  context : Context
  /-- The first request, protected but without the final message. -/
  sent : Coap.Packet
  request : Exchange

namespace Account

/-- The acts of a handshake in which all went well. -/
def acts (a : Account) (s : Setting ε τ) (destination : String) (id : ContextId) : List Act :=
  [.asked (.firstMessage s.config.connectionId) (.ok a.first),
    .exchanged destination a.greeting.packet a.greeting.reply,
    .asked (.secondMessage a.greeting.response.payload) (.ok a.second),
    .asked (.verifyPeer s.config.identity s.config.credential a.peer.bytes) (.ok ()),
    .asked (.finalMessage s.config.transfer) (.ok a.final),
    .asked (.exporter 0 [] 16) (.ok a.secret), .asked (.exporter 1 [] 8) (.ok a.salt),
    .registered destination id,
    .exchanged destination a.request.packet a.request.reply]

/-- What came up fits together: the responses came in time, the first message and the first request
went out as they should, the context is that of what was exported, and the response to the first
request is what is left when the protection is taken off. -/
structure Consistent (a : Account) (s : Setting ε τ) (request response : Coap.Packet) : Prop where
  greetingInTime : a.greeting.reply.within s.config.timeout = .ok a.greeting.response
  requestInTime : a.request.reply.within s.config.timeout = .ok a.request.response
  greeting : Greeting s.config a.first a.greeting.packet
  trusted : s.registry.lookup? a.second.credentialId = some a.peer
  derived : contextOf s.crypto (some a.final) s.config.connectionId a.second.connectionId a.secret
    a.salt = .ok ⟨a.context, some a.final⟩
  request : FirstRequest s.crypto a.context request a.final a.sent a.request.packet
  response : ((⟨a.context.advance, none⟩ : EdhocContext).unprotectResponse s.crypto
    a.request.response ⟨a.context.senderId, [0x00]⟩).1 = .ok response

end Account

namespace Handshake

theorem Advances.account {destination : String} {request : Coap.Packet} {acts : List Act}
    {phases : List Phase} {session : Established} {context : EdhocContext}
    (h : Advances s destination request acts phases (.ok (session, context))) :
    ∃ a : Account, acts = a.acts s destination session.context ∧
      phases = [.sentFirst, .receivedSecond, .verified, .contextReady, .sentFirstRequest] ∧
      a.Consistent s request session.response ∧ context = ⟨a.context, some a.final⟩ := by
  cases h with
  | @authenticated _ _ _ _ _ _ second _ hgreet hauthenticate hconclude =>
  cases hgreet with
  | @greeted first reply₁ response₁ _ hreply₁ hpayload =>
  cases hauthenticate with
  | @verified peer hcheck hpeer =>
  cases hconclude with
  | @concluded _ _ _ _ _ id response hagree hrequest =>
  cases hagree with
  | @agreed final _ _ hderived =>
  cases hderived with
  | @exported secret salt _ hcontext =>
  cases hrequest with
  | @answered message reply₂ response₂ _ hprotect hreply₂ hresponse =>
  obtain ⟨derived, pending⟩ := context
  obtain ⟨own, other, -, -, -, hderive, hpending⟩ := contextOf_eq_ok.mp hcontext
  cases hpending
  -- The context is as it was derived, so that its first request takes the number zero.
  obtain ⟨hid, sent, hfirst⟩ :=
    firstRequest_of_protect (Context.sequenceNumber_of_derive hderive) hprotect
  rw [EdhocContext.after_protect hprotect, hid] at hresponse
  refine ⟨⟨first, ⟨_, reply₁, response₁⟩, second, peer, final, secret, salt, derived, sent,
    ⟨message.packet, reply₂, response₂⟩⟩, rfl, rfl, ?_, rfl⟩
  exact ⟨hreply₁, hreply₂, greeting_messageRequest s.config first, hpeer, hcontext, hfirst,
    hresponse⟩

/-- What came up in a handshake that is established, with the phases that it entered. -/
theorem run_account {destination : String} {request : Coap.Packet} {session : Established}
    {w w' : World ε τ} (h : (run s destination request).run.run w = (.ok session, w')) :
    ∃ (a : Account) (w₁ : World ε τ),
      (advance s destination request).run.run w = (.ok (session, ⟨a.context, some a.final⟩), w₁) ∧
      w.Passes s (a.acts s destination session.context) [.sentFirst, .receivedSecond, .verified,
        .contextReady, .sentFirstRequest, .established] w' ∧
      a.Consistent s request session.response ∧
      session.context = w.transport.contexts.length ∧ w.Entered destination w' ∧
      w'.transport.context? session.context = some ⟨a.context.advance, none⟩ := by
  obtain ⟨context, w₁, hadvance, hfinish⟩ := run_eq_ok h
  obtain ⟨hnew, hentered, hready⟩ := finish_ok hadvance hfinish
  obtain ⟨_, _, hpasses, hadvances⟩ := advance_performs s destination request w
  rw [hadvance] at hpasses hadvances
  obtain ⟨a, rfl, rfl, hconsistent, rfl⟩ := hadvances.account
  obtain ⟨_, _, hend, rfl, rfl⟩ := finish_performs (s := s) destination ⟨a.context, some a.final⟩ w₁
  rw [hfinish] at hend
  -- The end enters the last phase and does nothing to be seen from outside.
  exact ⟨a, w₁, hadvance, hpasses.trans hend, hconsistent, hnew, hentered, hready⟩

/-- A fresh handshake that is established has sent two packets to the destination: the first
message, and the first request under the new context with the final message in front. The context is
that of the destination, is ready for the next request, and has the identifiers that both sides
chose. All phases were entered in order. -/
theorem established_run {engine : ε} {t : Transport τ} {destination : String}
    {request : Coap.Packet} {session : Established} {w' : World ε τ}
    (h : (run s destination request).run.run (World.fresh engine t) = (.ok session, w')) :
    ∃ a : Account, (World.fresh engine t).Does s (a.acts s destination session.context) w' ∧
      a.Consistent s request session.response ∧
      w'.transport.contextFor? destination = some session.context ∧
      (∃ e, w'.transport.context? session.context = some e ∧ e = ⟨a.context.advance, none⟩ ∧
        e.pending = none ∧ e.context.sequenceNumber = 1 ∧ e.context.window = ⟨32, none, 0⟩ ∧
        a.second.connectionId.toOscoreId = .ok e.senderId ∧
        s.config.connectionId.toOscoreId = .ok e.recipientId) ∧
      w'.phaseChanges = [(.start, .sentFirst), (.sentFirst, .receivedSecond),
        (.receivedSecond, .verified), (.verified, .contextReady),
        (.contextReady, .sentFirstRequest), (.sentFirstRequest, .established)] := by
  obtain ⟨a, -, -, hpasses, hconsistent, hnew, hentered, hready⟩ := run_account h
  obtain ⟨own, other, hown, hother, -, hcontext, -⟩ := contextOf_eq_ok.mp hconsistent.derived
  obtain ⟨hsender, hrecipient⟩ := Context.ids_of_derive hcontext
  refine ⟨a, hpasses.acts, hconsistent, ?_, ⟨_, hready, rfl, rfl, ?_, ?_, ?_, ?_⟩, hpasses.changes⟩
  · rw [hentered.self, hnew]
  · show a.context.sequenceNumber + 1 = 1
    rw [Context.sequenceNumber_of_derive hcontext]
  · exact Context.window_of_derive hcontext
  · show _ = Except.ok a.context.senderId
    rw [hsender]
    exact hother
  · show _ = Except.ok a.context.recipientId
    rw [hrecipient]
    exact hown

/-- A handshake on an empty transport, with a responder that has the same keys. The application gets
what the responder protected, and the context has the configured identifier. -/
theorem established_run_testVector :
    let fresh : World Unit Unit := World.fresh () ⟨(), [], []⟩
    ∃ session w', (run vectorSetting "peer" Context.shortRequest).run.run fresh =
        (.ok session, w') ∧
      session.response.SameAs (Context.shortResponse 1) ∧
      ∃ a : Account, fresh.Does vectorSetting (a.acts vectorSetting "peer" session.context) w' ∧
        a.Consistent vectorSetting Context.shortRequest session.response ∧
        w'.transport.contextFor? "peer" = some session.context ∧
        ∃ e, w'.transport.context? session.context = some e ∧ e.pending = none ∧
          e.context.sequenceNumber = 1 ∧ e.recipientId = [0x01] := by
  intro fresh
  obtain ⟨-, session, -, w', -, -, hrun, hsame⟩ :=
    run_vectorSetting "peer" Context.protectable_shortRequest (by decide) fresh
  obtain ⟨a, hdoes, hconsistent, hentry, ⟨e, he, -, hpending, hnumber, -, -, hrecipient⟩, -⟩ :=
    established_run hrun
  exact ⟨session, w', hrun, hsame, a, hdoes, hconsistent, hentry, e, he, hpending, hnumber,
    (Except.ok.inj hrecipient).symm⟩

end Handshake

end Session

end SecureCoap
