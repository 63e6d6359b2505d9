import SecureCoap.Proofs.Oscore.RoundTrip

/-!
# What a protected message shows

A protected message shows what stays outside of the message in it, how it is protected, and a
ciphertext. Two messages that agree in what stays outside look the same under the same protection,
but for their ciphertexts.
-/

namespace SecureCoap

namespace Oscore

variable {crypto : Primitives} {m m' q q' : Coap.Packet} {option : Bytes}

/-! ### Messages from outside -/

/-- Whoever has no key can not tell these messages apart once they are protected: they differ at
most in private options, in the payload, and in codes of the same kind. -/
structure SameOutside (m m' : Coap.Packet) : Prop where
  version : m.version = m'.version
  type : m.type = m'.type
  messageId : m.messageId = m'.messageId
  token : m.token = m'.token
  kind : m.code.isResponse = m'.code.isResponse
  values : ∀ n ∈ publicOptions, m.options.values n = m'.options.values n

/-- The packet `q` shows no more of `m` than its header and public options, and whether it is a
response. For the option of protected messages it has the one value `option`. -/
structure Exposes (m : Coap.Packet) (option : Bytes) (q : Coap.Packet) : Prop where
  version : q.version = m.version
  type : q.type = m.type
  code : q.code = if m.code.isResponse then .response .changed else .request .post
  messageId : q.messageId = m.messageId
  token : q.token = m.token
  publicly : ∀ n ∈ publicOptions, q.options.values n = m.options.values n
  protection : q.options.values Coap.Options.oscore = [option]
  nothingElse : ∀ n ∉ publicOptions, n ≠ Coap.Options.oscore → q.options.values n = []

theorem exposes_outer (m : Coap.Packet) (option ciphertext : Bytes) :
    Exposes m option (outer m option ciphertext) where
  version := rfl
  type := rfl
  code := rfl
  messageId := rfl
  token := rfl
  publicly n hn := values_outer (isPrivate_eq_false_iff.mpr hn) option ciphertext
  protection := values_outer_oscore m option ciphertext
  nothingElse := by
    intro n hn hne
    show (((m.options.clearWhere isPrivate).add Coap.Options.oscore option).values? n).getD [] = _
    rw [Coap.Options.values?_add_of_ne _ hne]
    show (m.options.clearWhere isPrivate).values n = _
    rw [Coap.Options.values_clearWhere, if_pos (isPrivate_iff.mpr hn)]

/-- Of messages that are the same from outside, packets are the same but for the payload. -/
theorem Exposes.sameAs (h : Exposes m option q) (h' : Exposes m' option q')
    (hsame : SameOutside m m') : q.SameAs { q' with payload := q.payload } where
  version := by rw [h.version, h'.version, hsame.version]
  type := by rw [h.type, h'.type, hsame.type]
  code := by rw [h.code, h'.code, hsame.kind]
  messageId := by rw [h.messageId, h'.messageId, hsame.messageId]
  token := by rw [h.token, h'.token, hsame.token]
  values := by
    intro n
    show q.options.values n = q'.options.values n
    by_cases hpublic : n ∈ publicOptions
    · rw [h.publicly n hpublic, h'.publicly n hpublic, hsame.values n hpublic]
    · by_cases hprotection : n = Coap.Options.oscore
      · rw [hprotection, h.protection, h'.protection]
      · rw [h.nothingElse n hpublic hprotection, h'.nothingElse n hpublic hprotection]
  payload := rfl

/-! ### Ways to protect a message -/

/-- A message is protected as a request or as the response to one. -/
inductive Protection where
  | request
  | response (request : RequestId) (reusePiv : Bool)

namespace Protection

def call (way : Protection) (m : Coap.Packet) : Call :=
  match way with
  | request => .protectRequest m
  | response id reusePiv => .protectResponse m id reusePiv

/-- What the option of a protected message tells. Nothing of it comes from the message. -/
def optionValue (ctx : Context) : Protection → OptionValue
  | request => ⟨some ctx.senderId, some (PartialIv.ofNumber ctx.sequenceNumber)⟩
  | response _ true => ⟨none, none⟩
  | response _ false => ⟨none, some (PartialIv.ofNumber ctx.sequenceNumber)⟩

/-- The request that a protected message belongs to, if that is told to the caller. -/
def requestId (ctx : Context) : Protection → Option RequestId
  | request => some ⟨ctx.senderId, PartialIv.ofNumber ctx.sequenceNumber⟩
  | response .. => none

end Protection

namespace Context

variable {ctx : Context} {way : Protection} {o o' : Outcome}

/-- A message goes out as its outer part, with the ciphertext of what is encrypted of it. -/
theorem perform_protection_eq_ok (h : (ctx.perform crypto (way.call m)).1 = .ok o) :
    ∃ s ciphertext, (way.call m).sealing? ctx = some s ∧ s.run crypto = .ok ciphertext ∧
      o = ⟨outer m (way.optionValue ctx).encode ciphertext, way.requestId ctx⟩ := by
  cases way with
  | request =>
    rw [Protection.call, perform_protectRequest, map_eq_ok] at h
    obtain ⟨⟨packet, id⟩, hseal, rfl⟩ := h
    obtain ⟨s, ciphertext, hs, hrun, rfl⟩ := sealRequest_eq_ok.mp hseal
    obtain ⟨-, rfl, -⟩ := requestSealing_eq_ok.mp hs
    refine ⟨s, ciphertext, ?_, hrun, rfl⟩
    rw [Protection.call, Call.sealing?, hs]
    rfl
  | response id reusePiv =>
    rw [Protection.call, perform_protectResponse, map_eq_ok] at h
    obtain ⟨packet, hseal, rfl⟩ := h
    obtain ⟨s, piv, ciphertext, hs, hrun, rfl⟩ := sealResponse_eq_ok.mp hseal
    refine ⟨s, ciphertext, ?_, hrun, ?_⟩
    · rw [Protection.call, Call.sealing?, hs]
      rfl
    · cases reusePiv with
      | true =>
        obtain ⟨rfl, -⟩ := responseSealing_reuse_eq_ok.mp hs
        rfl
      | false =>
        obtain ⟨-, rfl, -⟩ := responseSealing_own_eq_ok.mp hs
        rfl

/-- Whatever the state of a context is, a message that it protects shows its header, its public
options, whether it is a response, and what the context tells in the option of protected messages;
the payload is a ciphertext. If two messages are the same from outside, all that they show in the
same state under the same protection is the same but for the ciphertext. -/
theorem exposes_public_parts (crypto : Primitives) (ctx : Context) (way : Protection) :
    (∀ m o, (ctx.perform crypto (way.call m)).1 = .ok o →
      Exposes m (way.optionValue ctx).encode o.packet ∧
        ∃ s, (way.call m).sealing? ctx = some s ∧ s.run crypto = .ok o.packet.payload) ∧
    ∀ m m' o o', SameOutside m m' → (ctx.perform crypto (way.call m)).1 = .ok o →
      (ctx.perform crypto (way.call m')).1 = .ok o' →
        o.packet.SameAs { o'.packet with payload := o.packet.payload } ∧
          o.packet.options.encode = o'.packet.options.encode ∧ o.id = o'.id := by
  constructor
  · intro m o h
    obtain ⟨s, ciphertext, hs, hrun, rfl⟩ := perform_protection_eq_ok h
    exact ⟨exposes_outer m _ ciphertext, s, hs, hrun⟩
  · intro m m' o o' hsame h h'
    obtain ⟨-, ciphertext, -, -, rfl⟩ := perform_protection_eq_ok h
    obtain ⟨-, ciphertext', -, -, rfl⟩ := perform_protection_eq_ok h'
    have hshown := exposes_outer m (way.optionValue ctx).encode ciphertext
    have hshown' := exposes_outer m' (way.optionValue ctx).encode ciphertext'
    have hpackets := hshown.sameAs hshown' hsame
    exact ⟨hpackets, Coap.Options.encode_congr hpackets.values, rfl⟩

/-! ### Two messages that look the same -/

/-- As long as there are sequence numbers, a message that may be protected is protected either
way. -/
theorem perform_protection_of_protectable (hencrypts : crypto.EncryptsUpTo Coap.maxPacketLength)
    (hm : Protectable m) (hnumber : ctx.sequenceNumber ≤ PartialIv.maxNumber) (way : Protection) :
    ∃ o, (ctx.perform crypto (way.call m)).1 = .ok o := by
  cases way with
  | request =>
    obtain ⟨packet, id, h⟩ := perform_protectRequest_of_protectable hencrypts hm hnumber
    exact ⟨_, congrArg Prod.fst h⟩
  | response id reusePiv =>
    obtain ⟨nonce, piv, hseals⟩ : ∃ nonce piv, ∀ s, ctx.sealing m id nonce = .ok s →
        ctx.responseSealing m id reusePiv = .ok (s, piv) := by
      cases reusePiv with
      | true => exact ⟨_, _, fun s hs => responseSealing_reuse_eq_ok.mpr ⟨rfl, hs⟩⟩
      | false => exact ⟨_, _, fun s hs => responseSealing_own_eq_ok.mpr ⟨hnumber, rfl, hs⟩⟩
    obtain ⟨text, ciphertext, -, hsealing, hciphertext, -, -⟩ :=
      sealing_of_protectable ctx hencrypts hm id nonce
    have hsealed := sealResponse_eq_ok.mpr
      ⟨_, piv, ciphertext, hseals _ hsealing, Sealing.run_eq_ok.mpr hciphertext, rfl⟩
    rw [Protection.call, perform_protectResponse, hsealed]
    exact ⟨_, rfl⟩

/-- A request that differs from `mixedRequest` in what goes inside only: it has another method and
payload, another path, and no option of an earlier protection. -/
def plainRequest : Coap.Packet :=
  { mixedRequest with
    code := .request .delete
    options :=
      ((Coap.Options.empty.add Coap.Options.uriHost [0x3A, 0x3A, 0x31]).add
        Coap.Options.uriPath [0x78]).add Coap.Options.edhoc []
    payload := [] }

theorem protectable_plainRequest : Protectable plainRequest where
  code := by decide
  supported := by decide
  numbers := by decide
  length := by decide

theorem exposes_public_parts_mixedRequest :
    SameOutside mixedRequest plainRequest ∧
      ∃ a, derive TestVector.crypto TestVector.client = .ok a ∧ ∀ way : Protection, ∃ o o',
        (a.perform TestVector.crypto (way.call mixedRequest)).1 = .ok o ∧
        (a.perform TestVector.crypto (way.call plainRequest)).1 = .ok o' ∧
        Exposes mixedRequest (way.optionValue a).encode o.packet ∧
        o.packet.SameAs { o'.packet with payload := o.packet.payload } ∧
        o.packet.options.encode = o'.packet.options.encode ∧ o.id = o'.id := by
  have hsame : SameOutside mixedRequest plainRequest :=
    ⟨rfl, rfl, rfl, rfl, rfl, by decide⟩
  obtain ⟨a, -, ha, -, -⟩ := TestVector.derive_client
  have hnumber : a.sequenceNumber ≤ PartialIv.maxNumber := by
    rw [sequenceNumber_of_derive ha]
    exact Nat.zero_le _
  have hencrypts := TestVector.encryptsUpTo.mono (show Coap.maxPacketLength ≤ _ by decide)
  refine ⟨hsame, a, ha, ?_⟩
  intro way
  obtain ⟨o, ho⟩ := perform_protection_of_protectable hencrypts protectable_mixedRequest hnumber way
  obtain ⟨o', ho'⟩ :=
    perform_protection_of_protectable hencrypts protectable_plainRequest hnumber way
  obtain ⟨hexposes, hagree⟩ := exposes_public_parts TestVector.crypto a way
  exact ⟨o, o', ho, ho', (hexposes _ o ho).1, hagree _ _ o o' hsame ho ho'⟩

end Context

end Oscore

end SecureCoap
