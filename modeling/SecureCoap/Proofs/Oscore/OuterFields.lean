import SecureCoap.Proofs.Oscore.RoundTrip

/-!
# What of a packet does not reach the application

The outer code of a protected message, the outer options that are to be inside and all values but
the first of the option of protected messages could come from anyone. Whatever they are, the message
is accepted or refused in the same way, and what comes out of it is the same.
-/

namespace SecureCoap

namespace Oscore

variable {crypto : Primitives} {p q : Coap.Packet}

/-! ### Packets and results -/

/-- The packets differ at most in their codes, in private options, and in values of the option of
protected messages after the first. -/
structure SameForReceiver (p q : Coap.Packet) : Prop where
  version : p.version = q.version
  type : p.type = q.type
  messageId : p.messageId = q.messageId
  token : p.token = q.token
  payload : p.payload = q.payload
  publicly : ∀ n ∈ publicOptions, p.options.values n = q.options.values n
  protection : (p.options.values Coap.Options.oscore).head? =
    (q.options.values Coap.Options.oscore).head?

/-- The same failure, or messages that agree but for entries without values, for the same
request. -/
inductive Alike : Except Error Outcome → Except Error Outcome → Prop where
  | error (e : Error) : Alike (.error e) (.error e)
  | ok {o o' : Outcome} : o.packet.SameAs o'.packet → o.id = o'.id → Alike (.ok o) (.ok o')

/-- After the same first part, it is enough that the rest is alike for whatever comes out of it. -/
theorem Alike.bind {α β : Type} {f f' : α → Except Error β} {g g' : β → Outcome}
    (x : Except Error α) (h : ∀ a, Alike ((f a).map g) ((f' a).map g')) :
    Alike ((x >>= f).map g) ((x >>= f').map g') := by
  cases x with
  | error e => exact .error e
  | ok a => exact h a

theorem Alike.isOk_eq {r r' : Except Error Outcome} (h : Alike r r') : r.isOk = r'.isOk := by
  cases h with
  | error e => rfl
  | ok hpacket hid => rfl

theorem Alike.eq_error_iff {r r' : Except Error Outcome} (h : Alike r r') {e : Error} :
    r = .error e ↔ r' = .error e := by
  cases h with
  | error e' => rfl
  | ok hpacket hid => simp

theorem OptionValue.ofPacket_congr
    (h : (p.options.values Coap.Options.oscore).head? =
      (q.options.values Coap.Options.oscore).head?) :
    OptionValue.ofPacket p = OptionValue.ofPacket q := by
  unfold OptionValue.ofPacket
  cases hp : p.options.values Coap.Options.oscore with
  | nil =>
    cases hq : q.options.values Coap.Options.oscore with
    | nil => rfl
    | cons w ws =>
      rw [hp, hq] at h
      cases h
  | cons v vs =>
    cases hq : q.options.values Coap.Options.oscore with
    | nil =>
      rw [hp, hq] at h
      cases h
    | cons w ws =>
      rw [hp, hq] at h
      cases h
      rfl

/-- What is inside replaces all that may differ. -/
theorem SameForReceiver.merge (h : SameForReceiver p q) (inside : Coap.Packet) :
    (Oscore.merge p inside).SameAs (Oscore.merge q inside) where
  version := h.version
  type := h.type
  code := rfl
  messageId := h.messageId
  token := h.token
  values := by
    intro n
    show ((p.options.clearWhere isPrivate).overwrite inside.options).values n =
      ((q.options.clearWhere isPrivate).overwrite inside.options).values n
    rw [Coap.Options.values_overwrite, Coap.Options.values_overwrite,
      Coap.Options.values_clearWhere, Coap.Options.values_clearWhere]
    by_cases hprivate : isPrivate n = true
    · rw [if_pos hprivate, if_pos hprivate]
    · have hpublic : n ∈ publicOptions := isPrivate_eq_false_iff.mp (by simpa using hprivate)
      rw [if_neg hprivate, if_neg hprivate, h.publicly n hpublic]
  payload := rfl

/-! ### Ways for a packet to arrive -/

/-- A packet is taken for a request or for the response to one. -/
inductive Arrival where
  | request
  | response (request : RequestId)

def Arrival.call (way : Arrival) (packet : Coap.Packet) : Call :=
  match way with
  | request => .unprotectRequest packet
  | response id => .unprotectResponse packet id

theorem Alike.accepted?_eq {r r' : Except Error Outcome} (h : Alike r r') (way : Arrival)
    (p q : Coap.Packet) : (way.call p).accepted? r = (way.call q).accepted? r' := by
  cases way with
  | request =>
    cases h with
    | error e => rfl
    | ok hpacket hid => exact hid
  | response id => rfl

namespace Context

variable {ctx : Context} {o : Outcome}

/-! ### What is decrypted of a packet -/

theorem opening_congr (hcheck : checkOptions p.options = checkOptions q.options)
    (hpayload : p.payload = q.payload) (id : RequestId) (nonce : Bytes) :
    ctx.opening p id nonce = ctx.opening q id nonce := by
  unfold opening
  rw [hcheck, hpayload]

theorem requestOpening_congr (hcheck : checkOptions p.options = checkOptions q.options)
    (hpayload : p.payload = q.payload) (hvalue : OptionValue.ofPacket p = OptionValue.ofPacket q) :
    ctx.requestOpening p = ctx.requestOpening q := by
  unfold requestOpening
  simp only [hvalue, opening_congr hcheck hpayload]

theorem responseOpening_congr (hcheck : checkOptions p.options = checkOptions q.options)
    (hpayload : p.payload = q.payload) (hvalue : OptionValue.ofPacket p = OptionValue.ofPacket q)
    (id : RequestId) : ctx.responseOpening p id = ctx.responseOpening q id := by
  unfold responseOpening
  simp only [hvalue, opening_congr hcheck hpayload]

/-- If the same is decrypted of two packets, what comes out of them differs at most in what is
merged. -/
theorem alike_request (hopening : ctx.requestOpening p = ctx.requestOpening q)
    (hmerge : ∀ inside, (merge p inside).SameAs (merge q inside)) :
    Alike (ctx.perform crypto (.unprotectRequest p)).1
      (ctx.perform crypto (.unprotectRequest q)).1 := by
  rw [perform_unprotectRequest, perform_unprotectRequest]
  unfold openRequest
  rw [hopening]
  refine .bind _ fun opened => .bind _ fun text => .bind _ fun inside => ?_
  exact .ok (hmerge inside) rfl

theorem alike_response {id : RequestId}
    (hopening : ctx.responseOpening p id = ctx.responseOpening q id)
    (hmerge : ∀ inside, (merge p inside).SameAs (merge q inside)) :
    Alike (ctx.perform crypto (.unprotectResponse p id)).1
      (ctx.perform crypto (.unprotectResponse q id)).1 := by
  rw [perform_unprotectResponse, perform_unprotectResponse]
  unfold openResponse
  rw [hopening]
  refine .bind _ fun opened => .bind _ fun text => .bind _ fun inside => ?_
  exact .ok (hmerge inside) rfl

/-- A packet is accepted as what was merged with a message that was read from the plaintext. -/
theorem perform_arrival_eq_ok {way : Arrival}
    (h : (ctx.perform crypto (way.call p)).1 = .ok o) :
    ∃ opening text inside, (way.call p).opening? ctx = some opening ∧
      opening.run crypto = .ok text ∧ parsePlaintext text = .ok inside ∧
      o.packet = merge p inside := by
  cases way with
  | request =>
    rw [Arrival.call, perform_unprotectRequest, map_eq_ok] at h
    obtain ⟨⟨packet, id⟩, hopen, rfl⟩ := h
    obtain ⟨opening, text, inside, hopening, hrun, hparse, rfl⟩ := openRequest_eq_ok.mp hopen
    refine ⟨opening, text, inside, ?_, hrun, hparse, rfl⟩
    rw [Arrival.call, Call.opening?, hopening]
    rfl
  | response id =>
    rw [Arrival.call, perform_unprotectResponse, map_eq_ok] at h
    obtain ⟨packet, hopen, rfl⟩ := h
    obtain ⟨opening, text, inside, hopening, hrun, hparse, rfl⟩ := openResponse_eq_ok.mp hopen
    refine ⟨opening, text, inside, ?_, hrun, hparse, rfl⟩
    rw [Arrival.call, Call.opening?, hopening]
    rfl

theorem alike_arrival (way : Arrival) (hcheck : checkOptions p.options = checkOptions q.options)
    (h : SameForReceiver p q) :
    Alike (ctx.perform crypto (way.call p)).1 (ctx.perform crypto (way.call q)).1 := by
  have hvalue := OptionValue.ofPacket_congr h.protection
  cases way with
  | request => exact alike_request (requestOpening_congr hcheck h.payload hvalue) h.merge
  | response id => exact alike_response (responseOpening_congr hcheck h.payload hvalue id) h.merge

/-- Calls of one kind with alike results leave the same context. -/
theorem after_of_alike {call call' : Call}
    (h : Alike (ctx.perform crypto call).1 (ctx.perform crypto call').1)
    (htakes : call.takesNumber = call'.takesNumber)
    (haccepted : call.accepted? (ctx.perform crypto call).1 =
      call'.accepted? (ctx.perform crypto call').1) :
    (ctx.perform crypto call).2 = (ctx.perform crypto call').2 := by
  have hnumber : call.number? ctx (ctx.perform crypto call).1 =
      call'.number? ctx (ctx.perform crypto call').1 := by
    unfold Call.number?
    rw [htakes, h.isOk_eq]
  rw [after_perform, after_perform, hnumber, haccepted]

theorem after_arrival {way : Arrival}
    (h : Alike (ctx.perform crypto (way.call p)).1 (ctx.perform crypto (way.call q)).1) :
    (ctx.perform crypto (way.call p)).2 = (ctx.perform crypto (way.call q)).2 := by
  have htakes : (way.call p).takesNumber = (way.call q).takesNumber := by
    cases way with
    | request => rfl
    | response id => rfl
  exact after_of_alike h htakes (h.accepted?_eq way p q)

/-- Two packets of which neither has an entry for an unsupported option, and which are the same for
the receiver, give the same result in whatever state a context is: the same failure, or messages
that agree, for the same request. They leave the same context. All values of private options that
come out of a packet were in the plaintext that was decrypted of it. -/
theorem outer_fields_stay_outside (crypto : Primitives) (ctx : Context) (way : Arrival)
    (hp : ∀ e ∈ p.options.entries, Unsupported.ofNumber? e.1 = none)
    (hq : ∀ e ∈ q.options.entries, Unsupported.ofNumber? e.1 = none) (h : SameForReceiver p q) :
    Alike (ctx.perform crypto (way.call p)).1 (ctx.perform crypto (way.call q)).1 ∧
      (ctx.perform crypto (way.call p)).2 = (ctx.perform crypto (way.call q)).2 ∧
      ∀ o, (ctx.perform crypto (way.call p)).1 = .ok o → ∃ opening text inside,
        (way.call p).opening? ctx = some opening ∧ opening.run crypto = .ok text ∧
        parsePlaintext text = .ok inside ∧
        ∀ n ∉ publicOptions, o.packet.options.values n = inside.options.values n := by
  have hcheck : checkOptions p.options = checkOptions q.options :=
    (checkOptions_eq_ok.mpr hp).trans (checkOptions_eq_ok.mpr hq).symm
  have halike : Alike (ctx.perform crypto (way.call p)).1 (ctx.perform crypto (way.call q)).1 :=
    alike_arrival way hcheck h
  refine ⟨halike, after_arrival halike, ?_⟩
  intro o ho
  obtain ⟨opening, text, inside, hopening, hrun, hparse, hpacket⟩ := perform_arrival_eq_ok ho
  refine ⟨opening, text, inside, hopening, hrun, hparse, ?_⟩
  intro n hn
  rw [hpacket, values_merge p inside (isPrivate_iff.mpr hn)]

/-! ### A packet that was tampered with -/

/-- The packet with another code, an outer path and one more value of the option of protected
messages. -/
def tampered (p : Coap.Packet) : Coap.Packet :=
  { p with
    code := .response .notFound
    options := (p.options.add Coap.Options.uriPath [0x78]).add Coap.Options.oscore [0x01] }

theorem sameForReceiver_tampered (h : p.options.values Coap.Options.oscore ≠ []) :
    SameForReceiver p (tampered p) where
  version := rfl
  type := rfl
  messageId := rfl
  token := rfl
  payload := rfl
  publicly := by
    intro n hn
    have hpath : n ≠ Coap.Options.uriPath := by
      rintro rfl
      exact absurd hn (by decide)
    have hoscore : n ≠ Coap.Options.oscore := by
      rintro rfl
      exact absurd hn (by decide)
    show _ = (((p.options.add _ _).add _ _).values? n).getD []
    rw [Coap.Options.values?_add_of_ne _ hoscore, Coap.Options.values?_add_of_ne _ hpath]
    rfl
  protection := by
    have hpath : Coap.Options.oscore ≠ Coap.Options.uriPath := by decide
    have hold : (p.options.add Coap.Options.uriPath [0x78]).values Coap.Options.oscore =
        p.options.values Coap.Options.oscore := by
      unfold Coap.Options.values
      rw [Coap.Options.values?_add_of_ne _ hpath]
    show _ = ((((p.options.add _ _).add _ _).values? Coap.Options.oscore).getD []).head?
    rw [Coap.Options.values?_add_self, hold]
    exact (List.head?_append_of_ne_nil _ h).symm

theorem supported_tampered (h : ∀ e ∈ p.options.entries, Unsupported.ofNumber? e.1 = none) :
    ∀ e ∈ (tampered p).options.entries, Unsupported.ofNumber? e.1 = none := by
  intro e he
  rcases Coap.Options.mem_alterEntries he with hoscore | he
  · rw [hoscore]
    rfl
  · rcases Coap.Options.mem_alterEntries he with hpath | he
    · rw [hpath]
      rfl
    · exact h e he

/-- A request that was tampered with still comes out as it was sent. -/
theorem outer_fields_stay_outside_tampered :
    ∃ a b packet id o o', derive TestVector.crypto TestVector.client = .ok a ∧
      derive TestVector.crypto TestVector.client.swap = .ok b ∧
      (a.protectRequest TestVector.crypto mixedRequest).1 = .ok (packet, id) ∧
      (b.perform TestVector.crypto (.unprotectRequest packet)).1 = .ok o ∧
      o.packet.SameAs mixedRequest ∧
      (b.perform TestVector.crypto (.unprotectRequest (tampered packet))).1 = .ok o' ∧
      o.packet.SameAs o'.packet ∧ o.id = o'.id ∧
      (b.perform TestVector.crypto (.unprotectRequest packet)).2 =
        (b.perform TestVector.crypto (.unprotectRequest (tampered packet))).2 ∧
      ∃ opening text inside, Call.opening? b (.unprotectRequest packet) = some opening ∧
        opening.run TestVector.crypto = .ok text ∧ parsePlaintext text = .ok inside ∧
        ∀ n ∉ publicOptions, o.packet.options.values n = inside.options.values n := by
  obtain ⟨a, b, ha, hb, -⟩ := TestVector.derive_client
  have hnumber : a.sequenceNumber = 0 := sequenceNumber_of_derive ha
  obtain ⟨packet, id, m, hsent, hreceived, hsame⟩ := request_round_trip (matches_of_derive ha hb)
    TestVector.roundTrips (TestVector.encryptsUpTo.mono (by decide)) protectable_mixedRequest
    (by rw [hnumber]; exact Nat.zero_le _) ((tracks_of_derive hb).isValid_of_nil a.sequenceNumber)
  obtain ⟨option, ciphertext, hpacket⟩ := outer_of_protectRequest hsent
  have hvalue : packet.options.values Coap.Options.oscore ≠ [] := by
    rw [hpacket, values_outer_oscore]
    exact List.cons_ne_nil _ _
  have hsupported : ∀ e ∈ packet.options.entries, Unsupported.ofNumber? e.1 = none := by
    rw [hpacket]
    exact checkOptions_eq_ok.mp (checkOptions_outer
      (checkOptions_eq_ok.mpr protectable_mixedRequest.supported) option ciphertext)
  have haccepted : (b.perform TestVector.crypto (.unprotectRequest packet)).1 =
      .ok ⟨m, some id⟩ := by
    show ((b.unprotectRequest TestVector.crypto packet).1).map Outcome.request = _
    rw [hreceived]
    rfl
  obtain ⟨halike, hafter, hinside⟩ := outer_fields_stay_outside TestVector.crypto b .request
    hsupported (supported_tampered hsupported) (sameForReceiver_tampered hvalue)
  rw [Arrival.call, haccepted] at halike
  rcases hresult : (b.perform TestVector.crypto (.unprotectRequest (tampered packet))).1 with e | o'
  · rw [Arrival.call, hresult] at halike
    cases halike
  · rw [Arrival.call, hresult] at halike
    cases halike with
    | ok hpackets hids =>
      exact ⟨a, b, packet, id, _, o', ha, hb, hsent, haccepted, hsame, hresult, hpackets, hids,
        hafter, hinside _ haccepted⟩

end Context

end Oscore

end SecureCoap
