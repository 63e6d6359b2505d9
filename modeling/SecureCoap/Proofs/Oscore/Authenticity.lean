import SecureCoap.Proofs.Oscore.Message
import SecureCoap.Proofs.Oscore.NonceUniqueness
import SecureCoap.Proofs.Oscore.OptionValue
import SecureCoap.Proofs.Oscore.Pair
import SecureCoap.Proofs.Oscore.Structures

/-!
# Where accepted requests come from

Two endpoints use contexts that match, and the network between them does with packets what it wants.
If encryption cannot be forged, a request that one endpoint accepts was encrypted by the other one,
either as a request or as a response with a sequence number of its own. Nothing that is checked
tells these two apart.
-/

namespace SecureCoap

namespace Oscore

variable {crypto : Primitives}

theorem plaintext_of_decrypt (hround : crypto.RoundTrips) {x : Sealing} {o : Opening}
    {text : Bytes} (hencrypt : crypto.encrypt x.key x.nonce x.aad x.plaintext = some o.ciphertext)
    (hkey : x.key = o.key) (hnonce : x.nonce = o.nonce) (haad : x.aad = o.aad)
    (hdecrypt : crypto.decrypt o.key o.nonce o.aad o.ciphertext = some text) :
    text = x.plaintext := by
  have hback := hround hencrypt
  rw [hkey, hnonce, haad, hdecrypt] at hback
  exact Option.some.inj hback

/-! ### Requests -/

namespace Context

variable {ctx : Context} {m packet : Coap.Packet} {id : RequestId}

theorem of_accepted
    (h : (ctx.perform crypto (.unprotectRequest packet)).1 = .ok ⟨m, some id⟩) :
    ∃ o text inside, ctx.requestOpening packet = .ok (o, id) ∧
      crypto.decrypt o.key o.nonce o.aad o.ciphertext = some text ∧
      parsePlaintext text = .ok inside ∧ m = merge packet inside := by
  rw [perform_unprotectRequest] at h
  obtain ⟨⟨m', id'⟩, hopen, heq⟩ := map_eq_ok.mp h
  cases heq
  obtain ⟨o, text, inside, ho, htext, hinside, hm⟩ := openRequest_eq_ok.mp hopen
  exact ⟨o, text, inside, ho, Opening.run_eq_ok.mp htext, hinside, hm⟩

theorem id_of_protected (h : (ctx.perform crypto (.protectRequest m)).1 = .ok ⟨packet, some id⟩) :
    ctx.sequenceNumber ≤ PartialIv.maxNumber ∧
      id = ⟨ctx.senderId, PartialIv.ofNumber ctx.sequenceNumber⟩ := by
  rw [perform_protectRequest] at h
  obtain ⟨⟨packet', id'⟩, hseal, heq⟩ := map_eq_ok.mp h
  cases heq
  obtain ⟨s, -, hs, -, -⟩ := sealRequest_eq_ok.mp hseal
  obtain ⟨hle, hid, -⟩ := requestSealing_eq_ok.mp hs
  exact ⟨hle, hid⟩

/-- What identifies a request that is protected or accepted is short. -/
theorem length_piv_of_perform {call : Call} (h : (ctx.perform crypto call).1 = .ok ⟨m, some id⟩) :
    id.piv.length ≤ 7 := by
  cases call with
  | protectRequest request =>
    obtain ⟨hle, rfl⟩ := id_of_protected h
    exact (PartialIv.length_ofNumber_bounds hle).2
  | unprotectRequest packet =>
    obtain ⟨o, -, -, ho, -, -, -⟩ := of_accepted h
    obtain ⟨hvalue, -, -⟩ := requestOpening_eq_ok.mp ho
    exact OptionValue.length_piv_of_ofPacket hvalue rfl
  | protectResponse response request reusePiv =>
    rw [perform_protectResponse] at h
    obtain ⟨packet, -, hresponse⟩ := map_eq_ok.mp h
    cases hresponse
  | unprotectResponse packet request =>
    rw [perform_unprotectResponse] at h
    obtain ⟨packet, -, hresponse⟩ := map_eq_ok.mp h
    cases hresponse

theorem protected_of_encrypt {x : Sealing} {ciphertext : Bytes}
    (hx : (Call.protectRequest m).sealing? ctx = some x)
    (hc : crypto.encrypt x.key x.nonce x.aad x.plaintext = some ciphertext) :
    ∃ packet, (ctx.perform crypto (.protectRequest m)).1 =
      .ok ⟨packet, some ⟨ctx.senderId, PartialIv.ofNumber ctx.sequenceNumber⟩⟩ := by
  obtain ⟨⟨x', id⟩, hs, rfl⟩ := Option.map_eq_some_iff.mp hx
  have hsealing := toOption_eq_some.mp hs
  obtain ⟨-, rfl, -⟩ := requestSealing_eq_ok.mp hsealing
  have hseal := sealRequest_eq_ok.mpr
    ⟨x', ciphertext, hsealing, Sealing.run_eq_ok.mpr hc, rfl⟩
  rw [perform_protectRequest, hseal]
  exact ⟨_, rfl⟩

/-- What the other endpoint encrypts under the nonce and for the additional data of a request is the
request itself, or a response to it under an own number that ends in the same five bytes. -/
theorem sealed_for_request {other : Context} (hmatch : ctx.Matches other) (hfits : ctx.Fits)
    (hids : ctx.senderId ≠ ctx.recipientId) {call : Call} {x : Sealing}
    (hx : call.sealing? other = some x) (hpiv : id.piv.length ≤ 7)
    (hanswered : ∀ rid, call.answered? = some rid → rid.piv.length ≤ 7)
    (hnonce : x.nonce = ctx.peerNonce id.piv) (haad : x.aad = aad ctx.aead id.kid id.piv) :
    (∃ request, call = .protectRequest request ∧
        id = ⟨other.senderId, PartialIv.ofNumber other.sequenceNumber⟩) ∨
      ∃ response, call = .protectResponse response id false ∧
        other.sequenceNumber = id.sequenceNumber % 2 ^ 40 := by
  have hmax : PartialIv.maxNumber = 2 ^ 40 - 1 := rfl
  rcases (sealing_cases hx).2 with ⟨request, rfl, hle, -, hxaad⟩ |
    ⟨response, rid, rfl, hle, hxnonce, hxaad⟩ | ⟨response, rid, rfl, hxnonce, -⟩
  · left
    have hlen := (PartialIv.length_ofNumber_bounds hle).2
    rw [haad, hmatch.aead] at hxaad
    obtain ⟨hkid, hpiv⟩ := aad_injective (by omega) (by omega) hxaad
    exact ⟨request, rfl, by rw [← hkid, ← hpiv]⟩
  · right
    rw [haad, hmatch.aead] at hxaad
    obtain ⟨hkid, hpiv⟩ := aad_injective (by omega) (by have := hanswered rid rfl; omega) hxaad
    have hrid : rid = id := by
      obtain ⟨kid, piv⟩ := id
      obtain ⟨kid', piv'⟩ := rid
      simp only at hkid hpiv
      rw [hkid, hpiv]
    subst hrid
    refine ⟨response, rfl, ?_⟩
    rw [hxnonce, hmatch.ownNonce] at hnonce
    obtain ⟨-, htail⟩ :=
      (nonce_eq_iff hfits.commonIv hfits.recipientId hfits.recipientId).mp hnonce
    have hnumber : rid.sequenceNumber = Bytes.toNat rid.piv % 2 ^ 64 :=
      PartialIv.toNumber_eq_mod rid.piv
    rw [PartialIv.toNat_ofNumber] at htail
    omega
  · -- A response under the number of its request has the nonce of the other identifier.
    rw [hxnonce, hmatch.peerNonce] at hnonce
    exact absurd ((nonce_eq_iff hfits.commonIv hfits.senderId hfits.recipientId).mp hnonce).1 hids

/-! ### Short messages -/

theorem requestSealing_short {ctx : Context} (h : ctx.sequenceNumber = 0) :
    ctx.requestSealing shortRequest =
      .ok (⟨ctx.senderKey, ctx.ownNonce [0], aad ctx.aead ctx.senderId [0], [0x01]⟩,
        ⟨ctx.senderId, [0]⟩) := by
  refine requestSealing_eq_ok.mpr ⟨?_, ?_, sealing_eq_ok.mpr ⟨rfl, [0x01], rfl, rfl⟩⟩
  · rw [h]
    exact Nat.zero_le _
  · rw [h]
    rfl

theorem sealing_shortRequest {ctx : Context} (h : ctx.sequenceNumber = 0) :
    (Call.protectRequest shortRequest).sealing? ctx =
      some ⟨ctx.senderKey, ctx.ownNonce [0], aad ctx.aead ctx.senderId [0], [0x01]⟩ :=
  Option.map_eq_some_iff.mpr ⟨_, toOption_eq_some.mpr (requestSealing_short h), rfl⟩

theorem perform_shortRequest {ctx : Context} (h : ctx.sequenceNumber = 0) {ciphertext : Bytes}
    (hencrypt : crypto.encrypt ctx.senderKey (ctx.ownNonce [0]) (aad ctx.aead ctx.senderId [0])
      [0x01] = some ciphertext) :
    ctx.perform crypto (.protectRequest shortRequest) =
      (.ok ⟨firstRequest ctx.senderId ciphertext, some ⟨ctx.senderId, [0]⟩⟩, ctx.advance) := by
  have hseal : ctx.sealRequest crypto shortRequest
      = .ok (firstRequest ctx.senderId ciphertext, ⟨ctx.senderId, [0]⟩) :=
    sealRequest_eq_ok.mpr
      ⟨_, ciphertext, requestSealing_short h, Sealing.run_eq_ok.mpr hencrypt, rfl⟩
  rw [perform_protectRequest, hseal]
  rfl

theorem opening_first {ctx other : Context} (hmatch : ctx.Matches other)
    (h : ctx.window.isValid 0 = true) (kid ciphertext : Bytes) :
    (Call.unprotectRequest (firstRequest kid ciphertext)).opening? ctx =
      some ⟨other.senderKey, other.ownNonce [0], aad other.aead kid [0], ciphertext⟩ := by
  rw [hmatch.senderKey, hmatch.ownNonce, hmatch.aead]
  exact Option.map_eq_some_iff.mpr
    ⟨_, toOption_eq_some.mpr (requestOpening_first h kid ciphertext), rfl⟩

/-- What the other endpoint encrypts under its number 0 is accepted as a request. -/
theorem perform_first_of_matches {ctx other : Context} (hmatch : ctx.Matches other)
    (h : ctx.window.isValid 0 = true) (hround : crypto.RoundTrips) {kid text ciphertext : Bytes}
    {inside : Coap.Packet}
    (hencrypt : crypto.encrypt other.senderKey (other.ownNonce [0]) (aad other.aead kid [0]) text
      = some ciphertext) (hinside : parsePlaintext text = .ok inside) :
    ctx.perform crypto (.unprotectRequest (firstRequest kid ciphertext)) =
      (.ok ⟨merge (firstRequest kid ciphertext) inside, some ⟨kid, [0]⟩⟩, ctx.accept 0) := by
  rw [hmatch.senderKey, hmatch.ownNonce, hmatch.aead] at hencrypt
  exact perform_first h hround hencrypt hinside

theorem responseSealing_short_own {ctx : Context} (h : ctx.sequenceNumber = 0) (b : UInt8)
    (id : RequestId) :
    ctx.responseSealing (shortResponse b) id false =
      .ok (⟨ctx.senderKey, ctx.ownNonce [0], aad ctx.aead id.kid id.piv, [0x45, 0xFF, b]⟩,
        some [0]) := by
  have hpiv : PartialIv.ofNumber ctx.sequenceNumber = [0] := by
    rw [h]
    rfl
  refine responseSealing_own_eq_ok.mpr ⟨?_, ?_, sealing_eq_ok.mpr ⟨rfl, [0x45, 0xFF, b], rfl, ?_⟩⟩
  · rw [h]
    exact Nat.zero_le _
  · rw [hpiv]
  · rw [hpiv]

theorem sealing_short_own {ctx : Context} (h : ctx.sequenceNumber = 0) (b : UInt8)
    (id : RequestId) :
    (Call.protectResponse (shortResponse b) id false).sealing? ctx =
      some ⟨ctx.senderKey, ctx.ownNonce [0], aad ctx.aead id.kid id.piv, [0x45, 0xFF, b]⟩ :=
  Option.map_eq_some_iff.mpr ⟨_, toOption_eq_some.mpr (responseSealing_short_own h b id), rfl⟩

theorem perform_short_own {ctx : Context} (h : ctx.sequenceNumber = 0) (b : UInt8)
    (id : RequestId) {ciphertext : Bytes}
    (hencrypt : crypto.encrypt ctx.senderKey (ctx.ownNonce [0]) (aad ctx.aead id.kid id.piv)
      [0x45, 0xFF, b] = some ciphertext) :
    ctx.perform crypto (.protectResponse (shortResponse b) id false) =
      (.ok ⟨outer (shortResponse b) (OptionValue.encode ⟨none, some [0]⟩) ciphertext, none⟩,
        ctx.advance) := by
  have hseal : ctx.sealResponse crypto (shortResponse b) id false
      = .ok (outer (shortResponse b) (OptionValue.encode ⟨none, some [0]⟩) ciphertext) :=
    sealResponse_eq_ok.mpr ⟨_, some [0], ciphertext, responseSealing_short_own h b id,
      Sealing.run_eq_ok.mpr hencrypt, rfl⟩
  rw [perform_protectResponse, hseal]
  rfl

end Context

namespace Pair

/-! ### Where ciphertexts come from -/

/-- What the step `s` decrypts was encrypted in one of these steps under the same key and nonce and
with the same additional data. -/
def Encrypted (crypto : Primitives) (steps : List (Step Pair Move)) (s : Step Pair Move) : Prop :=
  ∀ o text, s.call.call.opening? (used s) = some o →
    crypto.decrypt o.key o.nonce o.aad o.ciphertext = some text →
    ∃ t ∈ steps, ∃ x, t.call.call.sealing? (used t) = some x ∧ x.key = o.key ∧
      x.nonce = o.nonce ∧ x.aad = o.aad ∧
      crypto.encrypt x.key x.nonce x.aad x.plaintext = some o.ciphertext

/-- Encryption was not forged: what a step decrypts was encrypted in an earlier step. -/
def Authentic (crypto : Primitives) (steps : List (Step Pair Move)) : Prop :=
  ∀ pre s post, steps = pre ++ s :: post → Encrypted crypto pre s

theorem encrypted_of_opening_none {steps : List (Step Pair Move)} {s : Step Pair Move}
    (h : s.call.call.opening? (used s) = none) : Encrypted crypto steps s := by
  intro o text ho
  rw [h] at ho
  cases ho

theorem encrypted_of_sealing {steps : List (Step Pair Move)} {s t : Step Pair Move} {x : Sealing}
    {ciphertext : Bytes} (ht : t ∈ steps) (hx : t.call.call.sealing? (used t) = some x)
    (ho : s.call.call.opening? (used s) = some ⟨x.key, x.nonce, x.aad, ciphertext⟩)
    (hencrypt : crypto.encrypt x.key x.nonce x.aad x.plaintext = some ciphertext) :
    Encrypted crypto steps s := by
  intro o text ho' _
  rw [ho] at ho'
  cases ho'
  exact ⟨t, ht, x, hx, rfl, rfl, rfl, hencrypt⟩

theorem authentic_nil : Authentic crypto [] := by
  intro pre s post h
  cases pre with
  | nil => cases h
  | cons t pre => cases h

theorem Authentic.concat {steps : List (Step Pair Move)} {s : Step Pair Move}
    (h : Authentic crypto steps) (hs : Encrypted crypto steps s) :
    Authentic crypto (steps ++ [s]) := by
  intro pre t post heq
  rcases List.eq_nil_or_concat' post with rfl | ⟨post, u, rfl⟩
  · obtain ⟨rfl, hlast⟩ := List.append_inj' heq rfl
    cases hlast
    exact hs
  · rw [← List.cons_append, ← List.append_assoc] at heq
    obtain ⟨hsteps, -⟩ := List.append_inj' heq rfl
    exact h pre t post hsteps

/-- In one of these steps endpoint `b` protected the request `id`, and what is private in the
message `m` was read from what it encrypted then. -/
def Genuine (crypto : Primitives) (steps : List (Step Pair Move)) (id : RequestId)
    (m : Coap.Packet) : Prop :=
  ∃ t ∈ steps, t.call.side = .b ∧ (∃ request, t.call.call = .protectRequest request) ∧
    (∃ packet, t.result (Pair.perform crypto) = .ok ⟨packet, some id⟩) ∧
    ∃ x inside, t.call.call.sealing? (used t) = some x ∧ parsePlaintext x.plaintext = .ok inside ∧
      m.code = inside.code ∧ m.payload = inside.payload ∧
      ∀ n, isPrivate n = true → m.options.values n = inside.options.values n

/-- In one of these steps endpoint `b` protected a response to the request `id` with a sequence
number of its own, which equals the last five bytes of that of the request. -/
def Confused (crypto : Primitives) (steps : List (Step Pair Move)) (id : RequestId) : Prop :=
  ∃ t ∈ steps, t.call.side = .b ∧ (∃ response, t.call.call = .protectResponse response id false) ∧
    (t.result (Pair.perform crypto)).isOk = true ∧
    (used t).sequenceNumber = id.sequenceNumber % 2 ^ 40

/-! ### Requests and what passes for one -/

def sending (b : Context) (ciphertext : Bytes) : List Move := [
  ⟨.b, .protectRequest Context.shortRequest⟩,
  ⟨.a, .unprotectRequest (Context.firstRequest b.senderId ciphertext)⟩]

/-- Endpoint `a` sends a request, which endpoint `b` receives. -/
def requesting (a : Context) (ciphertext : Bytes) : List Move := [
  ⟨.a, .protectRequest Context.shortRequest⟩,
  ⟨.b, .unprotectRequest (Context.firstRequest a.senderId ciphertext)⟩]

/-- Endpoint `a` sends a request, which endpoint `b` answers with a sequence number of its own. The
network puts the ciphertext of the answer into the request and gives it back. -/
def reflecting (a : Context) (request response : Bytes) : List Move := [
  ⟨.a, .protectRequest Context.shortRequest⟩,
  ⟨.b, .unprotectRequest (Context.firstRequest a.senderId request)⟩,
  ⟨.b, .protectResponse (Context.shortResponse 1) ⟨a.senderId, [0]⟩ false⟩,
  ⟨.a, .unprotectRequest (Context.firstRequest a.senderId response)⟩]

section

variable {p : Parameters} {size : Nat} {a b : Context}

theorem sending_accepted (ha : Context.derive crypto p = .ok a)
    (hb : Context.derive crypto { p.swap with windowSize := size } = .ok b)
    (hround : crypto.RoundTrips) (hencrypts : crypto.EncryptsUpTo 3) :
    ∃ ciphertext pre s m, Pair.history crypto ⟨a, b⟩ (sending b ciphertext) = pre ++ [s] ∧
      Authentic crypto (pre ++ [s]) ∧
      s.call = ⟨.a, .unprotectRequest (Context.firstRequest b.senderId ciphertext)⟩ ∧
      s.result (Pair.perform crypto) = .ok ⟨m, some ⟨b.senderId, [0]⟩⟩ := by
  have hmatch := Context.matches_of_derive ha hb
  have hnumber := Context.sequenceNumber_of_derive hb
  have hvalid := (Context.tracks_of_derive ha).isValid_of_nil 0
  obtain ⟨c, hc⟩ := hencrypts b.senderKey (b.ownNonce [0]) (aad b.aead b.senderId [0]) [0x01]
    (by decide)
  have hsent := perform_b a (Context.perform_shortRequest hnumber hc)
  have hreceived := perform_a b.advance
    (Context.perform_first_of_matches hmatch hvalid hround hc rfl)
  refine ⟨c, [⟨⟨a, b⟩, ⟨.b, .protectRequest Context.shortRequest⟩⟩],
    ⟨⟨a, b.advance⟩, ⟨.a, .unprotectRequest (Context.firstRequest b.senderId c)⟩⟩, _, ?_, ?_, rfl,
    congrArg Prod.fst hreceived⟩
  · unfold sending Pair.history
    rw [history_cons, history_cons, history_nil, hsent]
    rfl
  · show Authentic crypto (([] ++ [_]) ++ [_])
    refine (authentic_nil.concat (encrypted_of_opening_none rfl)).concat ?_
    exact encrypted_of_sealing (List.mem_singleton_self _) (Context.sealing_shortRequest hnumber)
      (Context.opening_first hmatch hvalid b.senderId c) hc

theorem requesting_received (ha : Context.derive crypto p = .ok a)
    (hb : Context.derive crypto { p.swap with windowSize := size } = .ok b)
    (hround : crypto.RoundTrips) (hencrypts : crypto.EncryptsUpTo 3) :
    ∃ ciphertext, a.perform crypto (.protectRequest Context.shortRequest) =
        (.ok ⟨Context.firstRequest a.senderId ciphertext, some ⟨a.senderId, [0]⟩⟩, a.advance) ∧
      finalState (Pair.perform crypto) ⟨a, b⟩ (requesting a ciphertext)
        = ⟨a.advance, b.accept 0⟩ ∧
      Authentic crypto (Pair.history crypto ⟨a, b⟩ (requesting a ciphertext)) := by
  have hmatch := Context.matches_of_derive ha hb
  have hnumber := Context.sequenceNumber_of_derive ha
  have hvalid := (Context.tracks_of_derive hb).isValid_of_nil 0
  obtain ⟨c, hc⟩ := hencrypts a.senderKey (a.ownNonce [0]) (aad a.aead a.senderId [0]) [0x01]
    (by decide)
  have hsent := Context.perform_shortRequest hnumber hc
  have hmove := perform_a b hsent
  have hreceived := perform_b a.advance
    (Context.perform_first_of_matches hmatch.symm hvalid hround hc rfl)
  refine ⟨c, hsent, ?_, ?_⟩
  · unfold requesting
    simp only [finalState, hmove, hreceived]
  · unfold requesting Pair.history
    simp only [history_cons, history_nil, hmove]
    show Authentic crypto (([] ++ [_]) ++ [_])
    refine (authentic_nil.concat (encrypted_of_opening_none rfl)).concat ?_
    exact encrypted_of_sealing (List.mem_singleton_self _) (Context.sealing_shortRequest hnumber)
      (Context.opening_first hmatch.symm hvalid a.senderId c) hc

/-- Whatever contexts are derived, an answer of one endpoint passes for a request of that endpoint,
which sent none. -/
theorem reflecting_accepted (ha : Context.derive crypto p = .ok a)
    (hb : Context.derive crypto { p.swap with windowSize := size } = .ok b)
    (hround : crypto.RoundTrips) (hencrypts : crypto.EncryptsUpTo 3) :
    ∃ request response pre s m,
      Pair.history crypto ⟨a, b⟩ (reflecting a request response) = pre ++ [s] ∧
      Authentic crypto (pre ++ [s]) ∧
      s.call = ⟨.a, .unprotectRequest (Context.firstRequest a.senderId response)⟩ ∧
      s.result (Pair.perform crypto) = .ok ⟨m, some ⟨a.senderId, [0]⟩⟩ ∧
      ∀ t ∈ pre, ∀ sent, t.call ≠ ⟨.b, .protectRequest sent⟩ := by
  obtain ⟨c, -, hrequested, hauth⟩ := requesting_received ha hb hround hencrypts
  -- The answer of `b` and what `a` makes of it.
  have hnumber : (b.accept 0).sequenceNumber = 0 := by
    have hnumber := Context.sequenceNumber_of_derive hb
    exact hnumber
  have hvalid : a.advance.window.isValid 0 = true := by
    have hvalid := (Context.tracks_of_derive ha).isValid_of_nil 0
    exact hvalid
  have hmatch : a.advance.Matches (b.accept 0) :=
    (Context.matches_of_derive ha hb).of_frames _ _ _ _
  obtain ⟨d, hd⟩ := hencrypts b.senderKey (b.ownNonce [0]) (aad b.aead a.senderId [0])
    [0x45, 0xFF, 1] (by decide)
  have hanswered := perform_b a.advance
    (Context.perform_short_own hnumber 1 ⟨a.senderId, [0]⟩ hd)
  have hpassed := perform_a (b.accept 0).advance
    (Context.perform_first_of_matches hmatch hvalid hround hd rfl)
  refine ⟨c, d, Pair.history crypto ⟨a, b⟩ (requesting a c) ++ [⟨⟨a.advance, b.accept 0⟩,
      ⟨.b, .protectResponse (Context.shortResponse 1) ⟨a.senderId, [0]⟩ false⟩⟩],
    ⟨⟨a.advance, (b.accept 0).advance⟩,
      ⟨.a, .unprotectRequest (Context.firstRequest a.senderId d)⟩⟩, _, ?_, ?_, rfl,
    congrArg Prod.fst hpassed, ?_⟩
  · show SecureCoap.history (Pair.perform crypto) ⟨a, b⟩ (requesting a c ++ _) = _
    rw [history_append, hrequested, history_cons, history_cons, history_nil, hanswered,
      List.append_assoc]
    rfl
  · refine (hauth.concat (encrypted_of_opening_none rfl)).concat ?_
    exact encrypted_of_sealing (List.mem_append_right _ (List.mem_singleton_self _))
      (Context.sealing_short_own hnumber 1 ⟨a.senderId, [0]⟩)
      (Context.opening_first hmatch hvalid a.senderId d) hd
  · intro t ht sent
    rcases List.mem_append.mp ht with ht | ht
    · have hmem := call_mem_of_mem_history ht
      simp only [requesting, List.mem_cons, List.not_mem_nil, or_false] at hmem
      rcases hmem with hmem | hmem
      · simp [hmem]
      · simp [hmem]
    · rw [List.mem_singleton.mp ht]
      simp

end

/-! ### Accepted requests -/

section

variable {a b : Context} {moves : List Move} {pre post : List (Step Pair Move)}
  {s : Step Pair Move} {packet m : Coap.Packet} {id : RequestId}

theorem not_confused_of_genuine {p : Pair}
    (hpre : ∀ t ∈ pre, t ∈ p.history crypto moves) (hgenuine : Genuine crypto pre id m) :
    ¬Confused crypto pre id := by
  intro h
  obtain ⟨t, ht, htside, ⟨response, htcall⟩, htok, htnumber⟩ := h
  obtain ⟨t', ht', htside', ⟨request, htcall'⟩, ⟨packet, hresult⟩, -⟩ := hgenuine
  have hmem : ownStep t ∈ stepsOf .b (p.history crypto moves) := by
    rw [← htside]
    exact mem_stepsOf (hpre t ht)
  have hmem' : ownStep t' ∈ stepsOf .b (p.history crypto moves) := by
    rw [← htside']
    exact mem_stepsOf (hpre t' ht')
  rw [stepsOf_history] at hmem hmem'
  have hresult' : ((used t').perform crypto (.protectRequest request)).1
      = .ok ⟨packet, some id⟩ := by
    rw [← htcall']
    exact hresult
  obtain ⟨hle, hid⟩ := Context.id_of_protected hresult'
  have hmax : PartialIv.maxNumber = 2 ^ 40 - 1 := rfl
  have hnumber : id.sequenceNumber = (used t').sequenceNumber := by
    rw [hid]
    exact PartialIv.toNumber_ofNumber (by omega)
  have hsame : (used t).sequenceNumber = (used t').sequenceNumber := by
    rw [htnumber, hnumber]
    omega
  have htakes : t.call.call.number? (used t) (t.result (Pair.perform crypto))
      = some (used t).sequenceNumber := by
    rw [Call.number?, if_pos ⟨by rw [htcall]; rfl, htok⟩]
  have htakes' : t'.call.call.number? (used t') (t'.result (Pair.perform crypto))
      = some (used t).sequenceNumber := by
    rw [Call.number?, if_pos ⟨by rw [htcall']; rfl, by rw [hresult]; rfl⟩, hsame]
  have heq : ownStep t = ownStep t' := Context.step_eq_of_number hmem hmem' htakes htakes'
  have hcall : t.call.call = t'.call.call := congrArg Step.call heq
  rw [htcall, htcall'] at hcall
  cases hcall

theorem genuine_of_encrypt {t : Step Pair Move} (ht : t ∈ pre) (hside : t.call.side = .b)
    {request inside : Coap.Packet} (hcall : t.call.call = .protectRequest request) {x : Sealing}
    {ciphertext : Bytes} (hx : t.call.call.sealing? (used t) = some x)
    (hencrypt : crypto.encrypt x.key x.nonce x.aad x.plaintext = some ciphertext)
    (hid : id = ⟨(used t).senderId, PartialIv.ofNumber (used t).sequenceNumber⟩)
    (hinside : parsePlaintext x.plaintext = .ok inside) :
    Genuine crypto pre id (merge packet inside) := by
  obtain ⟨sent, hsent⟩ : ∃ sent, ((used t).perform crypto (.protectRequest request)).1
      = .ok ⟨sent, some id⟩ := by
    rw [hid]
    exact Context.protected_of_encrypt (by rw [← hcall]; exact hx) hencrypt
  refine ⟨t, ht, hside, ⟨request, hcall⟩, ⟨sent, ?_⟩, x, inside, hx, hinside, rfl, rfl, ?_⟩
  · show ((used t).perform crypto t.call.call).1 = _
    rw [hcall, hsent]
  · intro n hn
    exact values_merge packet inside hn

theorem genuine_or_confused (hmatch : a.Matches b) (hfits : a.Fits)
    (hids : a.senderId ≠ a.recipientId) (hkeys : a.senderKey ≠ a.recipientKey)
    (hround : crypto.RoundTrips) (hauth : Authentic crypto (Pair.history crypto ⟨a, b⟩ moves))
    (hanswered : ∀ move ∈ moves, ∀ id, move.call.answered? = some id → id.piv.length ≤ 7)
    (hsteps : Pair.history crypto ⟨a, b⟩ moves = pre ++ s :: post)
    (hcall : s.call = ⟨.a, .unprotectRequest packet⟩)
    (hok : s.result (Pair.perform crypto) = .ok ⟨m, some id⟩) :
    Genuine crypto pre id m ∨ Confused crypto pre id := by
  have hs : s ∈ Pair.history crypto ⟨a, b⟩ moves := by
    rw [hsteps]
    exact List.mem_append_right pre (List.mem_cons_self ..)
  -- What was decrypted, and under what.
  obtain ⟨n, w, hused⟩ := used_frame hs
  rw [hcall] at hused
  have hresult : ((used s).perform crypto (.unprotectRequest packet)).1 = .ok ⟨m, some id⟩ := by
    have hself : s.result (Pair.perform crypto) = ((used s).perform crypto s.call.call).1 := rfl
    rw [hself, hcall] at hok
    exact hok
  obtain ⟨o, text, inside, ho, hdecrypt, hinside, hm⟩ := Context.of_accepted hresult
  have hopening : s.call.call.opening? (used s) = some o := by
    rw [hcall]
    exact Option.map_eq_some_iff.mpr ⟨_, toOption_eq_some.mpr ho, rfl⟩
  obtain ⟨hvalue, -, hunder⟩ := Context.requestOpening_eq_ok.mp ho
  obtain ⟨-, hopened⟩ := Context.opening_eq_ok.mp hunder
  have hpiv : id.piv.length ≤ 7 := OptionValue.length_piv_of_ofPacket hvalue rfl
  -- What was encrypted, and by whom.
  obtain ⟨t, ht, x, hx, hkey, hnonce, haad, hencrypt⟩ :=
    hauth pre s post hsteps o text hopening hdecrypt
  have htmem : t ∈ Pair.history crypto ⟨a, b⟩ moves := by
    rw [hsteps]
    exact List.mem_append_left _ ht
  have hxkey : x.key = a.recipientKey := by
    rw [hkey, hopened, hused]
    rfl
  obtain ⟨htside, hpeer⟩ := peer_of_sealing hmatch hkeys htmem hx hxkey
  have hxnonce : x.nonce = a.peerNonce id.piv := by
    rw [hnonce, hopened, hused]
    rfl
  have hxaad : x.aad = aad a.aead id.kid id.piv := by
    rw [haad, hopened, hused]
  rcases Context.sealed_for_request hpeer hfits hids hx hpiv
    (hanswered t.call (call_mem_of_mem_history htmem)) hxnonce hxaad with
    ⟨request, htcall, hid⟩ | ⟨response, htcall, hnumber⟩
  · left
    rw [plaintext_of_decrypt hround hencrypt hkey hnonce haad hdecrypt] at hinside
    rw [hm]
    exact genuine_of_encrypt ht htside htcall hx hencrypt hid hinside
  · right
    refine ⟨t, ht, htside, ⟨response, htcall⟩, ?_, hnumber⟩
    show ((used t).perform crypto t.call.call).1.isOk = true
    exact (Context.isOk_iff_encrypts (by rw [htcall]; exact Or.inl rfl)).mpr
      ⟨x, _, hx, Sealing.run_eq_ok.mpr hencrypt⟩

/-- A request that is accepted comes from the other endpoint, which protected it as a request, if
and only if that endpoint did not protect a response to it before, with a sequence number of its own
that equals the last five bytes of that of the request. What identifies a request comes out of a
call, so that its partial initialisation vector has at most seven bytes. -/
theorem accepted_genuine_iff {p : Parameters} {size : Nat}
    (ha : Context.derive crypto p = .ok a)
    (hb : Context.derive crypto { p.swap with windowSize := size } = .ok b)
    (hids : p.senderId ≠ p.recipientId) (hkeys : a.senderKey ≠ a.recipientKey)
    (hround : crypto.RoundTrips)
    (hauth : Authentic crypto (Pair.history crypto ⟨a, b⟩ moves))
    (hanswered : ∀ move ∈ moves, ∀ id, move.call.answered? = some id → id.piv.length ≤ 7)
    (hsteps : Pair.history crypto ⟨a, b⟩ moves = pre ++ s :: post)
    (hcall : s.call = ⟨.a, .unprotectRequest packet⟩)
    (hok : s.result (Pair.perform crypto) = .ok ⟨m, some id⟩) :
    Genuine crypto pre id m ↔ ¬Confused crypto pre id := by
  have hne : a.senderId ≠ a.recipientId := by
    rw [(Context.derive_eq_ok.mp ha).2.2.2.2.2]
    exact hids
  constructor
  · apply not_confused_of_genuine
    intro t ht
    rw [hsteps]
    exact List.mem_append_left _ ht
  · intro hconfused
    exact (genuine_or_confused (Context.matches_of_derive ha hb) (Context.fits_of_derive ha) hne
      hkeys hround hauth hanswered hsteps hcall hok).resolve_right hconfused

end

theorem accepted_genuine_iff_testVector :
    ∃ a b pre s ciphertext m id,
      Context.derive TestVector.crypto TestVector.client = .ok a ∧
      Context.derive TestVector.crypto { TestVector.client.swap with windowSize := 8 } = .ok b ∧
      TestVector.client.senderId ≠ TestVector.client.recipientId ∧
      a.senderKey ≠ a.recipientKey ∧ TestVector.crypto.RoundTrips ∧
      Authentic TestVector.crypto (Pair.history TestVector.crypto ⟨a, b⟩ (sending b ciphertext)) ∧
      (∀ move ∈ sending b ciphertext, ∀ id, move.call.answered? = some id → id.piv.length ≤ 7) ∧
      Pair.history TestVector.crypto ⟨a, b⟩ (sending b ciphertext) = pre ++ [s] ∧
      s.call = ⟨.a, .unprotectRequest (Context.firstRequest b.senderId ciphertext)⟩ ∧
      s.result (Pair.perform TestVector.crypto) = .ok ⟨m, some id⟩ ∧
      (Genuine TestVector.crypto pre id m ↔ ¬Confused TestVector.crypto pre id) := by
  obtain ⟨a, -, ha, -, hkeys⟩ := TestVector.derive_client
  obtain ⟨b, hb⟩ := TestVector.derive_server 8
  obtain ⟨ciphertext, pre, s, m, hsteps, hauth, hcall, hok⟩ := sending_accepted ha hb
    TestVector.roundTrips (TestVector.encryptsUpTo.mono (by decide))
  rw [← hsteps] at hauth
  have hids : TestVector.client.senderId ≠ TestVector.client.recipientId := by decide
  have hanswered : ∀ move ∈ sending b ciphertext, ∀ id, move.call.answered? = some id →
      id.piv.length ≤ 7 := by
    intro move hmove id hid
    simp only [sending, List.mem_cons, List.not_mem_nil, or_false] at hmove
    rcases hmove with rfl | rfl
    · cases hid
    · cases hid
  exact ⟨a, b, pre, s, ciphertext, m, _, ha, hb, hids, hkeys, TestVector.roundTrips, hauth,
    hanswered, hsteps, hcall, hok,
    accepted_genuine_iff ha hb hids hkeys TestVector.roundTrips hauth hanswered hsteps hcall hok⟩

/-- An endpoint accepts a request although the other one protected nothing but an answer. -/
theorem answer_passes_for_request :
    ∃ a b request response pre s m id,
      Context.derive TestVector.crypto TestVector.client = .ok a ∧
      Context.derive TestVector.crypto TestVector.client.swap = .ok b ∧
      a.senderKey ≠ a.recipientKey ∧
      Authentic TestVector.crypto
        (Pair.history TestVector.crypto ⟨a, b⟩ (reflecting a request response)) ∧
      Pair.history TestVector.crypto ⟨a, b⟩ (reflecting a request response) = pre ++ [s] ∧
      s.call = ⟨.a, .unprotectRequest (Context.firstRequest a.senderId response)⟩ ∧
      s.result (Pair.perform TestVector.crypto) = .ok ⟨m, some id⟩ ∧
      ¬Genuine TestVector.crypto pre id m := by
  obtain ⟨a, b, ha, hb, hkeys⟩ := TestVector.derive_client
  obtain ⟨request, response, pre, s, m, hsteps, hauth, hcall, hok, hnone⟩ := reflecting_accepted
    ha hb TestVector.roundTrips (TestVector.encryptsUpTo.mono (by decide))
  rw [← hsteps] at hauth
  refine ⟨a, b, request, response, pre, s, m, _, ha, hb, hkeys, hauth, hsteps, hcall, hok, ?_⟩
  intro h
  obtain ⟨t, ht, hside, ⟨sent, hsent⟩, -⟩ := h
  exact hnone t ht sent (by rw [← hside, ← hsent])

end Pair

end Oscore

end SecureCoap
