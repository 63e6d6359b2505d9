import Mathlib.Data.List.Nodup
import SecureCoap.Proofs.Crypto.Primitives
import SecureCoap.Proofs.Oscore.Derivation
import SecureCoap.Proofs.Oscore.History
import SecureCoap.Proofs.Oscore.OptionValue

/-!
# Which nonces a context encrypts under

A message that takes a sequence number is encrypted under a nonce that belongs to that number and
to the sender. A response may instead be encrypted under the nonce of the request, which belongs to
the recipient. The former differ among themselves and from the latter; two of the latter are
equal exactly if the requests have sequence numbers that end in the same five bytes.
-/

namespace SecureCoap

namespace Oscore

variable {crypto : Primitives}

/-! ### Nonces of calls -/

namespace Call

variable {ε : Type}

/-- The nonce of a message that a call protects with a sequence number, given the context before
and what the call gives. -/
def ownNonce? (ctx : Context) (result : Except ε Outcome) (call : Call) : Option Bytes :=
  if call.takesNumber ∧ result.isOk then (call.sealing? ctx).map (·.nonce) else none

/-- The nonce of the request that a call encrypts a response under, whether or not that succeeds. -/
def reusedNonce? (ctx : Context) (call : Call) : Option Bytes :=
  if call.reusesNonce then (call.sealing? ctx).map (·.nonce) else none

/-- The request that a call answers under the nonce of the request, and what is encrypted. -/
def reuse? (ctx : Context) (result : Except ε Outcome) : Call → Option (RequestId × Sealing)
  | protectResponse response request true =>
    if result.isOk then ((protectResponse response request true).sealing? ctx).map (request, ·)
    else none
  | _ => none

end Call

namespace Context

variable {ctx : Context}

def ownNonces (crypto : Primitives) (steps : List (Step Context Call)) : List Bytes :=
  steps.filterMap fun s => s.call.ownNonce? s.before (s.result (perform crypto))

def reusedNonces (steps : List (Step Context Call)) : List Bytes :=
  steps.filterMap fun s => s.call.reusedNonce? s.before

def reuses (crypto : Primitives) (steps : List (Step Context Call)) : List (RequestId × Sealing) :=
  steps.filterMap fun s => s.call.reuse? s.before (s.result (perform crypto))

/-! ### Own nonces -/

theorem ownNonce?_eq (call : Call) (ctx : Context) :
    call.ownNonce? ctx (ctx.perform crypto call).1 =
      (call.number? ctx (ctx.perform crypto call).1).map
        fun n => ctx.ownNonce (PartialIv.ofNumber n) := by
  cases hn : call.number? ctx (ctx.perform crypto call).1 with
  | none =>
    unfold Call.number? at hn
    unfold Call.ownNonce?
    split at hn
    · cases hn
    · next hcond =>
      rw [if_neg hcond]
      rfl
  | some n =>
    obtain ⟨-, -, s, hs, hnonce⟩ := sealing_of_number hn
    unfold Call.number? at hn
    unfold Call.ownNonce?
    split at hn
    · next hcond =>
      rw [if_pos hcond, hs, Option.map_some, Option.map_some, hnonce]
    · cases hn

theorem ownNonces_eq (ctx : Context) (calls : List Call) :
    ownNonces crypto (ctx.history crypto calls) =
      (numbers crypto (ctx.history crypto calls)).map
        fun n => ctx.ownNonce (PartialIv.ofNumber n) := by
  unfold ownNonces numbers
  rw [List.map_filterMap]
  apply List.filterMap_congr
  intro s hs
  have hnonce : s.before.ownNonce = ctx.ownNonce := by
    obtain ⟨n, w, hbefore⟩ := history_frame ctx calls s hs
    rw [hbefore]
    rfl
  show s.call.ownNonce? s.before (s.before.perform crypto s.call).1 = _
  rw [ownNonce?_eq, hnonce]
  rfl

theorem le_maxNumber_of_mem_numbers {steps : List (Step Context Call)} {n : Nat}
    (h : n ∈ numbers crypto steps) : n ≤ PartialIv.maxNumber := by
  obtain ⟨s, -, hs⟩ := List.mem_filterMap.mp h
  exact (sealing_of_number hs).2.1

theorem ownNonce_injective (hfits : ctx.Fits) {m n : Nat} (hm : m ≤ PartialIv.maxNumber)
    (hn : n ≤ PartialIv.maxNumber)
    (h : ctx.ownNonce (PartialIv.ofNumber m) = ctx.ownNonce (PartialIv.ofNumber n)) : m = n := by
  have hmax : PartialIv.maxNumber = 2 ^ 40 - 1 := rfl
  obtain ⟨-, htail⟩ := (nonce_eq_iff hfits.commonIv hfits.senderId hfits.senderId).mp h
  rw [PartialIv.toNat_ofNumber, PartialIv.toNat_ofNumber] at htail
  omega

theorem ownNonces_nodup (hfits : ctx.Fits) (calls : List Call) :
    (ownNonces crypto (ctx.history crypto calls)).Nodup := by
  obtain ⟨count, hrange⟩ := numbers_eq_range crypto ctx calls
  rw [ownNonces_eq]
  apply List.Nodup.map_on
  · intro m hm n hn h
    exact ownNonce_injective hfits (le_maxNumber_of_mem_numbers hm)
      (le_maxNumber_of_mem_numbers hn) h
  · rw [hrange]
    exact List.nodup_range'

/-! ### Nonces of requests -/

theorem sealing_of_reuse {response : Coap.Packet} {id : RequestId} {s : Sealing}
    (h : (Call.protectResponse response id true).sealing? ctx = some s) :
    s.key = ctx.senderKey ∧ s.nonce = ctx.peerNonce id.piv := by
  obtain ⟨⟨s', piv⟩, hs, heq⟩ := Option.map_eq_some_iff.mp h
  obtain ⟨-, hsealing⟩ := responseSealing_reuse_eq_ok.mp (toOption_eq_some.mp hs)
  obtain ⟨hkey, hnonce, -⟩ := sealing_under hsealing
  rw [← heq]
  exact ⟨hkey, hnonce⟩

theorem mem_reusedNonces {calls : List Call} {nonce : Bytes}
    (h : nonce ∈ reusedNonces (ctx.history crypto calls)) : ∃ piv, nonce = ctx.peerNonce piv := by
  obtain ⟨s, hs, hnonce⟩ := List.mem_filterMap.mp h
  obtain ⟨n, w, hbefore⟩ := history_frame ctx calls s hs
  unfold Call.reusedNonce? at hnonce
  split at hnonce
  · next hreuses =>
    obtain ⟨sealing, hsealing, rfl⟩ := Option.map_eq_some_iff.mp hnonce
    cases hcall : s.call with
    | protectResponse response id reusePiv =>
      rw [hcall] at hreuses hsealing
      have htrue : reusePiv = true := hreuses
      subst htrue
      refine ⟨id.piv, ?_⟩
      rw [(sealing_of_reuse hsealing).2, hbefore]
      rfl
    | protectRequest m =>
      rw [hcall] at hreuses
      cases hreuses
    | unprotectRequest packet =>
      rw [hcall] at hreuses
      cases hreuses
    | unprotectResponse packet id =>
      rw [hcall] at hreuses
      cases hreuses
  · cases hnonce

theorem ownNonces_disjoint (hfits : ctx.Fits) (hids : ctx.senderId ≠ ctx.recipientId)
    (calls : List Call) :
    ∀ nonce ∈ ownNonces crypto (ctx.history crypto calls),
      nonce ∉ reusedNonces (ctx.history crypto calls) := by
  intro nonce hown hreused
  rw [ownNonces_eq] at hown
  obtain ⟨n, -, hn⟩ := List.mem_map.mp hown
  obtain ⟨piv, hpiv⟩ := mem_reusedNonces hreused
  have hnonce : ctx.ownNonce (PartialIv.ofNumber n) = ctx.peerNonce piv := by rw [hn, hpiv]
  exact hids ((nonce_eq_iff hfits.commonIv hfits.senderId hfits.recipientId).mp hnonce).1

/-! ### Answers under nonces of requests -/

theorem mem_reuses {calls : List Call} {x : RequestId × Sealing}
    (h : x ∈ reuses crypto (ctx.history crypto calls)) :
    (∃ s ∈ ctx.history crypto calls, s.call.answered? = some x.1) ∧
      x.2.key = ctx.senderKey ∧ x.2.nonce = ctx.peerNonce x.1.piv := by
  obtain ⟨s, hs, hx⟩ := List.mem_filterMap.mp h
  obtain ⟨n, w, hbefore⟩ := history_frame ctx calls s hs
  cases hcall : s.call with
  | protectResponse response id reusePiv =>
    cases reusePiv with
    | false =>
      rw [hcall] at hx
      cases hx
    | true =>
      rw [hcall] at hx
      simp only [Call.reuse?] at hx
      split at hx
      · obtain ⟨sealing, hsealing, rfl⟩ := Option.map_eq_some_iff.mp hx
        obtain ⟨hkey, hnonce⟩ := sealing_of_reuse hsealing
        rw [hbefore] at hkey hnonce
        exact ⟨⟨s, hs, by rw [hcall]; rfl⟩, hkey, hnonce⟩
      · cases hx
  | protectRequest m =>
    rw [hcall] at hx
    cases hx
  | unprotectRequest packet =>
    rw [hcall] at hx
    cases hx
  | unprotectResponse packet id =>
    rw [hcall] at hx
    cases hx

/-- The nonces of two requests agree if their sequence numbers do in the last five bytes. -/
theorem peerNonce_eq_iff (hfits : ctx.Fits) (x y : RequestId) :
    ctx.peerNonce x.piv = ctx.peerNonce y.piv ↔
      x.sequenceNumber % 2 ^ 40 = y.sequenceNumber % 2 ^ 40 := by
  have hx : x.sequenceNumber = Bytes.toNat x.piv % 2 ^ 64 := PartialIv.toNumber_eq_mod x.piv
  have hy : y.sequenceNumber = Bytes.toNat y.piv % 2 ^ 64 := PartialIv.toNumber_eq_mod y.piv
  unfold peerNonce
  rw [nonce_eq_iff hfits.commonIv hfits.recipientId hfits.recipientId, hx, hy]
  constructor
  · intro h
    obtain ⟨-, h⟩ := h
    omega
  · intro h
    exact ⟨rfl, by omega⟩

/-! ### Short messages -/

def shortRequest : Coap.Packet := Coap.Packet.ofCode (.request .get)

def shortResponse (b : UInt8) : Coap.Packet :=
  { Coap.Packet.ofCode (.response .content) with payload := [b] }

/-- A protected request under number 0, from the endpoint `kid`. -/
def firstRequest (kid ciphertext : Bytes) : Coap.Packet :=
  outer shortRequest (OptionValue.encode ⟨some kid, some [0]⟩) ciphertext

theorem requestOpening_first {ctx : Context} (h : ctx.window.isValid 0 = true)
    (kid ciphertext : Bytes) :
    ctx.requestOpening (firstRequest kid ciphertext) =
      .ok (⟨ctx.recipientKey, ctx.peerNonce [0], aad ctx.aead kid [0], ciphertext⟩,
        ⟨kid, [0]⟩) := by
  have hvalue : OptionValue.ofPacket (firstRequest kid ciphertext) = .ok ⟨some kid, some [0]⟩ := by
    show Except.ok (OptionValue.decode _) = _
    rw [OptionValue.decode_encode]
    intro piv hpiv
    cases hpiv
    decide
  exact requestOpening_eq_ok.mpr ⟨hvalue, h, opening_eq_ok.mpr ⟨rfl, rfl⟩⟩

/-- A context that received nothing accepts a request under number 0 from whatever endpoint. -/
theorem perform_first {ctx : Context} (h : ctx.window.isValid 0 = true) (hround : crypto.RoundTrips)
    {kid text ciphertext : Bytes} {inside : Coap.Packet}
    (hencrypt : crypto.encrypt ctx.recipientKey (ctx.peerNonce [0]) (aad ctx.aead kid [0]) text
      = some ciphertext) (hinside : parsePlaintext text = .ok inside) :
    ctx.perform crypto (.unprotectRequest (firstRequest kid ciphertext)) =
      (.ok ⟨merge (firstRequest kid ciphertext) inside, some ⟨kid, [0]⟩⟩, ctx.accept 0) := by
  have hopen : ctx.openRequest crypto (firstRequest kid ciphertext) =
      .ok (merge (firstRequest kid ciphertext) inside, ⟨kid, [0]⟩) :=
    openRequest_eq_ok.mpr ⟨_, text, inside, requestOpening_first h kid ciphertext,
      Opening.run_eq_ok.mpr (hround hencrypt), hinside, rfl⟩
  rw [perform_unprotectRequest, hopen]
  rfl

theorem responseSealing_short (ctx : Context) (b : UInt8) (id : RequestId) :
    ctx.responseSealing (shortResponse b) id true =
      .ok (⟨ctx.senderKey, ctx.peerNonce id.piv, aad ctx.aead id.kid id.piv, [0x45, 0xFF, b]⟩,
        none) := by
  refine responseSealing_reuse_eq_ok.mpr ⟨rfl, ?_⟩
  exact sealing_eq_ok.mpr ⟨rfl, [0x45, 0xFF, b], rfl, rfl⟩

theorem perform_short (ctx : Context) (b : UInt8) (id : RequestId) {ciphertext : Bytes}
    (hencrypt : crypto.encrypt ctx.senderKey (ctx.peerNonce id.piv) (aad ctx.aead id.kid id.piv)
      [0x45, 0xFF, b] = some ciphertext) :
    ctx.perform crypto (.protectResponse (shortResponse b) id true) =
      (.ok ⟨outer (shortResponse b) (OptionValue.encode ⟨none, none⟩) ciphertext, none⟩, ctx) := by
  have hseal : ctx.sealResponse crypto (shortResponse b) id true
      = .ok (outer (shortResponse b) (OptionValue.encode ⟨none, none⟩) ciphertext) :=
    sealResponse_eq_ok.mpr
      ⟨_, none, ciphertext, responseSealing_short ctx b id, Sealing.run_eq_ok.mpr hencrypt, rfl⟩
  rw [perform_protectResponse, hseal]
  rfl

/-! ### One request, two answers -/

def acceptable (ctx : Context) : Coap.Packet :=
  firstRequest [] ((Primitives.standard.encrypt ctx.recipientKey (ctx.peerNonce [0])
    (aad ctx.aead [] [0]) [0x01]).getD [])

/-- A context that accepts a request answers it twice. -/
def answeringTwice (ctx : Context) : List Call := [
  .unprotectRequest ctx.acceptable,
  .protectResponse (shortResponse 1) ⟨[], [0]⟩ true,
  .protectResponse (shortResponse 2) ⟨[], [0]⟩ true]

theorem history_answeringTwice {ctx : Context} (h : ctx.window.isValid 0 = true) :
    accepted .standard (ctx.history .standard ctx.answeringTwice) = [⟨[], [0]⟩] ∧
    reuses .standard (ctx.history .standard ctx.answeringTwice) = [
      (⟨[], [0]⟩, ⟨ctx.senderKey, ctx.peerNonce [0], aad ctx.aead [] [0], [0x45, 0xFF, 1]⟩),
      (⟨[], [0]⟩, ⟨ctx.senderKey, ctx.peerNonce [0], aad ctx.aead [] [0], [0x45, 0xFF, 2]⟩)] := by
  have hencrypts : Primitives.standard.EncryptsUpTo 3 :=
    Primitives.standard_encryptsUpTo.mono (by decide)
  obtain ⟨ciphertext, hciphertext⟩ := hencrypts ctx.recipientKey (ctx.peerNonce [0])
    (aad ctx.aead [] [0]) [0x01] (by decide)
  have hacceptable : ctx.acceptable = firstRequest [] ciphertext := by
    unfold acceptable
    rw [hciphertext]
    rfl
  have hrequest := perform_first h Primitives.standard_roundTrips hciphertext rfl
  obtain ⟨first, hfirst⟩ := hencrypts ctx.senderKey (ctx.peerNonce [0]) (aad ctx.aead [] [0])
    [0x45, 0xFF, 1] (by decide)
  obtain ⟨second, hsecond⟩ := hencrypts ctx.senderKey (ctx.peerNonce [0]) (aad ctx.aead [] [0])
    [0x45, 0xFF, 2] (by decide)
  have hone := perform_short (ctx.accept 0) 1 ⟨[], [0]⟩ hfirst
  have htwo := perform_short (ctx.accept 0) 2 ⟨[], [0]⟩ hsecond
  unfold answeringTwice history accepted reuses
  simp only [hacceptable, history_cons, history_nil, hrequest, hone, htwo, List.filterMap_cons,
    List.filterMap_nil, Step.result, Call.accepted?, Call.reuse?, Call.sealing?,
    responseSealing_short]
  exact ⟨rfl, rfl⟩

end Context

end Oscore

end SecureCoap
