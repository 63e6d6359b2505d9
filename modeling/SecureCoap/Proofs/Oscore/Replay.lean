import SecureCoap.Proofs.Oscore.Message
import SecureCoap.Proofs.Oscore.NonceUniqueness

/-!
# Replays

A context accepts every sequence number at most once and none that lies a window or more below what
it accepted before, whatever packets it is given and whatever else is done with it in between.
-/

namespace SecureCoap

namespace Oscore

namespace Context

variable {crypto : Primitives} {p : Parameters} {ctx : Context}

theorem windowSize_of_derive (h : derive crypto p = .ok ctx) :
    ctx.window.size = min (max p.windowSize 1) ReplayWindow.maxSize := by
  rw [window_of_derive h]
  rfl

/-- Over the life of a context the sequence numbers of the requests that it accepts are pairwise
distinct, and each is greater than the highest one before it less the size of the window. -/
theorem accepted_within_window (h : derive crypto p = .ok ctx) (calls : List Call) :
    ((accepted crypto (ctx.history crypto calls)).map RequestId.sequenceNumber).Nodup ∧
      ∀ before id later,
        accepted crypto (ctx.history crypto calls) = before ++ id :: later →
        ∀ highest, (before.map RequestId.sequenceNumber).max? = some highest →
          highest < id.sequenceNumber + min (max p.windowSize 1) ReplayWindow.maxSize := by
  have htracks := tracks_of_derive h
  obtain ⟨hpairs, -⟩ := accepted_pairwise crypto htracks calls
  refine ⟨(accepted_distinct crypto htracks calls).1, ?_⟩
  intro before id later hsplit highest hhighest
  -- The highest number before belongs to one request, and the bound holds for any of them.
  have hmem : highest ∈ before.map RequestId.sequenceNumber :=
    (List.max?_eq_some_iff.mp hhighest).1
  obtain ⟨earlier, hearlier, rfl⟩ := List.mem_map.mp hmem
  rw [hsplit, List.pairwise_append] at hpairs
  obtain ⟨-, -, hcross⟩ := hpairs
  have hlt := (hcross earlier hearlier id (List.mem_cons_self ..)).2
  rw [windowSize_of_derive h] at hlt
  exact hlt

/-! ### Requests out of order -/

/-- What identifies the request of the other endpoint under the number `n`. -/
def peerRequest (ctx : Context) (n : Nat) : RequestId := ⟨ctx.recipientId, PartialIv.ofNumber n⟩

/-- A short request under the number `n`, as the other endpoint protects it. -/
def arriving (crypto : Primitives) (ctx : Context) (n : Nat) : Coap.Packet :=
  outer shortRequest
    (OptionValue.encode ⟨some (ctx.peerRequest n).kid, some (ctx.peerRequest n).piv⟩)
    ((crypto.encrypt ctx.recipientKey (ctx.peerNonce (ctx.peerRequest n).piv)
      (aad ctx.aead (ctx.peerRequest n).kid (ctx.peerRequest n).piv) [0x01]).getD [])

theorem sequenceNumber_peerRequest (ctx : Context) {n : Nat} (hn : n ≤ PartialIv.maxNumber) :
    (ctx.peerRequest n).sequenceNumber = n := PartialIv.toNumber_ofNumber_of_le hn

theorem openRequest_arriving (ctx : Context) (hround : crypto.RoundTrips)
    (hencrypts : crypto.EncryptsUpTo 1) {n : Nat} (hn : n ≤ PartialIv.maxNumber) :
    ∃ m, ctx.openRequest crypto (ctx.arriving crypto n) =
      if ctx.window.isValid n then .ok (m, ctx.peerRequest n) else .error .replayDetected := by
  obtain ⟨ciphertext, hciphertext⟩ := hencrypts ctx.recipientKey
    (ctx.peerNonce (ctx.peerRequest n).piv)
    (aad ctx.aead (ctx.peerRequest n).kid (ctx.peerRequest n).piv) [0x01] (Nat.le_refl 1)
  have harriving : ctx.arriving crypto n = outer shortRequest
      (OptionValue.encode ⟨some (ctx.peerRequest n).kid, some (ctx.peerRequest n).piv⟩)
        ciphertext := by
    unfold arriving
    rw [hciphertext]
    rfl
  have hvalue : OptionValue.ofPacket (ctx.arriving crypto n) =
      .ok ⟨some (ctx.peerRequest n).kid, some (ctx.peerRequest n).piv⟩ := by
    rw [harriving]
    apply ofPacket_outer
    intro piv hpiv
    cases hpiv
    exact PartialIv.length_ofNumber_bounds hn
  have hnumber := ctx.sequenceNumber_peerRequest hn
  refine ⟨merge (ctx.arriving crypto n) (Coap.Packet.ofCode (.request .get)), ?_⟩
  split
  · next hvalid =>
    have hopening : ctx.opening (ctx.arriving crypto n) (ctx.peerRequest n)
        (ctx.peerNonce (ctx.peerRequest n).piv) = .ok ⟨ctx.recipientKey,
          ctx.peerNonce (ctx.peerRequest n).piv,
          aad ctx.aead (ctx.peerRequest n).kid (ctx.peerRequest n).piv, ciphertext⟩ := by
      rw [harriving]
      exact opening_eq_ok.mpr ⟨rfl, rfl⟩
    have hfresh : ctx.window.isValid (ctx.peerRequest n).sequenceNumber = true := by
      rw [hnumber]
      exact hvalid
    exact openRequest_eq_ok.mpr ⟨_, [0x01], _, requestOpening_eq_ok.mpr
      ⟨hvalue, hfresh, hopening⟩, Opening.run_eq_ok.mpr (hround hciphertext), rfl, rfl⟩
  · next hinvalid =>
    apply openRequest_of_replay hvalue
    rw [hnumber]
    simpa using hinvalid

/-- Such a request is accepted exactly if its number is valid. -/
theorem perform_arriving (ctx : Context) (hround : crypto.RoundTrips)
    (hencrypts : crypto.EncryptsUpTo 1) {n : Nat} (hn : n ≤ PartialIv.maxNumber) :
    Call.accepted? (ctx.perform crypto (.unprotectRequest (ctx.arriving crypto n))).1
        (.unprotectRequest (ctx.arriving crypto n)) =
      (if ctx.window.isValid n then some (ctx.peerRequest n) else none) ∧
    (ctx.perform crypto (.unprotectRequest (ctx.arriving crypto n))).2 =
      if ctx.window.isValid n then ctx.accept n else ctx := by
  obtain ⟨m, hopen⟩ := openRequest_arriving ctx hround hencrypts hn
  rw [perform_unprotectRequest, hopen]
  cases ctx.window.isValid n with
  | true => exact ⟨rfl, congrArg ctx.accept (ctx.sequenceNumber_peerRequest hn)⟩
  | false => exact ⟨rfl, rfl⟩

/-- The numbers that a window lets pass, of those that arrive one after another. -/
def passing : ReplayWindow → List Nat → List Nat
  | _, [] => []
  | w, n :: ns => if w.isValid n then n :: passing (w.strikeOut n) ns else passing w ns

theorem accepted_arriving (hround : crypto.RoundTrips) (hencrypts : crypto.EncryptsUpTo 1)
    (ctx : Context) {ns : List Nat} (h : ∀ n ∈ ns, n ≤ PartialIv.maxNumber) :
    (accepted crypto (ctx.history crypto
      (ns.map fun n => .unprotectRequest (ctx.arriving crypto n)))).map RequestId.sequenceNumber =
        passing ctx.window ns := by
  induction ns generalizing ctx with
  | nil => rfl
  | cons n ns ih =>
    have hrest := fun c => ih c fun n hn => h n (List.mem_cons_of_mem _ hn)
    obtain ⟨hnumber, hafter⟩ := perform_arriving ctx hround hencrypts
      (h n (List.mem_cons_self ..))
    rw [List.map_cons, accepted_cons, hnumber, hafter]
    unfold passing
    cases ctx.window.isValid n with
    | true =>
      exact congrArg₂ List.cons (ctx.sequenceNumber_peerRequest (h n (List.mem_cons_self ..)))
        (hrest (ctx.accept n))
    | false => exact hrest ctx

/-- Requests under the numbers 3 and 1 are both accepted, and that under 3 is not once more. -/
theorem accepted_within_window_outOfOrder :
    ∃ ctx calls, derive TestVector.crypto TestVector.client = .ok ctx ∧
      (accepted TestVector.crypto (ctx.history TestVector.crypto calls)).map
        RequestId.sequenceNumber = [3, 1] ∧
      ((accepted TestVector.crypto (ctx.history TestVector.crypto calls)).map
        RequestId.sequenceNumber).Nodup ∧
      ∀ before id later,
        accepted TestVector.crypto (ctx.history TestVector.crypto calls)
            = before ++ id :: later →
        ∀ highest, (before.map RequestId.sequenceNumber).max? = some highest →
          highest < id.sequenceNumber + 32 := by
  obtain ⟨ctx, -, hctx, -, -⟩ := TestVector.derive_client
  have hwindow : ctx.window = .new 32 := by
    rw [(derive_eq_ok.mp hctx).2.2.2.2.2]
    rfl
  have hsendable : ∀ n ∈ [3, 1, 3], n ≤ PartialIv.maxNumber := by decide
  have hnumbers := accepted_arriving TestVector.roundTrips
    (TestVector.encryptsUpTo.mono (by decide)) ctx hsendable
  rw [hwindow] at hnumbers
  obtain ⟨hdistinct, hwithin⟩ := accepted_within_window hctx
    ([3, 1, 3].map fun n => .unprotectRequest (ctx.arriving TestVector.crypto n))
  exact ⟨ctx, _, hctx, hnumbers, hdistinct, hwithin⟩

end Context

end Oscore

end SecureCoap
