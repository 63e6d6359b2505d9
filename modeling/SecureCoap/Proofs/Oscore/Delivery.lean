import SecureCoap.Proofs.Oscore.Replay
import SecureCoap.Proofs.Oscore.RoundTrip

/-!
# Delivery in any order

Protected requests may arrive in any order and more than once, among packets that nobody protected.
Where a request arrives first it is accepted, unless one arrived before that lies a window above it.
After that it is refused.
-/

namespace SecureCoap

namespace Oscore

namespace Context

variable {crypto : Primitives} {steps received : List (Step Context Call)} {packet : Coap.Packet}
  {id : RequestId}

/-! ### Requests on the way -/

/-- One of these steps protects a request as this packet, which is identified so. -/
def Sent (crypto : Primitives) (steps : List (Step Context Call)) (packet : Coap.Packet)
    (id : RequestId) : Prop :=
  ∃ s ∈ steps, ∃ m, s.call = .protectRequest m ∧
    s.result (perform crypto) = .ok ⟨packet, some id⟩

/-- The requests that arrive are those that were sent, as often as may be and in whatever order.
All other packets that arrive as requests are refused. -/
def Arrives (crypto : Primitives) (sent received : List (Step Context Call)) : Prop :=
  ∀ s ∈ received, ∀ packet, s.call = .unprotectRequest packet →
    (∃ id, Sent crypto sent packet id) ∨ (s.result (perform crypto)).isOk = false

theorem eq_of_ofPacket {id' : RequestId}
    (h : OptionValue.ofPacket packet = .ok ⟨some id.kid, some id.piv⟩)
    (h' : OptionValue.ofPacket packet = .ok ⟨some id'.kid, some id'.piv⟩) : id = id' := by
  have hsame := h.symm.trans h'
  obtain ⟨kid, piv⟩ := id
  obtain ⟨kid', piv'⟩ := id'
  cases hsame
  rfl

theorem Sent.seal (h : Sent crypto steps packet id) :
    ∃ s ∈ steps, ∃ m, s.call = .protectRequest m ∧
      s.before.sealRequest crypto m = .ok (packet, id) := by
  obtain ⟨⟨ctx, call⟩, hs, m, rfl, hresult⟩ := h
  exact ⟨_, hs, m, rfl, perform_protectRequest_eq_ok.mp hresult⟩

theorem Sent.ofPacket (h : Sent crypto steps packet id) :
    OptionValue.ofPacket packet = .ok ⟨some id.kid, some id.piv⟩ := by
  obtain ⟨s, -, m, -, hseal⟩ := h.seal
  exact ofPacket_of_sealRequest hseal

/-- No two requests are sent under one number. -/
theorem Sent.packet_eq {ctx : Context} {calls : List Call} {packet' : Coap.Packet}
    {id' : RequestId} (h : Sent crypto (ctx.history crypto calls) packet id)
    (h' : Sent crypto (ctx.history crypto calls) packet' id')
    (hnumber : id.sequenceNumber = id'.sequenceNumber) : packet = packet' := by
  have htaken : ∀ {s : Step Context Call} {m q i}, s.call = .protectRequest m →
      s.result (perform crypto) = .ok ⟨q, some i⟩ →
        s.call.number? s.before (s.result (perform crypto)) = some i.sequenceNumber := by
    intro s m q i hcall hresult
    obtain ⟨ctx', call⟩ := s
    subst hcall
    have hseal := perform_protectRequest_eq_ok.mp hresult
    rw [sequenceNumber_of_sealRequest hseal, hresult]
    rfl
  obtain ⟨s, hs, m, hcall, hresult⟩ := h
  obtain ⟨s', hs', m', hcall', hresult'⟩ := h'
  have hsame : s = s' := step_eq_of_number hs hs' (htaken hcall hresult)
    (hnumber ▸ htaken hcall' hresult')
  rw [hsame, hresult'] at hresult
  cases hresult
  rfl

/-! ### Requests that arrived -/

theorem mem_accepted {id : RequestId} (h : id ∈ accepted crypto received) :
    ∃ s ∈ received, ∃ packet m, s.call = .unprotectRequest packet ∧
      s.before.openRequest crypto packet = .ok (m, id) := by
  obtain ⟨⟨ctx, call⟩, hs, hid⟩ := List.mem_filterMap.mp h
  cases call with
  | unprotectRequest packet =>
    obtain ⟨o, ho, hid⟩ := Option.bind_eq_some_iff.mp hid
    have hresult := toOption_eq_some.mp ho
    obtain ⟨m, id'⟩ := o
    cases hid
    exact ⟨_, hs, packet, m, rfl, perform_unprotectRequest_eq_ok.mp hresult⟩
  | protectRequest m => cases hid
  | protectResponse m id' reusePiv => cases hid
  | unprotectResponse packet id' => cases hid

theorem Arrives.sent_of_mem_accepted (h : Arrives crypto steps received)
    (hid : id ∈ accepted crypto received) :
    ∃ s ∈ received, ∃ packet, s.call = .unprotectRequest packet ∧ Sent crypto steps packet id := by
  obtain ⟨⟨ctx, call⟩, hs, packet, m, rfl, hopen⟩ := mem_accepted hid
  refine ⟨_, hs, packet, rfl, ?_⟩
  rcases h _ hs packet rfl with ⟨id', hsent⟩ | hrefused
  · obtain ⟨o, -, -, hopening, -, -, -⟩ := openRequest_eq_ok.mp hopen
    obtain ⟨hvalue, -, -⟩ := requestOpening_eq_ok.mp hopening
    rw [eq_of_ofPacket hvalue hsent.ofPacket]
    exact hsent
  · have hresult : (ctx.perform crypto (.unprotectRequest packet)).1 = .ok ⟨m, some id⟩ :=
      perform_unprotectRequest_eq_ok.mpr hopen
    change (ctx.perform crypto (.unprotectRequest packet)).1.isOk = false at hrefused
    rw [hresult] at hrefused
    cases hrefused

/-! ### Numbers that are struck out -/

/-- The window of the context has taken in this number. -/
def Struck (n : Nat) (ctx : Context) : Prop := ∃ ns, ctx.window.Tracks ns ∧ n ∈ ns

theorem Struck.isValid {ctx : Context} {n : Nat} (h : Struck n ctx) :
    ctx.window.isValid n = false := by
  obtain ⟨ns, htracks, hmem⟩ := h
  rw [Bool.eq_false_iff]
  intro hvalid
  exact htracks.not_mem_of_isValid hvalid hmem

/-- Whatever else the window takes in, a number that is struck out stays so. -/
theorem Struck.next {ctx : Context} {n : Nat} (h : Struck n ctx) (call : Call) :
    Struck n (ctx.perform crypto call).2 := by
  obtain ⟨ns, htracks, hmem⟩ := h
  exact ⟨_, tracks_perform crypto htracks call, List.mem_append_right _ hmem⟩

theorem struck_of_accept {ctx : Context} {ns : List Nat} {m : Coap.Packet}
    (h : ctx.window.Tracks ns)
    (hresult : (ctx.perform crypto (.unprotectRequest packet)).1 = .ok ⟨m, some id⟩) :
    Struck id.sequenceNumber (ctx.perform crypto (.unprotectRequest packet)).2 := by
  refine ⟨id.sequenceNumber :: ns, ?_, List.mem_cons_self ..⟩
  rw [window_after, hresult]
  exact h.strikeOut id.sequenceNumber

theorem Struck.replayDetected {ctx : Context} {calls : List Call}
    (h : Struck id.sequenceNumber ctx)
    (hvalue : OptionValue.ofPacket packet = .ok ⟨some id.kid, some id.piv⟩) :
    ∀ s ∈ ctx.history crypto calls, s.call = .unprotectRequest packet →
      s.result (perform crypto) = .error .replayDetected := by
  intro s hs hcall
  have hkeeps : ∀ call c, Struck id.sequenceNumber c →
      Struck id.sequenceNumber (c.perform crypto call).2 := fun call _ hc => hc.next call
  have hstruck : Struck id.sequenceNumber s.before := history_invariant hkeeps h calls s hs
  obtain ⟨c, call⟩ := s
  subst hcall
  show (c.perform crypto (.unprotectRequest packet)).1 = _
  rw [perform_unprotectRequest, openRequest_of_replay hvalue hstruck.isValid]
  rfl

/-! ### First and later arrivals -/

/-- Where a request arrives first, its number is still valid, unless one arrived before that lies a
window above it. -/
theorem isValid_at_first_arrival {a b : Context} {sending calls : List Call}
    (hstart : b.window.Tracks [])
    (harrives : Arrives crypto (a.history crypto sending) (b.history crypto calls))
    (hsent : Sent crypto (a.history crypto sending) packet id)
    (hfirst : ∀ s ∈ b.history crypto calls, s.call ≠ .unprotectRequest packet)
    (hreach : ∀ s ∈ b.history crypto calls, ∀ packet' id', s.call = .unprotectRequest packet' →
      Sent crypto (a.history crypto sending) packet' id' →
        id'.sequenceNumber < id.sequenceNumber + b.window.size) :
    (b.after crypto calls).window.isValid id.sequenceNumber = true := by
  apply ((tracks_after crypto hstart calls).isValid_iff_forall _).mpr
  rw [List.append_nil, size_after]
  -- A number that was struck out belongs to a request that was sent and has arrived.
  intro k hk
  obtain ⟨id', hid', rfl⟩ := List.mem_map.mp (List.mem_reverse.mp hk)
  obtain ⟨s, hs, packet', hcall, hsent'⟩ := harrives.sent_of_mem_accepted hid'
  constructor
  · intro hsame
    have hpacket := hsent'.packet_eq hsent hsame
    rw [hpacket] at hcall
    exact hfirst s hs hcall
  · exact hreach s hs packet' id' hcall hsent'

theorem tracks_of_isEmpty {p : Parameters} {ctx : Context} (h : derive crypto p = .ok ctx)
    {calls : List Call} (hempty : (ctx.after crypto calls).window.isEmpty = true) :
    (ctx.after crypto calls).window.Tracks [] := by
  have htracks := tracks_after crypto (tracks_of_derive h) calls
  have hnone := htracks.eq_nil (Option.isNone_iff_eq_none.mp hempty)
  rw [hnone] at htracks
  exact htracks

/-- Two endpoints derived their contexts from the same secrets, and used them in any way. From when
on the window of one of them is empty, it gets requests of the other one, in any order and as often
as may be, among other packets that it refuses, and among calls of its own. Where a request arrives
first it is accepted as the request that it was sent as, if none has arrived before that is a window
or more above it. Wherever it arrives again it is refused as a replay. -/
theorem accepted_at_first_arrival {p : Parameters} {a b₀ : Context} {size : Nat}
    (ha : derive crypto p = .ok a)
    (hb : derive crypto { p.swap with windowSize := size } = .ok b₀) (hround : crypto.RoundTrips)
    (sending earlier receiving : List Call)
    (hnumbers : ∀ m, Call.protectRequest m ∈ sending → ∀ e ∈ m.options.entries, e.1 ≤ 0xFFFF)
    (hempty : (b₀.after crypto earlier).window.isEmpty = true) :
    let b := b₀.after crypto earlier
    Arrives crypto (a.history crypto sending) (b.history crypto receiving) →
    ∀ before s later, b.history crypto receiving = before ++ s :: later →
      ∀ packet id, s.call = .unprotectRequest packet →
        Sent crypto (a.history crypto sending) packet id →
        (∀ t ∈ before, t.call ≠ .unprotectRequest packet) →
        (∀ t ∈ before, ∀ packet' id', t.call = .unprotectRequest packet' →
          Sent crypto (a.history crypto sending) packet' id' →
            id'.sequenceNumber < id.sequenceNumber + min (max size 1) ReplayWindow.maxSize) →
        (∃ m, s.result (perform crypto) = .ok ⟨m, some id⟩) ∧
          ∀ t ∈ later, t.call = .unprotectRequest packet →
            t.result (perform crypto) = .error .replayDetected := by
  intro b harrives before s later hsplit packet id hcall hsent hfirst hreach
  obtain ⟨calls, calls', rfl, hs, rfl⟩ := history_eq_append hsplit
  obtain ⟨ctx, call⟩ := s
  obtain rfl : ctx = b.after crypto calls := hs
  obtain rfl : call = .unprotectRequest packet := hcall
  have hstart : b.window.Tracks [] := tracks_of_isEmpty hb hempty
  have hsize : b.window.size = min (max size 1) ReplayWindow.maxSize := by
    rw [size_after, windowSize_of_derive hb]
  have hvalid : (b.after crypto calls).window.isValid id.sequenceNumber = true := by
    refine isValid_at_first_arrival hstart ?_ hsent hfirst ?_
    · intro t ht
      apply harrives
      rw [hsplit]
      exact List.mem_append_left _ ht
    · rw [hsize]
      exact hreach
  obtain ⟨⟨sender, call⟩, hmem, m, rfl, hseal⟩ := hsent.seal
  have hmatch : sender.Matches (b.after crypto calls) :=
    (((matches_of_derive ha hb).of_mem_history hmem).after [] earlier).after [] calls
  obtain ⟨_, _, -, -, hopen⟩ := openRequest_of_sealRequest hmatch hround
    (hnumbers m (call_mem_of_mem_history hmem)) hseal hvalid
  have hresult := perform_unprotectRequest_eq_ok.mpr hopen
  refine ⟨⟨_, hresult⟩, ?_⟩
  have hstruck := struck_of_accept (tracks_after crypto hstart calls) hresult
  exact hstruck.replayDetected hsent.ofPacket

theorem Sent.ne_shortRequest (h : Sent crypto steps packet id) : packet ≠ shortRequest := by
  rintro rfl
  cases h.ofPacket

def twoRequests : List Call := [.protectRequest shortRequest, .protectRequest shortRequest]

theorem sent_twoRequests (hencrypts : crypto.EncryptsUpTo Coap.maxPacketLength) {ctx : Context}
    (hzero : ctx.sequenceNumber = 0) :
    ∃ q₀ id₀ q₁ id₁, (ctx.history crypto twoRequests).map (fun s => s.result (perform crypto)) =
        [.ok ⟨q₀, some id₀⟩, .ok ⟨q₁, some id₁⟩] ∧
      Sent crypto (ctx.history crypto twoRequests) q₀ id₀ ∧
      Sent crypto (ctx.history crypto twoRequests) q₁ id₁ ∧
      id₀.sequenceNumber = 0 ∧ id₁.sequenceNumber = 1 := by
  have hfirst : ctx.sequenceNumber ≤ PartialIv.maxNumber := by
    rw [hzero]
    decide
  have hsecond : ctx.advance.sequenceNumber ≤ PartialIv.maxNumber := by
    show ctx.sequenceNumber + 1 ≤ _
    rw [hzero]
    decide
  obtain ⟨q₀, id₀, hsend₀⟩ :=
    perform_protectRequest_of_protectable hencrypts protectable_shortRequest hfirst
  obtain ⟨q₁, id₁, hsend₁⟩ :=
    perform_protectRequest_of_protectable hencrypts protectable_shortRequest hsecond
  have hsteps : ctx.history crypto twoRequests =
      [⟨ctx, .protectRequest shortRequest⟩, ⟨ctx.advance, .protectRequest shortRequest⟩] := by
    unfold history twoRequests
    rw [history_cons, history_cons, history_nil, hsend₀]
  have hresult₀ := congrArg Prod.fst hsend₀
  have hresult₁ := congrArg Prod.fst hsend₁
  rw [hsteps]
  refine ⟨q₀, id₀, q₁, id₁, congrArg₂ (fun x y => [x, y]) hresult₀ hresult₁,
    ⟨_, List.mem_cons_self .., shortRequest, rfl, hresult₀⟩,
    ⟨_, List.mem_cons_of_mem _ (List.mem_cons_self ..), shortRequest, rfl, hresult₁⟩, ?_, ?_⟩
  · exact (sequenceNumber_of_sealRequest (perform_protectRequest_eq_ok.mp hresult₀)).trans hzero
  · exact (sequenceNumber_of_sealRequest (perform_protectRequest_eq_ok.mp hresult₁)).trans
      (congrArg (· + 1) hzero)

/-- Of two requests the second arrives first, and something else next. Then the first one is
accepted, and refused once more. -/
theorem accepted_at_first_arrival_outOfOrder :
    ∃ a b, derive TestVector.crypto TestVector.client = .ok a ∧
      derive TestVector.crypto { TestVector.client.swap with windowSize := 2 } = .ok b ∧
      ∃ q₀ id₀ q₁ id₁, (a.history TestVector.crypto twoRequests).map
            (fun s => s.result (perform TestVector.crypto)) =
          [.ok ⟨q₀, some id₀⟩, .ok ⟨q₁, some id₁⟩] ∧
        ∃ m, ((b.history TestVector.crypto [.unprotectRequest q₁, .unprotectRequest shortRequest,
            .unprotectRequest q₀, .unprotectRequest q₀]).drop 2).map
              (fun s => s.result (perform TestVector.crypto)) =
            [.ok ⟨m, some id₀⟩, .error .replayDetected] := by
  obtain ⟨a, -, ha, -, -⟩ := TestVector.derive_client
  obtain ⟨b, hb⟩ := TestVector.derive_server 2
  obtain ⟨q₀, id₀, q₁, id₁, hresults, hsent₀, hsent₁, hnumber₀, hnumber₁⟩ := sent_twoRequests
    (TestVector.encryptsUpTo.mono (by decide)) (sequenceNumber_of_derive ha)
  refine ⟨a, b, ha, hb, q₀, id₀, q₁, id₁, hresults, ?_⟩
  have hnumbers : ∀ m, Call.protectRequest m ∈ twoRequests →
      ∀ e ∈ m.options.entries, e.1 ≤ 0xFFFF := by
    intro m hm
    have hshort : m = shortRequest := by simpa [twoRequests] using hm
    rw [hshort]
    exact protectable_shortRequest.numbers
  have hempty : (b.after TestVector.crypto []).window.isEmpty = true := by
    cases hb
    rfl
  have harrives : Arrives TestVector.crypto (a.history TestVector.crypto twoRequests)
      ((b.after TestVector.crypto []).history TestVector.crypto [.unprotectRequest q₁,
        .unprotectRequest shortRequest, .unprotectRequest q₀, .unprotectRequest q₀]) := by
    intro s hs packet hcall
    simp only [history, history_cons, history_nil, List.mem_cons, List.not_mem_nil, or_false] at hs
    rcases hs with rfl | rfl | rfl | rfl
    · cases hcall
      exact Or.inl ⟨id₁, hsent₁⟩
    · exact Or.inr rfl
    · cases hcall
      exact Or.inl ⟨id₀, hsent₀⟩
    · cases hcall
      exact Or.inl ⟨id₀, hsent₀⟩
  have hne : q₁ ≠ q₀ := by
    intro hsame
    rw [hsame] at hsent₁
    rw [eq_of_ofPacket hsent₁.ofPacket hsent₀.ofPacket, hnumber₀] at hnumber₁
    cases hnumber₁
  obtain ⟨⟨m, hresult⟩, hagain⟩ := accepted_at_first_arrival ha hb TestVector.roundTrips
    twoRequests [] _ hnumbers hempty harrives [_, _] _ [_] rfl q₀ id₀ rfl hsent₀
    (by
      intro t ht hcall
      rcases List.mem_pair.mp ht with rfl | rfl
      · exact hne (Call.unprotectRequest.inj hcall)
      · exact hsent₀.ne_shortRequest (Call.unprotectRequest.inj hcall).symm)
    (by
      intro t ht packet' id' hcall hsent'
      rcases List.mem_pair.mp ht with rfl | rfl
      · obtain rfl : q₁ = packet' := Call.unprotectRequest.inj hcall
        rw [eq_of_ofPacket hsent'.ofPacket hsent₁.ofPacket, hnumber₀, hnumber₁]
        decide
      · exact absurd (Call.unprotectRequest.inj hcall).symm hsent'.ne_shortRequest)
  exact ⟨m, congrArg₂ (fun x y => [x, y]) hresult (hagain _ (List.mem_singleton_self _) rfl)⟩

end Context

end Oscore

end SecureCoap
