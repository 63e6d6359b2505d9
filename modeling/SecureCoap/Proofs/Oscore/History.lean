import Mathlib.Data.List.Nodup
import Mathlib.Data.List.Pairwise
import Mathlib.Data.List.Range
import SecureCoap.Proofs.History
import SecureCoap.Proofs.Oscore.Nonce
import SecureCoap.Proofs.Oscore.Protection
import SecureCoap.Proofs.Oscore.ReplayWindow

/-!
# Numbers over the life of a context

A call changes at most the sequence number and the replay window of a context. Over a history, the
sequence numbers that are taken count up one by one, and no sequence number of a request is accepted
twice.
-/

namespace SecureCoap

namespace Oscore

variable {crypto : Primitives}

/-! ### What a call came to -/

namespace Call

variable {ε : Type}

/-- The sequence number that a call takes, given the context before and what it gives. -/
def number? (ctx : Context) (result : Except ε Outcome) (call : Call) : Option Nat :=
  if call.takesNumber ∧ result.isOk then some ctx.sequenceNumber else none

/-- The request that a call accepts, given what it gives. -/
def accepted? (result : Except ε Outcome) : Call → Option RequestId
  | unprotectRequest _ => result.toOption.bind (·.id)
  | _ => none

theorem accepted?_of_not_isOk {result : Except ε Outcome} (h : result.isOk = false) (call : Call) :
    call.accepted? result = none := by
  cases result with
  | error e =>
    cases call with
    | unprotectRequest packet => rfl
    | _ => rfl
  | ok o => cases h

end Call

namespace Context

/-! ### One call -/

theorem perform_protectRequest (ctx : Context) (m : Coap.Packet) :
    ctx.perform crypto (.protectRequest m) =
      ((ctx.sealRequest crypto m).map Outcome.request,
        if (ctx.sealRequest crypto m).isOk then ctx.advance else ctx) := by
  show (ctx.protectRequest crypto m).map (Except.map Outcome.request) id = _
  unfold protectRequest
  cases ctx.sealRequest crypto m with
  | error e => rfl
  | ok r => rfl

theorem perform_unprotectRequest (ctx : Context) (packet : Coap.Packet) :
    ctx.perform crypto (.unprotectRequest packet) =
      ((ctx.openRequest crypto packet).map Outcome.request,
        match ctx.openRequest crypto packet with
        | .ok (_, id) => ctx.accept id.sequenceNumber
        | .error _ => ctx) := by
  show (ctx.unprotectRequest crypto packet).map (Except.map Outcome.request) id = _
  unfold unprotectRequest
  cases ctx.openRequest crypto packet with
  | error e => rfl
  | ok r => rfl

theorem perform_protectResponse (ctx : Context) (m : Coap.Packet) (id : RequestId)
    (reusePiv : Bool) :
    ctx.perform crypto (.protectResponse m id reusePiv) =
      ((ctx.sealResponse crypto m id reusePiv).map Outcome.response,
        if (ctx.sealResponse crypto m id reusePiv).isOk ∧ reusePiv = false then ctx.advance
        else ctx) := by
  show (ctx.protectResponse crypto m id reusePiv).map (Except.map Outcome.response) (fun c => c) = _
  unfold protectResponse
  cases ctx.sealResponse crypto m id reusePiv with
  | error e => rfl
  | ok packet =>
    cases reusePiv with
    | false => rfl
    | true => rfl

theorem perform_unprotectResponse (ctx : Context) (packet : Coap.Packet) (id : RequestId) :
    ctx.perform crypto (.unprotectResponse packet id) =
      ((ctx.openResponse crypto packet id).map Outcome.response, ctx) := rfl

theorem perform_protectRequest_eq_ok {ctx : Context} {m packet : Coap.Packet} {id : RequestId} :
    (ctx.perform crypto (.protectRequest m)).1 = .ok ⟨packet, some id⟩ ↔
      ctx.sealRequest crypto m = .ok (packet, id) := by
  rw [perform_protectRequest, map_eq_ok]
  constructor
  · intro h
    obtain ⟨r, hseal, hr⟩ := h
    cases hr
    exact hseal
  · intro hseal
    exact ⟨_, hseal, rfl⟩

theorem perform_unprotectRequest_eq_ok {ctx : Context} {m packet : Coap.Packet} {id : RequestId} :
    (ctx.perform crypto (.unprotectRequest packet)).1 = .ok ⟨m, some id⟩ ↔
      ctx.openRequest crypto packet = .ok (m, id) := by
  rw [perform_unprotectRequest, map_eq_ok]
  constructor
  · intro h
    obtain ⟨r, hopen, hr⟩ := h
    cases hr
    exact hopen
  · intro hopen
    exact ⟨_, hopen, rfl⟩

/-- What a call leaves of a context: it may take the next sequence number or accept a request, and
changes nothing else. -/
theorem after_perform (crypto : Primitives) (call : Call) (ctx : Context) :
    (ctx.perform crypto call).2 =
      { ctx with
        sequenceNumber :=
          match call.number? ctx (ctx.perform crypto call).1 with
          | some n => n + 1
          | none => ctx.sequenceNumber
        window :=
          match call.accepted? (ctx.perform crypto call).1 with
          | some id => ctx.window.strikeOut id.sequenceNumber
          | none => ctx.window } := by
  cases call with
  | protectRequest m =>
    rw [perform_protectRequest]
    cases ctx.sealRequest crypto m with
    | error e => rfl
    | ok r => rfl
  | unprotectRequest packet =>
    rw [perform_unprotectRequest]
    cases ctx.openRequest crypto packet with
    | error e => rfl
    | ok r => rfl
  | protectResponse m id reusePiv =>
    rw [perform_protectResponse]
    cases ctx.sealResponse crypto m id reusePiv with
    | error e =>
      cases reusePiv with
      | false => rfl
      | true => rfl
    | ok packet =>
      cases reusePiv with
      | false => rfl
      | true => rfl
  | unprotectResponse packet id => rfl

theorem sequenceNumber_after (crypto : Primitives) (call : Call) (ctx : Context) :
    (ctx.perform crypto call).2.sequenceNumber =
      match call.number? ctx (ctx.perform crypto call).1 with
      | some n => n + 1
      | none => ctx.sequenceNumber := by
  rw [after_perform]

theorem window_after (crypto : Primitives) (call : Call) (ctx : Context) :
    (ctx.perform crypto call).2.window =
      match call.accepted? (ctx.perform crypto call).1 with
      | some id => ctx.window.strikeOut id.sequenceNumber
      | none => ctx.window := by
  rw [after_perform]

/-- A call that fails leaves a context as it is. -/
theorem after_of_not_isOk {ctx : Context} {call : Call}
    (h : (ctx.perform crypto call).1.isOk = false) : (ctx.perform crypto call).2 = ctx := by
  have hnumber : call.number? ctx (ctx.perform crypto call).1 = none := by
    refine if_neg ?_
    rw [h]
    exact fun hok => absurd hok.2 Bool.false_ne_true
  rw [after_perform, hnumber, Call.accepted?_of_not_isOk h]

/-! ### Sending and receiving -/

theorem after_of_protects (crypto : Primitives) {call : Call} (h : call.protects = true)
    (ctx : Context) :
    ∃ n, (ctx.perform crypto call).2 = { ctx with sequenceNumber := n } := by
  rw [after_perform]
  cases call with
  | protectRequest m => exact ⟨_, rfl⟩
  | protectResponse m id reusePiv => exact ⟨_, rfl⟩
  | unprotectRequest packet => cases h
  | unprotectResponse packet id => cases h

theorem after_of_unprotects (crypto : Primitives) {call : Call} (h : call.protects = false)
    (ctx : Context) :
    ∃ w, (ctx.perform crypto call).2 = { ctx with window := w } := by
  rw [after_perform]
  cases call with
  | protectRequest m => cases h
  | protectResponse m id reusePiv => cases h
  | unprotectRequest packet => exact ⟨_, rfl⟩
  | unprotectResponse packet id => exact ⟨_, rfl⟩

/-- Protecting a message does not look at the window. -/
theorem perform_with_window {call : Call} (h : call.protects = true) (ctx : Context)
    (w : ReplayWindow) :
    perform crypto call { ctx with window := w } =
      (ctx.perform crypto call).map id fun c => { c with window := w } := by
  cases call with
  | protectRequest m =>
    have hseal : sealRequest crypto { ctx with window := w } m = ctx.sealRequest crypto m := rfl
    rw [perform_protectRequest, perform_protectRequest, hseal]
    cases ctx.sealRequest crypto m with
    | error e => rfl
    | ok r => rfl
  | protectResponse m id reusePiv =>
    have hseal : sealResponse crypto { ctx with window := w } m id reusePiv =
        ctx.sealResponse crypto m id reusePiv := rfl
    rw [perform_protectResponse, perform_protectResponse, hseal]
    cases ctx.sealResponse crypto m id reusePiv with
    | error e => cases reusePiv <;> rfl
    | ok packet => cases reusePiv <;> rfl
  | unprotectRequest packet => cases h
  | unprotectResponse packet id => cases h

/-- Unprotecting a message does not look at the sequence number. -/
theorem perform_with_sequenceNumber {call : Call} (h : call.protects = false) (ctx : Context)
    (n : Nat) :
    perform crypto call { ctx with sequenceNumber := n } =
      (ctx.perform crypto call).map id fun c => { c with sequenceNumber := n } := by
  cases call with
  | protectRequest m => cases h
  | protectResponse m id reusePiv => cases h
  | unprotectRequest packet =>
    have hopen : openRequest crypto { ctx with sequenceNumber := n } packet =
        ctx.openRequest crypto packet := rfl
    rw [perform_unprotectRequest, perform_unprotectRequest, hopen]
    cases ctx.openRequest crypto packet with
    | error e => rfl
    | ok r => rfl
  | unprotectResponse packet id => rfl

/-! ### What is encrypted -/

/-- What is encrypted by a call, of which there are three kinds: a request and a response under the
next sequence number, and a response under the number of the request. -/
theorem sealing_cases {call : Call} {ctx : Context} {s : Sealing}
    (h : call.sealing? ctx = some s) :
    s.key = ctx.senderKey ∧
      ((∃ m, call = .protectRequest m ∧ ctx.sequenceNumber ≤ PartialIv.maxNumber ∧
          s.nonce = ctx.ownNonce (PartialIv.ofNumber ctx.sequenceNumber) ∧
          s.aad = aad ctx.aead ctx.senderId (PartialIv.ofNumber ctx.sequenceNumber)) ∨
        (∃ m id, call = .protectResponse m id false ∧
          ctx.sequenceNumber ≤ PartialIv.maxNumber ∧
          s.nonce = ctx.ownNonce (PartialIv.ofNumber ctx.sequenceNumber) ∧
          s.aad = aad ctx.aead id.kid id.piv) ∨
        ∃ m id, call = .protectResponse m id true ∧ s.nonce = ctx.peerNonce id.piv ∧
          s.aad = aad ctx.aead id.kid id.piv) := by
  cases call with
  | protectRequest m =>
    obtain ⟨⟨s', id⟩, hs, rfl⟩ := Option.map_eq_some_iff.mp h
    obtain ⟨hle, rfl, hsealing⟩ := requestSealing_eq_ok.mp (toOption_eq_some.mp hs)
    obtain ⟨hkey, hnonce, haad⟩ := sealing_under hsealing
    exact ⟨hkey, Or.inl ⟨m, rfl, hle, hnonce, haad⟩⟩
  | protectResponse m id reusePiv =>
    obtain ⟨⟨s', piv⟩, hs, rfl⟩ := Option.map_eq_some_iff.mp h
    cases reusePiv with
    | false =>
      obtain ⟨hle, -, hsealing⟩ := responseSealing_own_eq_ok.mp (toOption_eq_some.mp hs)
      obtain ⟨hkey, hnonce, haad⟩ := sealing_under hsealing
      exact ⟨hkey, Or.inr (Or.inl ⟨m, id, rfl, hle, hnonce, haad⟩)⟩
    | true =>
      obtain ⟨-, hsealing⟩ := responseSealing_reuse_eq_ok.mp (toOption_eq_some.mp hs)
      obtain ⟨hkey, hnonce, haad⟩ := sealing_under hsealing
      exact ⟨hkey, Or.inr (Or.inr ⟨m, id, rfl, hnonce, haad⟩)⟩
  | unprotectRequest packet => cases h
  | unprotectResponse packet id => cases h

/-- The payload of a protected message is what encryption gives for what the call gives to it. -/
theorem payload_of_protects {call : Call} {ctx : Context} {o : Outcome}
    (hprotects : call.protects = true) (h : (ctx.perform crypto call).1 = .ok o) :
    ∃ s, call.sealing? ctx = some s ∧ s.run crypto = .ok o.packet.payload := by
  cases call with
  | protectRequest m =>
    rw [perform_protectRequest, map_eq_ok] at h
    obtain ⟨⟨packet, id⟩, hseal, rfl⟩ := h
    obtain ⟨s, ciphertext, hs, hrun, rfl⟩ := sealRequest_eq_ok.mp hseal
    exact ⟨s, Option.map_eq_some_iff.mpr ⟨_, toOption_eq_some.mpr hs, rfl⟩, hrun⟩
  | protectResponse m id reusePiv =>
    rw [perform_protectResponse, map_eq_ok] at h
    obtain ⟨packet, hseal, rfl⟩ := h
    obtain ⟨s, piv, ciphertext, hs, hrun, rfl⟩ := sealResponse_eq_ok.mp hseal
    exact ⟨s, Option.map_eq_some_iff.mpr ⟨_, toOption_eq_some.mpr hs, rfl⟩, hrun⟩
  | unprotectRequest packet => cases hprotects
  | unprotectResponse packet id => cases hprotects

theorem isOk_iff_encrypts {call : Call} {ctx : Context}
    (h : call.takesNumber = true ∨ call.reusesNonce = true) :
    (ctx.perform crypto call).1.isOk = true ↔
      ∃ s ciphertext, call.sealing? ctx = some s ∧ s.run crypto = .ok ciphertext := by
  have hgiven : call.protects = true → (ctx.perform crypto call).1.isOk = true →
      ∃ s ciphertext, call.sealing? ctx = some s ∧ s.run crypto = .ok ciphertext := by
    intro hprotects hok
    obtain ⟨o, ho⟩ := isOk_iff.mp hok
    obtain ⟨s, hs, hrun⟩ := payload_of_protects hprotects ho
    exact ⟨s, _, hs, hrun⟩
  cases call with
  | protectRequest m =>
    refine ⟨hgiven rfl, ?_⟩
    intro h
    obtain ⟨s, ciphertext, hsome, hrun⟩ := h
    obtain ⟨⟨s', id⟩, hs, rfl⟩ := Option.map_eq_some_iff.mp hsome
    rw [perform_protectRequest, isOk_map, isOk_iff]
    exact ⟨_, sealRequest_eq_ok.mpr ⟨s', ciphertext, toOption_eq_some.mp hs, hrun, rfl⟩⟩
  | protectResponse m id reusePiv =>
    refine ⟨hgiven rfl, ?_⟩
    intro h
    obtain ⟨s, ciphertext, hsome, hrun⟩ := h
    obtain ⟨⟨s', piv⟩, hs, rfl⟩ := Option.map_eq_some_iff.mp hsome
    rw [perform_protectResponse, isOk_map, isOk_iff]
    exact ⟨_, sealResponse_eq_ok.mpr ⟨s', piv, ciphertext, toOption_eq_some.mp hs, hrun, rfl⟩⟩
  | unprotectRequest packet => simp [Call.takesNumber, Call.reusesNonce] at h
  | unprotectResponse packet id => simp [Call.takesNumber, Call.reusesNonce] at h

theorem sealing_of_number {call : Call} {ctx : Context} {n : Nat}
    (h : call.number? ctx (ctx.perform crypto call).1 = some n) :
    n = ctx.sequenceNumber ∧ n ≤ PartialIv.maxNumber ∧
      ∃ s, call.sealing? ctx = some s ∧ s.nonce = ctx.ownNonce (PartialIv.ofNumber n) := by
  unfold Call.number? at h
  split at h
  · next hcond =>
    obtain ⟨htakes, hok⟩ := hcond
    cases h
    obtain ⟨s, -, hs, -⟩ := (isOk_iff_encrypts (Or.inl htakes)).mp hok
    rcases sealing_cases hs with ⟨-, ⟨m, -, hle, hnonce, -⟩ | ⟨m, id, -, hle, hnonce, -⟩ |
      ⟨m, id, rfl, -, -⟩⟩
    · exact ⟨rfl, hle, s, hs, hnonce⟩
    · exact ⟨rfl, hle, s, hs, hnonce⟩
    · cases htakes
  · cases h

theorem isValid_of_accepted {call : Call} {ctx : Context} {id : RequestId}
    (h : call.accepted? (ctx.perform crypto call).1 = some id) :
    ctx.window.isValid id.sequenceNumber = true := by
  cases call with
  | unprotectRequest packet =>
    rw [perform_unprotectRequest] at h
    cases hopen : ctx.openRequest crypto packet with
    | error e =>
      rw [hopen] at h
      cases h
    | ok r =>
      obtain ⟨m, id'⟩ := r
      rw [hopen] at h
      cases h
      obtain ⟨o, -, -, ho, -, -, -⟩ := openRequest_eq_ok.mp hopen
      obtain ⟨-, hvalid, -⟩ := requestOpening_eq_ok.mp ho
      exact hvalid
  | protectRequest m => cases h
  | protectResponse m id' reusePiv => cases h
  | unprotectResponse packet id' => cases h

/-! ### All calls -/

def numbers (crypto : Primitives) (steps : List (Step Context Call)) : List Nat :=
  steps.filterMap fun s => s.call.number? s.before (s.result (perform crypto))

def accepted (crypto : Primitives) (steps : List (Step Context Call)) : List RequestId :=
  steps.filterMap fun s => s.call.accepted? (s.result (perform crypto))

theorem perform_frame (ctx : Context) (call : Call) (c : Context)
    (h : ∃ n w, c = { ctx with sequenceNumber := n, window := w }) :
    ∃ n w, (c.perform crypto call).2 = { ctx with sequenceNumber := n, window := w } := by
  obtain ⟨n, w, rfl⟩ := h
  exact ⟨_, _, after_perform crypto call _⟩

theorem history_frame (ctx : Context) (calls : List Call) :
    ∀ s ∈ ctx.history crypto calls,
      ∃ n w, s.before = { ctx with sequenceNumber := n, window := w } :=
  history_invariant (perform_frame ctx) ⟨ctx.sequenceNumber, ctx.window, rfl⟩ calls

theorem after_frame (crypto : Primitives) (ctx : Context) (calls : List Call) :
    ∃ n w, ctx.after crypto calls = { ctx with sequenceNumber := n, window := w } :=
  finalState_invariant (perform_frame ctx) ⟨ctx.sequenceNumber, ctx.window, rfl⟩ calls

/-- The sequence numbers that are taken count up from the one that the context starts with. -/
theorem numbers_eq_range (crypto : Primitives) (ctx : Context) (calls : List Call) :
    ∃ count, numbers crypto (ctx.history crypto calls) = List.range' ctx.sequenceNumber count := by
  induction calls generalizing ctx with
  | nil => exact ⟨0, rfl⟩
  | cons call calls ih =>
    obtain ⟨count, hcount⟩ := ih (ctx.perform crypto call).2
    have hafter := sequenceNumber_after crypto call ctx
    cases hn : call.number? ctx (ctx.perform crypto call).1 with
    | none =>
      rw [hn] at hafter
      have hlist : numbers crypto (ctx.history crypto (call :: calls))
          = numbers crypto ((ctx.perform crypto call).2.history crypto calls) :=
        List.filterMap_cons_none hn
      exact ⟨count, by rw [hlist, hcount, hafter]⟩
    | some n =>
      obtain ⟨rfl, -, -⟩ := sealing_of_number hn
      rw [hn] at hafter
      have hlist : numbers crypto (ctx.history crypto (call :: calls))
          = ctx.sequenceNumber
            :: numbers crypto ((ctx.perform crypto call).2.history crypto calls) :=
        List.filterMap_cons_some hn
      exact ⟨count + 1, by rw [hlist, hcount, hafter, List.range'_succ]⟩

theorem step_eq_of_number {ctx : Context} {calls : List Call} {s t : Step Context Call} {n : Nat}
    (hs : s ∈ ctx.history crypto calls) (ht : t ∈ ctx.history crypto calls)
    (hsn : s.call.number? s.before (s.result (perform crypto)) = some n)
    (htn : t.call.number? t.before (t.result (perform crypto)) = some n) : s = t := by
  obtain ⟨count, hrange⟩ := numbers_eq_range crypto ctx calls
  have hnodup : (numbers crypto (ctx.history crypto calls)).Nodup := by
    rw [hrange]
    exact List.nodup_range'
  unfold numbers at hnodup
  rw [List.Nodup, List.pairwise_filterMap] at hnodup
  have hsymm : Std.Symm fun x y : Step Context Call =>
      ∀ m, x.call.number? x.before (x.result (perform crypto)) = some m →
        ∀ k, y.call.number? y.before (y.result (perform crypto)) = some k → m ≠ k :=
    ⟨fun x y hxy m hm k hk => (hxy k hk m hm).symm⟩
  by_contra hne
  exact hnodup.forall hs ht hne n hsn n htn rfl

theorem accepted_cons (crypto : Primitives) (ctx : Context) (call : Call) (calls : List Call) :
    accepted crypto (ctx.history crypto (call :: calls)) =
      (call.accepted? (ctx.perform crypto call).1).toList
        ++ accepted crypto ((ctx.perform crypto call).2.history crypto calls) := by
  cases ha : call.accepted? (ctx.perform crypto call).1 with
  | none => exact List.filterMap_cons_none ha
  | some id => exact List.filterMap_cons_some ha

theorem size_after (crypto : Primitives) (ctx : Context) (calls : List Call) :
    (ctx.after crypto calls).window.size = ctx.window.size := by
  refine finalState_invariant (I := fun c : Context => c.window.size = ctx.window.size) ?_ rfl calls
  intro call c hc
  rw [window_after, ← hc]
  split
  · exact ReplayWindow.strikeOut_size _ _
  · rfl

theorem tracks_perform (crypto : Primitives) {ctx : Context} {ns : List Nat}
    (h : ctx.window.Tracks ns) (call : Call) :
    (ctx.perform crypto call).2.window.Tracks
      (((call.accepted? (ctx.perform crypto call).1).toList.map RequestId.sequenceNumber).reverse
        ++ ns) := by
  rw [window_after]
  cases call.accepted? (ctx.perform crypto call).1 with
  | none => exact h
  | some id => exact h.strikeOut id.sequenceNumber

/-- After calls a window stands for the numbers that they accepted, and for those from before. -/
theorem tracks_after (crypto : Primitives) {ctx : Context} {ns : List Nat}
    (h : ctx.window.Tracks ns) (calls : List Call) :
    (ctx.after crypto calls).window.Tracks
      (((accepted crypto (ctx.history crypto calls)).map
        RequestId.sequenceNumber).reverse ++ ns) := by
  induction calls generalizing ctx ns with
  | nil => exact h
  | cons call calls ih =>
    rw [accepted_cons, List.map_append, List.reverse_append, List.append_assoc]
    exact ih (tracks_perform crypto h call)

/-- An accepted number was neither accepted nor struck out before, and what was lies below the end
of a window that starts at it. -/
theorem accepted_pairwise (crypto : Primitives) {ctx : Context} {ns : List Nat}
    (h : ctx.window.Tracks ns) (calls : List Call) :
    (accepted crypto (ctx.history crypto calls)).Pairwise (fun x y =>
        x.sequenceNumber ≠ y.sequenceNumber ∧
          x.sequenceNumber < y.sequenceNumber + ctx.window.size) ∧
      ∀ id ∈ accepted crypto (ctx.history crypto calls), ∀ n ∈ ns,
        n ≠ id.sequenceNumber ∧ n < id.sequenceNumber + ctx.window.size := by
  induction calls generalizing ctx ns with
  | nil => exact ⟨List.Pairwise.nil, fun id hid => by cases hid⟩
  | cons call calls ih =>
    have hsize : (ctx.perform crypto call).2.window.size = ctx.window.size :=
      size_after crypto ctx [call]
    obtain ⟨hpairs, hold⟩ := ih (tracks_perform crypto h call)
    rw [hsize] at hpairs hold
    rw [accepted_cons]
    cases ha : call.accepted? (ctx.perform crypto call).1 with
    | none =>
      rw [ha] at hold
      exact ⟨hpairs, hold⟩
    | some id =>
      rw [ha] at hold
      have hvalid := (h.isValid_iff_forall id.sequenceNumber).mp (isValid_of_accepted ha)
      rw [Option.toList_some, List.singleton_append, List.pairwise_cons]
      refine ⟨⟨?_, hpairs⟩, ?_⟩
      · intro id' hid'
        exact hold id' hid' id.sequenceNumber (List.mem_cons_self ..)
      · intro id' hid' n hn
        rcases List.mem_cons.mp hid' with rfl | hid'
        · exact hvalid n hn
        · exact hold id' hid' n (List.mem_cons_of_mem _ hn)

/-- No sequence number is accepted twice, and none that was struck out before. -/
theorem accepted_distinct (crypto : Primitives) {ctx : Context} {ns : List Nat}
    (h : ctx.window.Tracks ns) (calls : List Call) :
    ((accepted crypto (ctx.history crypto calls)).map RequestId.sequenceNumber).Nodup ∧
      ∀ id ∈ accepted crypto (ctx.history crypto calls), id.sequenceNumber ∉ ns := by
  obtain ⟨hpairs, hold⟩ := accepted_pairwise crypto h calls
  constructor
  · exact List.pairwise_map.mpr (hpairs.imp And.left)
  · intro id hid hmem
    exact (hold id hid _ hmem).1 rfl

end Context

end Oscore

end SecureCoap
