import SecureCoap.Proofs.Session.Rules

/-!
# Courses that a handshake can take

What each part of a handshake can do and give: one course for each step at which it may fail, and
one in which all goes well. Each part is gone through once. What holds of all handshakes follows
from the courses.
-/

namespace SecureCoap

namespace Session

open Edhoc (ConnectionId)

variable {ε τ : Type} {s : Setting ε τ} {destination : String} {request : Coap.Packet}
  {acts acts' : List Act} {phases : List Phase}

namespace Handshake

/-! ### The first two messages -/

/-- Acts of a greeting, with the phases that it enters and what it gives. -/
inductive Greets (s : Setting ε τ) (destination : String) :
    List Act → List Phase → Except Error Edhoc.SecondMessage → Prop where
  | unasked (e : Edhoc.Error) :
    Greets s destination [.asked (.firstMessage s.config.connectionId) (.error e)] []
      (.error (.edhoc e))
  | unanswered {first : Bytes} {reply : Reply} {e : TransportError}
    (hreply : reply.within s.config.timeout = .error e) :
    Greets s destination
      [.asked (.firstMessage s.config.connectionId) (.ok first),
        .exchanged destination (messageRequest s.config (Edhoc.firstPayload first)) reply]
      [.sentFirst] (.error (.transport e))
  /-- The answer is an error message. -/
  | refused {first : Bytes} {reply : Reply} {response : Coap.Packet} {e : Edhoc.Error}
    (hreply : reply.within s.config.timeout = .ok response)
    (hpayload : Edhoc.failOnErrorMessage response.payload = .error e) :
    Greets s destination
      [.asked (.firstMessage s.config.connectionId) (.ok first),
        .exchanged destination (messageRequest s.config (Edhoc.firstPayload first)) reply]
      [.sentFirst] (.error (.edhoc e))
  | unread {first : Bytes} {reply : Reply} {response : Coap.Packet} {e : Edhoc.Error}
    (hreply : reply.within s.config.timeout = .ok response)
    (hpayload : Edhoc.failOnErrorMessage response.payload = .ok ()) :
    Greets s destination
      [.asked (.firstMessage s.config.connectionId) (.ok first),
        .exchanged destination (messageRequest s.config (Edhoc.firstPayload first)) reply,
        .asked (.secondMessage response.payload) (.error e)]
      [.sentFirst] (.error (.edhoc e))
  | greeted {first : Bytes} {reply : Reply} {response : Coap.Packet} {second : Edhoc.SecondMessage}
    (hreply : reply.within s.config.timeout = .ok response)
    (hpayload : Edhoc.failOnErrorMessage response.payload = .ok ()) :
    Greets s destination
      [.asked (.firstMessage s.config.connectionId) (.ok first),
        .exchanged destination (messageRequest s.config (Edhoc.firstPayload first)) reply,
        .asked (.secondMessage response.payload) (.ok second)]
      [.sentFirst, .receivedSecond] (.ok second)

theorem greet_performs (s : Setting ε τ) (destination : String) :
    Performs s (greet s destination) (Greets s destination) := by
  refine .ask (.firstMessage s.config.connectionId) (fun e => .unasked e) fun first => ?_
  refine .enter ?_
  refine .exchange (fun reply e hreply => .unanswered hreply) fun reply response hreply => ?_
  cases hpayload : Edhoc.failOnErrorMessage response.payload with
  | error e =>
    apply Performs.throw
    exact .refused hreply hpayload
  | ok u =>
    refine .ask (.secondMessage response.payload) (fun e => .unread hreply hpayload)
      fun second => ?_
    refine .enter (.pure ?_)
    exact .greeted hreply hpayload

/-! ### Authentication -/

/-- Acts of an authentication by the second message. -/
inductive Authenticates (s : Setting ε τ) (second : Edhoc.SecondMessage) :
    List Act → List Phase → Except Error Unit → Prop where
  | critical {item : Edhoc.EadItem} (hitem : second.ead = some item)
    (hcritical : item.isCritical = true) :
    Authenticates s second [] [] (.error (.criticalEad item.label))
  | unknown (hpeer : s.registry.lookup? second.credentialId = none) :
    Authenticates s second [] [] (.error (.unknownPeer second.credentialId))
  | refused {peer : Registry.Credential} {e : Edhoc.Error}
    (hpeer : s.registry.lookup? second.credentialId = some peer) :
    Authenticates s second
      [.asked (.verifyPeer s.config.identity s.config.credential peer.bytes) (.error e)] []
      (.error (.authenticationFailed e))
  | verified {peer : Registry.Credential}
    (hcheck : ∀ item, second.ead = some item → item.isCritical = false)
    (hpeer : s.registry.lookup? second.credentialId = some peer) :
    Authenticates s second
      [.asked (.verifyPeer s.config.identity s.config.credential peer.bytes) (.ok ())] [.verified]
      (.ok ())

theorem authenticate_performs (s : Setting ε τ) (second : Edhoc.SecondMessage) :
    Performs s (authenticate s second) (Authenticates s second) := by
  refine .checkEad (fun item hitem hcritical => .critical hitem hcritical) fun hcheck => ?_
  cases hpeer : s.registry.lookup? second.credentialId with
  | none =>
    apply Performs.throw
    exact .unknown hpeer
  | some peer =>
    refine .ask (.verifyPeer s.config.identity s.config.credential peer.bytes)
      (fun e => .refused hpeer) fun _ => ?_
    refine .of_bind_pure (.enter (.pure ?_))
    exact .verified hcheck hpeer

/-! ### The final message and the context -/

/-- Acts of a derivation, and what it gives. -/
inductive Derives (s : Setting ε τ) (pending : Option Bytes) (ours theirs : ConnectionId) :
    List Act → Except Error EdhocContext → Prop where
  | unsupported {suite : Int} : Derives s pending ours theirs [] (.error (.unsupportedSuite suite))
  | noSecret {e : Edhoc.Error} :
    Derives s pending ours theirs [.asked (.exporter 0 [] 16) (.error e)] (.error (.edhoc e))
  | noSalt {secret : Bytes} {e : Edhoc.Error} :
    Derives s pending ours theirs
      [.asked (.exporter 0 [] 16) (.ok secret), .asked (.exporter 1 [] 8) (.error e)]
      (.error (.edhoc e))
  | exported {secret salt : Bytes} {r : Except Error EdhocContext}
    (hcontext : contextOf s.crypto pending ours theirs secret salt = r) :
    Derives s pending ours theirs
      [.asked (.exporter 0 [] 16) (.ok secret), .asked (.exporter 1 [] 8) (.ok salt)] r

/-- Contexts are derived with one pair of algorithms only. -/
theorem eq_of_algorithmsForSuite {suite : Int}
    {algorithms : Oscore.AeadAlgorithm × Oscore.HashAlgorithm}
    (h : algorithmsForSuite suite = .ok algorithms) :
    algorithms = (.aesCcm16_64_128, .sha256) := by
  unfold algorithmsForSuite at h
  split at h
  · exact (Except.ok.inj h).symm
  · cases h

theorem algorithmsForSuite_eq_error {suite : Int} {e : Error}
    (h : algorithmsForSuite suite = .error e) : e = .unsupportedSuite suite := by
  unfold algorithmsForSuite at h
  split at h
  · cases h
  · exact (Except.error.inj h).symm

theorem derive_performs (s : Setting ε τ) (pending : Option Bytes) (ours theirs : ConnectionId) :
    Performs s (talk (derive s.crypto s.engine pending ours theirs)) fun acts phases r =>
      phases = [] ∧ Derives s pending ours theirs acts r := by
  unfold derive
  simp only [talk_bind]
  refine .look fun c => ?_
  refine .talkResult ?_ fun (aead, hash) hsuite => ?_
  · intro e hsuite
    rw [algorithmsForSuite_eq_error hsuite]
    exact ⟨rfl, .unsupported⟩
  cases eq_of_algorithmsForSuite hsuite
  refine .ask (.exporter 0 [] 16) (fun e => ⟨rfl, .noSecret⟩) fun secret => ?_
  refine .ask (.exporter 1 [] 8) (fun e => ⟨rfl, .noSalt⟩) fun salt => ?_
  refine .talkResult (fun e hp => ⟨rfl, .exported ?_⟩) fun p hp => ?_
  · exact bind_eq_error.mpr (Or.inl hp)
  refine .log rfl ?_
  refine .talkResult (fun e hcontext => ⟨rfl, .exported ?_⟩) fun context hcontext => ?_
  · exact bind_eq_error.mpr (Or.inr ⟨p, hp, bind_eq_error.mpr (Or.inl hcontext)⟩)
  refine .pure ⟨rfl, .exported ?_⟩
  exact bind_eq_ok.mpr ⟨p, hp, bind_eq_ok.mpr ⟨context, hcontext, rfl⟩⟩

/-- Acts of an agreement on a context. -/
inductive Agrees (s : Setting ε τ) (second : Edhoc.SecondMessage) :
    List Act → List Phase → Except Error EdhocContext → Prop where
  | refused (e : Edhoc.Error) :
    Agrees s second [.asked (.finalMessage s.config.transfer) (.error e)] [] (.error (.edhoc e))
  | underived {final : Bytes} {acts : List Act} {e : Error}
    (hderived : Derives s (some final) s.config.connectionId second.connectionId acts (.error e)) :
    Agrees s second (.asked (.finalMessage s.config.transfer) (.ok final) :: acts) [] (.error e)
  | agreed {final : Bytes} {acts : List Act} {context : EdhocContext}
    (hderived : Derives s (some final) s.config.connectionId second.connectionId acts
      (.ok context)) :
    Agrees s second (.asked (.finalMessage s.config.transfer) (.ok final) :: acts) [.contextReady]
      (.ok context)

theorem agree_performs (s : Setting ε τ) (second : Edhoc.SecondMessage) :
    Performs s (agree s second) (Agrees s second) := by
  refine .ask (.finalMessage s.config.transfer) (fun e => .refused e) fun final => ?_
  refine .bind (derive_performs s (some final) _ _) ?_ ?_
  · rintro acts _ e ⟨rfl, hderived⟩
    exact .underived hderived
  · rintro acts _ context ⟨rfl, hderived⟩
    refine .enter (.pure ?_)
    show Agrees s second (_ :: (acts ++ [])) _ _
    rw [List.append_nil]
    exact .agreed hderived

/-! ### The first request -/

/-- Acts of the first request under a context, and what comes of it. -/
inductive Requests (s : Setting ε τ) (destination : String) (context : EdhocContext)
    (request : Coap.Packet) : List Act → List Phase → Except Error Coap.Packet → Prop where
  | unprotected {e : Error} (hprotect : (context.protect s.crypto request).1 = .error e) :
    Requests s destination context request [] [] (.error e)
  | unanswered {message : Protected} {reply : Reply} {e : TransportError}
    (hprotect : (context.protect s.crypto request).1 = .ok message)
    (hreply : reply.within s.config.timeout = .error e) :
    Requests s destination context request [.exchanged destination message.packet reply]
      [.sentFirstRequest] (.error (.transport e))
  | answered {message : Protected} {reply : Reply} {received : Coap.Packet}
    {r : Except Error Coap.Packet}
    (hprotect : (context.protect s.crypto request).1 = .ok message)
    (hreply : reply.within s.config.timeout = .ok received)
    (hresponse : ((context.protect s.crypto request).2.unprotectResponse s.crypto received
      message.request).1 = r) :
    Requests s destination context request [.exchanged destination message.packet reply]
      [.sentFirstRequest] r

theorem phaseChange?_of_mem_log {message : Protected} :
    ∀ entry ∈ message.log, (Event.logged entry).phaseChange? = none := by
  intro entry hentry
  unfold Protected.log at hentry
  cases hcarried : message.carried with
  | none =>
    rw [hcarried] at hentry
    cases hentry
  | some final =>
    rw [hcarried, List.mem_singleton] at hentry
    rw [hentry]
    rfl

theorem firstExchange_performs (s : Setting ε τ) (destination : String) (id : ContextId)
    (context : EdhocContext) (request : Coap.Packet) :
    Performs s (firstExchange s destination id context request)
      (Requests s destination context request) := by
  unfold firstExchange
  rcases hprotected : context.protect s.crypto request with ⟨result, after⟩
  have hresult : (context.protect s.crypto request).1 = result := congrArg Prod.fst hprotected
  have hafter : (context.protect s.crypto request).2 = after := congrArg Prod.snd hprotected
  refine .setContext (.result ?_ fun message hmessage => ?_)
  · intro e he
    exact .unprotected (hresult.trans he)
  have hprotect := hresult.trans hmessage
  refine .forM_log phaseChange?_of_mem_log (.enter ?_)
  refine .exchange (fun reply e hreply => .unanswered hprotect hreply)
    fun reply received hreply => ?_
  rcases hresponse : after.unprotectResponse s.crypto received message.request with ⟨r, last⟩
  have hresponse : ((context.protect s.crypto request).2.unprotectResponse s.crypto received
      message.request).1 = r := by
    rw [hafter, hresponse]
  refine .setContext (.of_bind_pure (.result ?_ fun response hr => .pure ?_))
  · intro e he
    exact .answered hprotect hreply (hresponse.trans he)
  · exact .answered hprotect hreply (hresponse.trans hr)

/-! ### After the authentication -/

/-- What a handshake does once the peer is authenticated. -/
def conclude (s : Setting ε τ) (destination : String) (request : Coap.Packet)
    (second : Edhoc.SecondMessage) : Step ε τ (Established × EdhocContext) := do
  let context ← agree s second
  let id ← register destination context
  let response ← tryCatch (firstExchange s destination id context request) fun e => do
    forget destination
    throw e
  return (⟨id, response⟩, context)

/-- Acts of a handshake once the peer is authenticated. -/
inductive Concludes (s : Setting ε τ) (destination : String) (request : Coap.Packet)
    (second : Edhoc.SecondMessage) :
    List Act → List Phase → Except Error (Established × EdhocContext) → Prop where
  | disagreed {acts : List Act} {phases : List Phase} {e : Error}
    (hagree : Agrees s second acts phases (.error e)) :
    Concludes s destination request second acts phases (.error e)
  | dropped {acts later : List Act} {phases laterPhases : List Phase} {context : EdhocContext}
    {id : ContextId} {e : Error} (hagree : Agrees s second acts phases (.ok context))
    (hrequest : Requests s destination context request later laterPhases (.error e)) :
    Concludes s destination request second
      (acts ++ .registered destination id :: (later ++ [.forgotten destination]))
      (phases ++ laterPhases) (.error e)
  | concluded {acts later : List Act} {phases laterPhases : List Phase} {context : EdhocContext}
    {id : ContextId} {response : Coap.Packet} (hagree : Agrees s second acts phases (.ok context))
    (hrequest : Requests s destination context request later laterPhases (.ok response)) :
    Concludes s destination request second (acts ++ .registered destination id :: later)
      (phases ++ laterPhases) (.ok (⟨id, response⟩, context))

theorem conclude_performs (s : Setting ε τ) (destination : String) (request : Coap.Packet)
    (second : Edhoc.SecondMessage) :
    Performs s (conclude s destination request second)
      (Concludes s destination request second) := by
  refine .bind (agree_performs s second) (fun acts phases e hagree => .disagreed hagree) ?_
  intro acts phases context hagree
  refine .register fun id => ?_
  refine .orForget (firstExchange_performs s destination id context request) ?_ ?_
  · intro later laterPhases e hrequest
    exact .dropped hagree hrequest
  · intro later laterPhases response hrequest
    refine .pure ?_
    rw [List.append_nil, List.append_nil]
    exact .concluded hagree hrequest

/-! ### Whole handshakes -/

/-- Acts of a handshake, up to its end. -/
inductive Advances (s : Setting ε τ) (destination : String) (request : Coap.Packet) :
    List Act → List Phase → Except Error (Established × EdhocContext) → Prop where
  | ungreeted {acts : List Act} {phases : List Phase} {e : Error}
    (hgreet : Greets s destination acts phases (.error e)) :
    Advances s destination request acts phases (.error e)
  | unauthenticated {acts later : List Act} {phases laterPhases : List Phase}
    {second : Edhoc.SecondMessage} {e : Error}
    (hgreet : Greets s destination acts phases (.ok second))
    (hauthenticate : Authenticates s second later laterPhases (.error e)) :
    Advances s destination request (acts ++ later) (phases ++ laterPhases) (.error e)
  | authenticated {acts later last : List Act} {phases laterPhases lastPhases : List Phase}
    {second : Edhoc.SecondMessage} {r : Except Error (Established × EdhocContext)}
    (hgreet : Greets s destination acts phases (.ok second))
    (hauthenticate : Authenticates s second later laterPhases (.ok ()))
    (hconclude : Concludes s destination request second last lastPhases r) :
    Advances s destination request (acts ++ later ++ last) (phases ++ laterPhases ++ lastPhases) r

theorem advance_eq (s : Setting ε τ) (destination : String) (request : Coap.Packet) :
    advance s destination request =
      (greet s destination >>= fun second =>
        authenticate s second >>= fun _ => conclude s destination request second) := rfl

theorem advance_performs (s : Setting ε τ) (destination : String) (request : Coap.Packet) :
    Performs s (advance s destination request) (Advances s destination request) := by
  rw [advance_eq]
  refine .bind (greet_performs s destination) (fun acts phases e hgreet => .ungreeted hgreet) ?_
  intro acts phases second hgreet
  refine .bind (authenticate_performs s second) ?_ ?_
  · intro later laterPhases e hauthenticate
    exact .unauthenticated hgreet hauthenticate
  · intro later laterPhases _ hauthenticate
    refine (conclude_performs s destination request second).imp ?_
    intro last lastPhases r hconclude
    rw [← List.append_assoc, ← List.append_assoc]
    exact .authenticated hgreet hauthenticate hconclude

theorem finish_performs (destination : String) (context : EdhocContext) :
    Performs s (finish destination context : Step ε τ Unit) fun acts phases _ =>
      acts = [] ∧ phases = [.established] :=
  .enter (.of_bind_pure (.log rfl (.pure ⟨rfl, rfl⟩)))

/-- All acts of a handshake are done before its end, which changes nothing of how it went. -/
theorem run_advances (s : Setting ε τ) (destination : String) (request : Coap.Packet)
    (w : World ε τ) :
    ∃ acts phases r, w.Does s acts ((run s destination request).run.run w).2 ∧
      Advances s destination request acts phases r ∧
      ((run s destination request).run.run w).1 = r.map Prod.fst := by
  obtain ⟨acts, phases, hpasses, hadvances⟩ := advance_performs s destination request w
  rcases hrun : (advance s destination request).run.run w with ⟨e | ⟨session, context⟩, w₁⟩
  · rw [hrun] at hpasses hadvances
    rw [run_of_error hrun]
    refine ⟨acts, phases, .error e, ?_, hadvances, rfl⟩
    rw [← List.append_nil acts]
    exact hpasses.acts.trans (.logged rfl rfl)
  · rw [hrun] at hpasses hadvances
    rw [run_of_ok hrun]
    refine ⟨acts, phases, .ok (session, context), ?_, hadvances, rfl⟩
    obtain ⟨_, _, hend, rfl, rfl⟩ := finish_performs (s := s) destination context w₁
    rw [← List.append_nil acts]
    exact hpasses.acts.trans hend.acts

/-! ### Kinds of acts -/

/-- These acts begin with the question for the first message, and go on within an order. -/
def Starts (kinds : List Act.Kind) (acts : List Act) : Prop :=
  ∃ later, acts.map Act.kind = .firstMessage :: later ∧ later.Sublist kinds

theorem Starts.within {kinds : List Act.Kind} {acts : List Act} (h : Starts kinds acts) :
    (acts.map Act.kind).Sublist (.firstMessage :: kinds) := by
  obtain ⟨later, hkinds, hlater⟩ := h
  rw [hkinds]
  exact hlater.cons_cons .firstMessage

theorem Starts.append {kinds kinds' : List Act.Kind} {acts acts' : List Act}
    (h : Starts kinds acts) (h' : (acts'.map Act.kind).Sublist kinds') :
    Starts (kinds ++ kinds') (acts ++ acts') := by
  obtain ⟨later, hkinds, hlater⟩ := h
  refine ⟨later ++ acts'.map Act.kind, ?_, hlater.append h'⟩
  rw [List.map_append, hkinds]
  rfl

theorem Greets.starts {r : Except Error Edhoc.SecondMessage}
    (h : Greets s destination acts phases r) : Starts [.exchange, .secondMessage] acts := by
  cases h with
  | unasked e => exact ⟨[], rfl, by decide⟩
  | unanswered | refused => exact ⟨[.exchange], rfl, by decide⟩
  | unread | greeted => exact ⟨[.exchange, .secondMessage], rfl, .refl _⟩

theorem Authenticates.kinds {second : Edhoc.SecondMessage} {r : Except Error Unit}
    (h : Authenticates s second acts phases r) : (acts.map Act.kind).Sublist [.verification] := by
  cases h with
  | critical | unknown => exact List.nil_sublist _
  | refused | verified => exact .refl _

theorem Derives.kinds {pending : Option Bytes} {ours theirs : ConnectionId}
    {r : Except Error EdhocContext} (h : Derives s pending ours theirs acts r) :
    (acts.map Act.kind).Sublist [.export, .export] := by
  cases h with
  | unsupported => exact List.nil_sublist _
  | noSecret => exact List.sublist_cons_self ..
  | noSalt | exported => exact .refl _

theorem Agrees.kinds {second : Edhoc.SecondMessage} {r : Except Error EdhocContext}
    (h : Agrees s second acts phases r) :
    (acts.map Act.kind).Sublist [.finalMessage, .export, .export] := by
  cases h with
  | refused e => exact (List.nil_sublist _).cons_cons _
  | underived hderived | agreed hderived => exact hderived.kinds.cons_cons _

theorem Requests.kinds {context : EdhocContext} {r : Except Error Coap.Packet}
    (h : Requests s destination context request acts phases r) :
    (acts.map Act.kind).Sublist [.exchange] := by
  cases h with
  | unprotected => exact List.nil_sublist _
  | unanswered | answered => exact .refl _

theorem Concludes.kinds {second : Edhoc.SecondMessage}
    {r : Except Error (Established × EdhocContext)}
    (h : Concludes s destination request second acts phases r) :
    (acts.map Act.kind).Sublist
      [.finalMessage, .export, .export, .registration, .exchange, .removal] := by
  cases h with
  | disagreed hagree => exact hagree.kinds.trans (List.sublist_append_left _ [_, _, _])
  | dropped hagree hrequest =>
    rw [List.map_append]
    refine hagree.kinds.append (.cons_cons _ ?_)
    rw [List.map_append]
    exact hrequest.kinds.append (.refl _)
  | concluded hagree hrequest =>
    rw [List.map_append]
    refine hagree.kinds.append (.cons_cons _ ?_)
    exact hrequest.kinds.trans (List.sublist_append_left _ [_])

end Handshake

end Session

end SecureCoap
