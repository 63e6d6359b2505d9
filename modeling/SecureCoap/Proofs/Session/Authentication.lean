import Mathlib.Data.List.Basic
import SecureCoap.Proofs.Registry.Basic
import SecureCoap.Proofs.Session.Courses
import SecureCoap.Proofs.Session.Failure

/-!
# Authentication comes first

A handshake asks for the final message and for exported keys, registers a context and sends a second
packet only after the second message was taken and the peer verified by a trusted credential that
the second message names.
-/

namespace SecureCoap

namespace Session

variable {ε τ : Type} {s : Setting ε τ} {destination : String} {cs : List Registry.Credential}
  {acts acts' later : List Act} {phases phases' : List Phase}

/-- What is not to be done with a peer that is not authenticated: asking for the final message or
for a key, registering a context, and sending more than one packet. -/
def Guarded (before : List Act) (act : Act) : Prop :=
  act.kind = .finalMessage ∨ act.kind = .export ∨ act.kind = .registration ∨
    act.kind = .exchange ∧ .exchange ∈ before.map Act.kind

/-- Among these acts, the second message was received in time, it was not an error message and had
no critical external data, and the peer was verified by one of these credentials, which the message
names by its encoding or by its key identifier. -/
def Authenticated (s : Setting ε τ) (cs : List Registry.Credential) (destination : String)
    (acts : List Act) : Prop :=
  ∃ packet reply response second peer,
    [.exchanged destination packet reply, .asked (.secondMessage response.payload) (.ok second),
      .asked (.verifyPeer s.config.identity s.config.credential peer.bytes) (.ok ())].Sublist acts ∧
    reply.within s.config.timeout = .ok response ∧
    Edhoc.failOnErrorMessage response.payload = .ok () ∧
    (∀ item, second.ead = some item → item.isCritical = false) ∧
    peer ∈ cs ∧ (peer.bytes = second.credentialId ∨ peer.kid = some second.credentialId)

/-- Whatever is guarded comes after the authentication. -/
def Careful (s : Setting ε τ) (cs : List Registry.Credential) (destination : String)
    (acts : List Act) : Prop :=
  ∀ before act after, acts = before ++ act :: after → Guarded before act →
    Authenticated s cs destination before

theorem Authenticated.mono (h : Authenticated s cs destination acts) (hsub : acts.Sublist acts') :
    Authenticated s cs destination acts' := by
  obtain ⟨packet, reply, response, second, peer, hacts, hrest⟩ := h
  exact ⟨packet, reply, response, second, peer, hacts.trans hsub, hrest⟩

theorem authenticated_of_verified {second : Edhoc.SecondMessage}
    (hregistry : (Registry.Table.ofCredentials cs).2 = .ok s.registry)
    (hgreet : Handshake.Greets s destination acts phases (.ok second))
    (hauthenticate : Handshake.Authenticates s second acts' phases' (.ok ())) :
    Authenticated s cs destination (acts ++ acts') := by
  cases hgreet with
  | @greeted first reply response second hreply hpayload =>
  cases hauthenticate with
  | @verified peer hcheck hpeer =>
  obtain ⟨hmem, hkey⟩ := (Registry.Table.lookup?_eq_some_iff hregistry).mp hpeer
  exact ⟨_, reply, response, second, peer, List.sublist_cons_self .., hreply, hpayload, hcheck,
    hmem, Registry.Credential.mem_keys.mp hkey⟩

/-- Up to the verification nothing is guarded. -/
theorem careful_of_early
    (h : (acts.map Act.kind).Sublist [.firstMessage, .exchange, .secondMessage, .verification]) :
    Careful s cs destination acts := by
  intro before act after hsplit hguarded
  rw [hsplit, List.map_append, List.map_cons] at h
  have hlast : [act.kind].Sublist [.firstMessage, .exchange, .secondMessage, .verification] :=
    (List.sublist_append_of_sublist_right ((List.nil_sublist _).cons_cons act.kind)).trans h
  rcases hguarded with hfinal | hexport | hregistration | ⟨hexchange, hbefore⟩
  · rw [hfinal] at hlast
    exact absurd hlast (by decide)
  · rw [hexport] at hlast
    exact absurd hlast (by decide)
  · rw [hregistration] at hlast
    exact absurd hlast (by decide)
  · -- A second packet would make two exchanges, of which there is one only.
    have htwice : [Act.Kind.exchange, .exchange].Sublist
        (before.map Act.kind ++ act.kind :: after.map Act.kind) := by
      rw [hexchange]
      exact (List.singleton_sublist.mpr hbefore).append ((List.nil_sublist _).cons_cons _)
    exact absurd (htwice.trans h) (by decide)

theorem Careful.append (h : Careful s cs destination acts)
    (hauth : Authenticated s cs destination acts) : Careful s cs destination (acts ++ later) := by
  intro before act after hsplit hguarded
  -- What is guarded comes after all of `acts`, or else it is one of them.
  rcases List.append_eq_append_iff.mp hsplit with ⟨mid, hbefore, -⟩ | ⟨mid, hacts, hmid⟩
  · rw [hbefore]
    exact hauth.mono (List.sublist_append_left acts mid)
  · cases mid with
    | nil =>
      rw [List.append_nil] at hacts
      rw [← hacts]
      exact hauth
    | cons first mid =>
      obtain ⟨rfl, -⟩ := List.cons.inj hmid
      exact h before act mid hacts hguarded

namespace Handshake

theorem Advances.careful {request : Coap.Packet} {r : Except Error (Established × EdhocContext)}
    (hregistry : (Registry.Table.ofCredentials cs).2 = .ok s.registry)
    (h : Advances s destination request acts phases r) : Careful s cs destination acts := by
  cases h with
  | ungreeted hgreet =>
    apply careful_of_early
    exact hgreet.starts.within.trans (List.sublist_append_left _ [Act.Kind.verification])
  | unauthenticated hgreet hauthenticate =>
    exact careful_of_early (hgreet.starts.append hauthenticate.kinds).within
  | authenticated hgreet hauthenticate hconclude =>
    have hcareful : Careful s cs destination _ :=
      careful_of_early (hgreet.starts.append hauthenticate.kinds).within
    exact hcareful.append (authenticated_of_verified hregistry hgreet hauthenticate)

/-- Whatever engine, link and configuration a handshake has, and however it ends: what it does that
is guarded, it does after the peer is authenticated. -/
theorem authentication_first (hregistry : (Registry.Table.ofCredentials cs).2 = .ok s.registry)
    (destination : String) (request : Coap.Packet) (w : World ε τ) :
    ∃ acts, w.Does s acts ((run s destination request).run.run w).2 ∧
      ∀ before act after, acts = before ++ act :: after → Guarded before act →
        Authenticated s cs destination before := by
  obtain ⟨acts, phases, r, hdoes, hadvances, -⟩ := run_advances s destination request w
  exact ⟨acts, hdoes, hadvances.careful hregistry⟩

theorem authentication_first_observing :
    ∃ acts, (World.fresh () ⟨(), [], []⟩).Does fixedSetting acts
        ((run fixedSetting "peer" observing).run.run (World.fresh () ⟨(), [], []⟩)).2 ∧
      acts.map Act.kind = [.firstMessage, .exchange, .secondMessage, .verification,
        .finalMessage, .export, .export, .registration, .removal] ∧
      ∀ before act after, acts = before ++ act :: after → Guarded before act →
        Authenticated fixedSetting [⟨[0xF6], none⟩] "peer" before := by
  have hregistry : (Registry.Table.ofCredentials [⟨[0xF6], none⟩]).2 =
      .ok fixedSetting.registry := rfl
  obtain ⟨acts, hdoes, hcareful⟩ :=
    authentication_first hregistry "peer" observing (World.fresh () ⟨(), [], []⟩)
  refine ⟨acts, hdoes, ?_, hcareful⟩
  rw [hdoes.acts_eq]
  decide +kernel

end Handshake

end Session

end SecureCoap
