import SecureCoap.Proofs.Oscore.RoundTrip
import SecureCoap.Proofs.Session.Derivation
import SecureCoap.Proofs.Session.Piggyback

/-!
# Nonces in the life of a session

Whatever is done with a context that came out of a handshake, messages with sequence numbers of
their own are encrypted under nonces that are used once. Responses under the nonce of a request
have no such guarantee: what it takes is that no request is answered twice in this way, and that no
two requests have sequence numbers that end in the same five bytes.
-/

namespace SecureCoap

namespace Session

open Edhoc (ConnectionId Engine)
open Oscore (Call Context Outcome RequestId Sealing)

namespace EdhocContext

variable {crypto : Primitives} {e : EdhocContext}

/-- The nonces of the messages that take a sequence number in a history. -/
def ownNonces (crypto : Primitives) (steps : List (Step EdhocContext Call)) : List Bytes :=
  steps.filterMap fun s => s.call.ownNonce? s.before.context (s.result (perform crypto))

/-- The nonces of requests that responses are encrypted under in a history. -/
def reusedNonces (steps : List (Step EdhocContext Call)) : List Bytes :=
  steps.filterMap fun s => s.call.reusedNonce? s.before.context

/-- The answers under nonces of requests in a history: the request, and what is encrypted. -/
def reuses (crypto : Primitives) (steps : List (Step EdhocContext Call)) :
    List (RequestId × Sealing) :=
  steps.filterMap fun s => s.call.reuse? s.before.context (s.result (perform crypto))

def accepted (crypto : Primitives) (steps : List (Step EdhocContext Call)) : List RequestId :=
  steps.filterMap fun s => s.call.accepted? (s.result (perform crypto))

theorem ownNonces_eq (e : EdhocContext) (calls : List Call) :
    ownNonces crypto (e.history crypto calls)
      = Context.ownNonces crypto (e.context.history crypto calls) := by
  apply filterMap_history
  intro s
  have hok := isOk_eq (perform_eq crypto s.call s.before).1
  show Call.ownNonce? _ (s.before.perform crypto s.call).1 _
    = Call.ownNonce? _ (s.before.context.perform crypto s.call).1 _
  unfold Call.ownNonce?
  rw [hok]
  rfl

theorem reusedNonces_eq (e : EdhocContext) (calls : List Call) :
    reusedNonces (e.history crypto calls)
      = Context.reusedNonces (e.context.history crypto calls) := by
  apply filterMap_history
  intro s
  rfl

theorem reuses_eq (e : EdhocContext) (calls : List Call) :
    reuses crypto (e.history crypto calls)
      = Context.reuses crypto (e.context.history crypto calls) := by
  apply filterMap_history
  intro s
  have hok := isOk_eq (perform_eq crypto s.call s.before).1
  show Call.reuse? _ (s.before.perform crypto s.call).1 _
    = Call.reuse? _ (s.before.context.perform crypto s.call).1 _
  unfold Call.reuse?
  rw [hok]
  rfl

theorem accepted_eq (e : EdhocContext) (calls : List Call) :
    accepted crypto (e.history crypto calls)
      = Context.accepted crypto (e.context.history crypto calls) := by
  apply filterMap_history
  intro s
  exact accepted?_eq (perform_eq crypto s.call s.before).1 s.call

/-! ### What encryption is given -/

/-- The payload of a protected message ends with what encryption gives for what the call gives to
it, under the key that the context has for sending. -/
theorem encrypted_of_mem_history {calls : List Call} {s : Step EdhocContext Call} {o : Outcome}
    (hs : s ∈ e.history crypto calls) (hprotects : s.call.protects = true)
    (ho : s.result (perform crypto) = .ok o) :
    ∃ x ciphertext, s.call.sealing? s.before.context = some x ∧ x.key = e.context.senderKey ∧
      crypto.encrypt x.key x.nonce x.aad x.plaintext = some ciphertext ∧
      ciphertext <:+ o.packet.payload := by
  have hresult : resultWith s.before.pending s.call (s.before.context.perform crypto s.call).1 =
      .ok o := by
    change (s.before.perform crypto s.call).1 = .ok o at ho
    rw [perform_eq_resultWith] at ho
    exact ho
  obtain ⟨o', ho', hsuffix⟩ := of_resultWith_eq_ok hresult
  obtain ⟨x, hx, hrun⟩ := Context.payload_of_protects hprotects ho'
  have hview : view s ∈ e.context.history crypto calls := by
    rw [← view_history]
    exact List.mem_map_of_mem hs
  obtain ⟨n, w, hbefore⟩ := Context.history_frame e.context calls (view s) hview
  have hkey : x.key = s.before.context.senderKey := (Context.sealing_cases hx).1
  have hcontext : s.before.context = { e.context with sequenceNumber := n, window := w } := hbefore
  rw [hcontext] at hkey
  exact ⟨x, _, hx, hkey, Sealing.run_eq_ok.mp hrun, hsuffix⟩

theorem mem_ownNonces {steps : List (Step EdhocContext Call)} {s : Step EdhocContext Call}
    {o : Outcome} {x : Sealing} (hs : s ∈ steps) (htakes : s.call.takesNumber = true)
    (ho : s.result (perform crypto) = .ok o) (hx : s.call.sealing? s.before.context = some x) :
    x.nonce ∈ ownNonces crypto steps := by
  refine List.mem_filterMap.mpr ⟨s, hs, ?_⟩
  rw [Call.ownNonce?, ho, if_pos ⟨htakes, rfl⟩, hx]
  rfl

theorem mem_reusedNonces {steps : List (Step EdhocContext Call)} {s : Step EdhocContext Call}
    {x : Sealing} (hs : s ∈ steps) (hreuses : s.call.reusesNonce = true)
    (hx : s.call.sealing? s.before.context = some x) : x.nonce ∈ reusedNonces steps := by
  refine List.mem_filterMap.mpr ⟨s, hs, ?_⟩
  rw [Call.reusedNonce?, if_pos hreuses, hx]
  rfl

/-! ### Contexts that come out of a handshake -/

section

variable {ε : Type} {engine : Engine ε} {pending : Option Bytes} {ours theirs : ConnectionId}
  {talk : Conversation ε}

theorem context_facts (h : ((derive crypto engine pending ours theirs).run.run talk).1 = .ok e) :
    e.context.Fits ∧ e.context.senderId ≠ e.context.recipientId ∧ e.context.window.Tracks [] := by
  obtain ⟨p, hne, -, hcontext, -⟩ := context_of_derive h
  obtain ⟨hsender, hrecipient⟩ := Context.ids_of_derive hcontext
  refine ⟨Context.fits_of_derive hcontext, ?_, Context.tracks_of_derive hcontext⟩
  rw [hsender, hrecipient]
  exact hne

/-- Messages that take a sequence number are encrypted under nonces that occur only once, and that
no response is encrypted under which takes the nonce of a request. Every message that is protected
is encrypted with the one key of the context, under one of these nonces or of those. -/
theorem own_nonces_unique
    (h : ((derive crypto engine pending ours theirs).run.run talk).1 = .ok e) (calls : List Call) :
    (ownNonces crypto (e.history crypto calls)).Nodup ∧
      (∀ nonce ∈ ownNonces crypto (e.history crypto calls),
        nonce ∉ reusedNonces (e.history crypto calls)) ∧
      ∀ s ∈ e.history crypto calls, s.call.protects = true →
        ∀ o, s.result (perform crypto) = .ok o →
          ∃ x ciphertext, s.call.sealing? s.before.context = some x ∧
            x.key = e.context.senderKey ∧
            (s.call.takesNumber = true → x.nonce ∈ ownNonces crypto (e.history crypto calls)) ∧
            (s.call.reusesNonce = true → x.nonce ∈ reusedNonces (e.history crypto calls)) ∧
            crypto.encrypt x.key x.nonce x.aad x.plaintext = some ciphertext ∧
            ciphertext <:+ o.packet.payload := by
  obtain ⟨hfits, hids, -⟩ := context_facts h
  refine ⟨?_, ?_, ?_⟩
  · rw [ownNonces_eq]
    exact Context.ownNonces_nodup hfits calls
  · rw [ownNonces_eq, reusedNonces_eq]
    exact Context.ownNonces_disjoint hfits hids calls
  · intro s hs hprotects o ho
    obtain ⟨x, ciphertext, hx, hkey, hencrypt, hsuffix⟩ :=
      encrypted_of_mem_history hs hprotects ho
    exact ⟨x, ciphertext, hx, hkey, fun htakes => mem_ownNonces hs htakes ho hx,
      fun hreuses => mem_reusedNonces hs hreuses hx, hencrypt, hsuffix⟩

/-- A request that is sent, and one that is answered twice: the first one has a nonce of its own. -/
theorem own_nonces_unique_fixedEngine :
    ∃ e calls, ((derive .standard (fixedEngine ⟨.int 1, [], none⟩) none (.int 0) (.int 1)).run.run
        ⟨(), []⟩).1 = .ok e ∧
      calls = .protectRequest Context.shortRequest :: e.context.answeringTwice ∧
      (∃ nonce, nonce ∈ ownNonces .standard (e.history .standard calls)) ∧
      (ownNonces .standard (e.history .standard calls)).Nodup ∧
      ∀ nonce ∈ ownNonces .standard (e.history .standard calls),
        nonce ∉ reusedNonces (e.history .standard calls) := by
  obtain ⟨e, he⟩ := derive_fixedEngine
  obtain ⟨p, -, -, hcontext, -⟩ := context_of_derive he
  have hnumber : e.context.sequenceNumber ≤ Oscore.PartialIv.maxNumber := by
    rw [Context.sequenceNumber_of_derive hcontext]
    exact Nat.zero_le _
  obtain ⟨packet, id, hsent⟩ := Context.perform_protectRequest_of_protectable
    (Primitives.standard_encryptsUpTo.mono (by decide)) Context.protectable_shortRequest hnumber
  have hok : (e.perform .standard (.protectRequest Context.shortRequest)).1 =
      .ok ⟨carrying e.pending packet, some id⟩ := by
    rw [perform_eq_resultWith, hsent]
    rfl
  obtain ⟨hnodup, hdisjoint, hencrypted⟩ := own_nonces_unique he
    (.protectRequest Context.shortRequest :: e.context.answeringTwice)
  obtain ⟨x, -, -, -, hown, -⟩ := hencrypted _ (List.mem_cons_self ..) rfl _ hok
  exact ⟨e, _, he, rfl, ⟨x.nonce, hown rfl⟩, hnodup, hdisjoint⟩

theorem eq_of_sequenceNumber_eq
    (h : ((derive crypto engine pending ours theirs).run.run talk).1 = .ok e) {calls : List Call}
    {x y : RequestId} (hx : x ∈ accepted crypto (e.history crypto calls))
    (hy : y ∈ accepted crypto (e.history crypto calls))
    (heq : x.sequenceNumber = y.sequenceNumber) : x = y := by
  obtain ⟨-, -, htracks⟩ := context_facts h
  rw [accepted_eq] at hx hy
  have hnodup := (Context.accepted_distinct crypto htracks calls).1
  exact List.inj_on_of_nodup_map hnodup hx hy heq

/-- Two answers to requests that were accepted are encrypted under the same key, and under the same
nonce if they are for the same request or for requests that only differ before the last five bytes
of their sequence numbers. -/
theorem reuse_nonce_eq_iff
    (h : ((derive crypto engine pending ours theirs).run.run talk).1 = .ok e) {calls : List Call}
    (hanswered : ∀ s ∈ e.history crypto calls, ∀ id, s.call.answered? = some id →
      id ∈ accepted crypto (e.history crypto calls))
    {x y : RequestId × Sealing} (hx : x ∈ reuses crypto (e.history crypto calls))
    (hy : y ∈ reuses crypto (e.history crypto calls)) :
    x.2.key = y.2.key ∧
      (x.2.nonce = y.2.nonce ↔
        x.1 = y.1 ∨ x.1.sequenceNumber ≠ y.1.sequenceNumber ∧
          x.1.sequenceNumber % 2 ^ 40 = y.1.sequenceNumber % 2 ^ 40) := by
  obtain ⟨hfits, -, -⟩ := context_facts h
  have haccepted : ∀ z ∈ reuses crypto (e.history crypto calls),
      z.1 ∈ accepted crypto (e.history crypto calls) := by
    intro z hz
    rw [reuses_eq] at hz
    obtain ⟨⟨s', hs', hid⟩, -, -⟩ := Context.mem_reuses hz
    rw [← view_history] at hs'
    obtain ⟨s, hs, rfl⟩ := List.mem_map.mp hs'
    exact hanswered s hs z.1 hid
  have hxid := haccepted x hx
  have hyid := haccepted y hy
  rw [reuses_eq] at hx hy
  obtain ⟨-, hxkey, hxnonce⟩ := Context.mem_reuses hx
  obtain ⟨-, hykey, hynonce⟩ := Context.mem_reuses hy
  refine ⟨by rw [hxkey, hykey], ?_⟩
  rw [hxnonce, hynonce, Context.peerNonce_eq_iff hfits]
  constructor
  · intro hmod
    by_cases hseq : x.1.sequenceNumber = y.1.sequenceNumber
    · exact Or.inl (eq_of_sequenceNumber_eq h hxid hyid hseq)
    · exact Or.inr ⟨hseq, hmod⟩
  · intro h
    rcases h with hsame | ⟨-, hmod⟩
    · rw [hsame]
    · exact hmod

theorem window_valid (h : ((derive crypto engine pending ours theirs).run.run talk).1 = .ok e)
    {n : Nat} : e.context.window.isValid n = true :=
  (context_facts h).2.2.isValid_of_nil n

theorem answered_answeringTwice
    (h : ((derive .standard engine pending ours theirs).run.run talk).1 = .ok e) :
    ∀ s ∈ e.history .standard e.context.answeringTwice, ∀ id, s.call.answered? = some id →
      id ∈ accepted .standard (e.history .standard e.context.answeringTwice) := by
  intro s hs id hid
  rw [accepted_eq, (Context.history_answeringTwice (window_valid h)).1, List.mem_singleton]
  simp only [Context.answeringTwice, history, history_cons, history_nil, List.mem_cons,
    List.not_mem_nil, or_false] at hs
  rcases hs with rfl | rfl | rfl
  · cases hid
  · exact (Option.some.inj hid).symm
  · exact (Option.some.inj hid).symm

/-- Answers under nonces of requests repeat no key and nonce for different plaintexts exactly if
no request is answered with different plaintexts in this way, nor are two requests whose sequence
numbers differ, but not in the last five bytes. -/
theorem reuses_distinct_iff
    (h : ((derive crypto engine pending ours theirs).run.run talk).1 = .ok e) (calls : List Call)
    (hanswered : ∀ s ∈ e.history crypto calls, ∀ id, s.call.answered? = some id →
      id ∈ accepted crypto (e.history crypto calls)) :
    (∀ x ∈ reuses crypto (e.history crypto calls), ∀ y ∈ reuses crypto (e.history crypto calls),
        x.2.key = y.2.key → x.2.nonce = y.2.nonce → x.2.plaintext = y.2.plaintext) ↔
      ∀ x ∈ reuses crypto (e.history crypto calls), ∀ y ∈ reuses crypto (e.history crypto calls),
        x.1 = y.1 ∨ x.1.sequenceNumber ≠ y.1.sequenceNumber ∧
          x.1.sequenceNumber % 2 ^ 40 = y.1.sequenceNumber % 2 ^ 40 →
        x.2.plaintext = y.2.plaintext := by
  constructor
  · intro hdistinct x hx y hy hcase
    obtain ⟨hkey, hnonce⟩ := reuse_nonce_eq_iff h hanswered hx hy
    exact hdistinct x hx y hy hkey (hnonce.mpr hcase)
  · intro hsame x hx y hy _ hnonce
    exact hsame x hx y hy ((reuse_nonce_eq_iff h hanswered hx hy).2.mp hnonce)

end

theorem reuses_distinct_iff_fixedEngine :
    ∃ e calls, ((derive .standard (fixedEngine ⟨.int 1, [], none⟩) none (.int 0) (.int 1)).run.run
        ⟨(), []⟩).1 = .ok e ∧
      calls = e.context.answeringTwice ∧
      (∀ s ∈ e.history .standard calls, ∀ id, s.call.answered? = some id →
        id ∈ accepted .standard (e.history .standard calls)) ∧
      ((∀ x ∈ reuses .standard (e.history .standard calls),
          ∀ y ∈ reuses .standard (e.history .standard calls),
          x.2.key = y.2.key → x.2.nonce = y.2.nonce → x.2.plaintext = y.2.plaintext) ↔
        ∀ x ∈ reuses .standard (e.history .standard calls),
          ∀ y ∈ reuses .standard (e.history .standard calls),
          x.1 = y.1 ∨ x.1.sequenceNumber ≠ y.1.sequenceNumber ∧
            x.1.sequenceNumber % 2 ^ 40 = y.1.sequenceNumber % 2 ^ 40 →
          x.2.plaintext = y.2.plaintext) := by
  obtain ⟨e, he⟩ := derive_fixedEngine
  have hanswered := answered_answeringTwice he
  exact ⟨e, _, he, rfl, hanswered, reuses_distinct_iff he _ hanswered⟩

/-- One request that is answered twice under its own nonce: both answers are encrypted, under the
same key and nonce. -/
theorem answering_twice_repeats_nonce :
    ∃ e calls, ((derive .standard (fixedEngine ⟨.int 1, [], none⟩) none (.int 0) (.int 1)).run.run
        ⟨(), []⟩).1 = .ok e ∧
      (∀ s ∈ e.history .standard calls, ∀ id, s.call.answered? = some id →
        id ∈ accepted .standard (e.history .standard calls)) ∧
      ¬∀ x ∈ reuses .standard (e.history .standard calls),
        ∀ y ∈ reuses .standard (e.history .standard calls),
        x.2.key = y.2.key → x.2.nonce = y.2.nonce → x.2.plaintext = y.2.plaintext := by
  obtain ⟨e, he⟩ := derive_fixedEngine
  refine ⟨e, e.context.answeringTwice, he, answered_answeringTwice he, ?_⟩
  intro hdistinct
  rw [reuses_eq, (Context.history_answeringTwice (window_valid he)).2] at hdistinct
  have hsame : ([0x45, 0xFF, 1] : Bytes) = [0x45, 0xFF, 2] :=
    hdistinct _ (List.mem_cons_self ..) _ (List.mem_cons_of_mem _ (List.mem_singleton_self _)) rfl
      rfl
  exact absurd hsame (by decide)

end EdhocContext

end Session

end SecureCoap
