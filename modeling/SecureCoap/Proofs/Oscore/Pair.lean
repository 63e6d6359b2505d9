import SecureCoap.Proofs.Oscore.Derivation
import SecureCoap.Proofs.Oscore.History

/-!
# Two endpoints

What one endpoint does depends on its own context only, so its steps in a history of both are a
history of its context.
-/

namespace SecureCoap

namespace Oscore

variable {crypto : Primitives}

/-! ### Contexts that match -/

namespace Context

variable {ctx other : Context}

theorem Matches.symm (h : ctx.Matches other) : other.Matches ctx :=
  ⟨h.aead.symm, h.commonIv.symm, h.recipientId.symm, h.senderId.symm, h.recipientKey.symm,
    h.senderKey.symm⟩

theorem Matches.of_frames (h : ctx.Matches other) (n n' : Nat) (w w' : ReplayWindow) :
    { ctx with sequenceNumber := n, window := w }.Matches
      { other with sequenceNumber := n', window := w' } :=
  ⟨h.aead, h.commonIv, h.senderId, h.recipientId, h.senderKey, h.recipientKey⟩

theorem Matches.ownNonce (h : ctx.Matches other) : other.ownNonce = ctx.peerNonce := by
  unfold Context.ownNonce peerNonce
  rw [h.senderId, h.commonIv]

theorem Matches.peerNonce (h : ctx.Matches other) : other.peerNonce = ctx.ownNonce := by
  unfold Context.ownNonce Context.peerNonce
  rw [h.recipientId, h.commonIv]

end Context

namespace Pair

/-! ### One move -/

section

variable {a b a' b' : Context} {call : Call} {result : Except Error Outcome}

theorem perform_a (b : Context) (h : a.perform crypto call = (result, a')) :
    Pair.perform crypto ⟨.a, call⟩ ⟨a, b⟩ = (result, ⟨a', b⟩) := by
  show Prod.map id _ (a.perform crypto call) = _
  rw [h]
  rfl

theorem perform_b (a : Context) (h : b.perform crypto call = (result, b')) :
    Pair.perform crypto ⟨.b, call⟩ ⟨a, b⟩ = (result, ⟨a, b'⟩) := by
  show Prod.map id _ (b.perform crypto call) = _
  rw [h]
  rfl

end

theorem context_perform_self (m : Move) (p : Pair) :
    (p.perform crypto m).2.context m.side = ((p.context m.side).perform crypto m.call).2 := by
  obtain ⟨side, call⟩ := m
  cases side with
  | a => rfl
  | b => rfl

theorem context_perform_of_ne {m : Move} {side : Side} (h : m.side ≠ side) (p : Pair) :
    (p.perform crypto m).2.context side = p.context side := by
  obtain ⟨mover, call⟩ := m
  cases mover with
  | a =>
    cases side with
    | a => exact absurd rfl h
    | b => rfl
  | b =>
    cases side with
    | a => rfl
    | b => exact absurd rfl h

/-! ### The steps of one endpoint -/

def used (s : Step Pair Move) : Context := s.before.context s.call.side

/-- A step as the endpoint that makes it sees it. -/
def ownStep (s : Step Pair Move) : Step Context Call := ⟨used s, s.call.call⟩

def stepsOf (side : Side) (steps : List (Step Pair Move)) : List (Step Context Call) :=
  steps.filterMap fun s => if s.call.side = side then some (ownStep s) else none

def callsOf (side : Side) (moves : List Move) : List Call :=
  moves.filterMap fun m => if m.side = side then some m.call else none

/-- The other endpoint leaves no trace in the steps of an endpoint. -/
theorem stepsOf_history (crypto : Primitives) (side : Side) (p : Pair) (moves : List Move) :
    stepsOf side (p.history crypto moves)
      = (p.context side).history crypto (callsOf side moves) := by
  induction moves generalizing p with
  | nil => rfl
  | cons m moves ih =>
    by_cases h : m.side = side
    · subst h
      have hsteps : stepsOf m.side (p.history crypto (m :: moves))
          = ⟨p.context m.side, m.call⟩
            :: stepsOf m.side ((p.perform crypto m).2.history crypto moves) :=
        List.filterMap_cons_some (if_pos rfl)
      have hcalls : callsOf m.side (m :: moves) = m.call :: callsOf m.side moves :=
        List.filterMap_cons_some (if_pos rfl)
      rw [hsteps, hcalls, ih, context_perform_self]
      rfl
    · have hsteps : stepsOf side (p.history crypto (m :: moves))
          = stepsOf side ((p.perform crypto m).2.history crypto moves) :=
        List.filterMap_cons_none (if_neg h)
      have hcalls : callsOf side (m :: moves) = callsOf side moves :=
        List.filterMap_cons_none (if_neg h)
      rw [hsteps, hcalls, ih, context_perform_of_ne h]

theorem mem_stepsOf {steps : List (Step Pair Move)} {s : Step Pair Move} (h : s ∈ steps) :
    ownStep s ∈ stepsOf s.call.side steps :=
  List.mem_filterMap.mpr ⟨s, h, if_pos rfl⟩

theorem used_frame {p : Pair} {moves : List Move} {s : Step Pair Move}
    (h : s ∈ p.history crypto moves) :
    ∃ n w, used s = { p.context s.call.side with sequenceNumber := n, window := w } := by
  have hmem := mem_stepsOf h
  rw [stepsOf_history] at hmem
  exact Context.history_frame _ _ _ hmem

/-- What is encrypted under the key that an endpoint decrypts with comes from the other one. -/
theorem peer_of_sealing {a b : Context} {moves : List Move} {t : Step Pair Move} {x : Sealing}
    (hmatch : a.Matches b) (hkeys : a.senderKey ≠ a.recipientKey)
    (ht : t ∈ Pair.history crypto ⟨a, b⟩ moves) (hx : t.call.call.sealing? (used t) = some x)
    (hkey : x.key = a.recipientKey) : t.call.side = .b ∧ a.Matches (used t) := by
  obtain ⟨n, w, hused⟩ := used_frame ht
  have hown : x.key = (used t).senderKey := (Context.sealing_cases hx).1
  cases hside : t.call.side with
  | a =>
    rw [hside] at hused
    rw [hown, hused] at hkey
    exact absurd hkey hkeys
  | b =>
    rw [hside] at hused
    rw [hused]
    exact ⟨rfl, hmatch.of_frames a.sequenceNumber n a.window w⟩

end Pair

end Oscore

end SecureCoap
