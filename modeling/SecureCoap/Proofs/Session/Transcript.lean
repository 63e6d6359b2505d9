import SecureCoap.Proofs.History
import SecureCoap.Proofs.Session.Steps
import SecureCoap.Session.Transcript

/-!
# What happened between two worlds

The acts between a world and a later one, which add up over worlds one after another. There are no
others than those that replaying the new events gives.
-/

namespace SecureCoap

namespace Session

variable {ε τ : Type} {s : Setting ε τ}

/-! ### Acts and events -/

theorem mem_acts {o : Outside ε τ} {events : List Event} {act : Act} (h : act ∈ s.acts o events) :
    ∃ event ∈ events, ∃ o', (s.react event o').1 = some act := by
  obtain ⟨step, hstep, hact⟩ := List.mem_filterMap.mp h
  exact ⟨step.call, call_mem_of_mem_history hstep, step.before, hact⟩

theorem of_react_eq_exchanged {o : Outside ε τ} {event : Event} {destination : String}
    {packet : Coap.Packet} {reply : Reply}
    (h : (s.react event o).1 = some (.exchanged destination packet reply)) :
    event = .sent destination packet ∧ (s.link.send destination packet o.link).1 = reply := by
  cases event with
  | sent destination' packet' =>
    cases h
    exact ⟨rfl, rfl⟩
  | asked query => cases h
  | registered destination' id => cases h
  | forgotten destination' => cases h
  | logged entry => cases h

theorem of_react_eq_asked {o : Outside ε τ} {event : Event} {query : Edhoc.Query}
    {reply : Except Edhoc.Error query.Reply} (h : (s.react event o).1 = some (.asked query reply)) :
    event = .asked query := by
  cases event with
  | asked query' =>
    cases h
    rfl
  | sent destination packet => cases h
  | registered destination id => cases h
  | forgotten destination => cases h
  | logged entry => cases h

namespace World

variable {w w₁ w₂ : World ε τ} {acts acts₁ acts₂ : List Act}

theorem Does.refl (s : Setting ε τ) (w : World ε τ) : w.Does s [] w :=
  ⟨[], (List.append_nil _).symm, rfl, rfl⟩

theorem Does.trans (h₁ : w.Does s acts₁ w₁) (h₂ : w₁.Does s acts₂ w₂) :
    w.Does s (acts₁ ++ acts₂) w₂ := by
  obtain ⟨new₁, hevents₁, rfl, hfinal₁⟩ := h₁
  obtain ⟨new₂, hevents₂, rfl, hfinal₂⟩ := h₂
  refine ⟨new₁ ++ new₂, ?_, ?_, ?_⟩
  · rw [hevents₂, hevents₁, List.append_assoc]
  · unfold Setting.acts
    rw [history_append, List.filterMap_append, hfinal₁]
  · rw [finalState_append, hfinal₁, hfinal₂]

/-- The acts are those that replaying the new events gives. -/
theorem Does.acts_eq (h : w.Does s acts w₁) : acts = s.acts w.outside (w.newEvents w₁) := by
  obtain ⟨new, hevents, hacts, -⟩ := h
  rw [newEvents_eq hevents, hacts]

/-- Where a packet was exchanged, it was sent, and the link gave the reply. -/
theorem Does.exchanged {destination : String} {packet : Coap.Packet} {reply : Reply}
    (h : w.Does s acts w₁) (hmem : .exchanged destination packet reply ∈ acts) :
    Event.sent destination packet ∈ w.newEvents w₁ ∧
      ∃ link, (s.link.send destination packet link).1 = reply := by
  rw [h.acts_eq] at hmem
  obtain ⟨event, hevent, o, hreact⟩ := mem_acts hmem
  obtain ⟨rfl, hreply⟩ := of_react_eq_exchanged hreact
  exact ⟨hevent, o.link, hreply⟩

theorem Does.asked {query : Edhoc.Query} {reply : Except Edhoc.Error query.Reply}
    (h : w.Does s acts w₁) (hmem : .asked query reply ∈ acts) :
    Event.asked query ∈ w.newEvents w₁ := by
  rw [h.acts_eq] at hmem
  obtain ⟨event, hevent, o, hreact⟩ := mem_acts hmem
  obtain rfl := of_react_eq_asked hreact
  exact hevent

/-- One event, with what comes of it. -/
theorem Does.one {event : Event} {act : Act}
    (hevents : w₁.conversation.events = w.conversation.events ++ [event])
    (hreact : s.react event w.outside = (some act, w₁.outside)) : w.Does s [act] w₁ := by
  refine ⟨[event], hevents, ?_, ?_⟩
  · show (s.react event w.outside).1.toList = _
    rw [hreact]
    rfl
  · exact congrArg Prod.snd hreact

theorem Does.logged {entry : LogEntry}
    (hevents : w₁.conversation.events = w.conversation.events ++ [.logged entry])
    (houtside : w₁.outside = w.outside) : w.Does s [] w₁ :=
  ⟨[.logged entry], hevents, rfl, houtside.symm⟩

theorem Does.unseen (hevents : w₁.conversation.events = w.conversation.events)
    (houtside : w₁.outside = w.outside) : w.Does s [] w₁ :=
  ⟨[], by rw [hevents, List.append_nil], rfl, houtside.symm⟩

end World

end Session

end SecureCoap
