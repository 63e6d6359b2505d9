import SecureCoap.Proofs.Session.Phases

/-!
# Acts and phases of steps

A step comes with its acts, the phases that it enters and what it gives. For each elementary step
there is a rule that tells what is left to show of the steps after it, so that a step that is made
of others is gone through in the order in which it is written.
-/

namespace SecureCoap

namespace Session

variable {ε τ : Type} {s : Setting ε τ}

namespace Handshake

/-- The acts of a step, the phases that it enters and what it gives satisfy `P`. -/
def Performs {α : Type} (s : Setting ε τ) (m : Step ε τ α)
    (P : List Act → List Phase → Except Error α → Prop) : Prop :=
  ∀ w, ∃ acts phases, w.Passes s acts phases (m.run.run w).2 ∧ P acts phases (m.run.run w).1

theorem passes_afterRegister (destination : String) (context : EdhocContext) (w : World ε τ) :
    w.Passes s [.registered destination w.transport.contexts.length] []
      (afterRegister destination context w) := by
  have hlogged : w.Passes s [] [] { w with
      conversation := ⟨w.conversation.engine, w.conversation.events
        ++ [.logged (.contextRegistered destination context.senderId)]⟩ } :=
    .logged rfl rfl rfl rfl
  exact hlogged.trans (.act rfl rfl rfl rfl)

namespace Performs

section

variable {α β : Type} {m : Step ε τ α} {f : α → Step ε τ β}
  {P : List Act → List Phase → Except Error α → Prop}
  {R : List Act → List Phase → Except Error β → Prop}

theorem imp {Q : List Act → List Phase → Except Error α → Prop} (h : Performs s m P)
    (himp : ∀ acts phases r, P acts phases r → Q acts phases r) : Performs s m Q := by
  intro w
  obtain ⟨acts, phases, hpasses, hP⟩ := h w
  exact ⟨acts, phases, hpasses, himp acts phases _ hP⟩

theorem pure {a : α} (h : P [] [] (.ok a)) : Performs s (Pure.pure a) P :=
  fun _ => ⟨[], [], .unseen rfl rfl rfl, h⟩

theorem throw {e : Error} (h : P [] [] (.error e)) : Performs s (MonadExcept.throw e) P :=
  fun _ => ⟨[], [], .unseen rfl rfl rfl, h⟩

/-- What comes after a step may depend on what the step did and gave. -/
theorem bind (hm : Performs s m P)
    (herror : ∀ acts phases e, P acts phases (.error e) → R acts phases (.error e))
    (hf : ∀ acts phases a, P acts phases (.ok a) →
      Performs s (f a) fun later laterPhases r => R (acts ++ later) (phases ++ laterPhases) r) :
    Performs s (m >>= f) R := by
  intro w
  obtain ⟨acts, phases, hpasses, hP⟩ := hm w
  rw [run_bind_eq]
  rcases hrun : m.run.run w with ⟨e | a, w₁⟩
  · rw [hrun] at hpasses hP
    exact ⟨acts, phases, hpasses, herror acts phases e hP⟩
  · rw [hrun] at hpasses hP
    obtain ⟨later, laterPhases, hlater, hR⟩ := hf acts phases a hP w₁
    exact ⟨acts ++ later, phases ++ laterPhases, hpasses.trans hlater, hR⟩

/-- A step at the end is one after which there is nothing to do. -/
theorem of_bind_pure (h : Performs s (m >>= Pure.pure) P) : Performs s m P := by
  rw [bind_pure] at h
  exact h

end

/-! ### Elementary steps -/

section

variable {β : Type} {R : List Act → List Phase → Except Error β → Prop}

/-- A step that gives the same in all worlds. -/
theorem after {α : Type} {m : Step ε τ α} {f : α → Step ε τ β} {a : α} {acts : List Act}
    {phases : List Phase}
    (hm : ∀ w, ∃ w₁, m.run.run w = (.ok a, w₁) ∧ w.Passes s acts phases w₁)
    (hf : Performs s (f a) fun later laterPhases r => R (acts ++ later) (phases ++ laterPhases) r) :
    Performs s (m >>= f) R := by
  intro w
  obtain ⟨w₁, hrun, hpasses⟩ := hm w
  obtain ⟨later, laterPhases, hlater, hR⟩ := hf w₁
  rw [run_bind_eq, hrun]
  exact ⟨acts ++ later, phases ++ laterPhases, hpasses.trans hlater, hR⟩

theorem log {f : Unit → Step ε τ β} {entry : LogEntry}
    (h : (Event.logged entry).phaseChange? = none) (hf : Performs s (f ()) R) :
    Performs s (Handshake.log entry >>= f) R :=
  after (fun _ => ⟨_, rfl, .logged h rfl rfl rfl⟩) hf

theorem forM_log {f : Unit → Step ε τ β} {entries : List LogEntry}
    (h : ∀ entry ∈ entries, (Event.logged entry).phaseChange? = none)
    (hf : Performs s (f ()) R) : Performs s (entries.forM Handshake.log >>= f) R := by
  induction entries with
  | nil => exact after (fun _ => ⟨_, rfl, .unseen rfl rfl rfl⟩) hf
  | cons entry entries ih =>
    obtain ⟨hentry, hentries⟩ := List.forall_mem_cons.mp h
    have hcons : (entry :: entries).forM Handshake.log =
        (Handshake.log entry >>= fun _ => entries.forM Handshake.log : Step ε τ Unit) := rfl
    rw [hcons, bind_assoc]
    exact log hentry (ih hentries)

theorem enter {f : Unit → Step ε τ β} {phase : Phase}
    (hf : Performs s (f ()) fun acts phases r => R acts (phase :: phases) r) :
    Performs s (Handshake.enter phase >>= f) R :=
  after (fun _ => ⟨_, rfl, .entered rfl rfl rfl⟩) hf

theorem setContext {f : Unit → Step ε τ β} {id : ContextId} {context : EdhocContext}
    (hf : Performs s (f ()) R) :
    Performs s ((onTransport fun t => ((), t.setContext id context)) >>= f) R :=
  after (fun _ => ⟨_, rfl, .unseen rfl rfl rfl⟩) hf

theorem look {f : Conversation ε → Step ε τ β} (hf : ∀ c, Performs s (f c) R) :
    Performs s (talk MonadState.get >>= f) R := by
  intro w
  rw [run_bind_eq]
  exact hf w.conversation w

theorem result {α : Type} {f : α → Step ε τ β} {r : Except Error α}
    (herror : ∀ e, r = .error e → R [] [] (.error e)) (hf : ∀ a, r = .ok a → Performs s (f a) R) :
    Performs s (monadLift r >>= f) R := by
  intro w
  rw [run_result_bind]
  cases r with
  | error e => exact ⟨[], [], .unseen rfl rfl rfl, herror e rfl⟩
  | ok a => exact hf a rfl w

theorem talkResult {α : Type} {f : α → Step ε τ β} {r : Except Error α}
    (herror : ∀ e, r = .error e → R [] [] (.error e)) (hf : ∀ a, r = .ok a → Performs s (f a) R) :
    Performs s (talk (monadLift r) >>= f) R := by
  cases r with
  | error e => exact result herror hf
  | ok a => exact result herror hf

theorem ask (query : Edhoc.Query) {f : query.Reply → Step ε τ β} {failed : Edhoc.Error → Error}
    (herror : ∀ e, R [.asked query (.error e)] [] (.error (failed e)))
    (hf : ∀ answer, Performs s (f answer) fun acts phases r =>
      R (.asked query (.ok answer) :: acts) phases r) :
    Performs s (talk (Talk.ask s.engine query failed) >>= f) R := by
  intro w
  have hpasses : w.Passes s [.asked query (s.engine.answer query w.conversation.engine).1] []
      ((talk (Talk.ask s.engine query failed)).run.run w).2 := by
    rw [talk_run, Talk.ask_run]
    exact .act rfl rfl rfl rfl
  rw [run_bind_eq]
  rw [talk_run, Talk.ask_run] at hpasses ⊢
  rcases hanswer : s.engine.answer query w.conversation.engine with ⟨e | answer, engine⟩
  · rw [hanswer] at hpasses
    exact ⟨_, [], hpasses, herror e⟩
  · rw [hanswer] at hpasses
    obtain ⟨later, phases, hlater, hR⟩ := hf answer _
    exact ⟨_, phases, hpasses.trans hlater, hR⟩

theorem exchange {f : Coap.Packet → Step ε τ β} {destination : String} {packet : Coap.Packet}
    (herror : ∀ reply e, reply.within s.config.timeout = .error e →
      R [.exchanged destination packet reply] [] (.error (.transport e)))
    (hf : ∀ reply response, reply.within s.config.timeout = .ok response →
      Performs s (f response) fun acts phases r =>
        R (.exchanged destination packet reply :: acts) phases r) :
    Performs s (Handshake.exchange s destination packet >>= f) R := by
  intro w
  have hpasses : w.Passes s
      [.exchanged destination packet (w.transport.sendPlain s.link destination packet).1] []
      ((Handshake.exchange s destination packet).run.run w).2 := by
    rw [exchange_run]
    exact .act rfl rfl rfl rfl
  rw [run_bind_eq]
  rw [exchange_run] at hpasses ⊢
  cases hreply : (w.transport.sendPlain s.link destination packet).1.within s.config.timeout with
  | error e => exact ⟨_, [], hpasses, herror _ e hreply⟩
  | ok response =>
    obtain ⟨later, phases, hlater, hR⟩ := hf _ response hreply _
    exact ⟨_, phases, hpasses.trans hlater, hR⟩

theorem register {f : ContextId → Step ε τ β} {destination : String} {context : EdhocContext}
    (hf : ∀ id, Performs s (f id) fun acts phases r =>
      R (.registered destination id :: acts) phases r) :
    Performs s (Handshake.register destination context >>= f) R := by
  intro w
  obtain ⟨later, phases, hlater, hR⟩ := hf w.transport.contexts.length _
  rw [run_bind_eq, register_run]
  exact ⟨_, phases, (passes_afterRegister destination context w).trans hlater, hR⟩

/-- A step after whose failure a destination is forgotten. -/
theorem orForget {α : Type} {m : Step ε τ α} {f : α → Step ε τ β} {destination : String}
    {P : List Act → List Phase → Except Error α → Prop} (hm : Performs s m P)
    (herror : ∀ acts phases e, P acts phases (.error e) →
      R (acts ++ [.forgotten destination]) phases (.error e))
    (hf : ∀ acts phases a, P acts phases (.ok a) →
      Performs s (f a) fun later laterPhases r => R (acts ++ later) (phases ++ laterPhases) r) :
    Performs s ((MonadExcept.tryCatch m fun e => do
      forget destination
      MonadExcept.throw e) >>= f) R := by
  intro w
  obtain ⟨acts, phases, hpasses, hP⟩ := hm w
  rw [run_bind_eq, run_tryCatch_eq]
  rcases hrun : m.run.run w with ⟨e | a, w₁⟩
  · rw [hrun] at hpasses hP
    have hforget : w₁.Passes s [.forgotten destination] [] (afterForget destination w₁) :=
      .act rfl rfl rfl rfl
    refine ⟨acts ++ [.forgotten destination], phases ++ [], hpasses.trans hforget, ?_⟩
    rw [List.append_nil]
    exact herror acts phases e hP
  · rw [hrun] at hpasses hP
    obtain ⟨later, laterPhases, hlater, hR⟩ := hf acts phases a hP w₁
    exact ⟨acts ++ later, phases ++ laterPhases, hpasses.trans hlater, hR⟩

theorem checkEad {f : Unit → Step ε τ β} {ead : Option Edhoc.EadItem}
    (herror : ∀ item, ead = some item → item.isCritical = true →
      R [] [] (.error (.criticalEad item.label)))
    (hf : (∀ item, ead = some item → item.isCritical = false) → Performs s (f ()) R) :
    Performs s (Handshake.checkEad ead >>= f) R := by
  cases ead with
  | none => exact after (fun _ => ⟨_, rfl, .unseen rfl rfl rfl⟩) (hf nofun)
  | some item =>
    unfold Handshake.checkEad
    by_cases hcritical : item.isCritical = true
    · simp only [hcritical, if_true]
      intro w
      exact ⟨[], [], .unseen rfl rfl rfl, herror item rfl hcritical⟩
    · simp only [hcritical]
      refine log rfl (hf ?_)
      rintro _ ⟨rfl⟩
      exact Bool.eq_false_iff.mpr hcritical

end

end Performs

end Handshake

end Session

end SecureCoap
