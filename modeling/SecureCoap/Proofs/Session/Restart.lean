import SecureCoap.Proofs.Session.Established

/-!
# Running a handshake again

The phase of a handshake is written and told of, but nothing depends on it. So a handshake that has
ended, in whatever way, can be run again: it asks the engine for another first message, and does all
that a new handshake with the same engine and transport does. If the engine exports the same keys
again, two first requests go out under one key and nonce.
-/

namespace SecureCoap

namespace Session

variable {ε τ : Type} {s : Setting ε τ}

/-! ### The order of messages -/

/-- The place in a handshake of what is asked of the engine. -/
def Act.Kind.stage? : Act.Kind → Option Nat
  | firstMessage => some 0
  | secondMessage => some 1
  | verification => some 2
  | finalMessage => some 3
  | _ => none

def stages (acts : List Act) : List Nat := (acts.map Act.kind).filterMap Act.Kind.stage?

theorem stages_append (acts acts' : List Act) :
    stages (acts ++ acts') = stages acts ++ stages acts' := by
  unfold stages
  rw [List.map_append, List.filterMap_append]

namespace Handshake

/-- What a handshake does after it asked for the first message, in order. -/
def course : List Act.Kind := [
  .exchange, .secondMessage, .verification, .finalMessage, .export, .export, .registration,
  .exchange, .removal]

theorem stages_of_starts {acts : List Act} (h : Starts course acts) :
    (stages acts).Pairwise (· < ·) ∧ ∃ later, stages acts = 0 :: later := by
  constructor
  · have hsub : (stages acts).Sublist ((.firstMessage :: course).filterMap Act.Kind.stage?) :=
      h.within.filterMap _
    have horder : ((.firstMessage :: course).filterMap Act.Kind.stage?).Pairwise (· < ·) := by
      decide
    exact horder.sublist hsub
  · obtain ⟨later, hkinds, -⟩ := h
    refine ⟨later.filterMap Act.Kind.stage?, ?_⟩
    unfold stages
    rw [hkinds]
    rfl

theorem Advances.starts {destination : String} {request : Coap.Packet} {acts : List Act}
    {phases : List Phase} {r : Except Error (Established × EdhocContext)}
    (h : Advances s destination request acts phases r) : Starts course acts := by
  have hall : ∀ {kinds : List Act.Kind}, Starts kinds acts → kinds.Sublist course →
      Starts course acts := by
    rintro kinds ⟨later, hkinds, hlater⟩ hsub
    exact ⟨later, hkinds, hlater.trans hsub⟩
  cases h with
  | ungreeted hgreet => exact hall hgreet.starts (by decide)
  | unauthenticated hgreet hauthenticate =>
    exact hall (hgreet.starts.append hauthenticate.kinds) (by decide)
  | authenticated hgreet hauthenticate hconclude =>
    exact (hgreet.starts.append hauthenticate.kinds).append hconclude.kinds

end Handshake

/-! ### What does not depend on the phase -/

/-- Two worlds that may differ in the phase and in what happened so far. -/
structure World.Alike (w w' : World ε τ) : Prop where
  engine : w'.conversation.engine = w.conversation.engine
  transport : w'.transport = w.transport

namespace Handshake

/-- In worlds that are alike, a step gives the same, does the same, and leaves worlds that are
alike. -/
def Oblivious {α : Type} (s : Setting ε τ) (m : Step ε τ α) : Prop :=
  ∀ ⦃w w'⦄, w.Alike w' → (m.run.run w').1 = (m.run.run w).1 ∧
    (m.run.run w).2.Alike (m.run.run w').2 ∧
    ∃ acts, w.Does s acts (m.run.run w).2 ∧ w'.Does s acts (m.run.run w').2

section

variable {α β : Type} {m : Step ε τ α} {f : α → Step ε τ β} {handle : Error → Step ε τ α}

theorem Oblivious.pure (a : α) : Oblivious s (Pure.pure a : Step ε τ α) :=
  fun w w' h => ⟨rfl, h, [], .refl s w, .refl s w'⟩

theorem Oblivious.throw (e : Error) : Oblivious s (MonadExcept.throw e : Step ε τ α) :=
  fun w w' h => ⟨rfl, h, [], .refl s w, .refl s w'⟩

theorem Oblivious.bind (hm : Oblivious s m) (hf : ∀ a, Oblivious s (f a)) :
    Oblivious s (m >>= f) := by
  intro w w' h
  obtain ⟨hresult, halike, acts, hacts, hacts'⟩ := hm h
  rw [run_bind_eq, run_bind_eq]
  rcases hrun : m.run.run w with ⟨r, w₁⟩
  rcases hrun' : m.run.run w' with ⟨r', w₁'⟩
  rw [hrun, hrun'] at hresult halike
  rw [hrun] at hacts
  rw [hrun'] at hacts'
  obtain rfl : r' = r := hresult
  -- With the same result, either both go on with the same step or neither does.
  cases r' with
  | error e => exact ⟨rfl, halike, acts, hacts, hacts'⟩
  | ok a =>
    obtain ⟨hresult, halike, later, hlater, hlater'⟩ := hf a halike
    exact ⟨hresult, halike, acts ++ later, hacts.trans hlater, hacts'.trans hlater'⟩

theorem Oblivious.tryCatch (hm : Oblivious s m) (hhandle : ∀ e, Oblivious s (handle e)) :
    Oblivious s (MonadExcept.tryCatch m handle) := by
  intro w w' h
  obtain ⟨hresult, halike, acts, hacts, hacts'⟩ := hm h
  rw [run_tryCatch_eq, run_tryCatch_eq]
  rcases hrun : m.run.run w with ⟨r, w₁⟩
  rcases hrun' : m.run.run w' with ⟨r', w₁'⟩
  rw [hrun, hrun'] at hresult halike
  rw [hrun] at hacts
  rw [hrun'] at hacts'
  obtain rfl : r' = r := hresult
  cases r' with
  | error e =>
    obtain ⟨hresult, halike, later, hlater, hlater'⟩ := hhandle e halike
    exact ⟨hresult, halike, acts ++ later, hacts.trans hlater, hacts'.trans hlater'⟩
  | ok a => exact ⟨rfl, halike, acts, hacts, hacts'⟩

end

/-! ### Elementary steps -/

theorem log_oblivious (entry : LogEntry) : Oblivious s (log entry : Step ε τ Unit) :=
  fun _ _ h => ⟨rfl, ⟨h.engine, h.transport⟩, [], .logged rfl rfl, .logged rfl rfl⟩

theorem enter_oblivious (phase : Phase) : Oblivious s (enter phase : Step ε τ Unit) :=
  fun _ _ h => ⟨rfl, ⟨h.engine, h.transport⟩, [], .logged rfl rfl, .logged rfl rfl⟩

theorem abort_oblivious (destination : String) (e : Error) :
    Oblivious s (abort destination e : Step ε τ Unit) :=
  fun _ _ h => ⟨rfl, ⟨h.engine, h.transport⟩, [], .logged rfl rfl, .logged rfl rfl⟩

/-- What only looks at the engine does not depend on the phase. -/
theorem Oblivious.look {α : Type} {f : Conversation ε → Step ε τ α}
    (hsame : ∀ c c', c.engine = c'.engine → f c = f c') (hf : ∀ c, Oblivious s (f c)) :
    Oblivious s (talk MonadState.get >>= f) := by
  intro w w' h
  have hruns : ∀ v : World ε τ, (talk MonadState.get >>= f).run.run v =
      (f v.conversation).run.run v := by
    intro v
    rw [run_bind_eq]
    rfl
  rw [hruns, hruns, hsame w'.conversation w.conversation h.engine]
  exact hf w.conversation h

theorem talkAsk_oblivious (s : Setting ε τ) (query : Edhoc.Query) (failed : Edhoc.Error → Error) :
    Oblivious s (talk (Talk.ask s.engine query failed)) := by
  intro w w' h
  obtain ⟨⟨engine, events⟩, phase, transport⟩ := w
  obtain ⟨⟨engine', events'⟩, phase', transport'⟩ := w'
  obtain ⟨rfl, rfl⟩ := h
  rw [talk_run, talk_run, Talk.ask_run, Talk.ask_run]
  exact ⟨rfl, ⟨rfl, rfl⟩, _, .one rfl rfl, .one rfl rfl⟩

theorem exchange_oblivious (s : Setting ε τ) (destination : String) (packet : Coap.Packet) :
    Oblivious s (exchange s destination packet) := by
  intro w w' h
  obtain ⟨⟨engine, events⟩, phase, transport⟩ := w
  obtain ⟨⟨engine', events'⟩, phase', transport'⟩ := w'
  obtain ⟨rfl, rfl⟩ := h
  rw [exchange_run, exchange_run]
  exact ⟨rfl, ⟨rfl, rfl⟩, _, .one rfl rfl, .one rfl rfl⟩

theorem setContext_oblivious (id : ContextId) (context : EdhocContext) :
    Oblivious s (onTransport fun t => ((), t.setContext id context) : Step ε τ Unit) := by
  intro w w' h
  refine ⟨rfl, ⟨h.engine, ?_⟩, [], .unseen rfl rfl, .unseen rfl rfl⟩
  exact congrArg (Transport.setContext · id context) h.transport

theorem register_oblivious (destination : String) (context : EdhocContext) :
    Oblivious s (register destination context : Step ε τ ContextId) := by
  intro w w' h
  obtain ⟨⟨engine, events⟩, phase, transport⟩ := w
  obtain ⟨⟨engine', events'⟩, phase', transport'⟩ := w'
  obtain ⟨rfl, rfl⟩ := h
  rw [register_run, register_run]
  exact ⟨rfl, ⟨rfl, rfl⟩, _, (passes_afterRegister destination context _).acts,
    (passes_afterRegister destination context _).acts⟩

theorem forget_oblivious (destination : String) :
    Oblivious s (forget destination : Step ε τ Unit) := by
  intro w w' h
  refine ⟨rfl, ⟨h.engine, ?_⟩, [.forgotten destination], .one rfl rfl, .one rfl rfl⟩
  exact congrArg (fun t => (Transport.forget destination t).2) h.transport

/-! ### Whole handshakes -/

theorem closed_oblivious (s : Setting ε τ) :
    Closed s fun α (m : Step ε τ α) => Oblivious s m where
  pure := Oblivious.pure
  throw := Oblivious.throw
  bind := Oblivious.bind
  look := Oblivious.look
  log := log_oblivious
  enter := enter_oblivious
  talkAsk := talkAsk_oblivious s
  exchange := exchange_oblivious s

theorem conclude_oblivious (s : Setting ε τ) (destination : String) (request : Coap.Packet)
    (second : Edhoc.SecondMessage) : Oblivious s (conclude s destination request second) := by
  refine Oblivious.bind ((closed_oblivious s).agree second) fun context => ?_
  refine Oblivious.bind (register_oblivious destination context) fun id => ?_
  refine Oblivious.bind (Oblivious.tryCatch
    ((closed_oblivious s).firstExchange (setContext_oblivious id) destination context request)
      fun e => ?_) fun _ => Oblivious.pure _
  exact Oblivious.bind (forget_oblivious destination) fun _ => Oblivious.throw e

theorem run_oblivious (s : Setting ε τ) (destination : String) (request : Coap.Packet) :
    Oblivious s (run s destination request) := by
  refine Oblivious.bind (Oblivious.tryCatch ?_ fun e => ?_) fun (session, context) => ?_
  · rw [advance_eq]
    refine Oblivious.bind ((closed_oblivious s).greet destination) fun second => ?_
    refine Oblivious.bind ((closed_oblivious s).authenticate second) fun _ => ?_
    exact conclude_oblivious s destination request second
  · exact Oblivious.bind (abort_oblivious destination e) fun _ => Oblivious.throw e
  · refine Oblivious.bind (enter_oblivious _) fun _ => ?_
    exact Oblivious.bind (log_oblivious _) fun _ => Oblivious.pure session

/-- A handshake ends in one of two phases, whichever it was in before. -/
theorem run_phase (s : Setting ε τ) (destination : String) (request : Coap.Packet)
    (w : World ε τ) :
    ((run s destination request).run.run w).2.phase =
      if ((run s destination request).run.run w).1.isOk then .established else .aborted := by
  rcases hadvance : (advance s destination request).run.run w with ⟨e | ⟨session, context⟩, w₁⟩
  · rw [run_of_error hadvance]
    rfl
  · rw [run_of_ok hadvance]
    rfl

theorem phase_of_attempt {a : Attempt} {session : Established} {w w' : World ε τ}
    (h : s.attempt a w = (.ok session, w')) : w'.phase = .established := by
  have hphase := run_phase s a.destination a.request w
  unfold Setting.attempt at h
  rw [h] at hphase
  exact hphase

/-! ### Attempts one after another -/

theorem attempt_starts (s : Setting ε τ) (a : Attempt) (w : World ε τ) :
    ∃ acts, w.Does s acts (s.attempt a w).2 ∧ Starts course acts := by
  obtain ⟨acts, phases, r, hdoes, hadvances, -⟩ := run_advances s a.destination a.request w
  exact ⟨acts, hdoes, hadvances.starts⟩

theorem attempts_start (s : Setting ε τ) (w : World ε τ) (attempts : List Attempt) :
    ∃ parts : List (List Act), parts.length = attempts.length ∧
      w.Does s parts.flatten (finalState s.attempt w attempts) ∧
      ∀ acts ∈ parts, Starts course acts := by
  induction attempts generalizing w with
  | nil => exact ⟨[], rfl, .refl s w, fun acts h => by cases h⟩
  | cons a attempts ih =>
    obtain ⟨acts, hdoes, hstarts⟩ := attempt_starts s a w
    obtain ⟨parts, hlength, hparts, hall⟩ := ih (s.attempt a w).2
    refine ⟨acts :: parts, ?_, hdoes.trans hparts, ?_⟩
    · rw [List.length_cons, List.length_cons, hlength]
    · exact List.forall_mem_cons.mpr ⟨hstarts, hall⟩

/-- The messages of one handshake come in order, and those of several do not. -/
theorem stages_pairwise_iff {parts : List (List Act)} (h : ∀ acts ∈ parts, Starts course acts) :
    (stages parts.flatten).Pairwise (· < ·) ↔ parts.length ≤ 1 := by
  match parts with
  | [] => exact iff_of_true List.Pairwise.nil (Nat.zero_le 1)
  | [acts] =>
    rw [List.flatten_singleton]
    exact iff_of_true (stages_of_starts (h acts (List.mem_cons_self ..))).1 (Nat.le_refl 1)
  | acts :: acts' :: parts =>
    refine iff_of_false ?_ (by simp)
    obtain ⟨-, later, hlater⟩ := stages_of_starts (h acts (List.mem_cons_self ..))
    obtain ⟨-, later', hlater'⟩ :=
      stages_of_starts (h acts' (List.mem_cons_of_mem _ (List.mem_cons_self ..)))
    rw [List.flatten_cons, List.flatten_cons, stages_append, stages_append, hlater, hlater']
    intro hpairs
    -- Both parts ask for a first message.
    have hlt : 0 < 0 := (List.pairwise_append.mp hpairs).2.2 0 (List.mem_cons_self ..) 0
      (List.mem_append_left _ (List.mem_cons_self ..))
    exact absurd hlt (Nat.lt_irrefl 0)

/-- The engine is asked for the messages of a handshake in order, and for each at most once, exactly
if the handshake is run at most once. In whatever phase it is, a run asks for a first message, and
does, gives and leaves what the run of a new handshake on the same engine and transport does. -/
theorem attempts_start_over (s : Setting ε τ) (w : World ε τ) (attempts : List Attempt) :
    (∃ acts, w.Does s acts (finalState s.attempt w attempts) ∧
      ((stages acts).Pairwise (· < ·) ↔ attempts.length ≤ 1)) ∧
    ∀ step ∈ history s.attempt w attempts,
      let fresh := World.fresh step.before.conversation.engine step.before.transport
      (step.after s.attempt).phase =
        (if (step.result s.attempt).isOk then .established else .aborted) ∧
      (s.attempt step.call fresh).1 = step.result s.attempt ∧
      (step.after s.attempt).Alike (s.attempt step.call fresh).2 ∧
      ∃ acts, step.before.Does s acts (step.after s.attempt) ∧
        fresh.Does s acts (s.attempt step.call fresh).2 ∧ Starts course acts := by
  constructor
  · obtain ⟨parts, hlength, hdoes, hstarts⟩ := attempts_start s w attempts
    refine ⟨parts.flatten, hdoes, ?_⟩
    rw [← hlength]
    exact stages_pairwise_iff hstarts
  · intro step _ fresh
    have halike : step.before.Alike fresh := ⟨rfl, rfl⟩
    obtain ⟨hresult, hafter, acts, hdoes, hfresh⟩ :=
      run_oblivious s step.call.destination step.call.request halike
    obtain ⟨acts', hdoes', hstarts⟩ := attempt_starts s step.call step.before
    obtain rfl : acts' = acts := hdoes'.acts_eq.trans hdoes.acts_eq.symm
    exact ⟨run_phase s _ _ _, hresult, hafter, acts', hdoes, hfresh, hstarts⟩

end Handshake

/-! ### A second handshake with the same keys -/

open Oscore (Context Protectable Sealing)

/-- The packet ends with what encryption gives for this. -/
def SealedIn (crypto : Primitives) (x : Sealing) (packet : Coap.Packet) : Prop :=
  ∃ ciphertext, crypto.encrypt x.key x.nonce x.aad x.plaintext = some ciphertext ∧
    ciphertext <:+ packet.payload

def asking : Attempt := ⟨"peer", Context.shortRequest⟩

def posting : Attempt := ⟨"peer", Coap.Packet.ofCode (.request .post)⟩

theorem protectable_posting : Protectable posting.request where
  code := by decide
  supported := by decide
  numbers := by decide
  length := by decide

/-- Whatever happened before, a handshake with the responder of the test vector goes through. It
asks for a first message and sends two packets, of which the second one is the first request of a
context that is derived anew. -/
theorem attempt_vectorSetting (a : Attempt) (hrequest : Protectable a.request)
    (hplain : a.request.options.has Coap.Options.edhoc = false) (w : World Unit Unit) :
    ∃ c session w' acts x packet,
      Context.derive Oscore.TestVector.crypto Oscore.TestVector.client = .ok c ∧
      vectorSetting.attempt a w = (.ok session, w') ∧
      w.Does vectorSetting acts w' ∧ (acts.map Act.kind).count .exchange = 2 ∧
      Event.asked (.firstMessage vectorSetting.config.connectionId) ∈ w.newEvents w' ∧
      w'.transport.contexts = w.transport.contexts ++ [⟨c.advance, none⟩] ∧
      c.requestSealing a.request = .ok (x, ⟨c.senderId, [0x00]⟩) ∧
      Event.sent a.destination packet ∈ w.newEvents w' ∧
      SealedIn Oscore.TestVector.crypto x packet := by
  obtain ⟨c, session, w₂, w', hc, hadvance, hrun, -⟩ :=
    Handshake.run_vectorSetting a.destination hrequest hplain w
  obtain ⟨account, w₁, hadvance', hpasses, hconsistent, hnew, hentered, hready⟩ :=
    Handshake.run_account hrun
  have hcontext : c = account.context := by
    have hsame := Except.ok.inj (congrArg Prod.fst (hadvance.symm.trans hadvance'))
    exact congrArg EdhocContext.context (Prod.mk.inj hsame).2
  subst hcontext
  rw [hnew] at hready
  have hdoes := hpasses.acts
  have hfirst : Act.asked (.firstMessage vectorSetting.config.connectionId) (.ok account.first) ∈
      account.acts vectorSetting a.destination session.context := List.mem_cons_self ..
  have hlast : Act.exchanged a.destination account.request.packet account.request.reply ∈
      account.acts vectorSetting a.destination session.context := List.mem_of_getLast? rfl
  obtain ⟨x, hx, hseal⟩ := hconsistent.request.encrypted
  have hsealed : SealedIn Oscore.TestVector.crypto x account.request.packet :=
    ⟨_, Oscore.Sealing.run_eq_ok.mp hseal, _, hconsistent.request.carries.payload.symm⟩
  exact ⟨_, session, w', _, x, account.request.packet, hc, hrun, hdoes, rfl, hdoes.asked hfirst,
    hentered.contexts_eq hready, hx, (hdoes.exchanged hlast).1, hsealed⟩

/-- A handshake that is established is run again: it asks for another first message, sends two more
packets, and registers a second context with the keys and the sequence number of the first one. So
two different first requests go out that are encrypted under the same key and nonce. -/
theorem Handshake.established_runs_again :
    let w := (vectorSetting.attempt asking (World.fresh () ⟨(), [], []⟩)).2
    let w' := (vectorSetting.attempt posting w).2
    w.phase = .established ∧ (vectorSetting.attempt posting w).1.isOk = true ∧
      Event.asked (.firstMessage vectorSetting.config.connectionId) ∈ w.newEvents w' ∧
      ((vectorSetting.acts w.outside (w.newEvents w')).map Act.kind).count .exchange = 2 ∧
      w.transport.contexts.length = 1 ∧
      w'.transport.contexts = w.transport.contexts ++ w.transport.contexts ∧
      ∃ x y packet packet', x.key = y.key ∧ x.nonce = y.nonce ∧ x.plaintext ≠ y.plaintext ∧
        Event.sent "peer" packet ∈ w.conversation.events ∧
        SealedIn Oscore.TestVector.crypto x packet ∧
        Event.sent "peer" packet' ∈ w.newEvents w' ∧
        SealedIn Oscore.TestVector.crypto y packet' := by
  obtain ⟨c, session, w, -, x, packet, hc, hrun, -, -, -, hcontexts, hx, hsent, hsealed⟩ :=
    attempt_vectorSetting asking Context.protectable_shortRequest (by decide)
      (World.fresh () ⟨(), [], []⟩)
  obtain ⟨c', session', w', acts, y, packet', hc', hrun', hdoes, hcount, hasked, hcontexts', hy,
    hsent', hsealed'⟩ := attempt_vectorSetting posting protectable_posting (by decide) w
  obtain rfl : c' = c := Except.ok.inj (hc'.symm.trans hc)
  obtain ⟨-, -, hsealing⟩ := Context.requestSealing_eq_ok.mp hx
  obtain ⟨-, -, hsealing'⟩ := Context.requestSealing_eq_ok.mp hy
  obtain ⟨-, text, htext, hxtext⟩ := Context.sealing_eq_ok.mp hsealing
  obtain ⟨-, text', htext', hytext⟩ := Context.sealing_eq_ok.mp hsealing'
  have hkey : x.key = y.key := by rw [hxtext, hytext]
  have hnonce : x.nonce = y.nonce := by rw [hxtext, hytext]
  have hne : text ≠ text' := by
    obtain rfl : [0x01] = text := Except.ok.inj htext
    obtain rfl : [0x02] = text' := Except.ok.inj htext'
    decide
  have hplaintext : x.plaintext ≠ y.plaintext := by
    rw [hxtext, hytext]
    exact hne
  simp only [hrun, hrun']
  refine ⟨phase_of_attempt hrun, rfl, hasked, ?_, ?_, ?_, x, y, packet, packet', hkey, hnonce,
    hplaintext, hsent, hsealed, hsent', hsealed'⟩
  · rw [← hdoes.acts_eq]
    exact hcount
  · rw [hcontexts]
    rfl
  · rw [hcontexts', hcontexts]
    rfl

end Session

end SecureCoap
