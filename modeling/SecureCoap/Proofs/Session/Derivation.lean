import SecureCoap.Proofs.Oscore.Derivation
import SecureCoap.Session.Derivation

/-!
# Contexts that come out of a handshake

What a conversation with the engine ends in. The engine is asked for a secret and for a salt, and
what comes of the derivation after that is a matter of these and of the identifiers.
-/

namespace SecureCoap

namespace Session

open Edhoc (ConnectionId Engine Query)
open Oscore (Context)

variable {ε : Type} {crypto : Primitives} {engine : Engine ε}

theorem Talk.ask_run (engine : Engine ε) (query : Query) (failed : Edhoc.Error → Error)
    (c : Conversation ε) :
    (ask engine query failed).run.run c =
      ((engine.answer query c.engine).1.mapError failed,
        ⟨(engine.answer query c.engine).2, c.events ++ [Event.asked query]⟩) := by
  have hrecord : (record (.asked query) : Talk ε Unit).run.run c
      = (.ok (), ⟨c.engine, c.events ++ [Event.asked query]⟩) := rfl
  rcases h : engine.answer query c.engine with ⟨e | reply, state⟩
  · simp only [ask, run_bind_eq, hrecord, run_get, h]
    rfl
  · simp only [ask, run_bind_eq, hrecord, run_get, h]
    rfl

theorem parameters_eq_ok {secret salt : Bytes} {ours theirs : ConnectionId}
    {aead : Oscore.AeadAlgorithm} {hash : Oscore.HashAlgorithm} {p : Oscore.Parameters} :
    parameters secret salt ours theirs aead hash = .ok p ↔
      ∃ senderId recipientId, theirs.toOscoreId = .ok senderId ∧ ours.toOscoreId = .ok recipientId ∧
        senderId ≠ recipientId ∧
        p = ⟨secret, salt, senderId, recipientId, none, aead, hash, windowSize⟩ := by
  unfold parameters
  simp only [bind_eq_ok, mapError_eq_ok]
  constructor
  · intro h
    obtain ⟨senderId, hsender, recipientId, hrecipient, h⟩ := h
    split at h
    · cases h
    · next hne =>
      exact ⟨senderId, recipientId, hsender, hrecipient, hne, (pure_eq_ok.mp h).symm⟩
  · intro h
    obtain ⟨senderId, recipientId, hsender, hrecipient, hne, rfl⟩ := h
    refine ⟨senderId, hsender, recipientId, hrecipient, ?_⟩
    rw [if_neg hne]
    rfl

theorem parameters_of_eq {secret salt id : Bytes} {ours theirs : ConnectionId}
    {aead : Oscore.AeadAlgorithm} {hash : Oscore.HashAlgorithm}
    (hours : ours.toOscoreId = .ok id) (htheirs : theirs.toOscoreId = .ok id) :
    parameters secret salt ours theirs aead hash = .error (.identifierCollision id) := by
  unfold parameters
  rw [hours, htheirs]
  exact if_pos rfl

/-! ### What an engine exports -/

/-- What comes of asking an engine for a secret and for a salt: both of them or a failure, the
queries that were made, and the state of the engine afterwards. -/
structure Export (ε : Type) where
  answer : Except Edhoc.Error (Bytes × Bytes)
  queries : List Query
  state : ε

/-- Asks for a secret of 16 bytes, and, unless that fails, for a salt of 8 bytes. -/
def exports (engine : Engine ε) (s : ε) : Export ε :=
  match engine.answer (.exporter 0 [] 16) s with
  | (.error e, s₁) => ⟨.error e, [.exporter 0 [] 16], s₁⟩
  | (.ok secret, s₁) =>
    match engine.answer (.exporter 1 [] 8) s₁ with
    | (.error e, s₂) => ⟨.error e, [.exporter 0 [] 16, .exporter 1 [] 8], s₂⟩
    | (.ok salt, s₂) => ⟨.ok (secret, salt), [.exporter 0 [] 16, .exporter 1 [] 8], s₂⟩

def Event.query? : Event → Option Query
  | asked query => some query
  | _ => none

namespace Conversation

/-- What the engine was asked for, in order. -/
def queries (c : Conversation ε) : List Query := c.events.filterMap Event.query?

def afterExport (engine : Engine ε) (c : Conversation ε) : Conversation ε :=
  ⟨(exports engine c.engine).state,
    c.events ++ (exports engine c.engine).queries.map Event.asked⟩

theorem queries_afterExport (c : Conversation ε) :
    (c.afterExport engine).queries = c.queries ++ (exports engine c.engine).queries := by
  have hmap : ∀ queries : List Query,
      (queries.map Event.asked).filterMap Event.query? = queries := by
    intro queries
    rw [List.filterMap_map]
    exact List.filterMap_some
  rw [queries, afterExport, List.filterMap_append, hmap, ← queries]

end Conversation

/-! ### The derivation -/

section

variable {pending : Option Bytes} {ours theirs : ConnectionId} {talk : Conversation ε}
  {secret salt : Bytes} {e : EdhocContext}

/-- The context of a secret and a salt, if the identifiers admit one. -/
def contextOf (crypto : Primitives) (pending : Option Bytes) (ours theirs : ConnectionId)
    (secret salt : Bytes) : Except Error EdhocContext := do
  let p ← parameters secret salt ours theirs .aesCcm16_64_128 .sha256
  let context ← (Context.derive crypto p).mapError Error.oscore
  return ⟨context, pending⟩

/-- What is left to do after the exports. -/
def deriveFrom (crypto : Primitives) (suite : Int) (pending : Option Bytes)
    (ours theirs : ConnectionId) (secret salt : Bytes) : Talk ε EdhocContext := do
  let p ← parameters secret salt ours theirs .aesCcm16_64_128 .sha256
  Talk.record (.logged (.derivingContext suite p.senderId p.recipientId))
  let context ← (Context.derive crypto p).mapError Error.oscore
  return ⟨context, pending⟩

/-- What is logged of parameters before a context is derived of them. -/
def announced (suite : Int) : Except Error Oscore.Parameters → List Event
  | .ok p => [.logged (.derivingContext suite p.senderId p.recipientId)]
  | .error _ => []

theorem filterMap_announced (suite : Int) (r : Except Error Oscore.Parameters) :
    (announced suite r).filterMap Event.query? = [] := by
  cases r with
  | error e => rfl
  | ok p => rfl

theorem deriveFrom_run (suite : Int) (c : Conversation ε) :
    (deriveFrom crypto suite pending ours theirs secret salt).run.run c =
      (contextOf crypto pending ours theirs secret salt,
        ⟨c.engine, c.events
          ++ announced suite (parameters secret salt ours theirs .aesCcm16_64_128 .sha256)⟩) := by
  unfold deriveFrom contextOf
  rw [run_result_bind]
  cases parameters secret salt ours theirs .aesCcm16_64_128 .sha256 with
  | error e =>
    rw [announced, List.append_nil]
    rfl
  | ok p =>
    have hrecord : (Talk.record (.logged (.derivingContext suite p.senderId p.recipientId))
        : Talk ε Unit).run.run c = (.ok (), ⟨c.engine, c.events ++ announced suite (.ok p)⟩) := rfl
    dsimp only
    rw [run_bind_eq, hrecord]
    dsimp only
    rw [run_result_bind]
    show _ = ((Context.derive crypto p).mapError Error.oscore >>= _, _)
    cases Context.derive crypto p with
    | error e => rfl
    | ok context => rfl

theorem derive_run_of_unsupported (h : engine.suite talk.engine ≠ 2) :
    (derive crypto engine pending ours theirs).run.run talk =
      (.error (.unsupportedSuite (engine.suite talk.engine)), talk) := by
  have hsuite : algorithmsForSuite (engine.suite talk.engine)
      = .error (.unsupportedSuite (engine.suite talk.engine)) := if_neg h
  unfold derive
  simp only [run_bind_eq, run_get, hsuite]
  rfl

theorem derive_run (h : engine.suite talk.engine = 2) :
    (derive crypto engine pending ours theirs).run.run talk =
      match (exports engine talk.engine).answer with
      | .error e => (.error (.edhoc e), talk.afterExport engine)
      | .ok (secret, salt) =>
        (deriveFrom crypto 2 pending ours theirs secret salt).run.run
          (talk.afterExport engine) := by
  -- What is asked for is only known with the algorithms, so the suite is settled first.
  have hasks : (derive crypto engine pending ours theirs).run.run talk =
      (do
        let secret ← Talk.ask engine (.exporter 0 [] 16) .edhoc
        let salt ← Talk.ask engine (.exporter 1 [] 8) .edhoc
        deriveFrom crypto 2 pending ours theirs secret salt
          : Talk ε EdhocContext).run.run talk := by
    have hsuite : algorithmsForSuite 2 = .ok (.aesCcm16_64_128, .sha256) := rfl
    unfold derive
    rw [run_bind_eq, run_get]
    simp only [h, hsuite]
    rfl
  rw [hasks, run_bind_eq, Talk.ask_run]
  unfold Conversation.afterExport exports
  rcases engine.answer (.exporter 0 [] 16) talk.engine with ⟨e | secret, s₁⟩
  · rfl
  · show (Talk.ask engine (.exporter 1 [] 8) .edhoc >>= fun salt =>
        deriveFrom crypto 2 pending ours theirs secret salt : Talk ε EdhocContext).run.run
      ⟨s₁, talk.events ++ [Event.asked (.exporter 0 [] 16)]⟩ = _
    rw [run_bind_eq, Talk.ask_run]
    dsimp only
    rcases engine.answer (.exporter 1 [] 8) s₁ with ⟨e | salt, s₂⟩
    · show (_, (⟨s₂, talk.events ++ [_] ++ [_]⟩ : Conversation ε)) = _
      rw [List.append_assoc]
      rfl
    · show (deriveFrom crypto 2 pending ours theirs secret salt).run.run
        ⟨s₂, talk.events ++ [_] ++ [_]⟩ = _
      rw [List.append_assoc]
      rfl

theorem result_of_failed_export {error : Edhoc.Error} (h : engine.suite talk.engine = 2)
    (hexport : (exports engine talk.engine).answer = .error error) :
    ((derive crypto engine pending ours theirs).run.run talk).1 = .error (.edhoc error) := by
  rw [derive_run h, hexport]

theorem result_of_export (h : engine.suite talk.engine = 2)
    (hexport : (exports engine talk.engine).answer = .ok (secret, salt)) :
    ((derive crypto engine pending ours theirs).run.run talk).1
      = contextOf crypto pending ours theirs secret salt := by
  rw [derive_run h, hexport]
  dsimp only
  rw [deriveFrom_run]

theorem conversation_of_derive (h : engine.suite talk.engine = 2) :
    ((derive crypto engine pending ours theirs).run.run talk).2.engine
        = (exports engine talk.engine).state ∧
      ((derive crypto engine pending ours theirs).run.run talk).2.queries
        = talk.queries ++ (exports engine talk.engine).queries := by
  rw [derive_run h, ← Conversation.queries_afterExport]
  rcases (exports engine talk.engine).answer with error | ⟨secret, salt⟩
  · exact ⟨rfl, rfl⟩
  · dsimp only
    rw [deriveFrom_run]
    refine ⟨rfl, ?_⟩
    unfold Conversation.queries
    rw [List.filterMap_append, filterMap_announced, List.append_nil]

theorem derive_result_eq_ok :
    ((derive crypto engine pending ours theirs).run.run talk).1 = .ok e ↔
      engine.suite talk.engine = 2 ∧ ∃ secret salt,
        (exports engine talk.engine).answer = .ok (secret, salt) ∧
        contextOf crypto pending ours theirs secret salt = .ok e := by
  constructor
  · intro h
    by_cases hsuite : engine.suite talk.engine = 2
    · rcases hexport : (exports engine talk.engine).answer with error | ⟨secret, salt⟩
      · rw [result_of_failed_export hsuite hexport] at h
        cases h
      · rw [result_of_export hsuite hexport] at h
        exact ⟨hsuite, secret, salt, rfl, h⟩
    · rw [derive_run_of_unsupported hsuite] at h
      cases h
  · intro h
    obtain ⟨hsuite, secret, salt, hexport, hcontext⟩ := h
    rw [result_of_export hsuite hexport, hcontext]

/-! ### The context -/

theorem contextOf_eq_ok :
    contextOf crypto pending ours theirs secret salt = .ok e ↔
      ∃ own peer, ours.toOscoreId = .ok own ∧ theirs.toOscoreId = .ok peer ∧ own ≠ peer ∧
        Context.derive crypto (.standard secret salt peer own) = .ok e.context ∧
        e.pending = pending := by
  unfold contextOf
  simp only [bind_eq_ok, mapError_eq_ok, pure_eq_ok]
  constructor
  · intro h
    obtain ⟨p, hp, context, hcontext, rfl⟩ := h
    obtain ⟨peer, own, hpeer, hown, hne, rfl⟩ := parameters_eq_ok.mp hp
    exact ⟨own, peer, hown, hpeer, hne.symm, hcontext, rfl⟩
  · intro h
    obtain ⟨own, peer, hown, hpeer, hne, hcontext, rfl⟩ := h
    exact ⟨_, parameters_eq_ok.mpr ⟨peer, own, hpeer, hown, hne.symm, rfl⟩, e.context, hcontext,
      rfl⟩

theorem contextOf_of_eq {id : Bytes} (hours : ours.toOscoreId = .ok id)
    (htheirs : theirs.toOscoreId = .ok id) :
    contextOf crypto pending ours theirs secret salt = .error (.identifierCollision id) := by
  unfold contextOf
  rw [parameters_of_eq hours htheirs]
  rfl

/-- There is a context if and only if the identifiers are different and short enough. -/
theorem contextOf_isOk_iff (hcrypto : crypto.DerivesUpTo Hkdf.maxLength) :
    (∃ e, contextOf crypto pending ours theirs secret salt = .ok e) ↔
      ∃ own peer, ours.toOscoreId = .ok own ∧ theirs.toOscoreId = .ok peer ∧ own ≠ peer ∧
        own.length ≤ 7 ∧ peer.length ≤ 7 := by
  constructor
  · intro h
    obtain ⟨e, he⟩ := h
    obtain ⟨own, peer, hown, hpeer, hne, hcontext, -⟩ := contextOf_eq_ok.mp he
    obtain ⟨hpeerLength, hownLength⟩ := (Context.derive_isOk_iff hcrypto).mp ⟨_, hcontext⟩
    exact ⟨own, peer, hown, hpeer, hne, hownLength, hpeerLength⟩
  · intro h
    obtain ⟨own, peer, hown, hpeer, hne, hownLength, hpeerLength⟩ := h
    obtain ⟨context, hcontext⟩ :=
      (Context.derive_isOk_iff (p := .standard secret salt peer own) hcrypto).mpr
        ⟨hpeerLength, hownLength⟩
    exact ⟨⟨context, pending⟩, contextOf_eq_ok.mpr
      ⟨own, peer, hown, hpeer, hne, hcontext, rfl⟩⟩

/-- What one side derives a context of, the other one does, and they match. -/
theorem contextOf_mirrored (hcrypto : crypto.DerivesUpTo Hkdf.maxLength) (pending' : Option Bytes)
    (h : contextOf crypto pending ours theirs secret salt = .ok e) :
    ∃ e', contextOf crypto pending' theirs ours secret salt = .ok e' ∧
      e.context.Matches e'.context := by
  obtain ⟨own, peer, hown, hpeer, hne, hcontext, -⟩ := contextOf_eq_ok.mp h
  obtain ⟨hpeerLength, hownLength⟩ := (Context.derive_isOk_iff hcrypto).mp ⟨_, hcontext⟩
  obtain ⟨context, hmirrored⟩ :=
    (Context.derive_isOk_iff (p := .standard secret salt own peer) hcrypto).mpr
      ⟨hownLength, hpeerLength⟩
  exact ⟨⟨context, pending'⟩, contextOf_eq_ok.mpr
    ⟨peer, own, hpeer, hown, hne.symm, hmirrored, rfl⟩,
    Context.matches_of_derive hcontext hmirrored⟩

/-- A context that is derived in a conversation is derived of parameters whose identifiers differ,
and has the given message pending. -/
theorem context_of_derive
    (h : ((derive crypto engine pending ours theirs).run.run talk).1 = .ok e) :
    ∃ p, p.senderId ≠ p.recipientId ∧ p.windowSize = windowSize ∧
      Context.derive crypto p = .ok e.context ∧ e.pending = pending := by
  obtain ⟨-, secret, salt, -, hcontext⟩ := derive_result_eq_ok.mp h
  obtain ⟨own, peer, -, -, hne, hcontext, hpending⟩ := contextOf_eq_ok.mp hcontext
  exact ⟨_, hne.symm, rfl, hcontext, hpending⟩

end

/-! ### An engine -/

/-- An engine whose answers are always the same. What it exports are zeros. -/
def fixedEngine (second : Edhoc.SecondMessage) : Engine Unit where
  suite _ := Edhoc.suite2
  answer query state :=
    match query with
    | .exporter _ _ length => (.ok (List.replicate length (0 : UInt8)), state)
    | .firstMessage _ => (.ok [0x00], state)
    | .secondMessage _ => (.ok second, state)
    | .verifyPeer .. => (.ok (), state)
    | .finalMessage _ => (.ok [0x40], state)

/-- An engine that never has an answer. -/
def silentEngine : Engine Unit where
  suite _ := Edhoc.suite2
  answer _ state := (.error (.engine "no answer"), state)

theorem derive_fixedEngine :
    ∃ e, ((derive .standard (fixedEngine ⟨.int 1, [], none⟩) none (.int 0) (.int 1)).run.run
      ⟨(), []⟩).1 = .ok e :=
  ⟨_, rfl⟩

/-! ### What a derivation comes to -/

section

variable {pending : Option Bytes} {ours theirs : ConnectionId} {talk talk' : Conversation ε}
  {result : Except Error EdhocContext}

/-- A derivation asks for nothing unless the suite is 2. Otherwise it asks for a secret and then for
a salt, stops if one of them fails, and gives a context if and only if the identifiers of both sides
are different and short enough. Equal ones are named in the failure, however they were written. The
other side, from the same secret and salt, derives the same keys the other way around. -/
theorem derivation_determined (hcrypto : crypto.DerivesUpTo Hkdf.maxLength)
    (h : (derive crypto engine pending ours theirs).run.run talk = (result, talk')) :
    (engine.suite talk.engine ≠ 2 →
      result = .error (.unsupportedSuite (engine.suite talk.engine)) ∧ talk' = talk) ∧
    (engine.suite talk.engine = 2 →
      talk'.queries = talk.queries ++ (exports engine talk.engine).queries ∧
      talk'.engine = (exports engine talk.engine).state ∧
      (∀ error, (exports engine talk.engine).answer = .error error →
        result = .error (.edhoc error)) ∧
      ∀ secret salt id, (exports engine talk.engine).answer = .ok (secret, salt) →
        ours.toOscoreId = .ok id → theirs.toOscoreId = .ok id →
        result = .error (.identifierCollision id)) ∧
    ((∃ e, result = .ok e) ↔
      engine.suite talk.engine = 2 ∧
      (∃ secret salt, (exports engine talk.engine).answer = .ok (secret, salt)) ∧
      ∃ own peer, ours.toOscoreId = .ok own ∧ theirs.toOscoreId = .ok peer ∧ own ≠ peer ∧
        own.length ≤ 7 ∧ peer.length ≤ 7) ∧
    ∀ e, result = .ok e →
      theirs.toOscoreId = .ok e.context.senderId ∧ ours.toOscoreId = .ok e.context.recipientId ∧
      e.context.sequenceNumber = 0 ∧ e.context.window = ⟨32, none, 0⟩ ∧ e.pending = pending ∧
      ∀ {ε' : Type} (engine' : Engine ε') (pending' : Option Bytes) (other : Conversation ε'),
        engine'.suite other.engine = 2 →
        (exports engine' other.engine).answer = (exports engine talk.engine).answer →
        ∃ e', ((derive crypto engine' pending' theirs ours).run.run other).1 = .ok e' ∧
          e'.context.commonIv = e.context.commonIv ∧
          e'.context.senderKey = e.context.recipientKey ∧
          e'.context.recipientKey = e.context.senderKey := by
  obtain rfl : _ = result := congrArg Prod.fst h
  obtain rfl : _ = talk' := congrArg Prod.snd h
  refine ⟨?_, ?_, ?_, ?_⟩
  · intro hsuite
    rw [derive_run_of_unsupported hsuite]
    exact ⟨rfl, rfl⟩
  · intro hsuite
    obtain ⟨hengine, hqueries⟩ := conversation_of_derive hsuite
    refine ⟨hqueries, hengine, fun error => result_of_failed_export hsuite, ?_⟩
    intro secret salt id hexport hours htheirs
    rw [result_of_export hsuite hexport, contextOf_of_eq hours htheirs]
  · constructor
    · intro h
      obtain ⟨e, he⟩ := h
      obtain ⟨hsuite, secret, salt, hexport, hcontext⟩ := derive_result_eq_ok.mp he
      exact ⟨hsuite, ⟨secret, salt, hexport⟩, (contextOf_isOk_iff hcrypto).mp ⟨e, hcontext⟩⟩
    · intro h
      obtain ⟨hsuite, ⟨secret, salt, hexport⟩, hids⟩ := h
      obtain ⟨e, hcontext⟩ := (contextOf_isOk_iff hcrypto).mpr hids
      exact ⟨e, derive_result_eq_ok.mpr ⟨hsuite, secret, salt, hexport, hcontext⟩⟩
  · intro e he
    obtain ⟨-, secret, salt, hexport, hcontext⟩ := derive_result_eq_ok.mp he
    obtain ⟨own, peer, hown, hpeer, -, hderived, hpending⟩ := contextOf_eq_ok.mp hcontext
    obtain ⟨hsender, hrecipient⟩ := Context.ids_of_derive hderived
    refine ⟨?_, ?_, Context.sequenceNumber_of_derive hderived,
      Context.window_of_derive hderived, hpending, ?_⟩
    · rw [hsender]
      exact hpeer
    · rw [hrecipient]
      exact hown
    · intro ε' engine' pending' other hsuite hsame
      obtain ⟨e', hcontext', hmatch⟩ := contextOf_mirrored hcrypto pending' hcontext
      exact ⟨e', derive_result_eq_ok.mpr ⟨hsuite, secret, salt, hsame.trans hexport, hcontext'⟩,
        hmatch.commonIv, hmatch.senderKey, hmatch.recipientKey⟩

/-- With identifiers of one and of seven bytes there is a context, on either side. With 8 as an
integer and as a byte string there is none, nor is there for another suite, nor from an engine that
does not answer, which is asked once only. -/
theorem derivation_determined_fixedEngine :
    ∃ engine other : Engine Unit, engine.suite () = 2 ∧ other.suite () = 99 ∧
      (∃ e e', ((derive .standard engine (some [0x40]) (.int 8) (.bytes (.replicate 7 2))).run.run
          ⟨(), []⟩).1 = .ok e ∧
        ((derive .standard engine none (.bytes (.replicate 7 2)) (.int 8)).run.run ⟨(), []⟩).1
          = .ok e' ∧
        e.context.recipientId = [0x08] ∧ e.pending = some [0x40] ∧
        e'.context.senderKey = e.context.recipientKey) ∧
      ((derive .standard engine none (.int 8) (.bytes [0x08])).run.run ⟨(), []⟩).1
        = .error (.identifierCollision [0x08]) ∧
      (derive .standard other none (.int 8) (.int 9)).run.run ⟨(), []⟩
        = (.error (.unsupportedSuite 99), ⟨(), []⟩) ∧
      ((derive .standard silentEngine none (.int 8) (.int 9)).run.run ⟨(), []⟩).1
        = .error (.edhoc (.engine "no answer")) ∧
      ((derive .standard silentEngine none (.int 8) (.int 9)).run.run ⟨(), []⟩).2.queries
        = [.exporter 0 [] 16] := by
  have hcrypto := Primitives.standard_derivesUpTo
  refine ⟨fixedEngine ⟨.int 1, [], none⟩, { fixedEngine ⟨.int 1, [], none⟩ with suite _ := 99 },
    rfl, rfl, ?_, ?_, ?_, ?_⟩
  · obtain ⟨-, -, hok, hcontext⟩ := derivation_determined hcrypto (Prod.mk.eta
      (p := (derive .standard (fixedEngine ⟨.int 1, [], none⟩) (some [0x40]) (.int 8)
        (.bytes (.replicate 7 2))).run.run ⟨(), []⟩)).symm
    obtain ⟨e, he⟩ := hok.mpr ⟨rfl, ⟨_, _, rfl⟩, [0x08], .replicate 7 2, rfl, rfl, by decide,
      by decide, by decide⟩
    obtain ⟨-, hrecipient, -, -, hpending, hmirrored⟩ := hcontext e he
    obtain ⟨e', he', -, hkey, -⟩ :=
      hmirrored (fixedEngine ⟨.int 1, [], none⟩) none ⟨(), []⟩ rfl rfl
    exact ⟨e, e', he, he', (Except.ok.inj hrecipient).symm, hpending, hkey⟩
  · obtain ⟨-, hexports, -⟩ := derivation_determined hcrypto (Prod.mk.eta
      (p := (derive .standard (fixedEngine ⟨.int 1, [], none⟩) none (.int 8)
        (.bytes [0x08])).run.run ⟨(), []⟩)).symm
    obtain ⟨-, -, -, hcollision⟩ := hexports rfl
    exact hcollision _ _ _ rfl rfl rfl
  · obtain ⟨hother, -⟩ := derivation_determined hcrypto (Prod.mk.eta
      (p := (derive .standard { fixedEngine ⟨.int 1, [], none⟩ with suite _ := 99 } none (.int 8)
        (.int 9)).run.run ⟨(), []⟩)).symm
    obtain ⟨hresult, hsame⟩ := hother (by decide)
    exact Prod.ext hresult hsame
  · obtain ⟨-, hexports, -⟩ := derivation_determined hcrypto (Prod.mk.eta
      (p := (derive .standard silentEngine none (.int 8) (.int 9)).run.run ⟨(), []⟩)).symm
    obtain ⟨hqueries, -, hfailed, -⟩ := hexports rfl
    exact ⟨hfailed _ rfl, hqueries⟩

end

end Session

end SecureCoap
