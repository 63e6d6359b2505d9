import SecureCoap.Proofs.Oscore.Numbering
import SecureCoap.Proofs.Session.FailedCalls

/-!
# Sequence numbers without gaps

The messages that a context protects under numbers of its own are numbered from zero without gaps,
and each tells its number in as few bytes as can be. There are 2 ^ 40 numbers. After that such
messages are refused for ever, and everything else goes on.
-/

namespace SecureCoap

namespace Session

namespace EdhocContext

open Oscore (Call CarriesPiv Context Outcome)

variable {crypto : Primitives} {e : EdhocContext} {call : Call}

/-! ### Numbered messages -/

/-- The message that a call with this result protects with a sequence number. -/
def numbered? {ε : Type} (result : Except ε Outcome) (call : Call) : Option Coap.Packet :=
  if call.takesNumber then result.toOption.map (·.packet) else none

/-- The messages that were protected with sequence numbers, in order. -/
def numbered (crypto : Primitives) (steps : List (Step EdhocContext Call)) : List Coap.Packet :=
  steps.filterMap fun s => numbered? (s.result (perform crypto)) s.call

theorem numbered_cons (crypto : Primitives) (e : EdhocContext) (call : Call) (calls : List Call) :
    numbered crypto (e.history crypto (call :: calls)) =
      (numbered? (e.perform crypto call).1 call).toList ++
        numbered crypto ((e.perform crypto call).2.history crypto calls) := by
  cases h : numbered? (e.perform crypto call).1 call with
  | none => exact List.filterMap_cons_none h
  | some packet => exact List.filterMap_cons_some h

theorem carriesPiv_combine {message piv : Bytes} {packet : Coap.Packet}
    (h : CarriesPiv packet piv) : CarriesPiv (combine message packet) piv := by
  have hother : (combine message packet).options.values Coap.Options.oscore =
      packet.options.values Coap.Options.oscore := by
    show ((packet.options.add Coap.Options.edhoc []).values? Coap.Options.oscore).getD [] = _
    rw [Coap.Options.values?_add_of_ne _ (by decide)]
    rfl
  unfold CarriesPiv
  rw [hother]
  exact h

theorem carriesPiv_resultWith {pending : Option Bytes} {result : Except Oscore.Error Outcome}
    {piv : Bytes} {o : Outcome} (h : ∀ o', result = .ok o' → CarriesPiv o'.packet piv)
    (ho : resultWith pending call result = .ok o) : CarriesPiv o.packet piv := by
  cases call with
  | protectRequest m =>
    obtain ⟨o', ho', rfl⟩ := map_eq_ok.mp (mapError_eq_ok.mp ho)
    have hinside := h o' ho'
    cases pending with
    | none => exact hinside
    | some message => exact carriesPiv_combine hinside
  | _ => exact h o (mapError_eq_ok.mp ho)

theorem numbered?_eq_some {ε : Type} {result : Except ε Outcome} {packet : Coap.Packet} :
    numbered? result call = some packet ↔
      call.takesNumber = true ∧ ∃ o, result = .ok o ∧ o.packet = packet := by
  unfold numbered?
  cases call.takesNumber with
  | false => simp
  | true => simp [Option.map_eq_some_iff, toOption_eq_some]

/-- There is a numbered message where the context inside takes a number. -/
theorem isSome_numbered? (crypto : Primitives) (e : EdhocContext) (call : Call) :
    (numbered? (e.perform crypto call).1 call).isSome =
      (call.number? e.context (e.context.perform crypto call).1).isSome := by
  have hok := isOk_eq (perform_eq crypto call e).1
  unfold numbered? Call.number?
  rw [← hok]
  cases call.takesNumber with
  | false => simp
  | true =>
    cases (e.perform crypto call).1 with
    | error error => rfl
    | ok o => rfl

/-- A numbered message takes the next number with it, and the one after that is next. Otherwise the
next number stays. -/
theorem numbered?_spec (crypto : Primitives) (e : EdhocContext) (call : Call) :
    (e.perform crypto call).2.context.sequenceNumber =
        e.context.sequenceNumber + (numbered? (e.perform crypto call).1 call).toList.length ∧
      ∀ packet, numbered? (e.perform crypto call).1 call = some packet →
        e.context.sequenceNumber ≤ Oscore.PartialIv.maxNumber ∧
          CarriesPiv packet (Oscore.PartialIv.ofNumber e.context.sequenceNumber) := by
  constructor
  · have hsome := isSome_numbered? crypto e call
    rw [(perform_eq crypto call e).2, Context.sequenceNumber_after]
    cases hnumbered : numbered? (e.perform crypto call).1 call with
    | none =>
      rw [hnumbered] at hsome
      have hnone := Option.not_isSome_iff_eq_none.mp (Bool.eq_false_iff.mp hsome.symm)
      rw [hnone]
      rfl
    | some packet =>
      rw [hnumbered] at hsome
      obtain ⟨n, hn⟩ := Option.isSome_iff_exists.mp hsome.symm
      obtain ⟨hnext, -, -⟩ := Context.sealing_of_number hn
      rw [hn, hnext]
      rfl
  · intro packet h
    obtain ⟨htakes, o, ho, rfl⟩ := numbered?_eq_some.mp h
    have hinside : (e.context.perform crypto call).1.isOk = true := by
      rw [← isOk_eq (perform_eq crypto call e).1, ho]
      rfl
    obtain ⟨o', ho'⟩ := isOk_iff.mp hinside
    obtain ⟨hmax, -⟩ := Context.carriesPiv_of_perform htakes ho'
    rw [perform_eq_resultWith] at ho
    exact ⟨hmax, carriesPiv_resultWith
      (fun o' ho' => (Context.carriesPiv_of_perform htakes ho').2) ho⟩

theorem numbered_spec (crypto : Primitives) (e : EdhocContext) (calls : List Call) :
    (e.after crypto calls).context.sequenceNumber =
        e.context.sequenceNumber + (numbered crypto (e.history crypto calls)).length ∧
      ∀ i packet, (numbered crypto (e.history crypto calls))[i]? = some packet →
        e.context.sequenceNumber + i ≤ Oscore.PartialIv.maxNumber ∧
          CarriesPiv packet (Oscore.PartialIv.ofNumber (e.context.sequenceNumber + i)) := by
  -- The rest of the calls starts from a count that is higher by one, or from the same.
  induction calls generalizing e with
  | nil => exact ⟨rfl, fun i packet h => by cases h⟩
  | cons call calls ih =>
    obtain ⟨hnext, hcarries⟩ := numbered?_spec crypto e call
    obtain ⟨hafter, hrest⟩ := ih (e.perform crypto call).2
    rw [hnext] at hafter hrest
    rw [numbered_cons, List.length_append, ← Nat.add_assoc]
    refine ⟨hafter, ?_⟩
    cases hnumbered : numbered? (e.perform crypto call).1 call with
    | none =>
      rw [hnumbered] at hrest
      exact hrest
    | some first =>
      rw [hnumbered] at hrest
      intro i packet hi
      cases i with
      | zero =>
        cases hi
        exact hcarries first hnumbered
      | succ i =>
        have hsucc : e.context.sequenceNumber + (some first).toList.length + i =
            e.context.sequenceNumber + (i + 1) := by
          show e.context.sequenceNumber + 1 + i = _
          omega
        rw [← hsucc]
        exact hrest i packet hi

/-! ### All calls -/

/-- The context as it would be with another next number. -/
def renumber (e : EdhocContext) (n : Nat) : EdhocContext :=
  { e with context := e.context.renumber n }

theorem perform_renumber (e : EdhocContext) (n : Nat) (h : call.takesNumber = false) :
    (e.renumber n).perform crypto call =
      ((e.perform crypto call).1, (e.perform crypto call).2.renumber n) := by
  have hinside : (e.renumber n).context.perform crypto call =
      ((e.context.perform crypto call).1, (e.context.perform crypto call).2.renumber n) :=
    Context.perform_renumber e.context n h
  rw [perform_eq_resultWith, perform_eq_resultWith, hinside]
  rfl

theorem perform_of_exhausted (h : Oscore.PartialIv.maxNumber < e.context.sequenceNumber)
    (htakes : call.takesNumber = true) :
    e.perform crypto call = (.error (.oscore .sequenceNumberExhausted), e) := by
  rw [perform_eq_resultWith, Context.perform_of_exhausted h htakes]
  cases call with
  | protectRequest m => rfl
  | _ => rfl

theorem exhausted_after (h : Oscore.PartialIv.maxNumber < e.context.sequenceNumber)
    (calls : List Call) :
    Oscore.PartialIv.maxNumber < (e.after crypto calls).context.sequenceNumber := by
  obtain ⟨hafter, -⟩ := numbered_spec crypto e calls
  omega

/-- From a fresh context on, the messages that are protected with numbers carry 0, 1, 2 and so on,
each written as short as can be, in at most five bytes. The context counts them, up to 2 ^ 40. With
the count there, each further one is refused for ever. To all other calls the count means nothing:
they do with every count what they do with this one. -/
theorem numbers_gapless {p : Oscore.Parameters} (h : Context.derive crypto p = .ok e.context)
    (calls : List Call) :
    let sent := numbered crypto (e.history crypto calls)
    let now := e.after crypto calls
    (∀ i packet, sent[i]? = some packet →
      ∃ piv, CarriesPiv packet piv ∧ Oscore.PartialIv.IsShortest piv i ∧ piv.length ≤ 5) ∧
    now.context.sequenceNumber = sent.length ∧ now.context.sequenceNumber ≤ 2 ^ 40 ∧
    (now.context.sequenceNumber = 2 ^ 40 → ∀ later call, call.takesNumber = true →
      (now.after crypto later).perform crypto call =
        (.error (.oscore .sequenceNumberExhausted), now.after crypto later)) ∧
    ∀ call n, call.takesNumber = false →
      (now.renumber n).perform crypto call =
        ((now.perform crypto call).1, (now.perform crypto call).2.renumber n) := by
  intro sent now
  have hmax : Oscore.PartialIv.maxNumber = 2 ^ 40 - 1 := rfl
  obtain ⟨hcount, hcarries⟩ := numbered_spec crypto e calls
  have hstart := Context.sequenceNumber_of_derive h
  rw [hstart, Nat.zero_add] at hcount
  rw [hstart] at hcarries
  refine ⟨?_, hcount, ?_, ?_, ?_⟩
  · intro i packet hi
    obtain ⟨hle, hpiv⟩ := hcarries i packet hi
    rw [Nat.zero_add] at hle hpiv
    exact ⟨_, hpiv, Oscore.PartialIv.isShortest_ofNumber (by omega),
      Oscore.PartialIv.length_ofNumber_le_five hle⟩
  · -- The last of the messages has the number below the count.
    by_contra hover
    have hlast : sent.length - 1 < sent.length := by
      have hsent : now.context.sequenceNumber = sent.length := hcount
      omega
    obtain ⟨hle, -⟩ := hcarries _ _ (List.getElem?_eq_getElem hlast)
    have hsent : now.context.sequenceNumber = sent.length := hcount
    omega
  · intro hfull later call htakes
    have hexhausted : Oscore.PartialIv.maxNumber < now.context.sequenceNumber := by omega
    exact perform_of_exhausted (exhausted_after hexhausted later) htakes
  · intro call n htakes
    exact perform_renumber now n htakes

theorem sequenceNumber_after_shortRequests (hencrypts : crypto.EncryptsUpTo Coap.maxPacketLength)
    (k : Nat) (e : EdhocContext) (h : e.context.sequenceNumber + k ≤ 2 ^ 40) :
    (e.after crypto
        (List.replicate k (.protectRequest Context.shortRequest))).context.sequenceNumber
      = e.context.sequenceNumber + k := by
  induction k generalizing e with
  | zero => rfl
  | succ k ih =>
    have hmax : Oscore.PartialIv.maxNumber = 2 ^ 40 - 1 := rfl
    obtain ⟨o, ho⟩ := perform_shortRequest hencrypts (e := e) (by omega)
    rw [List.replicate_succ]
    show ((e.perform crypto (.protectRequest Context.shortRequest)).2.after crypto
      (List.replicate k _)).context.sequenceNumber = _
    rw [ho]
    have hnext : e.context.advance.sequenceNumber = e.context.sequenceNumber + 1 := rfl
    rw [ih ⟨e.context.advance, none⟩ (by show e.context.sequenceNumber + 1 + k ≤ _; omega)]
    show e.context.sequenceNumber + 1 + k = _
    omega

/-- There are calls after which no number is left. -/
theorem numbers_gapless_testVector :
    ∃ c, Context.derive Oscore.TestVector.crypto Oscore.TestVector.client = .ok c ∧
      let e : EdhocContext := ⟨c, some [0x40]⟩
      ∃ calls, (e.after Oscore.TestVector.crypto calls).context.sequenceNumber = 2 ^ 40 ∧
        (numbered Oscore.TestVector.crypto (e.history Oscore.TestVector.crypto calls)).length =
          2 ^ 40 ∧
        ∀ later call, call.takesNumber = true →
          ((e.after Oscore.TestVector.crypto calls).after Oscore.TestVector.crypto later).perform
              Oscore.TestVector.crypto call =
            (.error (.oscore .sequenceNumberExhausted),
              (e.after Oscore.TestVector.crypto calls).after Oscore.TestVector.crypto later) := by
  obtain ⟨c, -, hc, -, -⟩ := Oscore.TestVector.derive_client
  refine ⟨c, hc, ?_⟩
  intro e
  have hstart : e.context.sequenceNumber = 0 := Context.sequenceNumber_of_derive hc
  -- The list of all these calls is never computed.
  obtain ⟨count, hcount⟩ : ∃ count, count = 2 ^ 40 := ⟨_, rfl⟩
  have hroom : e.context.sequenceNumber + count ≤ 2 ^ 40 := by omega
  have hafter := (sequenceNumber_after_shortRequests
    (Oscore.TestVector.encryptsUpTo.mono (by decide)) count e hroom).trans
      (show e.context.sequenceNumber + count = 2 ^ 40 by omega)
  obtain ⟨-, hsent, -, hrefused, -⟩ := numbers_gapless (e := e) hc
    (List.replicate count (.protectRequest Context.shortRequest))
  exact ⟨_, hafter, hsent.symm.trans hafter, hrefused hafter⟩

end EdhocContext

end Session

end SecureCoap
