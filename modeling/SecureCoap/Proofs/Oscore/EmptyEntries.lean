import SecureCoap.Proofs.Oscore.Exposure
import SecureCoap.Proofs.Oscore.OuterFields

/-!
# Entries without values

Clearing an option leaves an entry without values. Such entries are not written, so neither the
bytes of a message nor what is encrypted of it tell of them. All that is done with a message is the
same with and without them, unless they change which unsupported option is found first: the search
for those counts entries.
-/

namespace SecureCoap

namespace Oscore

variable {crypto : Primitives} {p q : Coap.Packet}

/-! ### Parts of messages -/

theorem inner_sameAs (h : p.SameAs q) : (inner p).SameAs (inner q) where
  version := rfl
  type := rfl
  code := h.code
  messageId := rfl
  token := rfl
  values := by
    intro n
    show (p.options.filter isPrivate).values n = (q.options.filter isPrivate).values n
    rw [Coap.Options.values_filter, Coap.Options.values_filter, h.values]
  payload := h.payload

theorem plaintext_congr (h : p.SameAs q) : plaintext p = plaintext q := by
  unfold plaintext
  rw [h.length, h.code, h.contents]

theorem outer_sameAs (h : p.SameAs q) (option ciphertext : Bytes) :
    (outer p option ciphertext).SameAs (outer q option ciphertext) := by
  have houtside : SameOutside p q :=
    { version := h.version
      type := h.type
      messageId := h.messageId
      token := h.token
      kind := by rw [h.code]
      values := fun n _ => h.values n }
  exact (exposes_outer p option ciphertext).sameAs (exposes_outer q option ciphertext) houtside

theorem sameForReceiver_of_sameAs (h : p.SameAs q) : SameForReceiver p q where
  version := h.version
  type := h.type
  messageId := h.messageId
  token := h.token
  payload := h.payload
  publicly := fun n _ => h.values n
  protection := by rw [h.values]

/-! ### What is found unsupported -/

theorem checkOptions_error {opts : Coap.Options} {e : Error} (h : checkOptions opts = .error e) :
    ∃ option, e = .unsupportedOption option := by
  unfold checkOptions at h
  split at h
  · next option hfound =>
    cases h
    exact ⟨option, rfl⟩
  · cases h

theorem checkOptions_ext {opts opts' : Coap.Options}
    (h : ∀ option, checkOptions opts = .error (.unsupportedOption option) ↔
      checkOptions opts' = .error (.unsupportedOption option)) :
    checkOptions opts = checkOptions opts' := by
  rcases hopts : checkOptions opts with e | ⟨⟩
  · obtain ⟨option, rfl⟩ := checkOptions_error hopts
    exact ((h option).mp hopts).symm
  · rcases hopts' : checkOptions opts' with e | ⟨⟩
    · obtain ⟨option, rfl⟩ := checkOptions_error hopts'
      rw [(h option).mpr hopts'] at hopts
      cases hopts
    · rfl

theorem plaintext_ne_unsupported (m : Coap.Packet) (option : Unsupported) :
    plaintext m ≠ .error (.unsupportedOption option) := by
  unfold plaintext
  split
  · simp
  · simp

theorem Sealing.run_ne_unsupported (s : Sealing) (option : Unsupported) :
    s.run crypto ≠ .error (.unsupportedOption option) := by
  unfold Sealing.run
  split
  · simp
  · simp

namespace Context

variable {ctx : Context}

theorem sealResponse_reuse_unsupported_iff {id : RequestId} {option : Unsupported} :
    ctx.sealResponse crypto p id true = .error (.unsupportedOption option) ↔
      checkOptions p.options = .error (.unsupportedOption option) := by
  -- Nothing can fail before the search for unsupported options, and what comes later fails
  -- otherwise.
  unfold sealResponse responseSealing sealing
  simp only [if_pos, bind_eq_error, plaintext_ne_unsupported, Sealing.run_ne_unsupported,
    pure_ne_error, and_false, exists_false, or_false]

/-! ### Calls -/

theorem sealing_congr (hcheck : checkOptions p.options = checkOptions q.options)
    (h : p.SameAs q) (id : RequestId) (nonce : Bytes) :
    ctx.sealing p id nonce = ctx.sealing q id nonce := by
  unfold sealing
  rw [hcheck, plaintext_congr (inner_sameAs h)]

theorem requestSealing_congr (hcheck : checkOptions p.options = checkOptions q.options)
    (h : p.SameAs q) : ctx.requestSealing p = ctx.requestSealing q := by
  unfold requestSealing
  simp only [sealing_congr hcheck h]

theorem responseSealing_congr (hcheck : checkOptions p.options = checkOptions q.options)
    (h : p.SameAs q) (id : RequestId) (reusePiv : Bool) :
    ctx.responseSealing p id reusePiv = ctx.responseSealing q id reusePiv := by
  unfold responseSealing
  simp only [sealing_congr hcheck h]

theorem alike_protection (way : Protection)
    (hcheck : checkOptions p.options = checkOptions q.options) (h : p.SameAs q) :
    Alike (ctx.perform crypto (way.call p)).1 (ctx.perform crypto (way.call q)).1 := by
  cases way with
  | request =>
    rw [Protection.call, Protection.call, perform_protectRequest, perform_protectRequest]
    unfold sealRequest
    rw [requestSealing_congr hcheck h]
    refine .bind _ fun sealed => .bind _ fun ciphertext => ?_
    exact .ok (outer_sameAs h _ ciphertext) rfl
  | response id reusePiv =>
    rw [Protection.call, Protection.call, perform_protectResponse, perform_protectResponse]
    unfold sealResponse
    rw [responseSealing_congr hcheck h]
    refine .bind _ fun sealed => .bind _ fun ciphertext => ?_
    exact .ok (outer_sameAs h _ ciphertext) rfl

theorem after_protection {way : Protection}
    (h : Alike (ctx.perform crypto (way.call p)).1 (ctx.perform crypto (way.call q)).1) :
    (ctx.perform crypto (way.call p)).2 = (ctx.perform crypto (way.call q)).2 := by
  cases way with
  | request => exact after_of_alike h rfl rfl
  | response id reusePiv => exact after_of_alike h rfl rfl

end Context

/-- The calls give alike results and leave the same context. -/
structure SameEffect (crypto : Primitives) (ctx : Context) (call call' : Call) : Prop where
  result : Alike (ctx.perform crypto call).1 (ctx.perform crypto call').1
  state : (ctx.perform crypto call).2 = (ctx.perform crypto call').2

/-- However the packets are protected or unprotected, it has the same effect. -/
structure Interchangeable (crypto : Primitives) (ctx : Context) (p q : Coap.Packet) : Prop where
  protection (way : Protection) : SameEffect crypto ctx (way.call p) (way.call q)
  arrival (way : Arrival) : SameEffect crypto ctx (way.call p) (way.call q)

theorem interchangeable_of_checkOptions_eq (crypto : Primitives) (ctx : Context)
    (hcheck : checkOptions p.options = checkOptions q.options) (h : p.SameAs q) :
    Interchangeable crypto ctx p q where
  protection := by
    intro way
    have hresult : Alike (ctx.perform crypto (way.call p)).1 (ctx.perform crypto (way.call q)).1 :=
      Context.alike_protection way hcheck h
    exact ⟨hresult, Context.after_protection hresult⟩
  arrival := by
    intro way
    have hresult : Alike (ctx.perform crypto (way.call p)).1 (ctx.perform crypto (way.call q)).1 :=
      Context.alike_arrival way hcheck (sameForReceiver_of_sameAs h)
    exact ⟨hresult, Context.after_arrival hresult⟩

theorem checkOptions_eq_of_interchangeable {ctx : Context} (h : Interchangeable crypto ctx p q) :
    checkOptions p.options = checkOptions q.options := by
  -- It is enough to protect both as a response under the nonce of its request.
  have hrefused : ∀ (m : Coap.Packet) (option : Unsupported),
      (ctx.perform crypto (.protectResponse m ⟨[], []⟩ true)).1 =
          .error (.unsupportedOption option) ↔
        checkOptions m.options = .error (.unsupportedOption option) := by
    intro m option
    rw [Context.perform_protectResponse, map_eq_error, Context.sealResponse_reuse_unsupported_iff]
  apply checkOptions_ext
  intro option
  rw [← hrefused p, ← hrefused q]
  exact (h.protection (.response ⟨[], []⟩ true)).result.eq_error_iff

end Oscore

end SecureCoap
