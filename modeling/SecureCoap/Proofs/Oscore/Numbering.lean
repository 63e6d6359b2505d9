import SecureCoap.Proofs.Oscore.History
import SecureCoap.Proofs.Oscore.Message

/-!
# Sequence numbers on the way

A message that takes a sequence number tells it to the other endpoint. When the numbers are used up,
such messages are refused. All other calls do the same whatever the next number is.
-/

namespace SecureCoap

namespace Oscore

variable {crypto : Primitives}

/-! ### What a packet tells -/

/-- The packet has one value of the option for protected messages, in which the last three bits of
the flag byte are the length of the partial initialisation vector, and that follows. -/
def CarriesPiv (packet : Coap.Packet) (piv : Bytes) : Prop :=
  ∃ flags rest, packet.options.values Coap.Options.oscore = [flags :: (piv ++ rest)] ∧
    flags.toNat % 8 = piv.length

theorem carriesPiv_outer (m : Coap.Packet) (kid : Option Bytes) {piv : Bytes}
    (h : piv.length ≤ 7) (ciphertext : Bytes) :
    CarriesPiv (outer m (OptionValue.encode ⟨kid, some piv⟩) ciphertext) piv := by
  have hflags := OptionValue.toNat_flags ⟨kid, some piv⟩ h
  have hflag : OptionValue.kidFlag = 8 := rfl
  refine ⟨OptionValue.flags ⟨kid, some piv⟩, kid.getD [], ?_, ?_⟩
  · rw [values_outer_oscore]
    unfold OptionValue.encode
    rw [if_neg (by simp)]
    rfl
  · rw [hflags]
    show (piv.length + _) % 8 = piv.length
    split
    · omega
    · omega

namespace Context

variable {ctx : Context} {call : Call} {o : Outcome}

theorem carriesPiv_of_perform (htakes : call.takesNumber = true)
    (h : (ctx.perform crypto call).1 = .ok o) :
    ctx.sequenceNumber ≤ PartialIv.maxNumber ∧
      CarriesPiv o.packet (PartialIv.ofNumber ctx.sequenceNumber) := by
  cases call with
  | protectRequest m =>
    rw [perform_protectRequest] at h
    obtain ⟨⟨packet, id⟩, hseal, rfl⟩ := map_eq_ok.mp h
    obtain ⟨s, ciphertext, hs, -, rfl⟩ := sealRequest_eq_ok.mp hseal
    obtain ⟨hnumber, rfl, -⟩ := requestSealing_eq_ok.mp hs
    exact ⟨hnumber, carriesPiv_outer m _ (PartialIv.length_ofNumber_bounds hnumber).2 ciphertext⟩
  | protectResponse m id reusePiv =>
    have hown : reusePiv = false := by simpa [Call.takesNumber] using htakes
    subst hown
    rw [perform_protectResponse] at h
    obtain ⟨packet, hseal, rfl⟩ := map_eq_ok.mp h
    obtain ⟨s, piv, ciphertext, hs, -, rfl⟩ := sealResponse_eq_ok.mp hseal
    obtain ⟨hnumber, rfl, -⟩ := responseSealing_own_eq_ok.mp hs
    exact ⟨hnumber, carriesPiv_outer m _ (PartialIv.length_ofNumber_bounds hnumber).2 ciphertext⟩
  | unprotectRequest packet => cases htakes
  | unprotectResponse packet id => cases htakes

/-! ### No number left -/

theorem perform_of_exhausted (h : PartialIv.maxNumber < ctx.sequenceNumber)
    (htakes : call.takesNumber = true) :
    ctx.perform crypto call = (.error .sequenceNumberExhausted, ctx) := by
  have hpiv : ctx.nextPiv = .error .sequenceNumberExhausted := if_neg (Nat.not_le.mpr h)
  cases call with
  | protectRequest m =>
    have hseal : ctx.sealRequest crypto m = .error .sequenceNumberExhausted := by
      unfold sealRequest requestSealing
      rw [hpiv]
      rfl
    rw [perform_protectRequest, hseal]
    rfl
  | protectResponse m id reusePiv =>
    have hown : reusePiv = false := by simpa [Call.takesNumber] using htakes
    subst hown
    have hseal : ctx.sealResponse crypto m id false = .error .sequenceNumberExhausted := by
      unfold sealResponse responseSealing
      rw [hpiv]
      rfl
    rw [perform_protectResponse, hseal]
    rfl
  | unprotectRequest packet => cases htakes
  | unprotectResponse packet id => cases htakes

/-! ### Calls that take no number -/

/-- The context as it would be with another next number. -/
def renumber (ctx : Context) (n : Nat) : Context := { ctx with sequenceNumber := n }

theorem perform_renumber (ctx : Context) (n : Nat) (h : call.takesNumber = false) :
    (ctx.renumber n).perform crypto call =
      ((ctx.perform crypto call).1, (ctx.perform crypto call).2.renumber n) := by
  cases call with
  | protectRequest m => cases h
  | unprotectRequest packet =>
    have hopen : (ctx.renumber n).openRequest crypto packet = ctx.openRequest crypto packet := rfl
    rw [perform_unprotectRequest, perform_unprotectRequest, hopen]
    cases ctx.openRequest crypto packet with
    | error e => rfl
    | ok r => rfl
  | protectResponse m id reusePiv =>
    have hreuse : reusePiv = true := by simpa [Call.takesNumber] using h
    subst hreuse
    have hseal : (ctx.renumber n).sealResponse crypto m id true =
        ctx.sealResponse crypto m id true := rfl
    rw [perform_protectResponse, perform_protectResponse, hseal]
    simp
  | unprotectResponse packet id => rfl

end Context

end Oscore

end SecureCoap
