import SecureCoap.Proofs.Oscore.Derivation
import SecureCoap.Proofs.Oscore.Structures

/-!
# Keys are derived for one use each

A context takes three derivations: for the key of either endpoint, and for what both share. If the
endpoints have different identifiers, the three are made with different information, since there is
only one way to read what the information was put together from.
-/

namespace SecureCoap

namespace Oscore

/-! ### The derivations of a context -/

/-- The information of each derivation, and how many bytes are derived. -/
def Parameters.derivations (p : Parameters) : List (Bytes × Nat) := [
  (info p.senderId p.idContext p.aead KeyMaterial.key.name p.aead.keyLength, p.aead.keyLength),
  (info p.recipientId p.idContext p.aead KeyMaterial.key.name p.aead.keyLength, p.aead.keyLength),
  (info [] p.idContext p.aead KeyMaterial.iv.name p.aead.nonceLength, p.aead.nonceLength)]

def Parameters.derived (crypto : Primitives) (p : Parameters) : List (Option Bytes) :=
  p.derivations.map fun d => crypto.derive p.masterSalt p.masterSecret d.1 d.2

section

variable {crypto crypto' : Primitives} {p : Parameters} {ctx : Context}

theorem Context.derived_of_derive (h : Context.derive crypto p = .ok ctx) :
    p.derived crypto = [some ctx.senderKey, some ctx.recipientKey, some ctx.commonIv] := by
  obtain ⟨-, -, hsender, hrecipient, hiv, -⟩ := derive_eq_ok.mp h
  simp only [Parameters.derived, Parameters.derivations, List.map_cons, List.map_nil,
    material_eq_ok.mp hsender, material_eq_ok.mp hrecipient, material_eq_ok.mp hiv]

theorem Context.material_congr {id : Bytes} {kind : KeyMaterial} {length : Nat}
    (h : crypto.derive p.masterSalt p.masterSecret (info id p.idContext p.aead kind.name length)
        length =
      crypto'.derive p.masterSalt p.masterSecret (info id p.idContext p.aead kind.name length)
        length) :
    material crypto p id kind length = material crypto' p id kind length := by
  unfold material
  rw [h]

/-- Nothing else is derived for a context. -/
theorem Context.derive_congr (h : p.derived crypto = p.derived crypto') :
    Context.derive crypto p = Context.derive crypto' p := by
  simp only [Parameters.derived, Parameters.derivations, List.map_cons, List.map_nil,
    List.cons.injEq, and_true] at h
  obtain ⟨hsender, hrecipient, hiv⟩ := h
  unfold derive
  rw [material_congr hsender, material_congr hrecipient, material_congr hiv]

/-! ### Different information -/

theorem info_ne_of_id_ne {id₁ id₂ : Bytes} {idContext₁ idContext₂ : Option Bytes}
    {aead : AeadAlgorithm} {type₁ type₂ : String} {length₁ length₂ : Nat}
    (h₁ : id₁.length < 2 ^ 64) (h₂ : id₂.length < 2 ^ 64) (hne : id₁ ≠ id₂) :
    info id₁ idContext₁ aead type₁ length₁ ≠ info id₂ idContext₂ aead type₂ length₂ :=
  fun h => hne (id_of_info h₁ h₂ h).1

/-- No key of an endpoint is derived for what an initialisation vector is derived for, not even that
of an endpoint with an empty identifier. -/
theorem info_key_ne_iv {id₁ id₂ : Bytes} {idContext : Option Bytes} {aead : AeadAlgorithm}
    {length₁ length₂ : Nat} (h₁ : id₁.length < 2 ^ 64) (h₂ : id₂.length < 2 ^ 64) :
    info id₁ idContext aead KeyMaterial.key.name length₁ ≠
      info id₂ idContext aead KeyMaterial.iv.name length₂ := by
  intro h
  obtain ⟨-, hshared⟩ := id_of_info h₁ h₂ h
  exact absurd (type_of_sharedInfo hshared).1 (by decide)

theorem Parameters.nodup_info (hne : p.senderId ≠ p.recipientId)
    (hsender : p.senderId.length < 2 ^ 64) (hrecipient : p.recipientId.length < 2 ^ 64) :
    (p.derivations.map Prod.fst).Nodup := by
  have hshared : ([] : Bytes).length < 2 ^ 64 := by decide
  simp only [derivations, List.map_cons, List.map_nil, List.nodup_cons, List.mem_cons,
    List.not_mem_nil, or_false, not_or, not_false_iff, List.nodup_nil, and_true]
  exact ⟨⟨info_ne_of_id_ne hsender hrecipient hne, info_key_ne_iv hsender hshared⟩,
    info_key_ne_iv hrecipient hshared⟩

end

/-! ### One reading each -/

/-- Information for a derivation, and data that is authenticated, can each be read in one way only,
whatever the lengths of their parts are, as long as 64 bits hold them. What is derived for a context
whose identifiers differ is so derived for three different uses, and nothing else is derived for
it. -/
theorem inputs_unambiguous (aead : AeadAlgorithm) :
    (∀ (id₁ id₂ : Bytes) (idContext₁ idContext₂ : Option Bytes) (type₁ type₂ : String)
        (length₁ length₂ : Nat),
      id₁.length < 2 ^ 64 → id₂.length < 2 ^ 64 →
      (∀ c ∈ idContext₁, c.length < 2 ^ 64) → (∀ c ∈ idContext₂, c.length < 2 ^ 64) →
      length₁ < 2 ^ 64 → length₂ < 2 ^ 64 →
      (info id₁ idContext₁ aead type₁ length₁ = info id₂ idContext₂ aead type₂ length₂ ↔
        id₁ = id₂ ∧ idContext₁ = idContext₂ ∧ type₁ = type₂ ∧ length₁ = length₂)) ∧
    (∀ kid₁ kid₂ piv₁ piv₂ : Bytes, kid₁.length < 2 ^ 64 → kid₂.length < 2 ^ 64 →
      (aad aead kid₁ piv₁ = aad aead kid₂ piv₂ ↔ kid₁ = kid₂ ∧ piv₁ = piv₂)) ∧
    ∀ p : Parameters, p.senderId ≠ p.recipientId →
      p.senderId.length < 2 ^ 64 → p.recipientId.length < 2 ^ 64 →
      (p.derivations.map Prod.fst).Nodup ∧
      ∀ crypto : Primitives,
        (∀ ctx, Context.derive crypto p = .ok ctx →
          p.derived crypto = [some ctx.senderKey, some ctx.recipientKey, some ctx.commonIv]) ∧
        ∀ crypto' : Primitives, p.derived crypto = p.derived crypto' →
          Context.derive crypto p = Context.derive crypto' p := by
  refine ⟨?_, ?_, ?_⟩
  · intro id₁ id₂ idContext₁ idContext₂ type₁ type₂ length₁ length₂ hid₁ hid₂ hcontext₁ hcontext₂
      hlength₁ hlength₂
    constructor
    · exact info_injective hid₁ hid₂ hcontext₁ hcontext₂ hlength₁ hlength₂
    · rintro ⟨rfl, rfl, rfl, rfl⟩
      rfl
  · intro kid₁ kid₂ piv₁ piv₂ hkid₁ hkid₂
    constructor
    · exact aad_injective_of_kid hkid₁ hkid₂
    · rintro ⟨rfl, rfl⟩
      rfl
  · intro p hne hsender hrecipient
    exact ⟨Parameters.nodup_info hne hsender hrecipient, fun crypto =>
      ⟨fun ctx => Context.derived_of_derive, fun crypto' => Context.derive_congr⟩⟩

/-- An identifier is not taken for that of a context, nor the end of a sender for the start of a
vector. An empty sender has another key than the one that is derived for everybody. -/
theorem inputs_unambiguous_shiftedBytes :
    info [0x01] none .aesCcm16_64_128 "Key" 16 ≠ info [] (some [0x01]) .aesCcm16_64_128 "Key" 16 ∧
      aad .aesCcm16_64_128 [0x01] [0x02, 0x03] ≠ aad .aesCcm16_64_128 [0x01, 0x02] [0x03] ∧
      TestVector.client.senderId = [] ∧ (TestVector.client.derivations.map Prod.fst).Nodup ∧
      ∃ ctx, Context.derive TestVector.crypto TestVector.client = .ok ctx ∧
        TestVector.client.derived TestVector.crypto =
          [some ctx.senderKey, some ctx.recipientKey, some ctx.commonIv] := by
  obtain ⟨hinfo, haad, hderive⟩ := inputs_unambiguous .aesCcm16_64_128
  obtain ⟨hnodup, hderived⟩ := hderive TestVector.client (by decide) (by decide) (by decide)
  obtain ⟨ctx, -, hctx, -⟩ := TestVector.derive_client
  refine ⟨?_, ?_, rfl, hnodup, ctx, hctx, (hderived TestVector.crypto).1 ctx hctx⟩
  · have hread := hinfo [0x01] [] none (some [0x01]) "Key" "Key" 16 16 (by decide) (by decide)
      (by simp) (by simp) (by decide) (by decide)
    exact mt hread.mp (by decide)
  · have hread := haad [0x01] [0x01, 0x02] [0x02, 0x03] [0x03] (by decide) (by decide)
    exact mt hread.mp (by decide)

end Oscore

end SecureCoap
