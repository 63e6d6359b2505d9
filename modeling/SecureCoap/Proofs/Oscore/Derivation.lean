import SecureCoap.Oscore.Context
import SecureCoap.Proofs.Computation
import SecureCoap.Proofs.Crypto.Primitives
import SecureCoap.Proofs.Oscore.ReplayWindow

/-!
# Derived contexts

What is known of a context because it was derived: where its keys come from, how long its parts are,
and that the other endpoint derives the same keys the other way around.
-/

namespace SecureCoap

namespace Oscore

namespace Context

variable {crypto : Primitives} {p : Parameters} {ctx other : Context}

theorem material_eq_ok {id : Bytes} {kind : KeyMaterial} {length : Nat} {bs : Bytes} :
    material crypto p id kind length = .ok bs ↔
      crypto.derive p.masterSalt p.masterSecret (info id p.idContext p.aead kind.name length) length
        = some bs := by
  unfold material
  split
  · next bs' h => rw [h, Except.ok.injEq, Option.some.injEq]
  · next h => simp [h]

theorem length_of_material {id : Bytes} {kind : KeyMaterial} {length : Nat} {bs : Bytes}
    (h : material crypto p id kind length = .ok bs) : bs.length = length :=
  crypto.length_of_derive (material_eq_ok.mp h)

theorem material_isOk (hcrypto : crypto.DerivesUpTo Hkdf.maxLength) (id : Bytes)
    (kind : KeyMaterial) {length : Nat} (hlength : length ≤ Hkdf.maxLength) :
    ∃ bs, material crypto p id kind length = .ok bs := by
  obtain ⟨bs, hbs⟩ := hcrypto p.masterSalt p.masterSecret
    (info id p.idContext p.aead kind.name length) length hlength
  exact ⟨bs, material_eq_ok.mpr hbs⟩

theorem idRoom_nonceLength (aead : AeadAlgorithm) : idRoom aead.nonceLength = 7 := by
  cases aead
  rfl

theorem checkId_eq_ok {aead : AeadAlgorithm} {id : Bytes} :
    checkId aead id = .ok () ↔ id.length ≤ idRoom aead.nonceLength := by
  unfold checkId
  split
  · next h =>
    constructor
    · intro hok
      cases hok
    · intro hle
      omega
  · next h =>
    constructor
    · intro _
      omega
    · intro _
      rfl

def initial (p : Parameters) (senderKey recipientKey commonIv : Bytes) : Context where
  aead := p.aead
  hash := p.hash
  idContext := p.idContext
  commonIv := commonIv
  senderId := p.senderId
  senderKey := senderKey
  sequenceNumber := 0
  recipientId := p.recipientId
  recipientKey := recipientKey
  window := .new p.windowSize

/-- Derivation succeeds if both identifiers fit into a nonce and all three derivations of key
material do, and gives a context with that material. -/
theorem derive_eq_ok :
    derive crypto p = .ok ctx ↔
      p.senderId.length ≤ idRoom p.aead.nonceLength ∧
      p.recipientId.length ≤ idRoom p.aead.nonceLength ∧
      material crypto p p.senderId .key p.aead.keyLength = .ok ctx.senderKey ∧
      material crypto p p.recipientId .key p.aead.keyLength = .ok ctx.recipientKey ∧
      material crypto p [] .iv p.aead.nonceLength = .ok ctx.commonIv ∧
      ctx = initial p ctx.senderKey ctx.recipientKey ctx.commonIv := by
  unfold derive
  simp only [bind_eq_ok, pure_eq_ok]
  constructor
  · intro h
    obtain ⟨⟨⟩, hsender, ⟨⟩, hrecipient, senderKey, hsenderKey, recipientKey, hrecipientKey,
      commonIv, hcommonIv, rfl⟩ := h
    exact ⟨checkId_eq_ok.mp hsender, checkId_eq_ok.mp hrecipient, hsenderKey, hrecipientKey,
      hcommonIv, rfl⟩
  · intro h
    obtain ⟨hsender, hrecipient, hsenderKey, hrecipientKey, hcommonIv, hctx⟩ := h
    exact ⟨(), checkId_eq_ok.mpr hsender, (), checkId_eq_ok.mpr hrecipient, ctx.senderKey,
      hsenderKey, ctx.recipientKey, hrecipientKey, ctx.commonIv, hcommonIv, hctx.symm⟩

/-- Nothing but an identifier that is too long keeps a context from being derived. -/
theorem derive_isOk_iff (hcrypto : crypto.DerivesUpTo Hkdf.maxLength) :
    (∃ ctx, derive crypto p = .ok ctx) ↔ p.senderId.length ≤ 7 ∧ p.recipientId.length ≤ 7 := by
  have hkey : p.aead.keyLength ≤ Hkdf.maxLength := by
    cases p.aead
    decide
  have hnonce : p.aead.nonceLength ≤ Hkdf.maxLength := by
    cases p.aead
    decide
  rw [← idRoom_nonceLength p.aead]
  constructor
  · intro h
    obtain ⟨ctx, hctx⟩ := h
    obtain ⟨hsender, hrecipient, -⟩ := derive_eq_ok.mp hctx
    exact ⟨hsender, hrecipient⟩
  · intro h
    obtain ⟨hsender, hrecipient⟩ := h
    obtain ⟨senderKey, hsenderKey⟩ := material_isOk hcrypto p.senderId .key hkey
    obtain ⟨recipientKey, hrecipientKey⟩ := material_isOk hcrypto p.recipientId .key hkey
    obtain ⟨commonIv, hcommonIv⟩ := material_isOk hcrypto [] .iv hnonce
    exact ⟨initial p senderKey recipientKey commonIv, derive_eq_ok.mpr
      ⟨hsender, hrecipient, hsenderKey, hrecipientKey, hcommonIv, rfl⟩⟩

/-! ### What nothing was sent or received with -/

theorem ids_of_derive (h : derive crypto p = .ok ctx) :
    ctx.senderId = p.senderId ∧ ctx.recipientId = p.recipientId := by
  obtain ⟨-, -, -, -, -, hctx⟩ := derive_eq_ok.mp h
  rw [hctx]
  exact ⟨rfl, rfl⟩

theorem sequenceNumber_of_derive (h : derive crypto p = .ok ctx) : ctx.sequenceNumber = 0 := by
  obtain ⟨-, -, -, -, -, hctx⟩ := derive_eq_ok.mp h
  rw [hctx]
  rfl

theorem window_of_derive (h : derive crypto p = .ok ctx) :
    ctx.window = ReplayWindow.new p.windowSize := by
  obtain ⟨-, -, -, -, -, hctx⟩ := derive_eq_ok.mp h
  rw [hctx]
  rfl

theorem tracks_of_derive (h : derive crypto p = .ok ctx) : ctx.window.Tracks [] := by
  rw [window_of_derive h]
  exact ReplayWindow.tracks_new p.windowSize

/-! ### Lengths -/

/-- The lengths that the algorithm of a context asks for. -/
structure Fits (ctx : Context) : Prop where
  senderKey : ctx.senderKey.length = 16
  recipientKey : ctx.recipientKey.length = 16
  commonIv : ctx.commonIv.length = 13
  senderId : ctx.senderId.length ≤ 7
  recipientId : ctx.recipientId.length ≤ 7

theorem fits_of_derive (h : derive crypto p = .ok ctx) : ctx.Fits := by
  obtain ⟨hsender, hrecipient, hsenderKey, hrecipientKey, hcommonIv, hctx⟩ := derive_eq_ok.mp h
  have hkey : p.aead.keyLength = 16 := by cases p.aead; rfl
  have hnonce : p.aead.nonceLength = 13 := by cases p.aead; rfl
  have hroom : idRoom p.aead.nonceLength = 7 := idRoom_nonceLength p.aead
  refine ⟨?_, ?_, ?_, ?_, ?_⟩
  · rw [length_of_material hsenderKey, hkey]
  · rw [length_of_material hrecipientKey, hkey]
  · rw [length_of_material hcommonIv, hnonce]
  · rw [hctx, ← hroom]
    exact hsender
  · rw [hctx, ← hroom]
    exact hrecipient

/-! ### The other endpoint -/

/-- Two contexts of the same algorithm and initialisation vector, with keys and identifiers the
other way around. Their windows may differ. -/
structure Matches (ctx other : Context) : Prop where
  aead : other.aead = ctx.aead
  commonIv : other.commonIv = ctx.commonIv
  senderId : other.senderId = ctx.recipientId
  recipientId : other.recipientId = ctx.senderId
  senderKey : other.senderKey = ctx.recipientKey
  recipientKey : other.recipientKey = ctx.senderKey

theorem matches_of_derive {size : Nat} (h : derive crypto p = .ok ctx)
    (hswap : derive crypto { p.swap with windowSize := size } = .ok other) :
    ctx.Matches other := by
  obtain ⟨-, -, hsenderKey, hrecipientKey, hcommonIv, hctx⟩ := derive_eq_ok.mp h
  obtain ⟨-, -, hsenderKey', hrecipientKey', hcommonIv', hother⟩ := derive_eq_ok.mp hswap
  refine ⟨?_, ?_, ?_, ?_, ?_, ?_⟩
  · rw [hctx, hother]
  · exact Except.ok.inj (hcommonIv'.symm.trans hcommonIv)
  · rw [hctx, hother]
    rfl
  · rw [hctx, hother]
    rfl
  · exact Except.ok.inj (hsenderKey'.symm.trans hrecipientKey)
  · exact Except.ok.inj (hrecipientKey'.symm.trans hsenderKey)

end Context

/-! ### A test vector -/

namespace TestVector

def client : Parameters :=
  .standard [0x01, 0x02, 0x03, 0x04, 0x05, 0x06, 0x07, 0x08,
      0x09, 0x0A, 0x0B, 0x0C, 0x0D, 0x0E, 0x0F, 0x10]
    [0x9E, 0x7C, 0xA9, 0x22, 0x23, 0x78, 0x63, 0x40] [] [0x01]

/-- What is derived for the client, for the server and for both. -/
def material : List (Bytes × Bytes) := [
  (info [] none .aesCcm16_64_128 "Key" 16,
    [0xF0, 0x91, 0x0E, 0xD7, 0x29, 0x5E, 0x6A, 0xD4,
      0xB5, 0x4F, 0xC7, 0x93, 0x15, 0x43, 0x02, 0xFF]),
  (info [0x01] none .aesCcm16_64_128 "Key" 16,
    [0xFF, 0xB1, 0x4E, 0x09, 0x3C, 0x94, 0xC9, 0xCA,
      0xC9, 0x47, 0x16, 0x48, 0xB4, 0xF9, 0x87, 0x10]),
  (info [] none .aesCcm16_64_128 "IV" 13,
    [0x46, 0x22, 0xD4, 0xDD, 0x6D, 0x94, 0x41, 0x68, 0xEE, 0xFB, 0x54, 0x98, 0x7C])]

/-- Derivation that looks up its result, and the standard encryption. -/
def crypto : Primitives where
  encrypt := Ccm.encrypt
  decrypt := Ccm.decrypt
  derive salt secret information length :=
    if salt = client.masterSalt ∧ secret = client.masterSecret then
      (material.lookup information).filter fun bs => bs.length = length
    else none
  length_of_derive := by
    intro salt secret information length bs h
    split at h
    · obtain ⟨-, hlength⟩ := Option.filter_eq_some_iff.mp h
      exact of_decide_eq_true hlength
    · cases h

theorem roundTrips : crypto.RoundTrips := Primitives.standard_roundTrips

theorem encryptsUpTo : crypto.EncryptsUpTo Ccm.maxLength := Primitives.standard_encryptsUpTo

theorem derive_client :
    ∃ a b, Context.derive crypto client = .ok a ∧ Context.derive crypto client.swap = .ok b ∧
      a.senderKey ≠ a.recipientKey :=
  ⟨_, _, rfl, rfl, by decide⟩

theorem derive_server (size : Nat) :
    ∃ b, Context.derive crypto { client.swap with windowSize := size } = .ok b :=
  ⟨_, rfl⟩

end TestVector

end Oscore

end SecureCoap
