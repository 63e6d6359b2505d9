import SecureCoap.Oscore.Message
import SecureCoap.Proofs.Coap.Packet
import SecureCoap.Proofs.Oscore.OptionValue

/-!
# What goes inside and what stays outside

The inner message holds the values of the private options, and merging it into the outer message
puts the original message together again.
-/

namespace SecureCoap

namespace Oscore

variable {m : Coap.Packet}

/-! ### Unsupported options -/

theorem checkOptions_eq_ok {opts : Coap.Options} :
    checkOptions opts = .ok () ↔ ∀ e ∈ opts.entries, Unsupported.ofNumber? e.1 = none := by
  unfold checkOptions
  split
  · next option h =>
    constructor
    · intro hok
      cases hok
    · intro hnone
      rw [List.findSome?_eq_none_iff.mpr hnone] at h
      cases h
  · next h => exact iff_of_true rfl (List.findSome?_eq_none_iff.mp h)

theorem checkOptions_outer (h : checkOptions m.options = .ok ()) (option ciphertext : Bytes) :
    checkOptions (outer m option ciphertext).options = .ok () := by
  rw [checkOptions_eq_ok] at h ⊢
  intro e he
  rcases Coap.Options.mem_alterEntries he with hself | he
  · rw [hself]
    rfl
  · obtain ⟨e', he', rfl⟩ := List.mem_map.mp he
    exact h e' he'

/-! ### Public and private options -/

theorem isPrivate_eq_false_iff {n : Nat} : isPrivate n = false ↔ n ∈ publicOptions := by
  simp [isPrivate]

theorem isPrivate_iff {n : Nat} : isPrivate n = true ↔ n ∉ publicOptions := by
  simp [isPrivate]

/-! ### The option of protected messages -/

/-- However often the message had the option before, it goes out with one value. -/
theorem values_outer_oscore (m : Coap.Packet) (option ciphertext : Bytes) :
    (outer m option ciphertext).options.values Coap.Options.oscore = [option] := by
  have hprivate : isPrivate Coap.Options.oscore = true := by decide
  show (((m.options.clearWhere isPrivate).add Coap.Options.oscore option).values? _).getD [] = _
  rw [Coap.Options.values?_add_self, Coap.Options.values_clearWhere, if_pos hprivate]
  rfl

theorem ofPacket_outer_eq (m : Coap.Packet) (option ciphertext : Bytes) :
    OptionValue.ofPacket (outer m option ciphertext) = .ok (OptionValue.decode option) := by
  unfold OptionValue.ofPacket
  rw [values_outer_oscore]

theorem ofPacket_outer {v : OptionValue}
    (h : ∀ piv, v.piv = some piv → 0 < piv.length ∧ piv.length ≤ 7) (ciphertext : Bytes) :
    OptionValue.ofPacket (outer m v.encode ciphertext) = .ok v := by
  rw [ofPacket_outer_eq, OptionValue.decode_encode h]

/-! ### Merged messages -/

theorem values_merge (packet inside : Coap.Packet) {n : Nat} (h : isPrivate n = true) :
    (merge packet inside).options.values n = inside.options.values n := by
  show ((packet.options.clearWhere isPrivate).overwrite inside.options).values n = _
  rw [Coap.Options.values_overwrite, Coap.Options.values_clearWhere, if_pos h]
  rfl

theorem values_outer {n : Nat} (h : isPrivate n = false) (option ciphertext : Bytes) :
    (outer m option ciphertext).options.values n = m.options.values n := by
  have hne : n ≠ Coap.Options.oscore := by
    intro heq
    rw [heq] at h
    exact absurd h (by decide)
  show (((m.options.clearWhere isPrivate).add Coap.Options.oscore option).values? n).getD [] = _
  rw [Coap.Options.values?_add_of_ne _ hne]
  show (m.options.clearWhere isPrivate).values n = _
  rw [Coap.Options.values_clearWhere, h]
  rfl

/-- What has to be inside for a message to be put together again. -/
structure Inside (m inside : Coap.Packet) : Prop where
  code : inside.code = m.code
  payload : inside.payload = m.payload
  privately : ∀ n, isPrivate n = true → inside.options.values n = m.options.values n
  publicly : ∀ n, isPrivate n = false → inside.options.values? n = none

theorem merge_outer {inside : Coap.Packet} (h : Inside m inside) (option ciphertext : Bytes) :
    (merge (outer m option ciphertext) inside).SameAs m where
  version := rfl
  type := rfl
  code := h.code
  messageId := rfl
  token := rfl
  values := by
    intro n
    by_cases hprivate : isPrivate n = true
    · rw [values_merge _ _ hprivate, h.privately n hprivate]
    · have hpublic : isPrivate n = false := by simpa using hprivate
      show (((outer m option ciphertext).options.clearWhere isPrivate).overwrite
        inside.options).values n = _
      rw [Coap.Options.values_overwrite, h.publicly n hpublic, Coap.Options.values_clearWhere,
        hpublic]
      exact values_outer hpublic option ciphertext
  payload := h.payload

/-! ### Plaintexts -/

/-- What a message may be to be protected and unprotected again: it is not empty, no option is
unsupported, all option numbers have two bytes, and the inner message is not too long. -/
structure Protectable (m : Coap.Packet) : Prop where
  code : m.code ≠ .empty
  supported : ∀ e ∈ m.options.entries, Unsupported.ofNumber? e.1 = none
  numbers : ∀ e ∈ m.options.entries, e.1 ≤ 0xFFFF
  length : (inner m).length ≤ Coap.maxPacketLength

theorem plaintext_eq_ok {p : Coap.Packet} {text : Bytes} :
    plaintext p = .ok text ↔
      p.length ≤ Coap.maxPacketLength ∧ text = p.code.toByte :: p.contents := by
  unfold plaintext
  split
  · next h => rw [Except.ok.injEq, eq_comm, and_iff_right h]
  · next h => simp [h]

/-- Every plaintext can be read, if the option numbers have two bytes. -/
theorem parsePlaintext_of_plaintext {text : Bytes}
    (hnumbers : ∀ e ∈ m.options.entries, e.1 ≤ 0xFFFF) (h : plaintext (inner m) = .ok text) :
    parsePlaintext text = .ok { Coap.Packet.ofCode m.code with
      options := Coap.Options.empty.addEntries (inner m).options.entries
      payload := (inner m).writtenPayload } := by
  obtain ⟨hlength, rfl⟩ := plaintext_eq_ok.mp h
  have hinner : ∀ e ∈ (inner m).options.entries, e.1 ≤ 0xFFFF :=
    fun e he => hnumbers e (List.mem_filter.mp he).1
  show (Coap.Packet.parse _).mapError Error.coap = _
  rw [mapError_eq_ok]
  exact Coap.parse_contents (p := inner m) hinner hlength

/-- The inner message is read back from the plaintext. -/
theorem parsePlaintext_plaintext (h : Protectable m) :
    ∃ text inside, plaintext (inner m) = .ok text ∧ text.length ≤ Coap.maxPacketLength ∧
      parsePlaintext text = .ok inside ∧ Inside m inside := by
  have htext : plaintext (inner m) = .ok (m.code.toByte :: (inner m).contents) :=
    plaintext_eq_ok.mpr ⟨h.length, rfl⟩
  have hlength : (m.code.toByte :: (inner m).contents).length ≤ Coap.maxPacketLength := by
    have hcontents := Coap.length_contents (inner m)
    have hinner := h.length
    rw [List.length_cons]
    omega
  refine ⟨_, _, htext, hlength, parsePlaintext_of_plaintext h.numbers htext, rfl, ?_, ?_, ?_⟩
  · exact Coap.Packet.writtenPayload_eq (p := inner m) h.code
  · intro n hprivate
    show (Coap.Options.empty.addEntries (inner m).options.entries).values n = _
    rw [Coap.Options.values_addEntries _ (inner m).options.ascending]
    show ((m.options.filter isPrivate).values? n).getD [] = _
    rw [Coap.Options.values?_filter, if_pos hprivate]
    rfl
  · intro n hpublic
    show (Coap.Options.empty.addEntries (inner m).options.entries).values? n = none
    rw [Coap.Options.values?_addEntries_of_not_mem]
    · rfl
    · intro e he heq
      have hkept : isPrivate e.1 = true := (List.mem_filter.mp he).2
      rw [heq, hpublic] at hkept
      cases hkept

end Oscore

end SecureCoap
