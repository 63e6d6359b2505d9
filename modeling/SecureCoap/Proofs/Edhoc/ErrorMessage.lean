import SecureCoap.Cbor.Value
import SecureCoap.Edhoc.ErrorMessage
import SecureCoap.Proofs.Cbor.Typed

/-!
# Error messages told from others

A message is taken for an error message if it is an integer of 32 bits and a text, and nothing comes
after that. Error messages that are built here are taken for what they are. A message that starts
with a byte string is none.
-/

namespace SecureCoap

namespace Edhoc

open Cbor Cbor.Reader

/-- The codes of error messages. -/
def IsCode (n : Int) : Prop := -0x80000000 ≤ n ∧ n ≤ 0x7FFFFFFF

instance (n : Int) : Decidable (IsCode n) := inferInstanceAs (Decidable (_ ∧ _))

/-- A text as the second part of an error message. -/
def IsInfo (t : String) : Bytes → Prop := Tagged (maxLevels - 1) (IsText t)

variable {message code info : Bytes} {n : Int} {t : String}

/-! ### What is an error message -/

theorem code_reads : Reads (int32 (maxLevels - 1)) fun n bs =>
    IsCode n ∧ Tagged (maxLevels - 1) (IsInteger n) bs :=
  integer_reads (by decide) .int32 (maxLevels - 1)

theorem info_reads : Reads (Reader.text (maxLevels - 1)) IsInfo := text_reads (maxLevels - 1)

theorem of_extractErrorMessage (h : extractErrorMessage message = .ok (n, t)) :
    ∃ code info, (IsCode n ∧ Tagged (maxLevels - 1) (IsInteger n) code) ∧ IsInfo t info ∧
      message = code ++ info :=
  of_decodeSequence_pair code_reads info_reads (mapError_eq_ok.mp h)

theorem extractErrorMessage_iff (hlength : message.length + 1 < 2 ^ 64) :
    extractErrorMessage message = .ok (n, t) ↔
      ∃ code info, (IsCode n ∧ Tagged (maxLevels - 1) (IsInteger n) code) ∧ IsInfo t info ∧
        message = code ++ info := by
  rw [extractErrorMessage, mapError_eq_ok]
  exact decodeSequence_pair_iff code_reads info_reads hlength

theorem failOnErrorMessage_eq_error_iff :
    failOnErrorMessage message = .error (.peerError n t) ↔
      extractErrorMessage message = .ok (n, t) := by
  unfold failOnErrorMessage
  cases extractErrorMessage message with
  | error e => simp
  | ok p => simp [Prod.ext_iff]

theorem failOnErrorMessage_cases (message : Bytes) :
    (∃ n t, failOnErrorMessage message = .error (.peerError n t)) ∨
      failOnErrorMessage message = .ok () := by
  unfold failOnErrorMessage
  cases extractErrorMessage message with
  | error e => exact Or.inr rfl
  | ok p => exact Or.inl ⟨p.1, p.2, rfl⟩

/-! ### A code in front -/

/-- After a code, what is read is the text after it. -/
theorem failOnErrorMessage_append (hn : IsCode n) (hcode : IsInteger n code)
    (hlength : (code ++ info).length < 2 ^ 63) {n' : Int} :
    failOnErrorMessage (code ++ info) = .error (.peerError n' t) ↔ n' = n ∧ IsInfo t info := by
  rw [failOnErrorMessage_eq_error_iff, extractErrorMessage_iff (by omega)]
  constructor
  · intro h
    obtain ⟨code', info', hcode', hinfo, heq⟩ := h
    obtain ⟨rfl, rfl⟩ := code_reads.unique (by omega) ⟨hn, .of_none hcode⟩ hcode' heq
    exact ⟨rfl, hinfo⟩
  · intro h
    obtain ⟨rfl, hinfo⟩ := h
    exact ⟨code, info, ⟨hn, .of_none hcode⟩, hinfo, rfl⟩

/-! ### Texts and byte strings -/

/-- The first byte of a code is not that of a byte string. -/
theorem failOnErrorMessage_of_byteString {content item : Bytes} (h : IsByteStringOf content item)
    (rest : Bytes) : failOnErrorMessage (item ++ rest) = .ok () := by
  obtain ⟨initial, digits, rfl, hmajor⟩ := h.first
  rcases failOnErrorMessage_cases (initial :: digits ++ rest) with ⟨n, t, herror⟩ | hok
  · obtain ⟨code, info, ⟨-, hcode⟩, -, heq⟩ :=
      of_extractErrorMessage (failOnErrorMessage_eq_error_iff.mp herror)
    obtain ⟨first, digits', rfl, hfirst⟩ := first_of_taggedInteger hcode
    obtain ⟨rfl, -⟩ := List.cons.inj heq
    have hbytes : majorOf (some (.bytes content)) = 2 := rfl
    omega
  · exact hok

theorem length_buildErrorMessage_le (t : String) :
    (buildErrorMessage t).length ≤ (Utf8.encode t).length + 10 := by
  have hheader := length_header_le 3 (Utf8.encode t).length
  have hcode : (encodeInt unspecifiedCode).length = 1 := rfl
  have hinfo : (encodeText t).length = (header 3 (Utf8.encode t).length).length +
      (Utf8.encode t).length := List.length_append
  rw [buildErrorMessage, List.length_append]
  omega

/-- For every text that a memory can hold, an error message is built as the sequence of a code and
the text, and taken apart into them again. What starts with a byte string is no error message. -/
theorem error_messages_told_apart :
    (∀ t : String, (Utf8.encode t).length < 2 ^ 63 →
      (Value.array [.int 1, .text t]).encodeSequence = .ok (buildErrorMessage t) ∧
      extractErrorMessage (buildErrorMessage t) = .ok (1, t) ∧
      failOnErrorMessage (buildErrorMessage t) = .error (.peerError 1 t)) ∧
    ∀ content item rest : Bytes, IsByteStringOf content item →
      failOnErrorMessage (item ++ rest) = .ok () := by
  constructor
  · intro t ht
    have hlength := length_buildErrorMessage_le t
    have hextract : extractErrorMessage (buildErrorMessage t) = .ok (1, t) := by
      apply (extractErrorMessage_iff (by omega)).mpr
      exact ⟨_, _, ⟨by decide, .of_none (isInteger_encodeInt (by decide))⟩,
        .of_none (isText_encodeText (by omega)), rfl⟩
    refine ⟨?_, hextract, failOnErrorMessage_eq_error_iff.mpr hextract⟩
    have hitems : Value.encode? (.array [.int 1, .text t]) =
        some (0x82 :: (encodeInt 1 ++ (encodeText t ++ []))) := by
      simp [Value.encode?, Value.encodeItems?, InRange, header]
    rw [Value.encodeSequence, Value.encode, hitems, List.append_nil]
    rfl
  · intro content item rest h
    exact failOnErrorMessage_of_byteString h rest

/-- A text, and a byte string in chunks with a text after it. -/
theorem error_messages_told_apart_examples :
    extractErrorMessage (buildErrorMessage "no") = .ok (1, "no") ∧
      failOnErrorMessage (buildErrorMessage "no") = .error (.peerError 1 "no") ∧
      IsByteStringOf [7, 8] [0x5F, 0x42, 7, 8, 0xFF] ∧
      failOnErrorMessage ([0x5F, 0x42, 7, 8, 0xFF] ++ buildErrorMessage "no") = .ok () := by
  have hitem : IsByteStringOf [7, 8] [0x5F, 0x42, 7, 8, 0xFF] := by
    have hchunks : IsChunks 2 ([7, 8] ++ []) ([0x42] ++ [7, 8] ++ [0xFF]) :=
      .chunk ⟨rfl, .short (by decide)⟩ .stop
    have hdigits : IsArgument 31 none [] := .indefinite rfl
    exact IsBody.bytes hdigits (.indefinite hchunks)
  obtain ⟨-, hextract, hfail⟩ := error_messages_told_apart.1 "no" (by decide)
  exact ⟨hextract, hfail, hitem, error_messages_told_apart.2 _ _ _ hitem⟩

end Edhoc

end SecureCoap
