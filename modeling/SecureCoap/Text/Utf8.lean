import SecureCoap.Bytes

/-!
# Texts as bytes

The UTF-8 form of a text, the text of a byte string that is valid UTF-8, how far a byte string
is valid, and a reading of any byte string that puts a replacement character where it is not.
-/

namespace SecureCoap

namespace Utf8

def encode (text : String) : Bytes := text.toList.flatMap String.utf8EncodeChar

def decode? (bs : Bytes) : Option String := String.fromUTF8? bs.toByteArray

theorem toByteArray_encode (text : String) : (encode text).toByteArray = text.toByteArray := by
  rw [← String.utf8Encode_toList]
  rfl

theorem decode?_encode (text : String) : decode? (encode text) = some text := by
  simp [decode?, toByteArray_encode, String.fromUTF8?, String.fromUTF8, text.isValidUTF8]

theorem decode?_eq_some_iff {bs : Bytes} {text : String} :
    decode? bs = some text ↔ bs = encode text := by
  constructor
  · intro h
    unfold decode? String.fromUTF8? at h
    split at h
    · cases h
      apply List.toByteArray_inj.mp
      rw [toByteArray_encode]
      rfl
    · cases h
  · intro h
    rw [h, decode?_encode]

/-! ### Invalid bytes -/

/-- Counts the bytes of whole characters from `i` on, for at most `n` characters. -/
def validFrom (bs : ByteArray) : (n i : Nat) → Nat
  | 0, i => i
  | n + 1, i =>
    match bs.utf8DecodeChar? i with
    | some c => validFrom bs n (i + c.utf8Size)
    | none => i

/-- The number of bytes in front that are the UTF-8 form of whole characters. -/
def validLength (bs : Bytes) : Nat := validFrom bs.toByteArray bs.length 0

/-- For a byte that opens a character of several bytes: how many follow it, and the range that the
first of them is in. -/
def continuation? (lead : UInt8) : Option (Nat × UInt8 × UInt8) :=
  if lead < 0xC2 then none
  else if lead < 0xE0 then some (1, 0x80, 0xBF)
  else if lead = 0xE0 then some (2, 0xA0, 0xBF)
  else if lead = 0xED then some (2, 0x80, 0x9F)
  else if lead < 0xF0 then some (2, 0x80, 0xBF)
  else if lead = 0xF0 then some (3, 0x90, 0xBF)
  else if lead < 0xF4 then some (3, 0x80, 0xBF)
  else if lead = 0xF4 then some (3, 0x80, 0x8F)
  else none

/-- The length of the longest start of an invalid sequence that could still have become a
character, and one if there is none. -/
def invalidLength : Bytes → Nat
  | [] => 0
  | lead :: rest =>
    match continuation? lead with
    | none => 1
    | some (count, low, high) =>
      match rest.take count with
      | [] => 1
      | next :: others =>
        if low ≤ next ∧ next ≤ high then
          2 + (others.takeWhile fun b => 0x80 ≤ b && b ≤ 0xBF).length
        else 1

/-- Decodes at most `n` pieces, each a run of characters or a sequence that is none. -/
def decodeLossyPieces : Nat → Bytes → String
  | 0, _ => ""
  | n + 1, bs =>
    let valid := validLength bs
    let text := (decode? (bs.take valid)).getD ""
    match bs.drop valid with
    | [] => text
    | invalid =>
      text ++ "\uFFFD" ++ decodeLossyPieces n (invalid.drop (invalidLength invalid))

/-- The text of a byte string, with a replacement character for each sequence that is not part of
a valid one. -/
def decodeLossy (bs : Bytes) : String := decodeLossyPieces (bs.length + 1) bs

end Utf8

end SecureCoap
