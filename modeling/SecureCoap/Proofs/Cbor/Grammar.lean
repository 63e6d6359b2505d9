import SecureCoap.Cbor.Reader
import SecureCoap.Proofs.Cbor.ByteString
import SecureCoap.Proofs.Cbor.Header

/-!
# Well-formed encodings

What the start of an item looks like, of whatever width its argument is written in, and what follows
it in a string, in one piece or in chunks. An item may have tags in front. Integers and texts are
written in such a form.
-/

namespace SecureCoap

namespace Cbor

open Bytes

/-! ### Headers -/

/-- What follows a first byte with these low five bits, as far as it belongs to the argument.
Without an argument the length is indefinite. -/
inductive IsArgument (info : Nat) : Option Nat → Bytes → Prop where
  | short (h : info < 24) : IsArgument info (some info) []
  | long (size : Fin 4) {n : Nat} (hinfo : info = 24 + size.val) (h : n < 256 ^ 2 ^ size.val) :
    IsArgument info (some n) (ofNat (2 ^ size.val) n)
  | indefinite (h : info = 31) : IsArgument info none []

/-- The start of an item of this major type with this argument, in the shortest form or not. -/
def IsHeader (major : Nat) (argument : Option Nat) : Bytes → Prop
  | [] => False
  | initial :: digits =>
    initial.toNat / 32 = major ∧ IsArgument (initial.toNat % 32) argument digits

theorem IsArgument.info_lt {info n : Nat} {digits : Bytes} (h : IsArgument info (some n) digits) :
    info < 28 := by
  cases h with
  | short => omega
  | long size => omega

theorem isArgument_short_iff {info : Nat} (hinfo : info < 24) {argument : Option Nat}
    {digits : Bytes} : IsArgument info argument digits ↔ argument = some info ∧ digits = [] := by
  constructor
  · intro h
    cases h with
    | short => exact ⟨rfl, rfl⟩
    | long size => omega
    | indefinite => omega
  · intro h
    obtain ⟨rfl, rfl⟩ := h
    exact .short hinfo

/-- Any digits will do if there are as many as the first byte tells. -/
theorem isArgument_long_iff (size : Fin 4) {argument : Option Nat} {digits : Bytes} :
    IsArgument (24 + size.val) argument digits ↔
      argument = some (toNat digits) ∧ digits.length = 2 ^ size.val := by
  constructor
  · intro h
    cases h with
    | short => omega
    | long size' hinfo hlt =>
      obtain rfl : size = size' := Fin.ext (by omega)
      rw [toNat_ofNat, Nat.mod_eq_of_lt hlt, length_ofNat]
      exact ⟨rfl, rfl⟩
    | indefinite => omega
  · intro h
    obtain ⟨rfl, hlength⟩ := h
    have hlt := toNat_lt digits
    have hdigits := ofNat_toNat digits
    rw [hlength] at hlt hdigits
    have hlong : IsArgument (24 + size.val) _ _ := .long size rfl hlt
    rwa [hdigits] at hlong

theorem isArgument_indefinite_iff {argument : Option Nat} {digits : Bytes} :
    IsArgument 31 argument digits ↔ argument = none ∧ digits = [] := by
  constructor
  · intro h
    cases h with
    | short => omega
    | long size => omega
    | indefinite => exact ⟨rfl, rfl⟩
  · intro h
    obtain ⟨rfl, rfl⟩ := h
    exact .indefinite rfl

theorem not_isArgument {info : Nat} (hlow : 28 ≤ info) (hne : info ≠ 31) {argument : Option Nat}
    {digits : Bytes} : ¬IsArgument info argument digits := by
  intro h
  cases h with
  | short => omega
  | long size => omega
  | indefinite h => exact hne h

/-! ### Strings -/

/-- Strings of definite length one after another, which together have this content, and a break. -/
inductive IsChunks (major : Nat) : (content : Bytes) → Bytes → Prop where
  | stop : IsChunks major [] [0xFF]
  | chunk {header content content' bs : Bytes} (h : IsHeader major (some content.length) header)
    (hs : IsChunks major content' bs) :
    IsChunks major (content ++ content') (header ++ content ++ bs)

/-- What follows the header of a string with this content: as many bytes as announced, or chunks. -/
inductive IsContent (major : Nat) : (length : Option Nat) → (content : Bytes) → Bytes → Prop where
  | definite (content : Bytes) : IsContent major (some content.length) content content
  | indefinite {content bs : Bytes} (h : IsChunks major content bs) :
    IsContent major none content bs

/-! ### Heads -/

/-- What follows the first byte of a truth value, a null or a floating point number. -/
inductive IsSimple : (info : Nat) → Head → Bytes → Prop where
  | false : IsSimple 20 (.bool false) []
  | true : IsSimple 21 (.bool true) []
  | null : IsSimple 22 .null []
  | undefined : IsSimple 23 .null []
  | half {bs : Bytes} (h : bs.length = 2) : IsSimple 25 (.float (Binary.half.widen (toNat bs))) bs
  | single {bs : Bytes} (h : bs.length = 4) :
    IsSimple 26 (.float (Binary.single.widen (toNat bs))) bs
  | double {bs : Bytes} (h : bs.length = 8) : IsSimple 27 (.float (UInt64.ofNat (toNat bs))) bs

/-- What follows a first byte of this major type and these low five bits, up to the elements of an
item. No head is that of a tag. -/
inductive IsBody (info : Nat) : (major : Nat) → Option Head → Bytes → Prop where
  | unsigned {n : Nat} {bs : Bytes} (h : IsArgument info (some n) bs) :
    IsBody info 0 (some (.unsigned n)) bs
  | negative {n : Nat} {bs : Bytes} (h : IsArgument info (some n) bs) :
    IsBody info 1 (some (.negative n)) bs
  | bytes {length : Option Nat} {content digits bs : Bytes}
    (hdigits : IsArgument info length digits) (h : IsContent 2 length content bs) :
    IsBody info 2 (some (.bytes content)) (digits ++ bs)
  | text {length : Option Nat} {s : String} {digits bs : Bytes}
    (hdigits : IsArgument info length digits) (h : IsContent 3 length (Utf8.encode s) bs) :
    IsBody info 3 (some (.text s)) (digits ++ bs)
  | array {count : Option Nat} {bs : Bytes} (h : IsArgument info count bs) :
    IsBody info 4 (some (.array count)) bs
  | map {count : Option Nat} {bs : Bytes} (h : IsArgument info count bs) :
    IsBody info 5 (some (.map count)) bs
  | tag {n : Nat} {bs : Bytes} (h : IsArgument info (some n) bs) : IsBody info 6 none bs
  | simple {head : Head} {bs : Bytes} (h : IsSimple info head bs) : IsBody info 7 (some head) bs

/-- What an item looks like up to its elements, which is all of a number or a string. -/
def IsHead (head : Option Head) : Bytes → Prop
  | [] => False
  | initial :: bs => IsBody (initial.toNat % 32) (initial.toNat / 32) head bs

/-- The major type of a head. -/
def majorOf : Option Head → Nat
  | some (.unsigned _) => 0
  | some (.negative _) => 1
  | some (.bytes _) => 2
  | some (.text _) => 3
  | some (.array _) => 4
  | some (.map _) => 5
  | none => 6
  | some (.bool _) | some .null | some (.float _) => 7

theorem IsBody.major_eq {info major : Nat} {head : Option Head} {bs : Bytes}
    (h : IsBody info major head bs) : major = majorOf head := by
  cases h with
  | simple h => cases h <;> rfl
  | _ => rfl

/-- The first byte of an item tells its major type. -/
theorem IsHead.first {head : Option Head} {bs : Bytes} (h : IsHead head bs) :
    ∃ initial rest, bs = initial :: rest ∧ initial.toNat / 32 = majorOf head := by
  cases bs with
  | nil => exact h.elim
  | cons initial rest => exact ⟨initial, rest, rfl, IsBody.major_eq h⟩

/-! ### Tags -/

/-- So many tags. -/
inductive IsTags : (count : Nat) → Bytes → Prop where
  | none : IsTags 0 []
  | tag {count : Nat} {first tags : Bytes} (h : IsHead none first) (hs : IsTags count tags) :
    IsTags (count + 1) (first ++ tags)

/-- What is left of the bytes after at most so many tags satisfies `P`. -/
def Tagged (levels : Nat) (P : Bytes → Prop) (bs : Bytes) : Prop :=
  ∃ count tags rest, count ≤ levels ∧ IsTags count tags ∧ P rest ∧ bs = tags ++ rest

/-! ### Integers and texts -/

/-- The head of an integer. -/
def Head.ofInt : Int → Head
  | .ofNat n => .unsigned n
  | .negSucc n => .negative n

def IsInteger (n : Int) : Bytes → Prop := IsHead (some (.ofInt n))

/-- A byte string with this content, in one piece or in chunks. -/
def IsByteStringOf (content : Bytes) : Bytes → Prop := IsHead (some (.bytes content))

/-- A text, or a byte string that is the UTF-8 form of one. -/
def IsText (s : String) (bs : Bytes) : Prop :=
  IsHead (some (.text s)) bs ∨ IsHead (some (.bytes (Utf8.encode s))) bs

/-- What has at most some tags in front of an integer starts as an integer or a tag does. -/
theorem first_of_taggedInteger {levels : Nat} {n : Int} {bs : Bytes}
    (h : Tagged levels (IsInteger n) bs) :
    ∃ initial rest, bs = initial :: rest ∧
      (initial.toNat / 32 < 2 ∨ initial.toNat / 32 = 6) := by
  obtain ⟨count, tags, item, -, htags, hitem, rfl⟩ := h
  cases htags with
  | none =>
    obtain ⟨initial, rest, rfl, hmajor⟩ := hitem.first
    refine ⟨initial, rest, rfl, ?_⟩
    rw [hmajor]
    cases n with
    | ofNat n => exact Or.inl (by decide : 0 < 2)
    | negSucc n => exact Or.inl (by decide : 1 < 2)
  | tag hfirst htags =>
    obtain ⟨initial, rest, rfl, hmajor⟩ := hfirst.first
    exact ⟨initial, _, rfl, Or.inr hmajor⟩

theorem Tagged.of_none {levels : Nat} {P : Bytes → Prop} {bs : Bytes} (h : P bs) :
    Tagged levels P bs :=
  ⟨0, [], bs, Nat.zero_le levels, .none, h, rfl⟩

/-! ### What is written -/

theorem isArgument_ofNat {n : Nat} (h : n < 2 ^ 64) :
    IsArgument (headerInfo n) (some n) (ofNat (headerWidth (headerInfo n)) n) := by
  rcases headerInfo_cases n with ⟨hlt, hinfo⟩ | ⟨hlt, hinfo⟩ | ⟨hlt, hinfo⟩ | ⟨hlt, hinfo⟩ | hinfo
  · rw [hinfo, headerWidth, if_pos hlt]
    exact .short hlt
  · rw [hinfo]
    exact .long 0 rfl hlt
  · rw [hinfo]
    exact .long 1 rfl hlt
  · rw [hinfo]
    exact .long 2 rfl hlt
  · rw [hinfo]
    exact .long 3 rfl h

theorem header_eq_cons (major : Nat) {n : Nat} (hmajor : major < 8) (h : n < 2 ^ 64) :
    ∃ initial digits, header major n = initial :: digits ∧ initial.toNat / 32 = major ∧
      IsArgument (initial.toNat % 32) (some n) digits := by
  have hinfo := headerInfo_lt n
  have hinitial : (UInt8.ofNat (32 * major + headerInfo n)).toNat = 32 * major + headerInfo n := by
    rw [UInt8.toNat_ofNat']
    omega
  have hmod : (32 * major + headerInfo n) % 32 = headerInfo n := by omega
  refine ⟨_, _, header_eq major n, by omega, ?_⟩
  rw [hinitial, hmod]
  exact isArgument_ofNat h

/-- A header with what belongs after its argument is the start of an item. -/
theorem isHead_header {major n : Nat} {head : Option Head} {bs : Bytes} (hmajor : major < 8)
    (hn : n < 2 ^ 64)
    (h : ∀ info digits, IsArgument info (some n) digits → IsBody info major head (digits ++ bs)) :
    IsHead head (header major n ++ bs) := by
  obtain ⟨initial, digits, heq, hinitial, hdigits⟩ := header_eq_cons major hmajor hn
  rw [heq, List.cons_append]
  show IsBody (initial.toNat % 32) (initial.toNat / 32) head (digits ++ bs)
  rw [hinitial]
  exact h _ _ hdigits

/-- Nothing belongs after the argument of a number, an array or a map. -/
theorem isHead_header_nil {major n : Nat} {head : Option Head} (hmajor : major < 8)
    (hn : n < 2 ^ 64)
    (h : ∀ info digits, IsArgument info (some n) digits → IsBody info major head digits) :
    IsHead head (header major n) := by
  rw [← List.append_nil (header major n)]
  refine isHead_header hmajor hn fun info digits hdigits => ?_
  rw [List.append_nil]
  exact h info digits hdigits

theorem isInteger_encodeInt {n : Int} (h : InRange n) : IsInteger n (encodeInt n) := by
  obtain ⟨hlow, hhigh⟩ := h
  cases n with
  | ofNat n =>
    have hn : (n : Int) < 0x10000000000000000 := hhigh
    show IsHead (some (.unsigned n)) (header 0 n)
    exact isHead_header_nil (by decide) (by omega) fun _ _ hdigits => .unsigned hdigits
  | negSucc n =>
    have hencode : encodeInt (.negSucc n) = header 1 n := by
      rw [encodeInt, if_neg (by omega)]
      congr 1
      omega
    rw [hencode]
    exact isHead_header_nil (by decide) (by omega) fun _ _ hdigits => .negative hdigits

theorem isHead_encodeBytes {content : Bytes} (h : content.length < 2 ^ 64) :
    IsHead (some (.bytes content)) (encodeBytes content) :=
  isHead_header (by decide) h fun _ _ hdigits => .bytes hdigits (.definite content)

theorem isHead_encodeText {s : String} (h : (Utf8.encode s).length < 2 ^ 64) :
    IsHead (some (.text s)) (encodeText s) :=
  isHead_header (by decide) h fun _ _ hdigits => .text hdigits (.definite _)

theorem isText_encodeText {s : String} (h : (Utf8.encode s).length < 2 ^ 64) :
    IsText s (encodeText s) := Or.inl (isHead_encodeText h)

end Cbor

end SecureCoap
