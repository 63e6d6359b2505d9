import SecureCoap.Cbor.Header
import SecureCoap.Proofs.Bytes

/-!
# Items tell where they end

A header determines its argument, up to a multiple of `2 ^ 64`, and what follows it. So a string
can be told from what comes after it, as long as either of them is of a length that occurs. Null is
not the beginning of a byte string.
-/

namespace SecureCoap

namespace Cbor

open Bytes

/-! ### Headers -/

/-- The low five bits of the first byte of a header. -/
def headerInfo (argument : Nat) : Nat :=
  if argument < 24 then argument
  else if argument < 0x100 then 24
  else if argument < 0x10000 then 25
  else if argument < 0x100000000 then 26
  else 27

theorem headerInfo_cases (n : Nat) :
    n < 24 ∧ headerInfo n = n ∨ n < 0x100 ∧ headerInfo n = 24 ∨
      n < 0x10000 ∧ headerInfo n = 25 ∨ n < 0x100000000 ∧ headerInfo n = 26 ∨
      headerInfo n = 27 := by
  unfold headerInfo
  split
  · next h => exact Or.inl ⟨h, rfl⟩
  · split
    · next h => exact Or.inr (Or.inl ⟨h, rfl⟩)
    · split
      · next h => exact Or.inr (Or.inr (Or.inl ⟨h, rfl⟩))
      · split
        · next h => exact Or.inr (Or.inr (Or.inr (Or.inl ⟨h, rfl⟩)))
        · exact Or.inr (Or.inr (Or.inr (Or.inr rfl)))

theorem headerInfo_lt (n : Nat) : headerInfo n < 32 := by
  rcases headerInfo_cases n with ⟨hlt, h⟩ | ⟨-, h⟩ | ⟨-, h⟩ | ⟨-, h⟩ | h
  all_goals omega

/-- The number of bytes that follow the first one, of which the low five bits are given. -/
def headerWidth (info : Nat) : Nat := if info < 24 then 0 else 1 <<< (info - 24)

theorem header_eq (major argument : Nat) :
    header major argument =
      UInt8.ofNat (32 * major + headerInfo argument)
        :: ofNat (headerWidth (headerInfo argument)) argument := by
  unfold header headerInfo
  split
  · next h =>
    rw [headerWidth, if_pos h]
    rfl
  · split
    · rfl
    · split
      · rfl
      · split
        · rfl
        · rfl

theorem mod_eq_of_header {m n : Nat} (hinfo : headerInfo m = headerInfo n)
    (hdigits : m % 256 ^ headerWidth (headerInfo m) = n % 256 ^ headerWidth (headerInfo n)) :
    m % 2 ^ 64 = n % 2 ^ 64 := by
  have h24 : headerWidth 24 = 1 := rfl
  have h25 : headerWidth 25 = 2 := rfl
  have h26 : headerWidth 26 = 4 := rfl
  have h27 : headerWidth 27 = 8 := rfl
  rcases headerInfo_cases m with ⟨hm, h⟩ | ⟨hm, h⟩ | ⟨hm, h⟩ | ⟨hm, h⟩ | h
  · rcases headerInfo_cases n with ⟨hn, h'⟩ | ⟨hn, h'⟩ | ⟨hn, h'⟩ | ⟨hn, h'⟩ | h'
    all_goals omega
  all_goals
    rw [← hinfo, h] at hdigits
    simp only [h24, h25, h26, h27] at hdigits
    rcases headerInfo_cases n with ⟨hn, h'⟩ | ⟨hn, h'⟩ | ⟨hn, h'⟩ | ⟨hn, h'⟩ | h'
    all_goals omega

theorem length_header_le (major argument : Nat) : (header major argument).length ≤ 9 := by
  rw [header_eq, List.length_cons, length_ofNat]
  rcases headerInfo_cases argument with ⟨hlt, h⟩ | ⟨-, h⟩ | ⟨-, h⟩ | ⟨-, h⟩ | h
  · rw [h, headerWidth, if_pos hlt]
    decide
  all_goals
    rw [h]
    decide

/-- No header is the beginning of another one of the same type. -/
theorem header_append_inj {major m n : Nat} {xs ys : Bytes}
    (h : header major m ++ xs = header major n ++ ys) : m % 2 ^ 64 = n % 2 ^ 64 ∧ xs = ys := by
  rw [header_eq, header_eq] at h
  obtain ⟨hfirst, hrest⟩ := List.cons.inj h
  have hinfo : headerInfo m = headerInfo n := by
    have hm : headerInfo m < 32 := headerInfo_lt m
    have hn : headerInfo n < 32 := headerInfo_lt n
    have hbyte := congrArg UInt8.toNat hfirst
    rw [UInt8.toNat_ofNat', UInt8.toNat_ofNat'] at hbyte
    omega
  have hlen : (ofNat (headerWidth (headerInfo m)) m).length
      = (ofNat (headerWidth (headerInfo n)) n).length := by
    rw [length_ofNat, length_ofNat, hinfo]
  obtain ⟨hdigits, htail⟩ := List.append_inj hrest hlen
  refine ⟨mod_eq_of_header hinfo ?_, htail⟩
  rw [← toNat_ofNat, hdigits, toNat_ofNat]

/-! ### Strings -/

/-- Strings with their lengths in front are of the same length up to what a header does not tell. -/
theorem string_append_mod {major : Nat} {xs ys us vs : Bytes}
    (h : header major xs.length ++ xs ++ us = header major ys.length ++ ys ++ vs) :
    xs.length % 2 ^ 64 = ys.length % 2 ^ 64 ∧ xs ++ us = ys ++ vs := by
  rw [List.append_assoc, List.append_assoc] at h
  exact header_append_inj h

/-- A string whose length its header tells can be told from whatever follows it. -/
theorem string_append_inj {major : Nat} {xs ys us vs : Bytes} (hx : xs.length < 2 ^ 64)
    (hy : ys.length < 2 ^ 64)
    (h : header major xs.length ++ xs ++ us = header major ys.length ++ ys ++ vs) :
    xs = ys ∧ us = vs := by
  obtain ⟨hmod, hrest⟩ := string_append_mod h
  rw [Nat.mod_eq_of_lt hx, Nat.mod_eq_of_lt hy] at hmod
  exact List.append_inj hrest hmod

/-- A string of any length can be told from what follows it, if that is of a length that occurs. -/
theorem string_append_inj_of_tail {major : Nat} {xs ys us vs : Bytes} (hu : us.length < 2 ^ 63)
    (hv : vs.length < 2 ^ 63)
    (h : header major xs.length ++ xs ++ us = header major ys.length ++ ys ++ vs) :
    xs = ys ∧ us = vs := by
  obtain ⟨hmod, hrest⟩ := string_append_mod h
  have htotal := congrArg List.length hrest
  rw [List.length_append, List.length_append] at htotal
  exact List.append_inj hrest (by omega)

/-! ### Byte strings -/

/-- A byte string can be told from what follows it. -/
theorem encodeBytes_append_inj {xs ys us vs : Bytes} (hu : us.length < 2 ^ 63)
    (hv : vs.length < 2 ^ 63) (h : encodeBytes xs ++ us = encodeBytes ys ++ vs) :
    xs = ys ∧ us = vs :=
  string_append_inj_of_tail hu hv h

theorem encodeBytes_append_inj_of_length {xs ys us vs : Bytes} (hx : xs.length < 2 ^ 64)
    (hy : ys.length < 2 ^ 64) (h : encodeBytes xs ++ us = encodeBytes ys ++ vs) :
    xs = ys ∧ us = vs :=
  string_append_inj hx hy h

theorem encodeBytes_injective {xs ys : Bytes} (h : encodeBytes xs = encodeBytes ys) : xs = ys := by
  have happend : encodeBytes xs ++ [] = encodeBytes ys ++ [] := by rw [h]
  exact (encodeBytes_append_inj (by decide) (by decide) happend).1

theorem length_encodeBytes_le (bs : Bytes) : (encodeBytes bs).length ≤ 9 + bs.length := by
  have h := length_header_le 2 bs.length
  rw [encodeBytes, List.length_append]
  omega

/-- The first byte of a byte string is not null. -/
theorem encodeNull_append_ne (bs us vs : Bytes) : encodeNull ++ us ≠ encodeBytes bs ++ vs := by
  intro h
  rw [encodeBytes, header_eq] at h
  obtain ⟨hfirst, -⟩ := List.cons.inj h
  -- Byte strings start with a byte below 0x60.
  have hinfo := headerInfo_lt bs.length
  have hbyte := congrArg UInt8.toNat hfirst
  rw [UInt8.toNat_ofNat'] at hbyte
  have hnull : (0xF6 : UInt8).toNat = 0xF6 := rfl
  omega

/-- A byte string, or null instead of it, can be told from whatever follows. -/
theorem encodeOptional_append_inj {xs ys : Option Bytes} {us vs : Bytes}
    (hx : ∀ bs ∈ xs, bs.length < 2 ^ 64) (hy : ∀ bs ∈ ys, bs.length < 2 ^ 64)
    (h : xs.elim encodeNull encodeBytes ++ us = ys.elim encodeNull encodeBytes ++ vs) :
    xs = ys ∧ us = vs := by
  match xs, ys with
  | none, none => exact ⟨rfl, List.append_cancel_left h⟩
  | none, some bs => exact absurd h (encodeNull_append_ne bs us vs)
  | some bs, none => exact absurd h.symm (encodeNull_append_ne bs vs us)
  | some bs, some bs' =>
    obtain ⟨rfl, hrest⟩ := encodeBytes_append_inj_of_length (hx bs rfl) (hy bs' rfl) h
    exact ⟨rfl, hrest⟩

/-! ### Texts and numbers -/

theorem encodeText_append_inj {s t : String} {us vs : Bytes} (hu : us.length < 2 ^ 63)
    (hv : vs.length < 2 ^ 63) (h : encodeText s ++ us = encodeText t ++ vs) : s = t ∧ us = vs := by
  obtain ⟨hbytes, hrest⟩ := string_append_inj_of_tail hu hv h
  have htexts := congrArg Utf8.decode? hbytes
  rw [Utf8.decode?_encode, Utf8.decode?_encode] at htexts
  exact ⟨Option.some.inj htexts, hrest⟩

theorem encodeInt_natCast (n : Nat) : encodeInt n = header 0 n :=
  if_pos (Int.natCast_nonneg n)

theorem length_encodeInt_natCast_le (n : Nat) : (encodeInt n).length ≤ 9 := by
  rw [encodeInt_natCast]
  exact length_header_le 0 n

theorem encodeInt_natCast_inj {m n : Nat} (hm : m < 2 ^ 64) (hn : n < 2 ^ 64)
    (h : encodeInt m = encodeInt n) : m = n := by
  rw [encodeInt_natCast, encodeInt_natCast] at h
  have happend : header 0 m ++ [] = header 0 n ++ [] := by rw [h]
  have hmod := (header_append_inj happend).1
  rwa [Nat.mod_eq_of_lt hm, Nat.mod_eq_of_lt hn] at hmod

end Cbor

end SecureCoap
