import SecureCoap.Coap.Packet
import SecureCoap.Proofs.Bytes
import SecureCoap.Proofs.Coap.Options
import SecureCoap.Proofs.Computation

/-!
# Reading what was written

Options and payload of a message are read back from the bytes that they are written as: all values
of all options in order, and the payload, unless the message is empty. Entries without values leave
no trace.
-/

namespace SecureCoap

namespace Coap

open Bytes

/-! ### Distances and lengths -/

theorem nibble_le (n : Nat) : nibble n ≤ 14 := by
  unfold nibble
  split
  · omega
  · split
    · omega
    · omega

/-- The largest distance or length with two more bytes to write it in. -/
def maxExtended : Nat := 269 + 0xFFFF

theorem readExtended_extension {n : Nat} (h : n ≤ maxExtended) (rest : Bytes) (reserved : Error) :
    readExtended (nibble n) (extension n ++ rest) reserved = .ok (n, rest) := by
  have hmax : maxExtended = 65804 := rfl
  unfold nibble extension
  split
  · next hsmall =>
    -- No number below 13 is one of the three that have a meaning of their own.
    unfold readExtended
    split
    · omega
    · omega
    · omega
    · omega
    · omega
    · rfl
  · split
    · next hlow hhigh =>
      have hbyte : (UInt8.ofNat (n - 13)).toNat = n - 13 := by
        rw [UInt8.toNat_ofNat']
        omega
      show Except.ok ((UInt8.ofNat (n - 13)).toNat + 13, rest) = _
      rw [hbyte, Nat.sub_add_cancel (by omega)]
    · next hlow hhigh =>
      have htwo : toNat (Bytes.ofNat 2 (n - 269)) = n - 269 := by
        rw [toNat_ofNat]
        omega
      show Except.ok (toNat (Bytes.ofNat 2 (n - 269)) + 269, rest) = _
      rw [htwo, Nat.sub_add_cancel (by omega)]

/-! ### One option -/

def optionHead (delta length : Nat) : UInt8 := UInt8.ofNat (16 * nibble delta + nibble length)

theorem toNat_optionHead (delta length : Nat) :
    (optionHead delta length).toNat = 16 * nibble delta + nibble length := by
  have hdelta := nibble_le delta
  have hlength := nibble_le length
  rw [optionHead, UInt8.toNat_ofNat']
  omega

theorem optionHead_ne_marker (delta length : Nat) : optionHead delta length ≠ 0xFF := by
  intro h
  have hdelta := nibble_le delta
  have hlength := nibble_le length
  have hnat := congrArg UInt8.toNat h
  rw [toNat_optionHead] at hnat
  have hmarker : (0xFF : UInt8).toNat = 255 := rfl
  omega

theorem length_encodeOption_pos (delta : Nat) (value : Bytes) :
    0 < (encodeOption delta value).length := by
  rw [encodeOption]
  exact Nat.succ_pos _

theorem readContents_encodeOption {fuel last delta : Nat} {value rest : Bytes} {opts : Options}
    (hdelta : delta ≤ maxExtended) (hvalue : value.length ≤ maxExtended) :
    readContents (fuel + 1) last opts (encodeOption delta value ++ rest) =
      readContents fuel (last + delta) (opts.add (last + delta) value) rest := by
  have hbytes : encodeOption delta value ++ rest = optionHead delta value.length ::
      (extension delta ++ (extension value.length ++ (value ++ rest))) := by
    rw [encodeOption, optionHead]
    simp only [List.cons_append, List.append_assoc]
  have hhead := toNat_optionHead delta value.length
  have hnibble := nibble_le value.length
  have hhigh : (optionHead delta value.length).toNat / 16 = nibble delta := by omega
  have hlow : (optionHead delta value.length).toNat % 16 = nibble value.length := by omega
  rw [hbytes, readContents]
  · rw [hhigh, hlow, readExtended_extension hdelta]
    show (readExtended (nibble value.length) _ .invalidOptionLength >>= _) = _
    rw [readExtended_extension hvalue]
    show (if (value ++ rest).length < value.length then _ else _) = _
    rw [if_neg (by rw [List.length_append]; omega), List.take_left, List.drop_left]
  · intro hmarker
    exact optionHead_ne_marker delta value.length hmarker

/-! ### All options -/

/-- The values of one option are read one after another, those after the first at a distance of
zero. -/
theorem readContents_values (n : Nat) (opts : Options) (rest : Bytes) {fuel : Nat}
    {vs : List Bytes} (hvs : ∀ v ∈ vs, v.length ≤ maxExtended)
    (hfuel : (vs.flatMap (encodeOption 0) ++ rest).length ≤ fuel) :
    ∃ fuel', rest.length ≤ fuel' ∧
      readContents fuel n opts (vs.flatMap (encodeOption 0) ++ rest) =
        readContents fuel' n (opts.addValues n vs) rest := by
  induction vs generalizing fuel opts with
  | nil => exact ⟨fuel, hfuel, rfl⟩
  | cons v vs ih =>
    have hv : v.length ≤ maxExtended := hvs v (List.mem_cons_self ..)
    have hpos := length_encodeOption_pos 0 v
    rw [List.flatMap_cons, List.append_assoc] at hfuel ⊢
    rw [List.length_append] at hfuel
    obtain ⟨fuel, rfl⟩ : ∃ k, fuel = k + 1 := ⟨fuel - 1, by omega⟩
    have hrest : (vs.flatMap (encodeOption 0) ++ rest).length ≤ fuel := by omega
    obtain ⟨fuel', hle, hread⟩ := ih (opts.add n v)
      (fun v hv => hvs v (List.mem_cons_of_mem _ hv)) hrest
    refine ⟨fuel', hle, ?_⟩
    rw [readContents_encodeOption (Nat.zero_le _) hv, Nat.add_zero, hread]
    rfl

/-- What options may have to be written so that they can be read: numbers of two bytes, and values
that are not too long. -/
def Writable (es : List (Nat × List Bytes)) : Prop :=
  ∀ e ∈ es, e.1 ≤ 0xFFFF ∧ ∀ v ∈ e.2, v.length ≤ maxExtended

theorem readContents_encodeEntries (last : Nat) (opts : Options) (rest : Bytes)
    {es : List (Nat × List Bytes)} {fuel : Nat} (hes : es.Pairwise fun x y => x.1 < y.1)
    (hlast : ∀ e ∈ es, last ≤ e.1)
    (hwritable : Writable es) (hfuel : (encodeEntries last es ++ rest).length ≤ fuel) :
    ∃ fuel' last', rest.length ≤ fuel' ∧
      readContents fuel last opts (encodeEntries last es ++ rest) =
        readContents fuel' last' (opts.addEntries es) rest := by
  induction es generalizing fuel last opts with
  | nil => exact ⟨fuel, last, hfuel, rfl⟩
  | cons e es ih =>
    obtain ⟨n, vs⟩ := e
    obtain ⟨hn, htail⟩ := List.pairwise_cons.mp hes
    have hrest : Writable es := fun e he => hwritable e (List.mem_cons_of_mem _ he)
    obtain ⟨hnumber, hvs⟩ := hwritable (n, vs) (List.mem_cons_self ..)
    cases vs with
    | nil =>
      -- An entry without values is not written.
      exact ih last opts htail (fun e he => hlast e (List.mem_cons_of_mem _ he)) hrest hfuel
    | cons v vs =>
      have hle : last ≤ n := hlast (n, v :: vs) (List.mem_cons_self ..)
      have hpos := length_encodeOption_pos (n - last) v
      have hsplit : encodeEntries last ((n, v :: vs) :: es) ++ rest =
          encodeOption (n - last) v ++
            (vs.flatMap (encodeOption 0) ++ (encodeEntries n es ++ rest)) := by
        simp only [encodeEntries, encodeValues, List.append_assoc]
      rw [hsplit] at hfuel ⊢
      rw [List.length_append] at hfuel
      obtain ⟨fuel, rfl⟩ : ∃ k, fuel = k + 1 := ⟨fuel - 1, by omega⟩
      have hdelta : n - last ≤ maxExtended := by
        have hmax : maxExtended = 65804 := rfl
        omega
      have hafter :
          (vs.flatMap (encodeOption 0) ++ (encodeEntries n es ++ rest)).length ≤ fuel := by omega
      obtain ⟨fuel₁, hle₁, hvalues⟩ := readContents_values n (opts.add n v)
        (encodeEntries n es ++ rest) (fun w hw => hvs w (List.mem_cons_of_mem _ hw)) hafter
      obtain ⟨fuel₂, last', hle₂, hentries⟩ := ih n ((opts.add n v).addValues n vs) htail
        (fun e he => Nat.le_of_lt (hn e he)) hrest hle₁
      refine ⟨fuel₂, last', hle₂, ?_⟩
      rw [readContents_encodeOption hdelta (hvs v (List.mem_cons_self ..)),
        Nat.add_sub_cancel' hle, hvalues, hentries]
      rfl

/-! ### What is written of options -/

theorem encodeEntries_filter (last : Nat) (es : List (Nat × List Bytes)) :
    encodeEntries last (es.filter (·.2 ≠ [])) = encodeEntries last es := by
  induction es generalizing last with
  | nil => rfl
  | cons e es ih =>
    obtain ⟨n, vs⟩ := e
    cases vs with
    | nil => exact ih last
    | cons v vs =>
      show encodeValues _ _ ++ encodeEntries n _ = encodeValues _ _ ++ encodeEntries n es
      rw [ih n]

/-- What is written of options depends on their values only. -/
theorem Options.encode_congr {opts opts' : Options} (h : ∀ n, opts.values n = opts'.values n) :
    opts.encode = opts'.encode := by
  rw [Options.encode, Options.encode, ← encodeEntries_filter, Options.entries_filter_congr h,
    encodeEntries_filter]

/-! ### Messages -/

/-- The messages agree but for entries of options without values. -/
structure Packet.SameAs (p q : Packet) : Prop where
  version : p.version = q.version
  type : p.type = q.type
  code : p.code = q.code
  messageId : p.messageId = q.messageId
  token : p.token = q.token
  values : ∀ n, p.options.values n = q.options.values n
  payload : p.payload = q.payload

namespace Packet

variable {p q : Packet}

theorem SameAs.contents (h : p.SameAs q) : p.contents = q.contents := by
  unfold Packet.contents
  rw [Options.encode_congr h.values, h.code, h.payload]

theorem SameAs.length (h : p.SameAs q) : p.length = q.length := by
  unfold Packet.length
  rw [Options.encode_congr h.values, h.token, h.code, h.payload]

end Packet

theorem length_contents (p : Packet) : p.contents.length + 4 ≤ p.length := by
  unfold Packet.contents Packet.length
  split
  · rw [List.length_append, List.length_cons]
    omega
  · rw [List.length_append, List.length_nil]
    omega

theorem length_value_le (last : Nat) {es : List (Nat × List Bytes)} :
    ∀ e ∈ es, ∀ v ∈ e.2, v.length ≤ (encodeEntries last es).length := by
  have hoption : ∀ (delta : Nat) (v : Bytes), v.length ≤ (encodeOption delta v).length := by
    intro delta v
    rw [encodeOption, List.length_append, List.length_append]
    omega
  induction es generalizing last with
  | nil =>
    intro e he
    cases he
  | cons x es ih =>
    obtain ⟨n, vs⟩ := x
    cases vs with
    | nil =>
      intro e he v hv
      rcases List.mem_cons.mp he with rfl | he
      · cases hv
      · exact ih last e he v hv
    | cons w ws =>
      intro e he v hv
      rw [encodeEntries, encodeValues, List.length_append, List.length_append]
      rcases List.mem_cons.mp he with rfl | he
      · rcases List.mem_cons.mp hv with rfl | hv
        · have := hoption (n - last) v
          omega
        · have hmem : (encodeOption 0 v).length ≤ (ws.flatMap (encodeOption 0)).length :=
            (List.infix_of_mem_flatten (List.mem_map_of_mem hv)).length_le
          have := hoption 0 v
          omega
      · have := ih n e he v hv
        omega

/-- The payload as it is written. -/
def Packet.writtenPayload (p : Packet) : Bytes := if p.code = .empty then [] else p.payload

theorem Packet.writtenPayload_eq {p : Packet} (h : p.code ≠ .empty) :
    p.writtenPayload = p.payload := if_neg h

/-- Options and payload are read back, but for entries without values and the payload of an empty
message. -/
theorem readContents_contents {p : Packet}
    (hnumbers : ∀ e ∈ p.options.entries, e.1 ≤ 0xFFFF) (hlength : p.length ≤ maxPacketLength) :
    readContents p.contents.length 0 .empty p.contents =
      .ok (Options.empty.addEntries p.options.entries, p.writtenPayload) := by
  have hmaxPacket : maxPacketLength = 1280 := rfl
  have hmaxExtended : maxExtended = 65804 := rfl
  have hwritable : Writable p.options.entries := by
    intro e he
    refine ⟨hnumbers e he, ?_⟩
    intro v hv
    have hvalue : v.length ≤ p.options.encode.length := length_value_le 0 e he v hv
    have hencode : p.options.encode.length ≤ p.length := by
      unfold Packet.length
      omega
    omega
  obtain ⟨fuel, last, hfuel, hread⟩ := readContents_encodeEntries 0 .empty
    (if p.payload ≠ [] ∧ p.code ≠ .empty then 0xFF :: p.payload else [])
    p.options.ascending (fun e _ => Nat.zero_le e.1) hwritable (Nat.le_refl _)
  show readContents _ 0 .empty (encodeEntries 0 p.options.entries ++ _) = _
  rw [show p.contents = encodeEntries 0 p.options.entries ++ _ from rfl, hread]
  by_cases hwritten : p.payload ≠ [] ∧ p.code ≠ .empty
  · rw [if_pos hwritten] at hfuel ⊢
    rw [Packet.writtenPayload_eq hwritten.2]
    cases fuel with
    | zero => cases hfuel
    | succ fuel => rfl
  · have hnone : p.writtenPayload = [] := by
      unfold Packet.writtenPayload
      split
      · rfl
      · next hcode =>
        by_contra hpayload
        exact hwritten ⟨hpayload, hcode⟩
    rw [if_neg hwritten, hnone]
    cases fuel with
    | zero => rfl
    | succ fuel => rfl

/-- A message without a token, read back from its code, options and payload. -/
theorem parse_contents {p : Packet}
    (hnumbers : ∀ e ∈ p.options.entries, e.1 ≤ 0xFFFF) (hlength : p.length ≤ maxPacketLength) :
    Packet.parse (0x40 :: p.code.toByte :: 0 :: 0 :: p.contents) =
      .ok { Packet.ofCode p.code with
        options := Options.empty.addEntries p.options.entries
        payload := p.writtenPayload } := by
  show (readContents p.contents.length 0 .empty p.contents >>= fun contents =>
    pure { Packet.ofCode (.ofByte p.code.toByte) with
      options := contents.1, payload := contents.2 }) = _
  rw [readContents_contents hnumbers hlength, Code.ofByte_toByte]
  rfl

end Coap

end SecureCoap
