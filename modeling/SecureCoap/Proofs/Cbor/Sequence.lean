import SecureCoap.Proofs.Cbor.Item

/-!
# Sequences of values

The encodings of values one after another are decoded as these values, if their number is given.
Each value tells where its encoding ends, so that no other number of values fits.
-/

namespace SecureCoap

namespace Cbor

open Bytes Reader

/-! ### Values that can be written -/

/-- A value without floating point numbers, which has at most so many levels of arrays and maps. Its
integers have an encoding and its maps are in order. -/
inductive IsPlain : (levels : Nat) → Value → Prop where
  | null {levels : Nat} : IsPlain levels .null
  | bool {levels : Nat} (b : Bool) : IsPlain levels (.bool b)
  | int {levels : Nat} {n : Int} (h : InRange n) : IsPlain levels (.int n)
  | bytes {levels : Nat} (bs : Bytes) : IsPlain levels (.bytes bs)
  | text {levels : Nat} (s : String) : IsPlain levels (.text s)
  | array {levels : Nat} {items : List Value} (h : ∀ v ∈ items, IsPlain levels v) :
    IsPlain (levels + 1) (.array items)
  | map {levels : Nat} {entries : List (Value × Value)} (horder : Ascending entries)
    (hkeys : ∀ e ∈ entries, IsPlain levels e.1) (hvalues : ∀ e ∈ entries, IsPlain levels e.2) :
    IsPlain (levels + 1) (.map entries)

theorem IsPlain.inOrder {levels : Nat} {v : Value} (h : IsPlain levels v) : v.inOrder = v := by
  induction h with
  | array h ih =>
    rw [Value.inOrder, Value.itemsInOrder_eq, List.map_congr_left ih, List.map_id']
  | @map _ entries horder hkeys hvalues ihkeys ihvalues =>
    have hsame : entries.map (fun e => (e.1.inOrder, e.2.inOrder)) = entries := by
      refine (List.map_congr_left fun e he => ?_).trans (List.map_id' entries)
      rw [ihkeys e he, ihvalues e he]
    rw [Value.inOrder, Value.entriesInOrder_eq, hsame, Value.ofEntries_of_ascending horder]
  | _ => rfl

theorem isHead_array {n : Nat} (h : n < 2 ^ 64) : IsHead (some (.array (some n))) (header 4 n) :=
  isHead_header_nil (by decide) h fun _ _ hdigits => .array hdigits

theorem isHead_map {n : Nat} (h : n < 2 ^ 64) : IsHead (some (.map (some n))) (header 5 n) :=
  isHead_header_nil (by decide) h fun _ _ hdigits => .map hdigits

/-- A value has this encoding, which is that of an item unless it is too long. -/
structure EncodesTo (levels : Nat) (v : Value) (bs : Bytes) : Prop where
  encode : v.encode? = some bs
  isItem : bs.length < 2 ^ 64 → IsItem levels v bs

theorem encodeItems?_eq {levels : Nat} {items : List Value}
    (h : ∀ v ∈ items, ∃ bs, EncodesTo levels v bs) :
    ∃ parts : List (Value × Bytes), parts.map (·.1) = items ∧
      Value.encodeItems? items = some (parts.flatMap (·.2)) ∧
      ∀ p ∈ parts, EncodesTo levels p.1 p.2 := by
  induction items with
  | nil => exact ⟨[], rfl, rfl, nofun⟩
  | cons v vs ih =>
    obtain ⟨⟨bs, hv⟩, hvs⟩ := List.forall_mem_cons.mp h
    obtain ⟨parts, rfl, hencode, hparts⟩ := ih hvs
    refine ⟨(v, bs) :: parts, rfl, ?_, List.forall_mem_cons.mpr ⟨hv, hparts⟩⟩
    rw [Value.encodeItems?, hv.encode, hencode]
    rfl

theorem encodeEntries?_eq {levels : Nat} {entries : List (Value × Value)}
    (hkeys : ∀ e ∈ entries, ∃ bs, EncodesTo levels e.1 bs)
    (hvalues : ∀ e ∈ entries, ∃ bs, EncodesTo levels e.2 bs) :
    ∃ parts : List ((Value × Bytes) × Value × Bytes),
      parts.map (fun p => (p.1.1, p.2.1)) = entries ∧
      Value.encodeEntries? entries = some (parts.flatMap fun p => p.1.2 ++ p.2.2) ∧
      ∀ p ∈ parts, EncodesTo levels p.1.1 p.1.2 ∧ EncodesTo levels p.2.1 p.2.2 := by
  induction entries with
  | nil => exact ⟨[], rfl, rfl, nofun⟩
  | cons e es ih =>
    obtain ⟨⟨bs, hk⟩, hks⟩ := List.forall_mem_cons.mp hkeys
    obtain ⟨⟨bs', hv⟩, hvs⟩ := List.forall_mem_cons.mp hvalues
    obtain ⟨parts, rfl, hencode, hparts⟩ := ih hks hvs
    refine ⟨((e.1, bs), e.2, bs') :: parts, rfl, ?_, List.forall_mem_cons.mpr ⟨⟨hk, hv⟩, hparts⟩⟩
    rw [Value.encodeEntries?, hk.encode, hv.encode, hencode]
    rfl

theorem length_le_flatMap {ι : Type} {word : ι → Bytes} {parts : List ι} {p : ι} (h : p ∈ parts) :
    (word p).length ≤ (parts.flatMap word).length := by
  obtain ⟨before, after, rfl⟩ := List.append_of_mem h
  rw [List.flatMap_append, List.flatMap_cons, List.length_append, List.length_append]
  omega

theorem encode?_array {parts : List (Value × Bytes)}
    (h : Value.encodeItems? (parts.map (·.1)) = some (parts.flatMap (·.2))) :
    (Value.array (parts.map (·.1))).encode? =
      some (header 4 parts.length ++ parts.flatMap (·.2)) := by
  rw [Value.encode?, h, List.length_map]
  rfl

theorem isItem_of_mem {levels : Nat} {parts : List (Value × Bytes)}
    (h : ∀ p ∈ parts, EncodesTo levels p.1 p.2) (hlength : (parts.flatMap (·.2)).length < 2 ^ 64) :
    ∀ p ∈ parts, IsItem levels p.1 p.2 := by
  intro p hp
  have hle : p.2.length ≤ (parts.flatMap (·.2)).length := length_le_flatMap hp
  exact (h p hp).isItem (Nat.lt_of_le_of_lt hle hlength)

theorem IsPlain.encodesTo {levels : Nat} {v : Value} (h : IsPlain levels v) :
    ∃ bs, EncodesTo levels v bs := by
  induction h with
  | null => exact ⟨_, rfl, fun _ => .null (IsBody.simple .null)⟩
  | bool b =>
    cases b with
    | false => exact ⟨_, rfl, fun _ => .bool (IsBody.simple .false)⟩
    | true => exact ⟨_, rfl, fun _ => .bool (IsBody.simple .true)⟩
  | int h => exact ⟨_, if_pos h, fun _ => .int (isInteger_encodeInt h)⟩
  | bytes bs =>
    refine ⟨_, rfl, fun hlength => .bytes (isHead_encodeBytes ?_)⟩
    rw [encodeBytes, List.length_append] at hlength
    omega
  | text s =>
    refine ⟨_, rfl, fun hlength => .text (isHead_encodeText ?_)⟩
    change (header 3 (Utf8.encode s).length ++ Utf8.encode s).length < 2 ^ 64 at hlength
    rw [List.length_append] at hlength
    omega
  | @array levels items h ih =>
    obtain ⟨parts, rfl, hencode, hparts⟩ := encodeItems?_eq ih
    refine ⟨_, encode?_array hencode, fun hlength => ?_⟩
    rw [List.length_append] at hlength
    have hitems : ∀ p ∈ parts, IsItem levels p.1 p.2 := isItem_of_mem hparts (by omega)
    have hcount : parts.length ≤ (parts.flatMap (·.2)).length :=
      length_le_of_startsItem fun p hp => (hitems p hp).startsItem
    rw [← List.append_nil (header 4 parts.length ++ _)]
    exact .array (isHead_array (by omega)) .counted hitems
  | @map levels entries horder hkeys hvalues ihkeys ihvalues =>
    obtain ⟨parts, rfl, hencode, hparts⟩ := encodeEntries?_eq ihkeys ihvalues
    refine ⟨header 5 parts.length ++ parts.flatMap fun p => p.1.2 ++ p.2.2, ?_, fun hlength => ?_⟩
    · rw [Value.encode?, hencode, List.length_map]
      rfl
    · rw [List.length_append] at hlength
      have hitems : ∀ p ∈ parts, IsItem levels p.1.1 p.1.2 ∧ IsItem levels p.2.1 p.2.2 := by
        intro p hp
        have hle := @length_le_flatMap _ (fun p => p.1.2 ++ p.2.2) parts p hp
        rw [List.length_append] at hle
        obtain ⟨hk, hv⟩ := hparts p hp
        exact ⟨hk.isItem (by omega), hv.isItem (by omega)⟩
      have hcount : parts.length ≤ (parts.flatMap fun p => p.1.2 ++ p.2.2).length :=
        length_le_of_startsItem fun p hp => (hitems p hp).1.startsItem.append
      rw [← List.append_nil (header 5 parts.length ++ _)]
      exact .map (isHead_map (by omega)) .counted (fun p hp => (hitems p hp).1)
        fun p hp => (hitems p hp).2

/-! ### Counted items -/

section

variable {levels : Nat} {parts : List (Value × Bytes)} {rest : Bytes}

theorem header_array {count : Nat} (h : count ≤ 23) :
    header 4 count = [UInt8.ofNat (0x80 + count)] := if_pos (by omega)

theorem decodeSequence_of_le {count : Nat} (h : count ≤ 23) (bs : Bytes) :
    decodeSequence (value true maxLevels) count bs =
      ((value true maxLevels).runAll (.sliding (header 4 count ++ bs))).mapError .decode := by
  rw [header_array h]
  exact if_pos h

theorem bounded_sliding {count : Nat} {bs : Bytes} (h : count ≤ 23)
    (hlength : bs.length + 1 < 2 ^ 64) : (Cursor.sliding (header 4 count ++ bs)).Bounded := by
  show 0 + (header 4 count ++ bs).length < 2 ^ 64
  rw [header_array h, List.length_append, List.length_singleton]
  omega

theorem array_takes (hitems : ∀ p ∈ parts, IsItem levels p.1 p.2) (hlevels : levels < maxLevels)
    (hcount : parts.length ≤ 23) :
    Takes (value true maxLevels) (Value.array (parts.map (·.1))).inOrder
      (header 4 parts.length ++ parts.flatMap (·.2)) := by
  rw [← List.append_nil (header 4 parts.length ++ _)]
  exact value_takes (.array (isHead_array (by omega)) .counted hitems) hlevels

theorem decodeSequence_items (hitems : ∀ p ∈ parts, IsItem levels p.1 p.2)
    (hlevels : levels < maxLevels) (hcount : parts.length ≤ 23)
    (hlength : (parts.flatMap (·.2)).length + 1 < 2 ^ 64) :
    decodeSequence (value true maxLevels) parts.length (parts.flatMap (·.2)) =
      .ok (Value.array (parts.map (·.1))).inOrder := by
  rw [decodeSequence_of_le hcount,
    (array_takes hitems hlevels hcount).runAll (bounded_sliding hcount hlength) rfl]
  rfl

theorem decodeSequence_trailing (hitems : ∀ p ∈ parts, IsItem levels p.1 p.2)
    (hlevels : levels < maxLevels) (hcount : parts.length ≤ 23) (hne : rest ≠ [])
    (hlength : (parts.flatMap (·.2) ++ rest).length + 1 < 2 ^ 64) :
    decodeSequence (value true maxLevels) parts.length (parts.flatMap (·.2) ++ rest) =
      .error (.decode (.malformed .trailingData ((parts.flatMap (·.2)).length + 2))) := by
  have hinput : (Cursor.sliding (header 4 parts.length ++ (parts.flatMap (·.2) ++ rest))).rest =
      header 4 parts.length ++ parts.flatMap (·.2) ++ rest := (List.append_assoc _ _ _).symm
  rw [decodeSequence_of_le hcount, (array_takes hitems hlevels hcount).runAll_trailing
    (bounded_sliding hcount hlength) hinput hne, header_array hcount]
  have hoffset : 0 + ([UInt8.ofNat (0x80 + parts.length)] ++ parts.flatMap (·.2)).length + 1 =
      (parts.flatMap (·.2)).length + 2 := by
    rw [List.length_append, List.length_singleton]
    omega
  rw [← hoffset]
  rfl

/-- What is left over are the items after those that the number asks for. -/
theorem decodeSequence_tooMany {count : Nat} (hitems : ∀ p ∈ parts, IsItem levels p.1 p.2)
    (hlevels : levels < maxLevels) (hlt : count < parts.length) (hcount : count ≤ 23)
    (hlength : (parts.flatMap (·.2)).length + 1 < 2 ^ 64) :
    decodeSequence (value true maxLevels) count (parts.flatMap (·.2)) =
      .error (.decode (.malformed .trailingData
        (((parts.take count).flatMap (·.2)).length + 2))) := by
  have hsplit : parts.flatMap (·.2) =
      (parts.take count).flatMap (·.2) ++ (parts.drop count).flatMap (·.2) := by
    rw [← List.flatMap_append, List.take_append_drop]
  have htake : (parts.take count).length = count := List.length_take_of_le (Nat.le_of_lt hlt)
  have hleft : (parts.drop count).flatMap (·.2) ≠ [] := by
    have hlater : (parts.drop count).length ≤ ((parts.drop count).flatMap (·.2)).length :=
      length_le_of_startsItem fun p hp => (hitems p (List.mem_of_mem_drop hp)).startsItem
    intro hnil
    rw [hnil, List.length_drop, List.length_nil] at hlater
    omega
  rw [hsplit] at hlength ⊢
  have hshort := decodeSequence_trailing
    (fun p hp => hitems p (List.mem_of_mem_take hp)) hlevels (by omega) hleft hlength
  rwa [htake] at hshort

theorem decodeSequence_tooFew {count : Nat} (hitems : ∀ p ∈ parts, IsItem levels p.1 p.2)
    (hlevels : levels < maxLevels) (hlt : parts.length < count) (hcount : count ≤ 23)
    (hlength : (parts.flatMap (·.2)).length + 1 < 2 ^ 64) :
    decodeSequence (value true maxLevels) count (parts.flatMap (·.2)) =
      .error (.decode (.malformed .endOfValue ((parts.flatMap (·.2)).length + 1))) := by
  let inner : Reader Value := value true (maxLevels - 1)
  have hinner : ∀ p ∈ parts, Takes inner p.1.inOrder p.2 :=
    fun p hp => value_takes (hitems p hp) (Nat.le_of_lt_succ hlevels)
  obtain ⟨c₁, hrun, hpasses⟩ := (head?_reads.takes (isHead_array (by omega)))
    (bounded_sliding hcount hlength) rfl
  have hrest : c₁.rest = parts.flatMap (·.2) := hpasses.rest_eq rfl
  have htimes := times_run_of_lt (fun c => value_run_nil true (maxLevels - 1)) hinner
    (hpasses.bounded (bounded_sliding hcount hlength)) hrest hlt
  have hvalue : (value true maxLevels).run (.sliding (header 4 count ++ parts.flatMap (·.2))) =
      .error (.malformed .endOfValue (c₁.offset + c₁.rest.length)) := by
    show (head? >>= _).run _ = _
    rw [StateT.run_bind, hrun]
    show (times inner count >>= fun items => pure (Value.array items)).run c₁ = _
    rw [StateT.run_bind, htimes]
    rfl
  have hoffset : c₁.offset + c₁.rest.length = (parts.flatMap (·.2)).length + 1 := by
    rw [hpasses.offset, hrest, header_array hcount]
    show 0 + 1 + _ = _
    omega
  rw [decodeSequence_of_le hcount, runAll_of_error hvalue, hoffset]
  rfl

end

theorem mapM_encode {levels : Nat} {parts : List (Value × Bytes)}
    (h : ∀ p ∈ parts, EncodesTo levels p.1 p.2) :
    (parts.map (·.1)).mapM Value.encode = .ok (parts.map (·.2)) := by
  induction parts with
  | nil => rfl
  | cons p ps ih =>
    obtain ⟨hfirst, hrest⟩ := List.forall_mem_cons.mp h
    have hencode : p.1.encode = .ok p.2 := by
      unfold Value.encode
      rw [hfirst.encode]
    rw [List.map_cons, List.mapM_cons, hencode, ih hrest]
    rfl

/-- Values one after another are written as their encodings one after another, and read back with
their number. With a smaller number something is left, with a greater one something is missing, and
a number above 23 is always refused. -/
theorem sequence_round_trip {levels : Nat} {vs : List Value} (hplain : ∀ v ∈ vs, IsPlain levels v)
    (hlevels : levels < maxLevels) (hcount : vs.length ≤ 23) :
    ∃ words, vs.mapM Value.encode = .ok words ∧
      (Value.array vs).encodeSequence = .ok words.flatten ∧
      (∀ count, 23 < count →
        decodeSequence (value true maxLevels) count words.flatten = .error .tooManyItems) ∧
      (words.flatten.length + 1 < 2 ^ 64 →
        decodeSequence (value true maxLevels) vs.length words.flatten = .ok (.array vs) ∧
        (∀ count < vs.length, decodeSequence (value true maxLevels) count words.flatten =
          .error (.decode (.malformed .trailingData ((words.take count).flatten.length + 2)))) ∧
        ∀ count, vs.length < count → count ≤ 23 →
          decodeSequence (value true maxLevels) count words.flatten =
            .error (.decode (.malformed .endOfValue (words.flatten.length + 1)))) := by
  obtain ⟨parts, rfl, hencode, hparts⟩ := encodeItems?_eq fun v hv => (hplain v hv).encodesTo
  have hflatten : (parts.map (·.2)).flatten = parts.flatMap (·.2) := List.flatMap_def.symm
  rw [List.length_map] at hcount
  refine ⟨parts.map (·.2), mapM_encode hparts, ?_, ?_, ?_⟩
  · unfold Value.encodeSequence Value.encode
    rw [encode?_array hencode, hflatten, header_array hcount]
    rfl
  · intro count hlarge
    exact if_neg (by omega)
  · intro hlength
    rw [hflatten] at hlength
    have hitems : ∀ p ∈ parts, IsItem levels p.1 p.2 := isItem_of_mem hparts (by omega)
    have hvalue : (Value.array (parts.map (·.1))).inOrder = .array (parts.map (·.1)) :=
      (IsPlain.array hplain).inOrder
    rw [hflatten, List.length_map]
    refine ⟨?_, ?_, ?_⟩
    · rw [decodeSequence_items hitems hlevels hcount hlength, hvalue]
    · intro count hlt
      rw [decodeSequence_tooMany hitems hlevels hlt (by omega) hlength, ← List.map_take,
        List.flatMap_def]
    · intro count hgt hcount
      exact decodeSequence_tooFew hitems hlevels hgt hcount hlength

/-- A value in so many arrays. -/
def nested : (depth : Nat) → Value → Value
  | 0, v => v
  | depth + 1, v => .array [nested depth v]

theorem isPlain_nested {v : Value} {levels : Nat} (h : IsPlain levels v) (depth : Nat) :
    IsPlain (levels + depth) (nested depth v) := by
  induction depth with
  | zero => exact h
  | succ depth ih => exact .array (List.forall_mem_singleton.mpr ih)

/-- Integers at both ends of the range, a map with a map in it, and a hundred arrays. -/
def assortment : List Value := [
  .null, .int (-0x10000000000000000), .int 0xFFFFFFFFFFFFFFFF, .bytes [0x00], .text "é",
  .map [(.int 8, .map [(.int (-1), .bool true)]), (.text "", .array [])],
  nested 100 (.bool false)]

theorem isPlain_assortment : ∀ v ∈ assortment, IsPlain 100 v := by
  have hconfirmation : IsPlain 99 (.map [(.int (-1), .bool true)]) :=
    .map (List.pairwise_singleton _ _) (List.forall_mem_singleton.mpr (.int (by decide)))
      (List.forall_mem_singleton.mpr (.bool true))
  have hempty : IsPlain 99 (.array []) := .array nofun
  have hclaims : IsPlain 100 (.map [(.int 8, .map [(.int (-1), .bool true)]),
      (.text "", .array [])]) := by
    refine .map (List.pairwise_pair.mpr rfl) ?_ ?_
    · exact List.forall_mem_cons.mpr ⟨.int (by decide), List.forall_mem_singleton.mpr (.text "")⟩
    · exact List.forall_mem_cons.mpr ⟨hconfirmation, List.forall_mem_singleton.mpr hempty⟩
  have hnested : IsPlain 100 (nested 100 (.bool false)) :=
    @isPlain_nested (.bool false) 0 (.bool false) 100
  unfold assortment
  simp only [List.forall_mem_cons]
  exact ⟨.null, .int (by decide), .int (by decide), .bytes _, .text _, hclaims, hnested, nofun⟩

/-- Of the seven values one is nested a hundred levels deep. -/
theorem sequence_round_trip_assortment :
    ∃ words, assortment.mapM Value.encode = .ok words ∧
      decodeSequence (value true maxLevels) 7 words.flatten = .ok (.array assortment) ∧
      decodeSequence (value true maxLevels) 6 words.flatten =
        .error (.decode (.malformed .trailingData 33)) ∧
      decodeSequence (value true maxLevels) 8 words.flatten =
        .error (.decode (.malformed .endOfValue 133)) := by
  obtain ⟨words, hwords, -, -, hdecode⟩ :=
    sequence_round_trip isPlain_assortment (by decide) (by decide)
  have hlengths : words.map List.length = [1, 9, 9, 2, 3, 7, 101] := by
    have hall : (assortment.mapM Value.encode).toOption.map (·.map List.length) =
        some [1, 9, 9, 2, 3, 7, 101] := by decide +kernel
    rw [hwords] at hall
    exact Option.some.inj hall
  have hlength : words.flatten.length = 132 := by
    rw [List.length_flatten, hlengths]
    rfl
  have hshort : (words.take 6).flatten.length = 31 := by
    rw [List.length_flatten, List.map_take, hlengths]
    rfl
  obtain ⟨hround, hless, hmore⟩ := hdecode (by rw [hlength]; decide)
  refine ⟨words, hwords, hround, ?_, ?_⟩
  · rw [hless 6 (by decide), hshort]
  · rw [hmore 8 (by decide) (by decide), hlength]

end Cbor

end SecureCoap
