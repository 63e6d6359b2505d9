import Mathlib.Data.List.Nodup
import SecureCoap.Proofs.Cbor.Item
import SecureCoap.Registry.Credential

/-!
# The key identifier of a credential

An encoded document is a credential, in whatever form it is written. Its key identifier is what a
path of integer keys leads to in the document: neither the order of the entries nor other entries
matter, with keys of whatever kind.
-/

namespace SecureCoap

namespace Cbor

/-! ### Documents -/

/-- No map in a value has a key twice. -/
inductive Value.DistinctKeys : Value → Prop where
  | null : DistinctKeys .null
  | bool (b : Bool) : DistinctKeys (.bool b)
  | int (n : Int) : DistinctKeys (.int n)
  | float (bits : UInt64) : DistinctKeys (.float bits)
  | bytes (bs : Bytes) : DistinctKeys (.bytes bs)
  | text (s : String) : DistinctKeys (.text s)
  | array {items : List Value} (h : ∀ v ∈ items, DistinctKeys v) : DistinctKeys (.array items)
  | map {entries : List (Value × Value)} (hnodup : (entries.map (·.1)).Nodup)
    (hkeys : ∀ e ∈ entries, DistinctKeys e.1) (hvalues : ∀ e ∈ entries, DistinctKeys e.2) :
    DistinctKeys (.map entries)

/-- Through nested maps a path of integer keys leads to this byte string. -/
def Value.Leads : (path : List Int) → Value → Bytes → Prop
  | [], v, bs => v = .bytes bs
  | key :: path, v, bs => ∃ entries w, v = .map entries ∧ (.int key, w) ∈ entries ∧ w.Leads path bs

namespace Value

theorem inOrder_eq_int_iff {v : Value} {n : Int} : v.inOrder = .int n ↔ v = .int n := by
  cases v with
  | map entries => exact iff_of_false nofun nofun
  | array items => exact iff_of_false nofun nofun
  | _ => exact Iff.rfl

theorem inOrder_eq_bytes_iff {v : Value} {bs : Bytes} : v.inOrder = .bytes bs ↔ v = .bytes bs := by
  cases v with
  | map entries => exact iff_of_false nofun nofun
  | array items => exact iff_of_false nofun nofun
  | _ => exact Iff.rfl

theorem inOrder_map (entries : List (Value × Value)) :
    (Value.map entries).inOrder =
      .map (enterAll [] (entries.map fun e => (e.1.inOrder, e.2.inOrder))) := by
  rw [inOrder, entriesInOrder_eq, ofEntries_eq]

/-! ### Lookup in nested maps -/

/-- In a map that was put in order, an integer key has the value that it has in the document. -/
theorem lookupEntry?_inOrder {n : Int} {entries : List (Value × Value)} {w : Value}
    (hnodup : (entries.map (·.1)).Nodup) :
    lookupEntry? (.int n) (enterAll [] (entries.map fun e => (e.1.inOrder, e.2.inOrder))) = some w ↔
      ∃ v, (.int n, v) ∈ entries ∧ v.inOrder = w := by
  have hmem (w : Value) : (.int n, w) ∈ entries.map (fun e => (e.1.inOrder, e.2.inOrder)) ↔
      ∃ v, (.int n, v) ∈ entries ∧ v.inOrder = w := by
    rw [List.mem_map]
    constructor
    · intro h
      obtain ⟨⟨k, v⟩, hkv, heq⟩ := h
      obtain ⟨hk, hv⟩ := Prod.mk.inj heq
      obtain rfl := inOrder_eq_int_iff.mp hk
      exact ⟨v, hkv, hv⟩
    · intro h
      obtain ⟨v, hv, rfl⟩ := h
      exact ⟨_, hv, rfl⟩
  rw [lookupEntry?_ofEntries, hmem]
  intro v w hv hw
  obtain ⟨v', hv', rfl⟩ := (hmem v).mp hv
  obtain ⟨w', hw', rfl⟩ := (hmem w).mp hw
  have heq := List.inj_on_of_nodup_map hnodup hv' hw' rfl
  rw [(Prod.mk.inj heq).2]

theorem nestedBytes?_inOrder {path : List Int} {doc : Value} (h : doc.DistinctKeys) {bs : Bytes} :
    doc.inOrder.nestedBytes? path = some bs ↔ doc.Leads path bs := by
  induction path generalizing doc with
  | nil =>
    show _ ↔ doc = .bytes bs
    rw [← inOrder_eq_bytes_iff]
    cases doc.inOrder with
    | bytes content => simp [nestedBytes?]
    | _ => exact iff_of_false nofun nofun
  | cons key path ih =>
    cases h with
    | @map entries hnodup hkeys hvalues =>
      rw [inOrder_map]
      show lookupEntry? (.int key) _ >>= nestedBytes? path = some bs ↔ _
      rw [Option.bind_eq_bind, Option.bind_eq_some_iff]
      simp only [lookupEntry?_inOrder hnodup]
      constructor
      · intro h
        obtain ⟨_, ⟨v, hmem, rfl⟩, hbytes⟩ := h
        exact ⟨entries, v, rfl, hmem, (ih (hvalues _ hmem)).mp hbytes⟩
      · intro h
        obtain ⟨_, v, heq, hmem, hleads⟩ := h
        cases heq
        exact ⟨_, ⟨v, hmem, rfl⟩, (ih (hvalues _ hmem)).mpr hleads⟩
    | _ =>
      refine iff_of_false nofun ?_
      rintro ⟨_, _, ⟨⟩, _⟩

theorem exists_mem_of_lookup {k v : Value} {entries : List (Value × Value)}
    (h : lookupEntry? k entries = some v) : ∃ e ∈ entries, e.2 = v := by
  induction entries with
  | nil => cases h
  | cons e es ih =>
    unfold lookupEntry? at h
    split at h
    · exact ⟨e, List.mem_cons_self, Option.some.inj h⟩
    · obtain ⟨f, hf, hv⟩ := ih h
      exact ⟨f, List.mem_cons_of_mem e hf, hv⟩

/-- The order of keys finds what a look at all of them does. -/
theorem searchBytes?_inOrder (path : List Int) (doc : Value) :
    doc.inOrder.searchBytes? path = doc.inOrder.nestedBytes? path := by
  induction path generalizing doc with
  | nil => cases doc.inOrder <;> rfl
  | cons key path ih =>
    cases doc with
    | map entries =>
      rw [inOrder_map]
      show search? (.int key) _ >>= searchBytes? path =
        lookupEntry? (.int key) _ >>= nestedBytes? path
      rw [search?_eq (ascending_enterAll List.Pairwise.nil _)]
      cases hlookup : lookupEntry? (.int key) _ with
      | none => rfl
      | some w =>
        obtain ⟨e, he, rfl⟩ := exists_mem_of_lookup hlookup
        obtain ⟨f, hf, heq⟩ := value_of_mem_enterAll he
        obtain ⟨g, -, rfl⟩ := List.mem_map.mp hf
        show searchBytes? path e.2 = nestedBytes? path e.2
        rw [heq]
        exact ih g.2
    | _ => rfl

end Value

end Cbor

namespace Registry

open Cbor

/-! ### Credentials -/

theorem leads_kidPath_iff {doc : Value} {kid : Bytes} :
    doc.Leads kidPath kid ↔ ∃ claims confirmation key, doc = .map claims ∧
      (.int 8, .map confirmation) ∈ claims ∧ (.int 1, .map key) ∈ confirmation ∧
      (.int 2, .bytes kid) ∈ key := by
  constructor
  · intro h
    obtain ⟨claims, _, hdoc, hclaims, confirmation, _, rfl, hconfirmation, key, _, rfl, hkey,
      rfl⟩ := h
    exact ⟨claims, confirmation, key, hdoc, hclaims, hconfirmation, hkey⟩
  · intro h
    obtain ⟨claims, confirmation, key, hdoc, hclaims, hconfirmation, hkey⟩ := h
    exact ⟨claims, _, hdoc, hclaims, confirmation, _, rfl, hconfirmation, key, _, rfl, hkey, rfl⟩

/-- An encoded document of any form is a credential, and its key identifier is the byte string that
the document has under 8, 1 and 2 in nested maps, if it has one there. Nothing may come after it. -/
theorem Credential.kid_eq_some_iff {levels : Nat} {doc : Value} {bs : Bytes}
    (hitem : IsItem levels doc bs) (hkeys : doc.DistinctKeys) (hlevels : levels ≤ maxLevels)
    (hlength : bs.length < 2 ^ 64) :
    (∃ credential value, Credential.ofBytes bs = .ok credential ∧ credential.bytes = bs ∧
        (∀ kid, credential.kid = some kid ↔ ∃ claims confirmation key, doc = .map claims ∧
          (.int 8, .map confirmation) ∈ claims ∧ (.int 1, .map key) ∈ confirmation ∧
          (.int 2, .bytes kid) ∈ key) ∧
        decodeValue bs = .ok value ∧ value.searchBytes? kidPath = credential.kid) ∧
      ∀ rest, rest ≠ [] → (bs ++ rest).length < 2 ^ 64 →
        Credential.ofBytes (bs ++ rest) =
          .error (.invalidCredential (.decode (.malformed .trailingData (bs.length + 1)))) := by
  have htakes : Reader.Takes (Reader.value true maxLevels) doc.inOrder bs :=
    Reader.value_takes hitem hlevels
  have hbounded (input : Bytes) (h : input.length < 2 ^ 64) : (Cursor.fixed input).Bounded := by
    show 0 + input.length < 2 ^ 64
    omega
  constructor
  · have hdecode : decodeValue bs = .ok doc.inOrder := by
      unfold decodeValue
      rw [htakes.runAll (hbounded bs hlength) rfl]
      rfl
    have hcredential : Credential.ofBytes bs = .ok ⟨bs, doc.inOrder.nestedBytes? kidPath⟩ := by
      unfold Credential.ofBytes
      rw [hdecode]
      rfl
    refine ⟨_, _, hcredential, rfl, fun kid => ?_, hdecode, Value.searchBytes?_inOrder _ _⟩
    rw [Value.nestedBytes?_inOrder hkeys, leads_kidPath_iff]
  · intro rest hne hlength
    unfold Credential.ofBytes decodeValue
    rw [htakes.runAll_trailing (hbounded _ hlength) rfl hne]
    show Except.error (Error.invalidCredential
      (.decode (.malformed .trailingData (0 + bs.length + 1)))) = _
    rw [Nat.zero_add]

/-! ### A document -/

namespace Sample

/-- The key in the document, between an array as a key and an integer. -/
def key : List (Value × Value) :=
  [(.array [], .bool true), (.int 2, .bytes [0x0A]), (.int 1, .int 2)]

def confirmation : List (Value × Value) := [(.int (-2), .bytes [0x07]), (.int 1, .map key)]

def claims : List (Value × Value) := [(.text "", .null), (.int 8, .map confirmation)]

def encodedKey : Bytes := [0xA3, 0x80, 0xF5, 0x02, 0x5F, 0x41, 0x0A, 0xFF, 0x01, 0x02]

def encodedConfirmation : Bytes :=
  [0xB8, 0x02, 0x21, 0x41, 0x07, 0x19, 0x00, 0x01] ++ encodedKey

/-- No header that could be shorter is in the shortest form. -/
def encodedClaims : Bytes :=
  [0xBF, 0x78, 0x00, 0xF6, 0x18, 0x08] ++ encodedConfirmation ++ [0xFF]

theorem isItem_key : IsItem 2 (.map key) encodedKey := by
  have hchunks : IsChunks 2 ([0x0A] ++ []) ([0x41] ++ [0x0A] ++ [0xFF]) :=
    .chunk ⟨rfl, .short (by decide)⟩ .stop
  have harray : IsItem 1 (.array []) [0x80] :=
    @IsItem.array 0 (some 0) [0x80] [] [] (IsBody.array (.short (by decide))) .counted nofun
  have hbytes : IsItem 1 (.bytes [0x0A]) [0x5F, 0x41, 0x0A, 0xFF] :=
    .bytes (IsBody.bytes (.indefinite rfl) (.indefinite hchunks))
  have hone : IsItem 1 (.int 1) [0x01] := .int (IsBody.unsigned (.short (by decide)))
  have htwo : IsItem 1 (.int 2) [0x02] := .int (IsBody.unsigned (.short (by decide)))
  have htrue : IsItem 1 (.bool true) [0xF5] := .bool (IsBody.simple .true)
  refine @IsItem.map 1 (some 3) [0xA3] [] [((.array [], [0x80]), .bool true, [0xF5]),
    ((.int 2, [0x02]), .bytes [0x0A], [0x5F, 0x41, 0x0A, 0xFF]), ((.int 1, [0x01]), .int 2, [0x02])]
    (IsBody.map (.short (by decide))) .counted ?_ ?_
  · simp only [List.forall_mem_cons]
    exact ⟨harray, htwo, hone, nofun⟩
  · simp only [List.forall_mem_cons]
    exact ⟨htrue, hbytes, htwo, nofun⟩

theorem isItem_confirmation : IsItem 3 (.map confirmation) encodedConfirmation := by
  have hminusTwo : IsItem 2 (.int (-2)) [0x21] := .int (IsBody.negative (.short (by decide)))
  have hbytes : IsItem 2 (.bytes [0x07]) [0x41, 0x07] :=
    .bytes (IsBody.bytes (.short (by decide)) (.definite [0x07]))
  have hone : IsItem 2 (.int 1) [0x19, 0x00, 0x01] :=
    .int (IsBody.unsigned (.long 1 rfl (by decide)))
  refine @IsItem.map 2 (some 2) [0xB8, 0x02] [] [((.int (-2), [0x21]), .bytes [0x07], [0x41, 0x07]),
    ((.int 1, [0x19, 0x00, 0x01]), .map key, encodedKey)]
    (IsBody.map (.long 0 rfl (by decide))) .counted ?_ ?_
  · simp only [List.forall_mem_cons]
    exact ⟨hminusTwo, hone, nofun⟩
  · simp only [List.forall_mem_cons]
    exact ⟨hbytes, isItem_key, nofun⟩

theorem isItem_claims : IsItem 4 (.map claims) encodedClaims := by
  have htext : IsItem 3 (.text "") [0x78, 0x00] :=
    .text (IsBody.text (.long 0 rfl (by decide)) (.definite []))
  have hnull : IsItem 3 .null [0xF6] := .null (IsBody.simple .null)
  have height : IsItem 3 (.int 8) [0x18, 0x08] := .int (IsBody.unsigned (.long 0 rfl (by decide)))
  refine @IsItem.map 3 none [0xBF] [0xFF] [((.text "", [0x78, 0x00]), .null, [0xF6]),
    ((.int 8, [0x18, 0x08]), .map confirmation, encodedConfirmation)]
    (IsBody.map (.indefinite rfl)) .stop ?_ ?_
  · simp only [List.forall_mem_cons]
    exact ⟨htext, height, nofun⟩
  · simp only [List.forall_mem_cons]
    exact ⟨hnull, isItem_confirmation, nofun⟩

theorem distinctKeys_claims : (Value.map claims).DistinctKeys := by
  have hkey : (Value.map key).DistinctKeys := by
    refine .map (by simp [key]) ?_ ?_
    · simp only [key, List.forall_mem_cons]
      exact ⟨.array nofun, .int 2, .int 1, nofun⟩
    · simp only [key, List.forall_mem_cons]
      exact ⟨.bool true, .bytes _, .int 2, nofun⟩
  have hconfirmation : (Value.map confirmation).DistinctKeys := by
    refine .map (by simp [confirmation]) ?_ ?_
    · simp only [confirmation, List.forall_mem_cons]
      exact ⟨.int _, .int _, nofun⟩
    · simp only [confirmation, List.forall_mem_cons]
      exact ⟨.bytes _, hkey, nofun⟩
  refine .map (by simp [claims]) ?_ ?_
  · simp only [claims, List.forall_mem_cons]
    exact ⟨.text _, .int _, nofun⟩
  · simp only [claims, List.forall_mem_cons]
    exact ⟨.null, hconfirmation, nofun⟩

end Sample

/-- The document has headers of many forms, and its entries are not in the order of their keys. -/
theorem Credential.kid_eq_some_iff_sample :
    (∃ credential, Credential.ofBytes Sample.encodedClaims = .ok credential ∧
        credential.bytes = Sample.encodedClaims ∧ credential.kid = some [0x0A]) ∧
      Credential.ofBytes (Sample.encodedClaims ++ [0x00]) =
        .error (.invalidCredential (.decode (.malformed .trailingData 26))) := by
  obtain ⟨⟨credential, -, hcredential, hbytes, hkid, -⟩, htrailing⟩ :=
    Credential.kid_eq_some_iff Sample.isItem_claims Sample.distinctKeys_claims (by decide)
      (by decide)
  refine ⟨⟨credential, hcredential, hbytes, (hkid [0x0A]).mpr ?_⟩, ?_⟩
  · refine ⟨_, Sample.confirmation, Sample.key, rfl, ?_, ?_, ?_⟩
    · simp [Sample.claims]
    · simp [Sample.confirmation]
    · simp [Sample.key]
  · exact htrailing [0x00] nofun (by decide)

end Registry

end SecureCoap
