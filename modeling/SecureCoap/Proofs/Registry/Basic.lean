import Mathlib.Data.Finset.Card
import Mathlib.Tactic.Tauto
import SecureCoap.Proofs.Computation
import SecureCoap.Registry.Basic

/-!
# What is found in a registry

Building a registry enters each credential under its keys, first all key identifiers and then all
encodings. What comes out of it stands for the set of these pairs of a key and a credential. If two
of them have the key in common and differ in the credential, there is no registry.
-/

namespace SecureCoap

namespace Registry

/-- What leads to a credential: its encoding, and its key identifier if it has one. -/
def Credential.keys (c : Credential) : List Bytes := c.bytes :: c.kid.toList

theorem Credential.mem_keys {c : Credential} {key : Bytes} :
    key ∈ c.keys ↔ c.bytes = key ∨ c.kid = some key := by
  unfold keys
  rw [List.mem_cons, Option.mem_toList, eq_comm]

/-- Two different ones of these credentials have this key. -/
def Clash (cs : List Credential) (key : Bytes) : Prop :=
  ∃ c ∈ cs, ∃ c' ∈ cs, c ≠ c' ∧ key ∈ c.keys ∧ key ∈ c'.keys

theorem Clash.mono {cs cs' : List Credential} {key : Bytes} (h : Clash cs key) (hsub : cs ⊆ cs') :
    Clash cs' key := by
  obtain ⟨c, hc, c', hc', hrest⟩ := h
  exact ⟨c, hsub hc, c', hsub hc', hrest⟩

namespace Table

variable {cs : List Credential} {table : Table} {es : List (Bytes × Credential)}

/-! ### What is entered -/

def kidEntries (cs : List Credential) : List (Bytes × Credential) :=
  cs.filterMap fun c => c.kid.map fun kid => (kid, c)

def valueEntries (cs : List Credential) : List (Bytes × Credential) :=
  cs.map fun c => (c.bytes, c)

theorem mem_entries {key : Bytes} {c : Credential} :
    (key, c) ∈ kidEntries cs ++ valueEntries cs ↔ c ∈ cs ∧ key ∈ c.keys := by
  rw [List.mem_append, kidEntries, valueEntries, List.mem_filterMap, List.mem_map,
    Credential.mem_keys]
  constructor
  · rintro (⟨c', hc', hkid⟩ | ⟨c', hc', hpair⟩)
    · obtain ⟨kid, hkid, hpair⟩ := Option.map_eq_some_iff.mp hkid
      cases hpair
      exact ⟨hc', Or.inr hkid⟩
    · cases hpair
      exact ⟨hc', Or.inl rfl⟩
  · rintro ⟨hc, hbytes | hkid⟩
    · exact Or.inr ⟨c, hc, Prod.ext hbytes rfl⟩
    · exact Or.inl ⟨c, hc, Option.map_eq_some_iff.mpr ⟨key, hkid, rfl⟩⟩

/-- Enters credentials under keys, one after another. -/
def insertAll (es : List (Bytes × Credential)) (table : Table) : Except Error Table :=
  es.foldlM (fun table e => table.insert e.1 e.2) table

theorem insertByKid_eq (cs : List Credential) (table : Table) :
    (insertByKid cs table).2 = insertAll (kidEntries cs) table := by
  induction cs generalizing table with
  | nil => rfl
  | cons c cs ih =>
    unfold insertByKid
    cases hkid : c.kid with
    | none =>
      have hskip : kidEntries (c :: cs) = kidEntries cs := by simp [kidEntries, hkid]
      rw [hskip]
      exact ih table
    | some kid =>
      have hentry : kidEntries (c :: cs) = (kid, c) :: kidEntries cs := by simp [kidEntries, hkid]
      rw [hentry, insertAll, List.foldlM_cons]
      simp only
      cases table.insert kid c with
      | error e => rfl
      | ok inserted => exact ih inserted

theorem insertByValue_eq (cs : List Credential) (table : Table) :
    insertByValue cs table = insertAll (valueEntries cs) table := by
  rw [insertAll, valueEntries, List.foldlM_map]
  rfl

theorem ofCredentials_eq (cs : List Credential) :
    (ofCredentials cs).2 = insertAll (kidEntries cs ++ valueEntries cs) empty := by
  unfold ofCredentials
  rw [insertAll, List.foldlM_append]
  show _ = insertAll (kidEntries cs) empty >>= insertAll (valueEntries cs)
  rw [← insertByKid_eq]
  rcases insertByKid cs empty with ⟨log, e | table⟩
  · rfl
  · show _ = insertAll (valueEntries cs) table
    rw [← insertByValue_eq]
    simp only
    cases insertByValue cs table with
    | error e => rfl
    | ok table => rfl

/-! ### What a table stands for -/

/-- The table stands for these pairs of keys and credentials. -/
structure Reflects (table : Table) (es : List (Bytes × Credential)) : Prop where
  lookup : ∀ key c, table.lookup? key = some c ↔ (key, c) ∈ es
  distinct : (table.entries.map Prod.fst).Nodup

theorem reflects_empty : empty.Reflects [] where
  lookup key c := by simp [lookup?, empty]
  distinct := List.nodup_nil

theorem mem_keys_iff (table : Table) (key : Bytes) :
    key ∈ table.entries.map Prod.fst ↔ ∃ c, table.lookup? key = some c := by
  constructor
  · intro hkey
    obtain ⟨e, he, rfl⟩ := List.mem_map.mp hkey
    cases hfound : table.lookup? e.1 with
    | some c => exact ⟨c, rfl⟩
    | none =>
      have hother : (e.1 != e.1) = true := List.lookup_eq_none_iff.mp hfound e he
      exact absurd rfl (bne_iff_ne.mp hother)
  · rintro ⟨c, hc⟩
    obtain ⟨before, after, hentries, -⟩ := List.lookup_eq_some_iff.mp hc
    rw [hentries]
    exact List.mem_map_of_mem (List.mem_append_right before (List.mem_cons_self ..))

theorem Reflects.eq_of_mem (h : table.Reflects es) {key : Bytes} {c c' : Credential}
    (hc : (key, c) ∈ es) (hc' : (key, c') ∈ es) : c = c' := by
  rw [← h.lookup] at hc hc'
  exact Option.some.inj (hc.symm.trans hc')

/-- A credential that is entered under a key joins those that the table stands for, unless another
one is known under that key. -/
theorem Reflects.insert (h : table.Reflects es) (key : Bytes) (c : Credential) :
    (∃ table', table.insert key c = .ok table' ∧ table'.Reflects (es ++ [(key, c)])) ∨
      table.insert key c = .error (.duplicateKey key) ∧ ∃ known, (key, known) ∈ es ∧ known ≠ c := by
  unfold Table.insert
  cases hknown : table.lookup? key with
  | some known =>
    have hmem : (key, known) ∈ es := (h.lookup key known).mp hknown
    by_cases hsame : known = c
    · subst hsame
      refine Or.inl ⟨table, if_pos rfl, ?_, h.distinct⟩
      intro k x
      rw [h.lookup, List.mem_append, List.mem_singleton]
      constructor
      · exact Or.inl
      · rintro (hold | hnew)
        · exact hold
        · rw [hnew]
          exact hmem
    · exact Or.inr ⟨if_neg hsame, known, hmem, hsame⟩
  | none =>
    have hfree : ∀ x, (key, x) ∉ es := by
      intro x hx
      rw [← h.lookup, hknown] at hx
      cases hx
    refine Or.inl ⟨_, rfl, ?_, ?_⟩
    · intro k x
      rw [lookup?, List.lookup_append, List.mem_append, List.mem_singleton, ← h.lookup, lookup?,
        List.lookup_cons, List.lookup_nil]
      by_cases hk : k = key
      · subst hk
        rw [lookup?] at hknown
        simp [hknown, eq_comm]
      · simp [hk, beq_false_of_ne hk]
    · rw [List.map_append, List.nodup_append]
      refine ⟨h.distinct, List.nodup_singleton key, ?_⟩
      rintro k hk _ hnew rfl
      obtain ⟨x, hx⟩ := (table.mem_keys_iff k).mp hk
      obtain rfl : k = key := List.mem_singleton.mp hnew
      exact hfree x ((h.lookup k x).mp hx)

theorem Reflects.insertAll (h : table.Reflects es) (new : List (Bytes × Credential)) :
    (∃ table', insertAll new table = .ok table' ∧ table'.Reflects (es ++ new)) ∨
      ∃ key c c', insertAll new table = .error (.duplicateKey key) ∧
        (key, c) ∈ es ++ new ∧ (key, c') ∈ es ++ new ∧ c ≠ c' := by
  induction new generalizing table es with
  | nil =>
    rw [List.append_nil]
    exact Or.inl ⟨table, rfl, h⟩
  | cons e new ih =>
    obtain ⟨key, c⟩ := e
    have hcons : Table.insertAll ((key, c) :: new) table =
        table.insert key c >>= Table.insertAll new := List.foldlM_cons
    rw [hcons, List.append_cons]
    rcases h.insert key c with ⟨table', hok, h'⟩ | ⟨herror, known, hknown, hne⟩
    · rw [hok]
      exact ih h'
    · rw [herror]
      have hold : (key, known) ∈ es ++ [(key, c)] := List.mem_append_left _ hknown
      have hnew : (key, c) ∈ es ++ [(key, c)] := List.mem_append_right es (List.mem_cons_self ..)
      exact Or.inr ⟨key, known, c, rfl, List.mem_append_left new hold,
        List.mem_append_left new hnew, hne⟩

/-! ### Registries -/

/-- A registry stands for all keys of all its credentials; there is none if two of them have a key
in common. -/
theorem ofCredentials_cases (cs : List Credential) :
    (∃ table, (ofCredentials cs).2 = .ok table ∧
      table.Reflects (kidEntries cs ++ valueEntries cs)) ∨
      ∃ key, (ofCredentials cs).2 = .error (.duplicateKey key) ∧ Clash cs key := by
  rw [ofCredentials_eq]
  rcases reflects_empty.insertAll (kidEntries cs ++ valueEntries cs) with
    hok | ⟨key, c, c', herror, hc, hc', hne⟩
  · exact Or.inl hok
  · obtain ⟨hmem, hkey⟩ := mem_entries.mp hc
    obtain ⟨hmem', hkey'⟩ := mem_entries.mp hc'
    exact Or.inr ⟨key, herror, c, hmem, c', hmem', hne, hkey, hkey'⟩

theorem reflects_of_ok (h : (ofCredentials cs).2 = .ok table) :
    table.Reflects (kidEntries cs ++ valueEntries cs) := by
  rcases ofCredentials_cases cs with ⟨table', hok, hreflects⟩ | ⟨key, herror, -⟩
  · rw [h] at hok
    cases hok
    exact hreflects
  · rw [h] at herror
    cases herror

theorem clash_of_error {error : Error} (h : (ofCredentials cs).2 = .error error) :
    ∃ key, error = .duplicateKey key ∧ Clash cs key := by
  rcases ofCredentials_cases cs with ⟨table, hok, -⟩ | ⟨key, herror, hclash⟩
  · rw [h] at hok
    cases hok
  · rw [h] at herror
    cases herror
    exact ⟨key, rfl, hclash⟩

theorem lookup?_eq_some_iff (h : (ofCredentials cs).2 = .ok table) {id : Bytes} {c : Credential} :
    table.lookup? id = some c ↔ c ∈ cs ∧ id ∈ c.keys := by
  rw [(reflects_of_ok h).lookup, mem_entries]

theorem lookup?_eq_none_iff (h : (ofCredentials cs).2 = .ok table) {id : Bytes} :
    table.lookup? id = none ↔ ∀ c ∈ cs, id ∉ c.keys := by
  rw [Option.eq_none_iff_forall_ne_some]
  constructor
  · intro hnone c hc hid
    exact hnone c ((lookup?_eq_some_iff h).mpr ⟨hc, hid⟩)
  · intro hfree c hfound
    obtain ⟨hc, hid⟩ := (lookup?_eq_some_iff h).mp hfound
    exact hfree c hc hid

theorem size_eq (h : (ofCredentials cs).2 = .ok table) :
    table.size = (cs.flatMap Credential.keys).toFinset.card := by
  have hkeys : (table.entries.map Prod.fst).toFinset = (cs.flatMap Credential.keys).toFinset := by
    ext key
    simp only [List.mem_toFinset, mem_keys_iff, lookup?_eq_some_iff h, List.mem_flatMap]
  rw [← hkeys, List.toFinset_card_of_nodup (reflects_of_ok h).distinct, List.length_map, size]

theorem error_iff_clash (cs : List Credential) :
    (∃ error, (ofCredentials cs).2 = .error error) ↔ ∃ key, Clash cs key := by
  constructor
  · rintro ⟨error, h⟩
    obtain ⟨key, -, hclash⟩ := clash_of_error h
    exact ⟨key, hclash⟩
  · rintro ⟨key, c, hc, c', hc', hne, hkey, hkey'⟩
    rcases ofCredentials_cases cs with ⟨table, hok, hreflects⟩ | ⟨key', herror, -⟩
    · have hsame : c = c' :=
        hreflects.eq_of_mem (mem_entries.mpr ⟨hc, hkey⟩) (mem_entries.mpr ⟨hc', hkey'⟩)
      exact absurd hsame hne
    · exact ⟨_, herror⟩

theorem isOk_iff_not_clash (cs : List Credential) :
    (ofCredentials cs).2.isOk = true ↔ ∀ key, ¬Clash cs key := by
  rw [← not_exists, ← error_iff_clash]
  cases (ofCredentials cs).2 with
  | error e => simp [Except.isOk, Except.toBool]
  | ok table => simp [Except.isOk, Except.toBool]

/-- There is a registry of credentials, whatever they are, exactly if no two different ones have a
key in common; else such a key is named. A registry finds under an identifier the credential that
has it among its keys, and its size is the number of different keys. Order and repetition of the
credentials do not matter. -/
theorem finds_exactly_by_keys (cs : List Credential) :
    ((∃ error, (ofCredentials cs).2 = .error error) ↔ ∃ key, Clash cs key) ∧
    (∀ error, (ofCredentials cs).2 = .error error →
      ∃ key, error = .duplicateKey key ∧ Clash cs key) ∧
    (∀ table, (ofCredentials cs).2 = .ok table →
      (∀ id c, table.lookup? id = some c ↔ c ∈ cs ∧ id ∈ c.keys) ∧
      (∀ id, table.lookup? id = none ↔ ∀ c ∈ cs, id ∉ c.keys) ∧
      table.size = (cs.flatMap Credential.keys).toFinset.card) ∧
    ∀ cs', (∀ c, c ∈ cs' ↔ c ∈ cs) →
      (ofCredentials cs').2.isOk = (ofCredentials cs).2.isOk ∧
      ∀ table table', (ofCredentials cs).2 = .ok table → (ofCredentials cs').2 = .ok table' →
        ∀ id, table'.lookup? id = table.lookup? id := by
  refine ⟨error_iff_clash cs, fun error => clash_of_error, ?_, ?_⟩
  · intro table h
    exact ⟨fun id c => lookup?_eq_some_iff h, fun id => lookup?_eq_none_iff h, size_eq h⟩
  · intro cs' hsame
    have hclash : ∀ key, Clash cs' key ↔ Clash cs key := fun key =>
      ⟨fun h => h.mono fun c hc => (hsame c).mp hc, fun h => h.mono fun c hc => (hsame c).mpr hc⟩
    constructor
    · rw [Bool.eq_iff_iff, isOk_iff_not_clash, isOk_iff_not_clash]
      simp only [hclash]
    · intro table table' h h' id
      apply Option.ext
      intro c
      rw [lookup?_eq_some_iff h, lookup?_eq_some_iff h', hsame]

/-- A claims set with a key in it, of which there is nothing but the identifier. -/
def claimsSet (kid : UInt8) : Credential :=
  ⟨[0xA1, 0x08, 0xA1, 0x01, 0xA1, 0x02, 0x41, kid], some [kid]⟩

/-- Of two claims sets, one of them given twice, either is found by its key identifier and its
encoding. An integer whose encoding is the key identifier of one of them can not go along with
it. -/
theorem finds_exactly_by_keys_claimsSets :
    Credential.ofBytes (claimsSet 0x0A).bytes = .ok (claimsSet 0x0A) ∧
    Credential.ofBytes (claimsSet 0x0B).bytes = .ok (claimsSet 0x0B) ∧
    Credential.ofBytes [0x0A] = .ok ⟨[0x0A], none⟩ ∧
    (∃ table table',
      (ofCredentials [claimsSet 0x0B, claimsSet 0x0A, claimsSet 0x0B]).2 = .ok table ∧
      (ofCredentials [claimsSet 0x0A, claimsSet 0x0B]).2 = .ok table' ∧
      table.lookup? [0x0A] = some (claimsSet 0x0A) ∧ table.lookup? [0x0C] = none ∧
      table.size = 4 ∧ ∀ id, table'.lookup? id = table.lookup? id) ∧
    (ofCredentials [⟨[0x0A], none⟩, claimsSet 0x0A]).2 = .error (.duplicateKey [0x0A]) ∧
    Clash [⟨[0x0A], none⟩, claimsSet 0x0A] [0x0A] := by
  obtain ⟨-, -, hfinds, horder⟩ :=
    finds_exactly_by_keys [claimsSet 0x0B, claimsSet 0x0A, claimsSet 0x0B]
  obtain ⟨-, hclashes, -⟩ := finds_exactly_by_keys [⟨[0x0A], none⟩, claimsSet 0x0A]
  have hsame : ∀ c, c ∈ [claimsSet 0x0A, claimsSet 0x0B] ↔
      c ∈ [claimsSet 0x0B, claimsSet 0x0A, claimsSet 0x0B] := by
    intro c
    simp only [List.mem_cons, List.not_mem_nil]
    tauto
  refine ⟨rfl, rfl, rfl, ⟨_, _, rfl, rfl, ?_, ?_, ?_, ?_⟩, rfl, ?_⟩
  · obtain ⟨hfound, -⟩ := hfinds _ rfl
    exact (hfound _ _).mpr (by decide)
  · obtain ⟨-, hnone, -⟩ := hfinds _ rfl
    exact (hnone _).mpr (by decide)
  · obtain ⟨-, -, hsize⟩ := hfinds _ rfl
    exact hsize.trans (by decide)
  · obtain ⟨-, hlookups⟩ := horder _ hsame
    exact hlookups _ _ rfl rfl
  · obtain ⟨key, hkey, hclash⟩ := hclashes _ rfl
    cases hkey
    exact hclash

end Table

end Registry

end SecureCoap
