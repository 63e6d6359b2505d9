import Mathlib.Data.List.Pairwise
import SecureCoap.Cbor.Value

/-!
# Maps in the order of their keys

Keys are compared by major type, size and bytes, which orders them totally, up to keys that are the
same in all three. Entering values keeps the entries of a map in ascending order, and rebuilds a map
that is. Since no other key is the same as an integer, integers are found among keys of all kinds,
and a search that relies on the order finds them as well.
-/

namespace SecureCoap

namespace Cbor

namespace Value

/-! ### The order of keys -/

instance : Std.TransCmp Value.compare :=
  inferInstanceAs (Std.TransCmp (compareLex (compareOn major) (compareLex (compareOn size)
    (compareOn tieBreak))))

theorem compare_self (v : Value) : v.compare v = .eq := Std.ReflCmp.compare_self

theorem compare_int_eq_iff {n : Int} {w : Value} :
    (Value.int n).compare w = .eq ↔ w = .int n := by
  constructor
  · intro h
    unfold compare at h
    rw [Ordering.then_eq_eq, Ordering.then_eq_eq, Nat.compare_eq_eq, Nat.compare_eq_eq] at h
    obtain ⟨hmajor, hsize, -⟩ := h
    cases w with
    | int m =>
      change n.natAbs = m.natAbs at hsize
      change (if 0 ≤ n then 0 else 1) = if 0 ≤ m then 0 else 1 at hmajor
      congr 1
      split at hmajor
      · split at hmajor
        · omega
        · cases hmajor
      · split at hmajor
        · cases hmajor
        · omega
    | _ =>
      unfold major at hmajor
      simp only at hmajor
      split at hmajor
      · cases hmajor
      · cases hmajor
  · rintro rfl
    exact compare_self _

end Value

/-! ### Ascending entries -/

/-- The keys of the entries ascend, so that no two of them are the same. -/
def Ascending (entries : List (Value × Value)) : Prop :=
  entries.Pairwise fun e f => e.1.compare f.1 = .lt

section

variable {k v : Value} {entries : List (Value × Value)}

theorem mem_insertEntry {e : Value × Value} (h : e ∈ insertEntry k v entries) :
    (e.1 = k ∨ ∃ f ∈ entries, e.1 = f.1) ∧ (e.2 = v ∨ ∃ f ∈ entries, e.2 = f.2) := by
  induction entries with
  | nil =>
    cases List.mem_singleton.mp h
    exact ⟨Or.inl rfl, Or.inl rfl⟩
  | cons f es ih =>
    have hold : ∀ g ∈ es, (g.1 = k ∨ ∃ f' ∈ f :: es, g.1 = f'.1) ∧
        (g.2 = v ∨ ∃ f' ∈ f :: es, g.2 = f'.2) :=
      fun g hg => ⟨Or.inr ⟨g, List.mem_cons_of_mem f hg, rfl⟩,
        Or.inr ⟨g, List.mem_cons_of_mem f hg, rfl⟩⟩
    have hfirst : f ∈ f :: es := List.mem_cons_self
    unfold insertEntry at h
    split at h
    · rcases List.mem_cons.mp h with rfl | h
      · exact ⟨Or.inl rfl, Or.inl rfl⟩
      · exact ⟨Or.inr ⟨e, h, rfl⟩, Or.inr ⟨e, h, rfl⟩⟩
    · rcases List.mem_cons.mp h with rfl | h
      · exact ⟨Or.inr ⟨f, hfirst, rfl⟩, Or.inl rfl⟩
      · exact hold e h
    · rcases List.mem_cons.mp h with rfl | h
      · exact ⟨Or.inr ⟨_, hfirst, rfl⟩, Or.inr ⟨_, hfirst, rfl⟩⟩
      · obtain ⟨hkey, hvalue⟩ := ih h
        constructor
        · rcases hkey with hkey | ⟨g, hg, hkey⟩
          · exact Or.inl hkey
          · exact Or.inr ⟨g, List.mem_cons_of_mem f hg, hkey⟩
        · rcases hvalue with hvalue | ⟨g, hg, hvalue⟩
          · exact Or.inl hvalue
          · exact Or.inr ⟨g, List.mem_cons_of_mem f hg, hvalue⟩

theorem ascending_insertEntry (k v : Value) (h : Ascending entries) :
    Ascending (insertEntry k v entries) := by
  induction entries with
  | nil => exact List.pairwise_singleton _ _
  | cons f es ih =>
    obtain ⟨hfirst, hrest⟩ := List.pairwise_cons.mp h
    unfold insertEntry
    cases hcompare : k.compare f.1 with
    | lt =>
      refine List.pairwise_cons.mpr ⟨?_, h⟩
      intro e he
      rcases List.mem_cons.mp he with rfl | he
      · exact hcompare
      · exact Std.TransCmp.lt_trans hcompare (hfirst e he)
    | eq => exact List.pairwise_cons.mpr ⟨hfirst, hrest⟩
    | gt =>
      refine List.pairwise_cons.mpr ⟨?_, ih hrest⟩
      intro e he
      rcases (mem_insertEntry he).1 with hkey | ⟨g, hg, hkey⟩
      · rw [hkey]
        exact Std.OrientedCmp.gt_iff_lt.mp hcompare
      · rw [hkey]
        exact hfirst g hg

/-- What comes after all keys is entered at the end. -/
theorem insertEntry_of_forall_lt (h : ∀ e ∈ entries, e.1.compare k = .lt) :
    insertEntry k v entries = entries ++ [(k, v)] := by
  induction entries with
  | nil => rfl
  | cons f es ih =>
    obtain ⟨hfirst, hrest⟩ := List.forall_mem_cons.mp h
    unfold insertEntry
    rw [Std.OrientedCmp.gt_iff_lt.mpr hfirst]
    show f :: insertEntry k v es = _
    rw [ih hrest]
    rfl

end

/-! ### Entering all entries of a map -/

/-- The entries of a map after these were entered one after another. -/
def enterAll (entered entries : List (Value × Value)) : List (Value × Value) :=
  entries.foldl (fun es e => insertEntry e.1 e.2 es) entered

theorem Value.ofEntries_eq (entries : List (Value × Value)) :
    Value.ofEntries entries = .map (enterAll [] entries) := rfl

theorem ascending_enterAll {entered : List (Value × Value)} (h : Ascending entered)
    (entries : List (Value × Value)) : Ascending (enterAll entered entries) := by
  induction entries generalizing entered with
  | nil => exact h
  | cons e es ih => exact ih (ascending_insertEntry e.1 e.2 h)

theorem value_of_mem_enterAll {entered entries : List (Value × Value)} {e : Value × Value}
    (h : e ∈ enterAll entered entries) : ∃ f ∈ entered ++ entries, e.2 = f.2 := by
  induction entries generalizing entered with
  | nil => exact ⟨e, List.mem_append_left [] h, rfl⟩
  | cons f es ih =>
    obtain ⟨g, hg, hvalue⟩ := ih h
    rcases List.mem_append.mp hg with hg | hg
    · rcases (mem_insertEntry hg).2 with hnew | ⟨g', hg', hold⟩
      · exact ⟨f, List.mem_append_right _ List.mem_cons_self, hvalue.trans hnew⟩
      · exact ⟨g', List.mem_append_left _ hg', hvalue.trans hold⟩
    · exact ⟨g, List.mem_append_right _ (List.mem_cons_of_mem f hg), hvalue⟩

/-- A map in order is rebuilt from its entries. -/
theorem enterAll_of_ascending {entered entries : List (Value × Value)}
    (h : Ascending (entered ++ entries)) : enterAll entered entries = entered ++ entries := by
  induction entries generalizing entered with
  | nil => exact (List.append_nil entered).symm
  | cons e es ih =>
    obtain ⟨-, -, hlt⟩ := List.pairwise_append.mp h
    have hnext : entered ++ e :: es = entered ++ [e] ++ es := by simp
    have hinsert : insertEntry e.1 e.2 entered = entered ++ [e] :=
      insertEntry_of_forall_lt fun f hf => hlt f hf e List.mem_cons_self
    show enterAll (insertEntry e.1 e.2 entered) es = _
    rw [hnext] at h
    rw [hinsert, ih h, hnext]

theorem Value.ofEntries_of_ascending {entries : List (Value × Value)} (h : Ascending entries) :
    Value.ofEntries entries = .map entries := by
  rw [Value.ofEntries_eq, @enterAll_of_ascending [] entries h, List.nil_append]

/-! ### Looking up -/

theorem lookupEntry?_insertEntry (k k' v : Value) (entries : List (Value × Value)) :
    lookupEntry? k (insertEntry k' v entries) =
      if k.compare k' = .eq then some v else lookupEntry? k entries := by
  induction entries with
  | nil => rfl
  | cons f es ih =>
    obtain ⟨k₀, v₀⟩ := f
    unfold insertEntry
    cases hcompare : k'.compare k₀ with
    | lt => rfl
    | eq =>
      have hsame : k.compare k' = k.compare k₀ := Std.TransCmp.congr_right hcompare
      unfold lookupEntry?
      rw [hsame]
      split
      · rfl
      · rfl
    | gt =>
      show lookupEntry? k ((k₀, v₀) :: insertEntry k' v es) = _
      unfold lookupEntry?
      rw [ih]
      split
      · next hfound =>
        -- The key is the same as one that the new key is different from.
        have hother : k.compare k' = .lt := by
          rw [Std.TransCmp.congr_left hfound]
          exact Std.OrientedCmp.gt_iff_lt.mp hcompare
        rw [if_neg]
        rw [hother]
        exact nofun
      · rfl

/-- An integer key that has at most one value is found exactly with that value. -/
theorem lookupEntry?_enterAll {n : Int} {entered entries : List (Value × Value)}
    (hunique : ∀ v w, (.int n, v) ∈ entries → (.int n, w) ∈ entries → v = w) (v : Value) :
    lookupEntry? (.int n) (enterAll entered entries) = some v ↔
      (.int n, v) ∈ entries ∨
        (∀ w, (.int n, w) ∉ entries) ∧ lookupEntry? (.int n) entered = some v := by
  induction entries generalizing entered with
  | nil =>
    show lookupEntry? (.int n) entered = some v ↔ _
    simp
  | cons e es ih =>
    obtain ⟨k, v₀⟩ := e
    have hunique' : ∀ v w, (.int n, v) ∈ es → (.int n, w) ∈ es → v = w :=
      fun v w hv hw => hunique v w (List.mem_cons_of_mem _ hv) (List.mem_cons_of_mem _ hw)
    show lookupEntry? (.int n) (enterAll (insertEntry k v₀ entered) es) = some v ↔ _
    rw [ih hunique', lookupEntry?_insertEntry]
    by_cases hkey : k = .int n
    · subst hkey
      rw [if_pos (Value.compare_self _), Option.some.injEq]
      have hfirst : (Value.int n, v₀) ∈ (Value.int n, v₀) :: es := List.mem_cons_self
      constructor
      · rintro (hmem | ⟨-, rfl⟩)
        · exact Or.inl (List.mem_cons_of_mem _ hmem)
        · exact Or.inl hfirst
      · rintro (hmem | ⟨hnone, -⟩)
        · obtain rfl : v₀ = v := hunique v₀ v hfirst hmem
          by_cases hagain : (Value.int n, v₀) ∈ es
          · exact Or.inl hagain
          · refine Or.inr ⟨fun w hw => ?_, rfl⟩
            obtain rfl := hunique v₀ w hfirst (List.mem_cons_of_mem _ hw)
            exact hagain hw
        · exact absurd hfirst (hnone v₀)
    · have hne : (Value.int n).compare k ≠ .eq := fun heq => hkey (Value.compare_int_eq_iff.mp heq)
      have hcons (w : Value) : (Value.int n, w) ∈ (k, v₀) :: es ↔ (Value.int n, w) ∈ es := by
        rw [List.mem_cons, Prod.mk.injEq]
        exact or_iff_right fun h => hkey h.1.symm
      simp only [if_neg hne, hcons]

theorem lookupEntry?_ofEntries {n : Int} {entries : List (Value × Value)}
    (hunique : ∀ v w, (.int n, v) ∈ entries → (.int n, w) ∈ entries → v = w) (v : Value) :
    lookupEntry? (.int n) (enterAll [] entries) = some v ↔ (.int n, v) ∈ entries := by
  rw [lookupEntry?_enterAll hunique]
  exact or_iff_left fun h => nomatch h.2

/-! ### Searching -/

/-- The value of a key, by a search that ends where the key would have to be. -/
def search? (k : Value) : List (Value × Value) → Option Value
  | [] => none
  | (k', v) :: es =>
    match k.compare k' with
    | .lt => none
    | .eq => some v
    | .gt => search? k es

theorem lookupEntry?_eq_none_of_forall_lt {k : Value} {entries : List (Value × Value)}
    (h : ∀ e ∈ entries, k.compare e.1 = .lt) : lookupEntry? k entries = none := by
  induction entries with
  | nil => rfl
  | cons e es ih =>
    obtain ⟨hfirst, hrest⟩ := List.forall_mem_cons.mp h
    unfold lookupEntry?
    rw [if_neg (by rw [hfirst]; exact nofun)]
    exact ih hrest

theorem search?_eq {k : Value} {entries : List (Value × Value)} (h : Ascending entries) :
    search? k entries = lookupEntry? k entries := by
  induction entries with
  | nil => rfl
  | cons e es ih =>
    obtain ⟨k', v⟩ := e
    obtain ⟨hfirst, hrest⟩ := List.pairwise_cons.mp h
    unfold search? lookupEntry?
    cases hcompare : k.compare k' with
    | lt =>
      have hlater : ∀ f ∈ es, k.compare f.1 = .lt :=
        fun f hf => Std.TransCmp.lt_trans hcompare (hfirst f hf)
      simp [lookupEntry?_eq_none_of_forall_lt hlater]
    | eq => rfl
    | gt => exact ih hrest

/-- `nestedBytes?` by searches that rely on the order of keys. -/
def Value.searchBytes? : (path : List Int) → Value → Option Bytes
  | [], .bytes bs => some bs
  | key :: path, .map entries => search? (.int key) entries >>= Value.searchBytes? path
  | _, _ => none

end Cbor

end SecureCoap
