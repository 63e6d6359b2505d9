import Mathlib.Data.List.Sort
import SecureCoap.Coap.Options

/-!
# Values of changed options

What each way of changing options does to the values of every option.
-/

namespace SecureCoap

namespace Coap

namespace Options

/-! ### Entries -/

theorem lookup_cons_eq (k : Nat) (vs : List Bytes) (es : List (Nat × List Bytes)) (n : Nat) :
    ((k, vs) :: es).lookup n = if n = k then some vs else es.lookup n := by
  rw [List.lookup_cons]
  by_cases h : n = k
  · simp [h]
  · have hbeq : (n == k) = false := beq_false_of_ne h
    rw [hbeq, if_neg h]

theorem lookup_eq_none_of_lt {es : List (Nat × List Bytes)} {n : Nat} (h : ∀ e ∈ es, n < e.1) :
    es.lookup n = none := by
  rw [List.lookup_eq_none_iff]
  intro e he
  have hlt := h e he
  exact bne_iff_ne.mpr (by omega)

theorem lookup_of_mem {es : List (Nat × List Bytes)} (h : es.Pairwise fun x y => x.1 < y.1)
    {n : Nat} {vs : List Bytes} (hmem : (n, vs) ∈ es) : es.lookup n = some vs := by
  induction es with
  | nil => cases hmem
  | cons e es ih =>
    obtain ⟨k, ws⟩ := e
    obtain ⟨hk, hes⟩ := List.pairwise_cons.mp h
    rw [lookup_cons_eq]
    rcases List.mem_cons.mp hmem with heq | hmem
    · cases heq
      rw [if_pos rfl]
    · have hlt : k < n := hk (n, vs) hmem
      rw [if_neg (by omega), ih hes hmem]

theorem lookup_alterEntries {number : Nat} (change : List Bytes → List Bytes)
    {es : List (Nat × List Bytes)} (h : es.Pairwise fun x y => x.1 < y.1) (n : Nat) :
    (alterEntries number change es).lookup n =
      if n = number then some (change ((es.lookup number).getD [])) else es.lookup n := by
  induction es with
  | nil => rw [alterEntries, lookup_cons_eq]; rfl
  | cons e es ih =>
    obtain ⟨k, vs⟩ := e
    obtain ⟨hk, hes⟩ := List.pairwise_cons.mp h
    unfold alterEntries
    split
    · next hlt =>
      have hnone : ((k, vs) :: es).lookup number = none := by
        apply lookup_eq_none_of_lt
        intro e he
        rcases List.mem_cons.mp he with rfl | he
        · exact hlt
        · exact Nat.lt_trans hlt (hk e he)
      rw [lookup_cons_eq, hnone]
      rfl
    · split
      · next heq =>
        subst heq
        rw [lookup_cons_eq, lookup_cons_eq, lookup_cons_eq, if_pos rfl]
        split
        · rfl
        · rfl
      · next hle hne =>
        rw [lookup_cons_eq, lookup_cons_eq, lookup_cons_eq, ih hes, if_neg hne]
        split
        · next hn =>
          rw [if_neg (by omega)]
        · rfl

/-! ### Values -/

variable (opts : Options)

theorem has_iff (number : Nat) : opts.has number = true ↔ opts.values number ≠ [] := by
  unfold has
  rw [Bool.not_eq_true', List.isEmpty_eq_false_iff]

theorem has_eq_false_iff (number : Nat) : opts.has number = false ↔ opts.values number = [] := by
  rw [← Bool.not_eq_true, has_iff, Decidable.not_not]

/-! ### Entries and values -/

theorem values?_of_mem {n : Nat} {vs : List Bytes} (h : (n, vs) ∈ opts.entries) :
    opts.values? n = some vs :=
  lookup_of_mem opts.ascending h

theorem mem_entries_iff {n : Nat} {vs : List Bytes} (hvs : vs ≠ []) :
    (n, vs) ∈ opts.entries ↔ opts.values n = vs := by
  constructor
  · intro h
    rw [values, values?_of_mem opts h]
    rfl
  · intro h
    unfold values at h
    cases hfound : opts.values? n with
    | none =>
      rw [hfound] at h
      exact absurd h.symm hvs
    | some ws =>
      rw [hfound] at h
      obtain ⟨before, after, hentries, -⟩ := List.lookup_eq_some_iff.mp hfound
      rw [hentries, ← h]
      exact List.mem_append_right before (List.mem_cons_self ..)

/-- Options with the same values differ in entries without values only. -/
theorem entries_filter_congr {opts opts' : Options} (h : ∀ n, opts.values n = opts'.values n) :
    opts.entries.filter (·.2 ≠ []) = opts'.entries.filter (·.2 ≠ []) := by
  have : Std.Antisymm fun x y : Nat × List Bytes => x.1 < y.1 :=
    ⟨fun x y hxy hyx => absurd hxy (Nat.lt_asymm hyx)⟩
  have : Std.Irrefl fun x y : Nat × List Bytes => x.1 < y.1 := ⟨fun x => Nat.lt_irrefl x.1⟩
  refine (opts.ascending.filter _).eq_of_mem_iff (opts'.ascending.filter _) ?_
  rintro ⟨n, vs⟩
  rw [List.mem_filter, List.mem_filter]
  refine and_congr_left ?_
  intro hvs
  have hvs : vs ≠ [] := of_decide_eq_true hvs
  rw [mem_entries_iff opts hvs, mem_entries_iff opts' hvs, h]

/-! ### Changing one entry -/

theorem values?_alter (number : Nat) (change : List Bytes → List Bytes) (n : Nat) :
    (opts.alter number change).values? n =
      if n = number then some (change (opts.values number)) else opts.values? n :=
  lookup_alterEntries change opts.ascending n

theorem values?_set (number : Nat) (vs : List Bytes) (n : Nat) :
    (opts.set number vs).values? n = if n = number then some vs else opts.values? n :=
  values?_alter opts number (fun _ => vs) n

theorem values?_add_self (number : Nat) (value : Bytes) :
    (opts.add number value).values? number = some (opts.values number ++ [value]) := by
  unfold add
  rw [values?_alter, if_pos rfl]

theorem values?_add_of_ne {number n : Nat} (h : n ≠ number) (value : Bytes) :
    (opts.add number value).values? n = opts.values? n := by
  unfold add
  rw [values?_alter, if_neg h]

theorem mem_alterEntries {number : Nat} {change : List Bytes → List Bytes}
    {es : List (Nat × List Bytes)} {e : Nat × List Bytes}
    (h : e ∈ alterEntries number change es) : e.1 = number ∨ e ∈ es := by
  induction es with
  | nil =>
    rw [alterEntries, List.mem_singleton] at h
    rw [h]
    exact Or.inl rfl
  | cons x es ih =>
    obtain ⟨k, vs⟩ := x
    unfold alterEntries at h
    split at h
    · rcases List.mem_cons.mp h with rfl | h
      · exact Or.inl rfl
      · exact Or.inr h
    · split at h
      · next heq =>
        rcases List.mem_cons.mp h with rfl | h
        · exact Or.inl heq.symm
        · exact Or.inr (List.mem_cons_of_mem _ h)
      · rcases List.mem_cons.mp h with rfl | h
        · exact Or.inr (List.mem_cons_self ..)
        · exact (ih h).imp_right (List.mem_cons_of_mem _)

/-! ### Adding entries value by value -/

def addValues (opts : Options) (number : Nat) (vs : List Bytes) : Options :=
  vs.foldl (fun opts v => opts.add number v) opts

def addEntries (opts : Options) (es : List (Nat × List Bytes)) : Options :=
  es.foldl (fun opts (n, vs) => opts.addValues n vs) opts

theorem values?_addValues_of_ne {number n : Nat} (h : n ≠ number) (vs : List Bytes) :
    (opts.addValues number vs).values? n = opts.values? n := by
  induction vs generalizing opts with
  | nil => rfl
  | cons v vs ih =>
    show ((opts.add number v).addValues number vs).values? n = _
    rw [ih, values?_add_of_ne opts h]

theorem values_addValues_self (number : Nat) (vs : List Bytes) :
    (opts.addValues number vs).values number = opts.values number ++ vs := by
  induction vs generalizing opts with
  | nil => exact (List.append_nil _).symm
  | cons v vs ih =>
    have hadd : (opts.add number v).values number = opts.values number ++ [v] := by
      unfold values
      rw [values?_add_self]
      rfl
    show ((opts.add number v).addValues number vs).values number = _
    rw [ih, hadd, List.append_assoc, List.singleton_append]

theorem values?_addEntries_of_not_mem {n : Nat} {es : List (Nat × List Bytes)}
    (h : ∀ e ∈ es, e.1 ≠ n) : (opts.addEntries es).values? n = opts.values? n := by
  induction es generalizing opts with
  | nil => rfl
  | cons e es ih =>
    obtain ⟨k, vs⟩ := e
    have hk : n ≠ k := (h (k, vs) (List.mem_cons_self ..)).symm
    show ((opts.addValues k vs).addEntries es).values? n = _
    rw [ih _ fun e he => h e (List.mem_cons_of_mem _ he), values?_addValues_of_ne opts hk]

theorem values_addEntries {es : List (Nat × List Bytes)} (h : es.Pairwise fun x y => x.1 < y.1)
    (n : Nat) : (opts.addEntries es).values n = opts.values n ++ (es.lookup n).getD [] := by
  induction es generalizing opts with
  | nil => exact (List.append_nil _).symm
  | cons e es ih =>
    obtain ⟨k, vs⟩ := e
    obtain ⟨hk, hes⟩ := List.pairwise_cons.mp h
    show ((opts.addValues k vs).addEntries es).values n = _
    rw [ih _ hes, lookup_cons_eq]
    by_cases hn : n = k
    · subst hn
      rw [values_addValues_self, lookup_eq_none_of_lt hk, if_pos rfl]
      exact List.append_nil _
    · rw [if_neg hn]
      unfold values
      rw [values?_addValues_of_ne opts hn]

/-! ### Changing all entries -/

theorem values?_filter (kept : Nat → Bool) (n : Nat) :
    (opts.filter kept).values? n = if kept n then opts.values? n else none := by
  have hlookup : ∀ es : List (Nat × List Bytes),
      (es.filter fun (k, _) => kept k).lookup n = if kept n then es.lookup n else none := by
    intro es
    induction es with
    | nil => simp
    | cons e es ih =>
      obtain ⟨k, vs⟩ := e
      by_cases hk : kept k = true
      · rw [List.filter_cons_of_pos (by simpa using hk), lookup_cons_eq, lookup_cons_eq, ih]
        by_cases hn : n = k
        · simp [hn, hk]
        · simp [hn]
      · rw [List.filter_cons_of_neg (by simpa using hk), ih, lookup_cons_eq]
        by_cases hn : n = k
        · simp [hn, hk]
        · simp [hn]
  exact hlookup opts.entries

theorem values_filter (kept : Nat → Bool) (n : Nat) :
    (opts.filter kept).values n = if kept n then opts.values n else [] := by
  unfold values
  rw [values?_filter]
  by_cases hkept : kept n = true
  · rw [if_pos hkept, if_pos hkept]
  · rw [if_neg hkept, if_neg hkept]
    rfl

theorem lookup_map_clear (gone : Nat → Bool) (es : List (Nat × List Bytes)) (n : Nat) :
    (es.map fun (k, vs) => (k, if gone k then [] else vs)).lookup n =
      (es.lookup n).map fun vs => if gone n then [] else vs := by
  induction es with
  | nil => rfl
  | cons e es ih =>
    obtain ⟨k, vs⟩ := e
    rw [List.map_cons, lookup_cons_eq, lookup_cons_eq, ih]
    by_cases h : n = k
    · rw [if_pos h, if_pos h, h]
      rfl
    · rw [if_neg h, if_neg h]

theorem values?_clearWhere (gone : Nat → Bool) (n : Nat) :
    (opts.clearWhere gone).values? n =
      (opts.values? n).map fun vs => if gone n then [] else vs :=
  lookup_map_clear gone opts.entries n

theorem values_clearWhere (gone : Nat → Bool) (n : Nat) :
    (opts.clearWhere gone).values n = if gone n then [] else opts.values n := by
  unfold values
  rw [values?_clearWhere]
  cases opts.values? n with
  | none => simp
  | some vs => rfl

theorem values_clear (number n : Nat) :
    (opts.clear number).values n = if n = number then [] else opts.values n := by
  unfold clear
  rw [values_clearWhere]
  simp only [decide_eq_true_eq]

theorem values?_clear_of_ne {number n : Nat} (h : n ≠ number) :
    (opts.clear number).values? n = opts.values? n := by
  unfold clear
  rw [values?_clearWhere, decide_eq_false h]
  exact Option.map_id'

theorem values?_foldl_set {es : List (Nat × List Bytes)}
    (h : es.Pairwise fun x y => x.1 < y.1) (n : Nat) :
    (es.foldl (fun opts (k, vs) => opts.set k vs) opts).values? n =
      (es.lookup n).or (opts.values? n) := by
  induction es generalizing opts with
  | nil => rfl
  | cons e es ih =>
    obtain ⟨k, vs⟩ := e
    obtain ⟨hk, hes⟩ := List.pairwise_cons.mp h
    rw [List.foldl_cons, ih (opts.set k vs) hes, values?_set, lookup_cons_eq]
    by_cases hn : n = k
    · have hnone : es.lookup n = none := by
        rw [hn]
        exact lookup_eq_none_of_lt hk
      rw [if_pos hn, if_pos hn, hnone]
      rfl
    · rw [if_neg hn, if_neg hn]

theorem values_overwrite (others : Options) (n : Nat) :
    (opts.overwrite others).values n = (others.values? n).getD (opts.values n) := by
  unfold values overwrite
  rw [values?_foldl_set opts others.ascending]
  show ((others.values? n).or (opts.values? n)).getD [] = _
  cases others.values? n with
  | none => rfl
  | some vs => rfl

end Options

end Coap

end SecureCoap
