import Mathlib.Data.List.Basic
import Mathlib.Tactic.Tauto
import SecureCoap.Oscore.ReplayWindow

/-!
# What a replay window stands for

A window stands for the list of all numbers that were struck out in it: it has their maximum, and a
bit for each place below that. From this follows which numbers are still valid. The order in which
they were struck out, and how often, leaves no trace.
-/

namespace SecureCoap

namespace Oscore

namespace ReplayWindow

/-- The window after numbers were struck out one after another, valid or not. -/
def strikeAll (w : ReplayWindow) (ns : List Nat) : ReplayWindow := ns.foldl strikeOut w

/-- The window after the numbers `ns` were struck out, in whatever order. -/
structure Tracks (w : ReplayWindow) (ns : List Nat) : Prop where
  size_pos : 0 < w.size
  size_le : w.size ≤ maxSize
  highest : w.highest = ns.max?
  seen : ∀ i, w.seen.testBit i = true ↔ i < w.size ∧ ∃ n ∈ ns, w.highest = some (n + i)

@[simp] theorem marked_size (w : ReplayWindow) (n : Nat) : (w.marked n).size = w.size := by
  unfold marked
  split
  · rfl
  · split
    · split
      · rfl
      · rfl
    · rfl

@[simp] theorem strikeOut_size (w : ReplayWindow) (n : Nat) : (w.strikeOut n).size = w.size :=
  marked_size w n

theorem testBit_mask {w : ReplayWindow} (h : w.size ≤ maxSize) (i : Nat) :
    w.mask.testBit i = decide (i < w.size) := by
  unfold mask
  rw [Nat.one_shiftLeft, Nat.one_shiftLeft]
  split
  · next hle => rw [Nat.testBit_two_pow_sub_one, Nat.le_antisymm h hle]
  · rw [Nat.testBit_two_pow_sub_one]

/-- In the window, a bit goes up with the number that it stands for. -/
theorem testBit_moved {w : ReplayWindow} {i : Nat} (hi : i < maxSize) (distance : Nat) :
    (w.moved distance).testBit i = true ↔
      i = 0 ∨ distance ≤ i ∧ w.seen.testBit (i - distance) = true := by
  unfold moved
  rw [Nat.testBit_or, Bool.or_eq_true, Nat.testBit_one_eq_true_iff_self_eq_zero]
  split
  · next hle =>
    rw [Nat.zero_testBit]
    simp only [Bool.false_eq_true, false_or]
    omega
  · rw [Nat.one_shiftLeft, Nat.testBit_mod_two_pow, Nat.testBit_shiftLeft]
    simp only [hi, decide_true, Bool.true_and, Bool.and_eq_true, decide_eq_true_eq]
    exact or_comm

theorem tracks_new (size : Nat) : (new size).Tracks [] where
  size_pos := by
    show 0 < min (max size 1) maxSize
    have h : maxSize = 64 := rfl
    omega
  size_le := Nat.min_le_right _ _
  highest := rfl
  seen := by
    intro i
    simp [new]

namespace Tracks

variable {w : ReplayWindow} {ns : List Nat}

theorem le_highest (h : w.Tracks ns) {m n : Nat} (hm : w.highest = some m) (hn : n ∈ ns) :
    n ≤ m := by
  have hmax : ns.max? = some m := by rw [← h.highest, hm]
  exact (List.max?_eq_some_iff.mp hmax).2 n hn

theorem eq_nil (h : w.Tracks ns) (hnone : w.highest = none) : ns = [] := by
  have hmax : ns.max? = none := by rw [← h.highest, hnone]
  exact List.max?_eq_none_iff.mp hmax

/-- A number is valid if it is higher than all that were struck out, or if it lies in the window
and was not struck out itself. -/
theorem isValid_iff (h : w.Tracks ns) (n : Nat) :
    w.isValid n = true ↔ ∀ m, w.highest = some m → m < n ∨ m - n < w.size ∧ n ∉ ns := by
  unfold isValid
  cases hm : w.highest with
  | none => simp
  | some m =>
    have hbit := h.seen (m - n)
    simp only [Option.some.injEq, forall_eq', Bool.or_eq_true, Bool.and_eq_true, decide_eq_true_eq,
      Bool.not_eq_true', ← Bool.not_eq_true, hbit]
    by_cases hlt : m < n
    · simp [hlt]
    · have hplace : (∃ k ∈ ns, w.highest = some (k + (m - n))) ↔ n ∈ ns := by
        constructor
        · intro h
          obtain ⟨k, hk, heq⟩ := h
          have hkm : m = k + (m - n) := by
            rw [hm] at heq
            exact Option.some.inj heq
          have hkn : k = n := by omega
          rwa [← hkn]
        · intro hn
          refine ⟨n, hn, ?_⟩
          rw [hm]
          congr 1
          omega
      rw [hplace]
      tauto

theorem isValid_of_nil (h : w.Tracks []) (n : Nat) : w.isValid n = true := by
  apply (h.isValid_iff n).mpr
  intro m hm
  rw [h.highest] at hm
  cases hm

/-- What was struck out below a valid number lies less than a window below it; what was struck out
above it lies in one window with it. -/
theorem lt_of_isValid (h : w.Tracks ns) {n : Nat} (hn : w.isValid n = true) :
    ∀ k ∈ ns, k < n + w.size := by
  intro k hk
  cases hm : w.highest with
  | none =>
    rw [h.eq_nil hm] at hk
    cases hk
  | some m =>
    have hle := h.le_highest hm hk
    have hpos := h.size_pos
    rcases (h.isValid_iff n).mp hn m hm with hlt | ⟨hin, -⟩
    · omega
    · omega

theorem not_mem_of_isValid (h : w.Tracks ns) {n : Nat} (hn : w.isValid n = true) : n ∉ ns := by
  intro hmem
  cases hm : w.highest with
  | none =>
    rw [h.eq_nil hm] at hmem
    cases hmem
  | some m =>
    have hle := h.le_highest hm hmem
    rcases (h.isValid_iff n).mp hn m hm with hlt | ⟨-, hnot⟩
    · omega
    · exact hnot hmem

/-- A number is valid unless it was struck out itself, or one that is higher by the size of the
window or more. -/
theorem isValid_iff_forall (h : w.Tracks ns) (n : Nat) :
    w.isValid n = true ↔ ∀ k ∈ ns, k ≠ n ∧ k < n + w.size := by
  constructor
  · intro hn k hk
    refine ⟨?_, h.lt_of_isValid hn k hk⟩
    rintro rfl
    exact h.not_mem_of_isValid hn hk
  · intro hall
    apply (h.isValid_iff n).mpr
    intro m hm
    -- The highest number is one of those that were struck out.
    have hmax : ns.max? = some m := by rw [← h.highest, hm]
    obtain ⟨hne, hlt⟩ := hall m (List.max?_eq_some_iff.mp hmax).1
    by_cases hbelow : m < n
    · exact Or.inl hbelow
    · exact Or.inr ⟨by omega, fun hmem => (hall n hmem).1 rfl⟩

/-! ### Striking out -/

/-- It is enough to look at the bits of the window, since the others are masked out. -/
theorem strikeOut_of_marked (h : w.Tracks ns) {n : Nat}
    (hhighest : (w.marked n).highest = (n :: ns).max?)
    (hseen : ∀ i < w.size,
      (w.marked n).seen.testBit i = true ↔ ∃ k ∈ n :: ns, (w.marked n).highest = some (k + i)) :
    (w.strikeOut n).Tracks (n :: ns) := by
  have hsize : (w.strikeOut n).size = w.size := strikeOut_size w n
  refine ⟨hsize.symm ▸ h.size_pos, hsize.symm ▸ h.size_le, hhighest, ?_⟩
  intro i
  show ((w.marked n).seen &&& (w.marked n).mask).testBit i = true ↔
    i < (w.marked n).size ∧ ∃ k ∈ n :: ns, (w.marked n).highest = some (k + i)
  rw [Nat.testBit_and, testBit_mask (by rw [marked_size]; exact h.size_le), marked_size,
    Bool.and_eq_true, decide_eq_true_eq, and_comm]
  exact and_congr_right (hseen i)

theorem strikeOut_of_none (h : w.Tracks ns) (hm : w.highest = none) (n : Nat) :
    (w.strikeOut n).Tracks (n :: ns) := by
  have hns := h.eq_nil hm
  subst hns
  have hmarked : w.marked n = { w with highest := some n, seen := w.moved maxSize } := by
    unfold marked
    rw [hm]
  apply h.strikeOut_of_marked
  · rw [hmarked]
    rfl
  · intro i hi
    have hmax : i < maxSize := Nat.lt_of_lt_of_le hi h.size_le
    rw [hmarked]
    show (w.moved maxSize).testBit i = true ↔ ∃ k ∈ [n], some n = some (k + i)
    rw [testBit_moved hmax]
    simp only [List.mem_singleton, exists_eq_left, Option.some.injEq]
    omega

theorem strikeOut_of_le (h : w.Tracks ns) {m n : Nat} (hm : w.highest = some m) (hle : n ≤ m) :
    (w.strikeOut n).Tracks (n :: ns) := by
  have hmax : w.highest = (n :: ns).max? := by
    rw [List.max?_cons, ← h.highest, hm]
    show some m = some (max n m)
    rw [Nat.max_eq_right hle]
  have hself : ∀ i, w.highest = some (n + i) ↔ m - n = i := by
    intro i
    rw [hm, Option.some.injEq]
    omega
  by_cases hin : m - n < maxSize
  · have hmarked : w.marked n = { w with seen := w.seen ||| 1 <<< (m - n) } := by
      simp [marked, hm, hle, hin]
    apply h.strikeOut_of_marked
    · rw [hmarked]
      exact hmax
    · intro i hi
      rw [hmarked]
      show (w.seen ||| 1 <<< (m - n)).testBit i = true ↔ ∃ k ∈ n :: ns, w.highest = some (k + i)
      rw [Nat.one_shiftLeft, Nat.testBit_or, Bool.or_eq_true, h.seen, Nat.testBit_two_pow,
        decide_eq_true_eq, List.exists_mem_cons_iff, hself, and_iff_right hi]
      exact or_comm
  · have hmarked : w.marked n = w := by simp [marked, hm, hle, hin]
    apply h.strikeOut_of_marked
    · rw [hmarked]
      exact hmax
    · intro i hi
      -- A number as low as this has no bit in a word, let alone in the window.
      have hne : m - n ≠ i := by
        have hsize := h.size_le
        omega
      rw [hmarked, h.seen, List.exists_mem_cons_iff, hself, and_iff_right hi, or_iff_right hne]

theorem strikeOut_of_lt (h : w.Tracks ns) {m n : Nat} (hm : w.highest = some m) (hlt : m < n) :
    (w.strikeOut n).Tracks (n :: ns) := by
  have hmarked : w.marked n = { w with highest := some n, seen := w.moved (n - m) } := by
    simp [marked, hm, Nat.not_le.mpr hlt]
  apply h.strikeOut_of_marked
  · rw [hmarked, List.max?_cons, ← h.highest, hm]
    show some n = some (max n m)
    rw [Nat.max_eq_left (Nat.le_of_lt hlt)]
  · intro i hi
    have hmax : i < maxSize := Nat.lt_of_lt_of_le hi h.size_le
    rw [hmarked]
    show (w.moved (n - m)).testBit i = true ↔ ∃ k ∈ n :: ns, some n = some (k + i)
    rw [testBit_moved hmax, h.seen, List.exists_mem_cons_iff, hm]
    simp only [Option.some.injEq]
    -- What was struck out before is below `n`, so that none of it has the first bit.
    have hplaces : (n - m ≤ i ∧ i - (n - m) < w.size ∧ ∃ k ∈ ns, m = k + (i - (n - m))) ↔
        ∃ k ∈ ns, n = k + i := by
      constructor
      · intro h
        obtain ⟨hge, -, k, hk, heq⟩ := h
        exact ⟨k, hk, by omega⟩
      · intro h
        obtain ⟨k, hk, heq⟩ := h
        have hkm := h.le_highest hm hk
        exact ⟨by omega, by omega, k, hk, by omega⟩
    rw [hplaces]
    refine or_congr ?_ Iff.rfl
    omega

/-- Striking out a number adds it to those that the window stands for. -/
theorem strikeOut (h : w.Tracks ns) (n : Nat) : (w.strikeOut n).Tracks (n :: ns) := by
  cases hm : w.highest with
  | none => exact h.strikeOut_of_none hm n
  | some m =>
    by_cases hle : n ≤ m
    · exact h.strikeOut_of_le hm hle
    · exact h.strikeOut_of_lt hm (by omega)

/-! ### Order and repetition -/

variable {w' : ReplayWindow} {ns' : List Nat}

theorem congr (h : w.Tracks ns) (hmem : ∀ n, n ∈ ns ↔ n ∈ ns') : w.Tracks ns' where
  size_pos := h.size_pos
  size_le := h.size_le
  highest := by
    rw [h.highest]
    ext m
    simp only [List.max?_eq_some_iff, hmem]
  seen := by
    intro i
    simp only [h.seen, hmem]

/-- A window is determined by its size and by what was struck out. -/
theorem eq (h : w.Tracks ns) (h' : w'.Tracks ns) (hsize : w.size = w'.size) : w = w' := by
  have hhighest : w.highest = w'.highest := h.highest.trans h'.highest.symm
  have hseen : w.seen = w'.seen := by
    apply Nat.eq_of_testBit_eq
    intro i
    rw [Bool.eq_iff_iff, h.seen, h'.seen, hsize, hhighest]
  cases w
  cases w'
  simp_all

/-- The more was struck out, the fewer numbers are valid. -/
theorem isValid_of_subset (h : w.Tracks ns) (h' : w'.Tracks ns') (hsize : w.size = w'.size)
    (hsub : ns ⊆ ns') {n : Nat} (hn : w'.isValid n = true) : w.isValid n = true := by
  apply (h.isValid_iff_forall n).mpr
  intro k hk
  rw [hsize]
  exact (h'.isValid_iff_forall n).mp hn k (hsub hk)

theorem isValid_iff_max (h : w.Tracks ns) (n : Nat) :
    w.isValid n = true ↔
      ns = [] ∨ ∃ m, ns.max? = some m ∧ (m < n ∨ m - n < w.size ∧ n ∉ ns) := by
  rw [h.isValid_iff, h.highest]
  cases hmax : ns.max? with
  | none => simp [List.max?_eq_none_iff.mp hmax]
  | some m =>
    have hne : ns ≠ [] := by
      rintro rfl
      cases hmax
    simp [hne]

theorem testBit_seen (h : w.Tracks ns) (i : Nat) :
    w.seen.testBit i = true ↔ i < w.size ∧ ∃ m, ns.max? = some m ∧ i ≤ m ∧ m - i ∈ ns := by
  rw [h.seen, h.highest]
  refine and_congr_right fun _ => ?_
  constructor
  · intro h
    obtain ⟨k, hk, hmax⟩ := h
    exact ⟨k + i, hmax, by omega, by rwa [Nat.add_sub_cancel]⟩
  · intro h
    obtain ⟨m, hmax, hle, hmem⟩ := h
    exact ⟨m - i, hmem, by rw [hmax, Nat.sub_add_cancel hle]⟩

theorem strikeAll (h : w.Tracks ns) (ms : List Nat) :
    (w.strikeAll ms).Tracks (ms.reverse ++ ns) := by
  induction ms generalizing w ns with
  | nil => exact h
  | cons m ms ih =>
    rw [List.reverse_cons, List.append_assoc]
    exact ih (h.strikeOut m)

end Tracks

theorem strikeAll_size (w : ReplayWindow) (ns : List Nat) : (w.strikeAll ns).size = w.size := by
  induction ns generalizing w with
  | nil => rfl
  | cons n ns ih =>
    show ((w.strikeOut n).strikeAll ns).size = w.size
    rw [ih, strikeOut_size]

theorem tracks_strikeAll_new (size : Nat) (ns : List Nat) :
    ((new size).strikeAll ns).Tracks ns :=
  ((tracks_new size).strikeAll ns).congr fun n => by simp

/-- A window is the set of the numbers that were struck out in it, in whatever order and however
often: valid is what is higher than all of them, or less than the size of the window below the
highest and not one of them, and a bit of the window is set exactly if the number that it stands for
is one of them. What is not valid never becomes valid again. -/
theorem mirrors_struck_numbers (size : Nat) (ns : List Nat) :
    let width := min (max size 1) 64
    let w := (new size).strikeAll ns
    w.size = width ∧ w.highest = ns.max? ∧
    (∀ n, w.isValid n = true ↔
      ns = [] ∨ ∃ m, ns.max? = some m ∧ (m < n ∨ m - n < width ∧ n ∉ ns)) ∧
    (∀ i, w.seen.testBit i = true ↔
      i < width ∧ ∃ m, ns.max? = some m ∧ i ≤ m ∧ m - i ∈ ns) ∧
    (∀ ns', (∀ n, n ∈ ns' ↔ n ∈ ns) → (new size).strikeAll ns' = w) ∧
    ∀ n later, w.isValid n = false → (w.strikeAll later).isValid n = false := by
  intro width w
  have hsize : w.size = width := strikeAll_size (new size) ns
  have htracks : w.Tracks ns := tracks_strikeAll_new size ns
  refine ⟨hsize, htracks.highest, ?_, ?_, ?_, ?_⟩
  · intro n
    rw [htracks.isValid_iff_max, hsize]
  · intro i
    rw [htracks.testBit_seen, hsize]
  · intro ns' hsame
    have htracks' : ((new size).strikeAll ns').Tracks ns :=
      (tracks_strikeAll_new size ns').congr hsame
    exact htracks'.eq htracks ((strikeAll_size _ ns').trans hsize.symm)
  · intro n later hinvalid
    have hlater := htracks.strikeAll later
    rw [← Bool.not_eq_true] at hinvalid ⊢
    intro hvalid
    exact hinvalid (htracks.isValid_of_subset hlater (strikeAll_size w later).symm
      (List.subset_append_right _ _) hvalid)

/-- A jump by more than the window clears it, and numbers below the window count as received. -/
example : (new 4).strikeAll [7, 5, 7, 2] = ⟨4, some 7, 5⟩ ∧
    ((new 4).strikeAll [7, 5, 7, 2]).isValid 3 = false ∧
    ((new 4).strikeAll [7, 5, 7, 2]).isValid 4 = true ∧
    (new 4).strikeAll [7, 5, 7, 2, 100] = ⟨4, some 100, 1⟩ := by
  decide

end ReplayWindow

end Oscore

end SecureCoap
