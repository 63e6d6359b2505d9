import SecureCoap.Checked
import SecureCoap.Proofs.Bytes

/-!
# When a step stays in range

For each step on words and byte strings, what has to hold for it to have a result, and what that is.
-/

namespace SecureCoap

/-! ### Words -/

namespace Word

theorem add?_of_lt {m n : Nat} (h : m + n < 2 ^ 64) : add? m n = some (m + n) := if_pos h

theorem sub?_of_le {m n : Nat} (h : n ≤ m) : sub? m n = some (m - n) := if_pos h

theorem shiftLeft?_of_lt {n : Nat} (h : n < 64) (m : Nat) :
    shiftLeft? m n = some ((m <<< n) % 2 ^ 64) := if_pos h

theorem shiftLeft?_one {n : Nat} (h : n < 64) : shiftLeft? 1 n = some (2 ^ n) := by
  rw [shiftLeft?_of_lt h, Nat.one_shiftLeft, Nat.mod_eq_of_lt]
  exact Nat.pow_lt_pow_right (by decide) h

end Word

/-! ### Byte strings -/

namespace Bytes

theorem exactly?_of_length_eq {length : Nat} {bs : Bytes} (h : bs.length = length) :
    exactly? length bs = some bs := if_pos h

theorem remove?_of_le {start stop : Nat} {bs : Bytes} (hstart : start ≤ stop)
    (hstop : stop ≤ bs.length) : remove? start stop bs = some (bs.take start ++ bs.drop stop) :=
  if_pos ⟨hstart, hstop⟩

theorem takeRight?_eq (n : Nat) (bs : Bytes) : takeRight? n bs = some (takeRight n bs) := by
  unfold takeRight?
  split
  · next h =>
    rw [Word.sub?_of_le (Nat.le_of_lt h)]
    show slice? (bs.length - n) bs.length bs = _
    rw [slice?_of_le (Nat.sub_le _ _) (Nat.le_refl _), List.take_length]
    rfl
  · next h => rw [takeRight_of_length_le (by omega)]

/-- Filling the right end of a field of zeros aligns the bytes in it. -/
theorem fill?_padLeft (front rest : Bytes) {width : Nat} {bs : Bytes} (h : bs.length ≤ width) :
    fill? (front.length + width - bs.length) (front.length + width) bs
      (front ++ List.replicate width 0 ++ rest) = some (front ++ padLeft width bs ++ rest) := by
  have hstart : front.length + width - bs.length = front.length + (width - bs.length) := by omega
  have hfield : (front ++ List.replicate width 0).length = front.length + width := by simp
  have htake : (front ++ List.replicate width 0 ++ rest).take (front.length + (width - bs.length)) =
      front ++ List.replicate (width - bs.length) 0 := by
    rw [List.append_assoc, List.take_length_add_append, List.take_append_of_le_length (by simp),
      List.take_replicate, Nat.min_eq_left (Nat.sub_le _ _)]
  have hdrop : (front ++ List.replicate width 0 ++ rest).drop (front.length + width) = rest :=
    List.drop_left' hfield
  unfold fill?
  rw [hstart, htake, hdrop, if_pos ⟨by omega, by simp, by omega⟩, padLeft, List.append_assoc front]

end Bytes

end SecureCoap
