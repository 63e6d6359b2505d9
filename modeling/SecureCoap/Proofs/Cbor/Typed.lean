import SecureCoap.Cbor.Typed
import SecureCoap.Proofs.Cbor.Reader

/-!
# What typed readers read

A number or a text is read from any item that encodes it, with tags in front as far as there may be
levels. A sequence of two items is read as a pair.
-/

namespace SecureCoap

namespace Cbor

open Bytes

/-! ### Opened items -/

/-- How many levels it takes to enter an item. -/
def Head.depth : Head → Nat
  | .array _ | .map _ => 1
  | _ => 0

/-- Tags and the start of an item, of which so many levels are entered. -/
def Opens (levels : Nat) (item : Opened) (bs : Bytes) : Prop :=
  ∃ count tags rest, IsTags count tags ∧ IsHead (some item.head) rest ∧
    count + item.head.depth + item.levels = levels ∧ bs = tags ++ rest

theorem opens_iff {levels : Nat} {item : Opened} {bs : Bytes} :
    Opens levels item bs ↔
      IsHead (some item.head) bs ∧ item.head.depth + item.levels = levels ∨
        ∃ inner first rest, levels = inner + 1 ∧ IsHead none first ∧ Opens inner item rest ∧
          bs = first ++ rest := by
  constructor
  · intro h
    obtain ⟨count, tags, rest, htags, hhead, hlevels, rfl⟩ := h
    cases htags with
    | none => exact Or.inl ⟨hhead, by omega⟩
    | @tag count first tags hfirst htags =>
      refine Or.inr ⟨count + item.head.depth + item.levels, first, tags ++ rest, by omega, hfirst,
        ⟨count, tags, rest, htags, hhead, rfl, rfl⟩, List.append_assoc ..⟩
  · intro h
    rcases h with ⟨hhead, hlevels⟩ | ⟨inner, first, rest, rfl, hfirst, hrest, rfl⟩
    · exact ⟨0, [], bs, .none, hhead, by omega, rfl⟩
    · obtain ⟨count, tags, rest, htags, hhead, hlevels, rfl⟩ := hrest
      exact ⟨count + 1, first ++ tags, rest, .tag hfirst htags, hhead, by omega,
        (List.append_assoc ..).symm⟩

namespace Reader

theorem openItem_eq (levels : Nat) :
    openItem levels = head? >>= fun found => match found, levels with
      | none, 0 => fail .tooDeep
      | none, inner + 1 => openItem inner
      | some head, levels =>
        if head.depth ≤ levels then return ⟨head, levels - head.depth⟩ else fail .tooDeep := by
  cases levels with
  | zero =>
    refine congrArg (head? >>= ·) (funext fun found => ?_)
    cases found with
    | none => rfl
    | some head => cases head <;> rfl
  | succ levels =>
    refine congrArg (head? >>= ·) (funext fun found => ?_)
    cases found with
    | none => rfl
    | some head => cases head <;> rfl

/-- An item that is entered, if it may be. -/
theorem entered_reads (levels : Nat) (head : Head) :
    Reads (if head.depth ≤ levels then return ⟨head, levels - head.depth⟩ else fail .tooDeep)
      fun (item : Opened) bs =>
        head = item.head ∧ item.head.depth + item.levels = levels ∧ bs = [] := by
  by_cases hdepth : head.depth ≤ levels
  · rw [if_pos hdepth]
    refine (Reads.pure _).congr fun item bs => ?_
    constructor
    · intro h
      obtain ⟨rfl, rfl⟩ := h
      exact ⟨rfl, Nat.add_sub_of_le hdepth, rfl⟩
    · intro h
      obtain ⟨rfl, hlevels, rfl⟩ := h
      have hrest : levels - item.head.depth = item.levels := by omega
      rw [hrest]
      exact ⟨rfl, rfl⟩
  · rw [if_neg hdepth]
    refine Reads.fail fun item bs h => ?_
    obtain ⟨rfl, hlevels, -⟩ := h
    omega

/-- Every tag takes a level, so that the item after it is opened with one less. -/
theorem openItem_reads (levels : Nat) : Reads (openItem levels) (Opens levels) := by
  induction levels using Nat.strong_induction_on with
  | _ levels ih =>
    rw [openItem_eq]
    refine (head?_reads.bind (H := fun found item bs => match found with
      | none => ∃ inner, levels = inner + 1 ∧ Opens inner item bs
      | some head => head = item.head ∧ item.head.depth + item.levels = levels ∧ bs = [])
      fun found => ?_).congr fun item bs => ?_
    · cases found with
      | some head => exact entered_reads levels head
      | none =>
        cases levels with
        | zero =>
          refine Reads.fail fun item bs h => ?_
          obtain ⟨inner, hinner, -⟩ := h
          cases hinner
        | succ inner =>
          refine (ih inner (Nat.lt_succ_self inner)).congr fun item bs => ?_
          simp
    · rw [opens_iff]
      constructor
      · intro h
        obtain ⟨found, xs, ys, hxs, hys, rfl⟩ := h
        cases found with
        | none =>
          obtain ⟨inner, hinner, hrest⟩ := hys
          exact Or.inr ⟨inner, xs, ys, hinner, hxs, hrest, rfl⟩
        | some head =>
          obtain ⟨rfl, hlevels, rfl⟩ := hys
          rw [List.append_nil]
          exact Or.inl ⟨hxs, hlevels⟩
      · intro h
        rcases h with ⟨hhead, hlevels⟩ | ⟨inner, first, rest, hinner, hfirst, hrest, rfl⟩
        · exact ⟨some item.head, bs, [], hhead, ⟨rfl, hlevels, rfl⟩, (List.append_nil bs).symm⟩
        · exact ⟨none, first, rest, hfirst, ⟨inner, hinner, hrest⟩, rfl⟩

/-! ### Numbers and texts -/

/-- An item that is all in its head, with tags in front. -/
theorem Reads.opened {α : Type} {levels : Nat} {f : Opened → Reader α}
    {P : Head → α → Prop} (hplain : ∀ head a, P head a → head.depth = 0)
    (hf : ∀ item, Reads (f item) fun a bs => P item.head a ∧ bs = []) :
    Reads (openItem levels >>= f)
      fun a => Tagged levels fun bs => ∃ head, P head a ∧ IsHead (some head) bs := by
  refine ((openItem_reads levels).bind hf).congr fun a bs => ?_
  constructor
  · intro h
    obtain ⟨item, xs, ys, hxs, ⟨ha, rfl⟩, rfl⟩ := h
    rw [List.append_nil]
    obtain ⟨count, tags, rest, htags, hhead, hlevels, rfl⟩ := hxs
    exact ⟨count, tags, rest, by omega, htags, ⟨item.head, ha, hhead⟩, rfl⟩
  · intro h
    obtain ⟨count, tags, rest, hle, htags, ⟨head, ha, hhead⟩, rfl⟩ := h
    refine ⟨⟨head, levels - count⟩, tags ++ rest, [], ⟨count, tags, rest, htags, hhead, ?_, rfl⟩,
      ⟨ha, rfl⟩, (List.append_nil _).symm⟩
    simp only [hplain head a ha]
    omega

theorem text_reads (levels : Nat) : Reads (text levels) fun t => Tagged levels (IsText t) := by
  refine (Reads.opened (P := fun head t =>
    head = .text t ∨ head = .bytes (Utf8.encode t)) ?_ fun item => ?_).congr fun t bs => ?_
  · intro head t h
    rcases h with rfl | rfl <;> rfl
  · rcases item with ⟨head, levels⟩
    have hother : ∀ {head : Head}, (∀ t, head ≠ .text t) → (∀ bs, head ≠ .bytes bs) →
        Reads (wrongType ⟨head, levels⟩ .text)
          fun t bs => (head = .text t ∨ head = .bytes (Utf8.encode t)) ∧ bs = [] := by
      intro head htext hbytes
      refine Reads.throw fun t bs h => ?_
      rcases h.1 with h | h
      · exact htext t h
      · exact hbytes _ h
    cases head with
    | text s =>
      refine (Reads.pure s).congr fun t bs => ?_
      simp [eq_comm]
    | bytes content =>
      dsimp only
      cases hdecode : Utf8.decode? content with
      | some s =>
        refine (Reads.pure s).congr fun t bs => ?_
        simp [← Utf8.decode?_eq_some_iff, hdecode, eq_comm]
      | none =>
        refine Reads.throw fun t bs => ?_
        simp [← Utf8.decode?_eq_some_iff, hdecode]
    | _ => exact hother (fun t h => nomatch h) (fun bs h => nomatch h)
  · simp [IsText, or_and_right, exists_or, Tagged]

theorem unsigned_eq_ofInt_iff {k : Nat} {n : Int} : Head.unsigned k = .ofInt n ↔ n = k := by
  cases n with
  | ofNat n => simp [Head.ofInt, eq_comm]
  | negSucc n => exact iff_of_false nofun (by omega)

theorem negative_eq_ofInt_iff {k : Nat} {n : Int} : Head.negative k = .ofInt n ↔ n = -1 - k := by
  cases n with
  | ofNat n => exact iff_of_false nofun (by show ¬(n : Int) = -1 - k; omega)
  | negSucc n =>
    rw [Head.ofInt, Head.negative.injEq]
    omega

theorem inRange_reads {low high : Int} (m : Int) (e : DecodeError) :
    Reads (if low ≤ m ∧ m ≤ high then pure m else throw e) fun n bs =>
      ((low ≤ n ∧ n ≤ high) ∧ n = m) ∧ bs = [] := by
  by_cases hrange : low ≤ m ∧ m ≤ high
  · rw [if_pos hrange]
    refine (Reads.pure m).congr fun n bs => ?_
    constructor
    · intro h
      obtain ⟨rfl, rfl⟩ := h
      exact ⟨⟨hrange, rfl⟩, rfl⟩
    · intro h
      exact ⟨h.1.2, h.2⟩
  · rw [if_neg hrange]
    refine Reads.throw fun n bs h => ?_
    obtain ⟨⟨hn, rfl⟩, -⟩ := h
    exact hrange hn

theorem integer_reads {low high : Int} (hlow : -0x8000000000000000 ≤ low) (expected : Expected)
    (levels : Nat) :
    Reads (integer low high expected levels) fun n bs =>
      (low ≤ n ∧ n ≤ high) ∧ Tagged levels (IsInteger n) bs := by
  refine (Reads.opened (P := fun head n => (low ≤ n ∧ n ≤ high) ∧ head = .ofInt n) ?_
    fun item => ?_).congr fun n bs => ?_
  · intro head n h
    obtain ⟨-, rfl⟩ := h
    cases n <;> rfl
  · rcases item with ⟨head, levels⟩
    have hother : ∀ {head : Head}, (∀ n, head ≠ .ofInt n) →
        Reads (wrongType ⟨head, levels⟩ expected)
          fun n bs => ((low ≤ n ∧ n ≤ high) ∧ head = .ofInt n) ∧ bs = [] :=
      fun hne => Reads.throw fun n bs h => hne n h.1.2
    cases head with
    | unsigned k =>
      dsimp only
      simp only [unsigned_eq_ofInt_iff]
      exact inRange_reads k _
    | negative k =>
      dsimp only
      simp only [negative_eq_ofInt_iff]
      by_cases hwide : 0x8000000000000000 ≤ k
      · rw [if_pos hwide]
        refine Reads.throw fun n bs h => ?_
        obtain ⟨⟨hn, rfl⟩, -⟩ := h
        omega
      rw [if_neg hwide]
      exact inRange_reads (-1 - k) _
    | _ => exact hother fun n => by cases n <;> exact nofun
  · simp only [Tagged, IsInteger]
    constructor
    · intro h
      obtain ⟨count, tags, rest, hle, htags, ⟨head, ⟨hrange, rfl⟩, hhead⟩, rfl⟩ := h
      exact ⟨hrange, count, tags, rest, hle, htags, hhead, rfl⟩
    · intro h
      obtain ⟨hrange, count, tags, rest, hle, htags, hhead, rfl⟩ := h
      exact ⟨count, tags, rest, hle, htags, ⟨_, ⟨hrange, rfl⟩, hhead⟩, rfl⟩

/-! ### Sequences of two items -/

section

variable {α β : Type} {first : Nat → Reader α} {second : Nat → Reader β} {levels : Nat}
  {G : α → Bytes → Prop} {H : β → Bytes → Prop} {bs : Bytes} {x : α} {y : β}

theorem element?_some {α : Type} (read : Reader α) (n : Nat) :
    element? read (some (n + 1)) = read >>= fun x => pure (some x) := by
  have hmore : more (some (n + 1)) = pure true := by
    simp [more]
  rw [element?, hmore, pure_bind]
  rfl

/-- In an array of two elements a pair is one element and another one. -/
theorem pair_run (first : Nat → Reader α) (second : Nat → Reader β) (levels : Nat) (bs : Bytes) :
    (pair first second (levels + 1)).run (.sliding (0x82 :: bs)) =
      (first levels >>= fun x => second levels >>= fun y => pure (x, y)).run ⟨bs, 1, 0, true⟩ := by
  have hopen : (openItem (levels + 1)).run (.sliding (0x82 :: bs)) =
      .ok (⟨.array (some 2), levels⟩, ⟨bs, 1, 0, true⟩) := rfl
  have hrest : rest (some 2) = some 1 := rfl
  rw [pair, StateT.run_bind, hopen, ok_bind]
  dsimp only
  rw [hrest, element?_some, element?_some]
  simp only [bind_assoc, pure_bind]
  rfl

theorem pair_reads (hfirst : Reads (first levels) G) (hsecond : Reads (second levels) H) :
    Reads (first levels >>= fun x => second levels >>= fun y => pure (x, y))
      fun p bs => ∃ xs ys, G p.1 xs ∧ H p.2 ys ∧ bs = xs ++ ys := by
  refine (hfirst.bind fun x => hsecond.map fun y => (x, y)).congr fun p bs => ?_
  constructor
  · intro h
    obtain ⟨x, xs, ys, hx, ⟨y, rfl, hy⟩, rfl⟩ := h
    exact ⟨xs, ys, hx, hy, rfl⟩
  · intro h
    obtain ⟨xs, ys, hx, hy, rfl⟩ := h
    exact ⟨p.1, xs, ys, hx, ⟨p.2, rfl, hy⟩, rfl⟩

theorem decodeSequence_pair_eq_ok :
    decodeSequence (pair first second (levels + 1)) 2 bs = .ok (x, y) ↔
      (first levels >>= fun x => second levels >>= fun y => pure (x, y)).runAll ⟨bs, 1, 0, true⟩ =
        .ok (x, y) := by
  have hsequence : decodeSequence (pair first second (levels + 1)) 2 bs =
      ((pair first second (levels + 1)).runAll (.sliding (0x82 :: bs))).mapError .decode := rfl
  rw [hsequence, mapError_eq_ok, runAll_eq_ok, runAll_eq_ok, pair_run]

/-- What is decoded as a pair is one word and another one. -/
theorem of_decodeSequence_pair (hfirst : Reads (first levels) G) (hsecond : Reads (second levels) H)
    (h : decodeSequence (pair first second (levels + 1)) 2 bs = .ok (x, y)) :
    ∃ xs ys, G x xs ∧ H y ys ∧ bs = xs ++ ys :=
  (pair_reads hfirst hsecond).of_runAll (decodeSequence_pair_eq_ok.mp h)

theorem decodeSequence_pair_iff (hfirst : Reads (first levels) G)
    (hsecond : Reads (second levels) H) (hbound : bs.length + 1 < 2 ^ 64) :
    decodeSequence (pair first second (levels + 1)) 2 bs = .ok (x, y) ↔
      ∃ xs ys, G x xs ∧ H y ys ∧ bs = xs ++ ys := by
  have hc : Cursor.Bounded ⟨bs, 1, 0, true⟩ := by
    show 1 + bs.length < 2 ^ 64
    omega
  rw [decodeSequence_pair_eq_ok, (pair_reads hfirst hsecond).runAll_iff hc]

end

end Reader

end Cbor

end SecureCoap
