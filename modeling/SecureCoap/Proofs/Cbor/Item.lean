import SecureCoap.Cbor.Decode
import SecureCoap.Proofs.Cbor.Order
import SecureCoap.Proofs.Cbor.Reader

/-!
# Whole items

What an item looks like together with all that is inside of it, in whatever form it is written, and
that it is decoded as the value that it stands for. Where entries of maps are written in another
order than that of their keys, the value has them in order.
-/

namespace SecureCoap

namespace Cbor

open Bytes

/-! ### Items -/

/-- What comes after so many elements: nothing if they were counted in front, or else a break. -/
inductive IsEnding (length : Nat) : (count : Option Nat) → Bytes → Prop where
  | counted : IsEnding length (some length) []
  | stop : IsEnding length none [0xFF]

/-- The encoding of an item without tags and floating point numbers, which has at most so many
levels of arrays and maps. A map has its entries in the order that they are written in. -/
inductive IsItem : (levels : Nat) → Value → Bytes → Prop where
  | null {levels : Nat} {bs : Bytes} (h : IsHead (some .null) bs) : IsItem levels .null bs
  | bool {levels : Nat} {b : Bool} {bs : Bytes} (h : IsHead (some (.bool b)) bs) :
    IsItem levels (.bool b) bs
  | int {levels : Nat} {n : Int} {bs : Bytes} (h : IsInteger n bs) : IsItem levels (.int n) bs
  | bytes {levels : Nat} {content bs : Bytes} (h : IsByteStringOf content bs) :
    IsItem levels (.bytes content) bs
  | text {levels : Nat} {s : String} {bs : Bytes} (h : IsHead (some (.text s)) bs) :
    IsItem levels (.text s) bs
  | array {levels : Nat} {count : Option Nat} {start ending : Bytes} {parts : List (Value × Bytes)}
    (hstart : IsHead (some (.array count)) start) (hending : IsEnding parts.length count ending)
    (h : ∀ p ∈ parts, IsItem levels p.1 p.2) :
    IsItem (levels + 1) (.array (parts.map (·.1))) (start ++ parts.flatMap (·.2) ++ ending)
  | map {levels : Nat} {count : Option Nat} {start ending : Bytes}
    {parts : List ((Value × Bytes) × Value × Bytes)}
    (hstart : IsHead (some (.map count)) start) (hending : IsEnding parts.length count ending)
    (hkeys : ∀ p ∈ parts, IsItem levels p.1.1 p.1.2)
    (hvalues : ∀ p ∈ parts, IsItem levels p.2.1 p.2.2) :
    IsItem (levels + 1) (.map (parts.map fun p => (p.1.1, p.2.1)))
      (start ++ parts.flatMap (fun p => p.1.2 ++ p.2.2) ++ ending)

/-- An item starts with something else than a break. -/
def StartsItem (bs : Bytes) : Prop := ∃ initial rest, bs = initial :: rest ∧ initial ≠ 0xFF

theorem StartsItem.append {start rest : Bytes} (h : StartsItem start) :
    StartsItem (start ++ rest) := by
  obtain ⟨initial, rest', rfl, hne⟩ := h
  exact ⟨initial, rest' ++ rest, rfl, hne⟩

theorem IsHead.startsItem {head : Option Head} {bs : Bytes} (h : IsHead head bs) :
    StartsItem bs := by
  cases bs with
  | nil => exact h.elim
  | cons initial rest =>
    refine ⟨initial, rest, rfl, ?_⟩
    rintro rfl
    change IsBody 31 7 head rest at h
    cases h with
    | simple h => cases h

theorem IsItem.startsItem {levels : Nat} {v : Value} {bs : Bytes} (h : IsItem levels v bs) :
    StartsItem bs := by
  cases h with
  | array hstart => exact hstart.startsItem.append.append
  | map hstart => exact hstart.startsItem.append.append
  | null h => exact h.startsItem
  | bool h => exact h.startsItem
  | int h => exact IsHead.startsItem h
  | bytes h => exact IsHead.startsItem h
  | text h => exact h.startsItem

/-! ### Maps in order -/

mutual

/-- A value with the entries of all maps in it in order. -/
def Value.inOrder : Value → Value
  | .array items => .array (Value.itemsInOrder items)
  | .map entries => .ofEntries (Value.entriesInOrder entries)
  | v => v

def Value.itemsInOrder : List Value → List Value
  | [] => []
  | v :: vs => v.inOrder :: Value.itemsInOrder vs

def Value.entriesInOrder : List (Value × Value) → List (Value × Value)
  | [] => []
  | (k, v) :: es => (k.inOrder, v.inOrder) :: Value.entriesInOrder es

end

theorem Value.itemsInOrder_eq (items : List Value) :
    itemsInOrder items = items.map inOrder := by
  induction items with
  | nil => rfl
  | cons v vs ih => rw [itemsInOrder, ih, List.map_cons]

theorem Value.entriesInOrder_eq (entries : List (Value × Value)) :
    entriesInOrder entries = entries.map fun e => (e.1.inOrder, e.2.inOrder) := by
  induction entries with
  | nil => rfl
  | cons e es ih => rw [entriesInOrder, ih, List.map_cons]

namespace Reader

/-! ### Elements -/

section

variable {α ι : Type} {read : Reader α} {parts : List ι} {value : ι → α} {word : ι → Bytes}

theorem Takes.times (h : ∀ p ∈ parts, Takes read (value p) (word p)) :
    Takes (times read parts.length) (parts.map value) (parts.flatMap word) := by
  induction parts with
  | nil => exact Takes.pure []
  | cons p ps ih =>
    obtain ⟨hfirst, hrest⟩ := List.forall_mem_cons.mp h
    exact hfirst.bind ((ih hrest).bind_nil (Takes.pure _))

/-- Unless a break stands next, another element is read. -/
theorem untilBreak_run {atEnd : Fault} {c : Cursor} {bs rest : Bytes} (h : StartsItem bs)
    (hrest : c.rest = bs ++ rest) (n : Nat) :
    (untilBreak atEnd read (n + 1)).run c =
      (read >>= fun x => untilBreak atEnd read n >>= fun xs => pure (x :: xs)).run c := by
  obtain ⟨initial, bs, rfl, hne⟩ := h
  have hpeek : peek?.run c = .ok (some initial, c) := by
    show Except.ok (c.rest.head?, c) = _
    rw [hrest]
    rfl
  show (peek? >>= _).run c = _
  rw [StateT.run_bind, hpeek, ok_bind]
  dsimp only
  split
  · next h => cases h
  · next h => exact absurd (Option.some.inj h) hne
  · rfl

theorem Takes.untilBreak {atEnd : Fault} (h : ∀ p ∈ parts, Takes read (value p) (word p))
    (hstarts : ∀ p ∈ parts, StartsItem (word p)) {n : Nat} (hn : parts.length < n) :
    Takes (untilBreak atEnd read n) (parts.map value) (parts.flatMap word ++ [0xFF]) := by
  induction parts generalizing n with
  | nil =>
    obtain ⟨n, rfl⟩ := Nat.exists_eq_add_one.mpr hn
    intro c rest hc hrest
    rcases c with ⟨bytes, offset, base, moving⟩
    simp only at hrest
    subst hrest
    exact ⟨⟨rest, offset + 1, base, moving⟩, rfl, ⟨rfl, rfl⟩⟩
  | cons p ps ih =>
    obtain ⟨n, rfl⟩ := Nat.exists_eq_add_one.mpr (Nat.zero_lt_of_lt hn)
    obtain ⟨hfirst, hrest⟩ := List.forall_mem_cons.mp h
    obtain ⟨hstart, hstarts⟩ := List.forall_mem_cons.mp hstarts
    have hlater : Takes (Reader.untilBreak atEnd read n) _ _ :=
      ih hrest hstarts (Nat.lt_of_succ_lt_succ hn)
    have hboth : Takes (read >>= fun x => Reader.untilBreak atEnd read n >>= fun xs =>
        Pure.pure (x :: xs)) _ _ :=
      hfirst.bind (hlater.bind_nil (Takes.pure (value p :: _)))
    rw [List.flatMap_cons, List.append_assoc]
    intro c rest hc hrest
    rw [untilBreak_run hstart (by rw [hrest, List.append_assoc])]
    exact hboth hc hrest

/-- Every element takes at least a byte. -/
theorem length_le_of_startsItem (h : ∀ p ∈ parts, StartsItem (word p)) :
    parts.length ≤ (parts.flatMap word).length := by
  induction parts with
  | nil => exact Nat.le_refl 0
  | cons p ps ih =>
    obtain ⟨⟨initial, rest, heq, -⟩, hrest⟩ := List.forall_mem_cons.mp h
    have hlater := ih hrest
    rw [List.flatMap_cons, List.length_append, heq, List.length_cons, List.length_cons]
    omega

theorem Takes.elements {atEnd : Fault} {count : Option Nat} {ending : Bytes}
    (hending : IsEnding parts.length count ending)
    (h : ∀ p ∈ parts, Takes read (value p) (word p))
    (hstarts : ∀ p ∈ parts, StartsItem (word p)) :
    Takes (elements atEnd count read) (parts.map value) (parts.flatMap word ++ ending) := by
  cases hending with
  | counted =>
    rw [List.append_nil]
    exact Takes.times h
  | stop =>
    intro c rest hc hrest
    have hlength := length_le_of_startsItem hstarts
    have henough : parts.length < c.rest.length + 1 := by
      rw [hrest, List.length_append, List.length_append]
      omega
    exact Takes.untilBreak h hstarts henough hc hrest

end

/-! ### Reading items as values -/

theorem value_eq (wide : Bool) (levels : Nat) :
    ∃ inner?, value wide levels = valueOver wide inner? := by
  cases levels with
  | zero => exact ⟨none, rfl⟩
  | succ levels => exact ⟨_, rfl⟩

theorem value_takes {levels n : Nat} {v : Value} {bs : Bytes} (h : IsItem levels v bs)
    (hn : levels ≤ n) : Takes (value true n) v.inOrder bs := by
  induction h generalizing n with
  | null h =>
    obtain ⟨inner?, heq⟩ := value_eq true n
    rw [heq]
    exact (head?_reads.takes h).bind_nil (Takes.pure _)
  | bool h =>
    obtain ⟨inner?, heq⟩ := value_eq true n
    rw [heq]
    exact (head?_reads.takes h).bind_nil (Takes.pure _)
  | @int _ m _ h =>
    obtain ⟨inner?, heq⟩ := value_eq true n
    rw [heq]
    cases m with
    | ofNat m => exact (head?_reads.takes h).bind_nil (Takes.pure _)
    | negSucc m =>
      have hsame : (Value.int (.negSucc m)).inOrder = .int (-1 - m) := by
        show Value.int (.negSucc m) = _
        congr 1
        omega
      rw [hsame]
      exact (head?_reads.takes h).bind_nil (Takes.pure _)
  | bytes h =>
    obtain ⟨inner?, heq⟩ := value_eq true n
    rw [heq]
    exact (head?_reads.takes h).bind_nil (Takes.pure _)
  | text h =>
    obtain ⟨inner?, heq⟩ := value_eq true n
    rw [heq]
    exact (head?_reads.takes h).bind_nil (Takes.pure _)
  | @array _ count _ _ parts hstart hending h ih =>
    obtain ⟨n, rfl⟩ := Nat.exists_eq_add_one.mpr (Nat.lt_of_lt_of_le (Nat.zero_lt_succ _) hn)
    have hitems : Takes (elements .endOfArray count (value true n)) _ _ :=
      Takes.elements hending (fun p hp => ih p hp (Nat.le_of_succ_le_succ hn))
        fun p hp => (h p hp).startsItem
    have hvalue : (Value.array (parts.map (·.1))).inOrder = .array (parts.map (·.1.inOrder)) := by
      rw [Value.inOrder, Value.itemsInOrder_eq, List.map_map]
      rfl
    rw [hvalue, List.append_assoc]
    exact (head?_reads.takes hstart).bind (hitems.bind_nil (Takes.pure _))
  | @map _ count _ _ parts hstart hending hkeys hvalues ihkeys ihvalues =>
    obtain ⟨n, rfl⟩ := Nat.exists_eq_add_one.mpr (Nat.lt_of_lt_of_le (Nat.zero_lt_succ _) hn)
    have hn := Nat.le_of_succ_le_succ hn
    have hentry : ∀ p ∈ parts, Takes (value true n >>= fun k => value true n >>= fun v =>
        pure (k, v)) (p.1.1.inOrder, p.2.1.inOrder) (p.1.2 ++ p.2.2) :=
      fun p hp => (ihkeys p hp hn).bind ((ihvalues p hp hn).bind_nil (Takes.pure _))
    have hentries : Takes (elements .endOfMap count _) _ _ :=
      Takes.elements hending hentry fun p hp => (hkeys p hp).startsItem.append
    have hvalue : (Value.map (parts.map fun p => (p.1.1, p.2.1))).inOrder =
        .ofEntries (parts.map fun p => (p.1.1.inOrder, p.2.1.inOrder)) := by
      rw [Value.inOrder, Value.entriesInOrder_eq, List.map_map]
      rfl
    rw [hvalue, List.append_assoc]
    exact (head?_reads.takes hstart).bind (hentries.bind_nil (Takes.pure _))

/-! ### Inputs that end too early -/

/-- After all words there is nothing to read for another element. -/
theorem times_run_of_lt {α ι : Type} {read : Reader α} {parts : List ι} {value : ι → α}
    {word : ι → Bytes}
    (hnil : ∀ c : Cursor, c.rest = [] → read.run c = .error (.malformed .endOfValue c.offset))
    (h : ∀ p ∈ parts, Takes read (value p) (word p)) {c : Cursor} (hc : c.Bounded)
    (hrest : c.rest = parts.flatMap word) {n : Nat} (hn : parts.length < n) :
    (times read n).run c = .error (.malformed .endOfValue (c.offset + c.rest.length)) := by
  induction parts generalizing c n with
  | nil =>
    obtain ⟨n, rfl⟩ := Nat.exists_eq_add_one.mpr hn
    have hempty : c.rest = [] := hrest
    unfold times
    rw [StateT.run_bind, hnil c hempty, hempty]
    rfl
  | cons p ps ih =>
    obtain ⟨n, rfl⟩ := Nat.exists_eq_add_one.mpr (Nat.zero_lt_of_lt hn)
    obtain ⟨hfirst, hlater⟩ := List.forall_mem_cons.mp h
    obtain ⟨c₁, hrun, hpasses⟩ := hfirst hc hrest
    have hend := ih hlater (hpasses.bounded hc) (hpasses.rest_eq hrest) (Nat.lt_of_succ_lt_succ hn)
    have hplace : c₁.offset + c₁.rest.length = c.offset + c.rest.length := by
      rw [hpasses.offset, hpasses.rest, List.length_append, Nat.add_assoc]
    unfold times
    rw [StateT.run_bind, hrun]
    show ((times read n >>= fun xs => Pure.pure (value p :: xs)).run c₁) = _
    rw [StateT.run_bind, hend, hplace]
    rfl

theorem value_run_nil (wide : Bool) (levels : Nat) {c : Cursor} (h : c.rest = []) :
    (value wide levels).run c = .error (.malformed .endOfValue c.offset) := by
  obtain ⟨inner?, heq⟩ := value_eq wide levels
  rcases c with ⟨bytes, offset, base, moving⟩
  simp only at h
  subst h
  rw [heq]
  rfl

end Reader

end Cbor

end SecureCoap
