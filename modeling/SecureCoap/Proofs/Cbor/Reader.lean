import SecureCoap.Proofs.Cbor.Grammar
import SecureCoap.Proofs.Computation

/-!
# What readers read

A reader reads a language if it takes from the input exactly the words of that language, and gives
what they stand for. A reader that is made of others reads the words of these one after another.
-/

namespace SecureCoap

namespace Cbor

open Bytes

/-! ### Cursors -/

/-- From one place in an input to another there are these bytes. -/
structure Cursor.Passes (c : Cursor) (bs : Bytes) (c' : Cursor) : Prop where
  rest : c.rest = bs ++ c'.rest
  offset : c'.offset = c.offset + bs.length

/-- The places of the input are below `2 ^ 64`. -/
def Cursor.Bounded (c : Cursor) : Prop := c.offset + c.rest.length < 2 ^ 64

namespace Cursor

variable {c c₁ c₂ : Cursor} {xs ys : Bytes}

theorem Passes.refl (c : Cursor) : c.Passes [] c := ⟨rfl, rfl⟩

theorem Passes.trans (h₁ : c.Passes xs c₁) (h₂ : c₁.Passes ys c₂) : c.Passes (xs ++ ys) c₂ := by
  constructor
  · rw [h₁.rest, h₂.rest, List.append_assoc]
  · rw [h₂.offset, h₁.offset, List.length_append, Nat.add_assoc]

theorem Passes.bounded (h : c.Passes xs c₁) (hc : c.Bounded) : c₁.Bounded := by
  have hrest := congrArg List.length h.rest
  have hoffset := h.offset
  rw [List.length_append] at hrest
  unfold Bounded at hc ⊢
  omega

theorem Passes.rest_eq {rest : Bytes} (h : c.Passes xs c₁) (hc : c.rest = xs ++ rest) :
    c₁.rest = rest :=
  List.append_cancel_left (h.rest.symm.trans hc)

end Cursor

namespace Reader

/-! ### Runs -/

theorem run_bind_eq_ok {α β : Type} {m : Reader α} {f : α → Reader β} {c c₂ : Cursor} {b : β} :
    (m >>= f).run c = .ok (b, c₂) ↔
      ∃ a c₁, m.run c = .ok (a, c₁) ∧ (f a).run c₁ = .ok (b, c₂) := by
  rw [StateT.run_bind, bind_eq_ok]
  constructor
  · intro h
    obtain ⟨⟨a, c₁⟩, hm, hf⟩ := h
    exact ⟨a, c₁, hm, hf⟩
  · intro h
    obtain ⟨a, c₁, hm, hf⟩ := h
    exact ⟨(a, c₁), hm, hf⟩

theorem run_pure_eq_ok {α : Type} {a b : α} {c c₁ : Cursor} :
    (pure a : Reader α).run c = .ok (b, c₁) ↔ a = b ∧ c = c₁ := by
  rw [StateT.run_pure, pure_eq_ok, Prod.mk.injEq]

theorem fail_run {α : Type} (fault : Fault) (c : Cursor) :
    (fail fault : Reader α).run c = .error (.malformed fault c.offset) := rfl

theorem throw_run {α : Type} (e : DecodeError) (c : Cursor) :
    (throw e : Reader α).run c = .error e := rfl

/-! ### Words -/

/-- A reader takes this word from the front of an input, whatever comes after it, and gives what it
stands for. -/
def Takes {α : Type} (read : Reader α) (a : α) (bs : Bytes) : Prop :=
  ∀ ⦃c : Cursor⦄ ⦃rest : Bytes⦄, c.Bounded → c.rest = bs ++ rest →
    ∃ c₁, read.run c = .ok (a, c₁) ∧ c.Passes bs c₁

section

variable {α β : Type} {read : Reader α} {f : α → Reader β} {a : α} {b : β} {xs ys : Bytes}

theorem Takes.pure (a : α) : Takes (Pure.pure a : Reader α) a [] :=
  fun c _ _ _ => ⟨c, run_pure_eq_ok.mpr ⟨rfl, rfl⟩, .refl c⟩

/-- One word after another. -/
theorem Takes.bind (h : Takes read a xs) (hf : Takes (f a) b ys) :
    Takes (read >>= f) b (xs ++ ys) := by
  intro c rest hc hrest
  rw [List.append_assoc] at hrest
  obtain ⟨c₁, hrun, hpasses⟩ := h hc hrest
  obtain ⟨c₂, hrun', hpasses'⟩ := hf (hpasses.bounded hc) (hpasses.rest_eq hrest)
  exact ⟨c₂, run_bind_eq_ok.mpr ⟨a, c₁, hrun, hrun'⟩, hpasses.trans hpasses'⟩

/-- What comes last takes nothing more. -/
theorem Takes.bind_nil (h : Takes read a xs) (hf : Takes (f a) b []) : Takes (read >>= f) b xs := by
  have hboth := h.bind hf
  rwa [List.append_nil] at hboth

end

/-! ### Languages of readers -/

/-- What a reader takes are words of the language, and it takes every word that stands next,
whatever comes after it. -/
structure Reads {α : Type} (read : Reader α) (G : α → Bytes → Prop) : Prop where
  sound {c c₁ : Cursor} {a : α} : read.run c = .ok (a, c₁) → ∃ bs, G a bs ∧ c.Passes bs c₁
  complete {c : Cursor} {a : α} {bs rest : Bytes} : c.Bounded → G a bs → c.rest = bs ++ rest →
    ∃ c₁, read.run c = .ok (a, c₁) ∧ c.Passes bs c₁

section

variable {α β : Type} {m : Reader α} {f : α → Reader β} {G G' : α → Bytes → Prop}
  {H : α → β → Bytes → Prop}

theorem Reads.takes {a : α} {bs : Bytes} (h : Reads m G) (ha : G a bs) : Takes m a bs :=
  fun _ _ hc hrest => h.complete hc ha hrest

theorem Reads.congr (h : Reads m G) (hiff : ∀ a bs, G a bs ↔ G' a bs) : Reads m G' := by
  obtain rfl : G = G' := funext fun a => funext fun bs => propext (hiff a bs)
  exact h

theorem Reads.pure (a : α) : Reads (Pure.pure a : Reader α) fun b bs => b = a ∧ bs = [] where
  sound {c c₁ b} h := by
    obtain ⟨rfl, rfl⟩ := run_pure_eq_ok.mp h
    exact ⟨[], ⟨rfl, rfl⟩, .refl c⟩
  complete {c b bs rest} hc h hrest := by
    obtain ⟨rfl, rfl⟩ := h
    exact Takes.pure b hc hrest

/-- A reader that always fails reads a language without words. -/
theorem Reads.never (h : ∀ c, ∃ e, m.run c = .error e) (hG : ∀ a bs, ¬G a bs) : Reads m G where
  sound {c c₁ a} hrun := by
    obtain ⟨e, he⟩ := h c
    rw [he] at hrun
    cases hrun
  complete _ h _ := absurd h (hG _ _)

theorem Reads.fail {fault : Fault} (hG : ∀ a bs, ¬G a bs) : Reads (Reader.fail fault) G :=
  .never (fun c => ⟨_, fail_run fault c⟩) hG

theorem Reads.throw {e : DecodeError} (hG : ∀ a bs, ¬G a bs) :
    Reads (MonadExcept.throw e : Reader α) G :=
  .never (fun c => ⟨e, throw_run e c⟩) hG

/-- One word after another. -/
theorem Reads.bind (hm : Reads m G) (hf : ∀ a, Reads (f a) (H a)) :
    Reads (m >>= f) fun b bs => ∃ a xs ys, G a xs ∧ H a b ys ∧ bs = xs ++ ys where
  sound {c c₂ b} h := by
    obtain ⟨a, c₁, hfirst, hsecond⟩ := run_bind_eq_ok.mp h
    obtain ⟨xs, hxs, hpasses⟩ := hm.sound hfirst
    obtain ⟨ys, hys, hpasses'⟩ := (hf a).sound hsecond
    exact ⟨xs ++ ys, ⟨a, xs, ys, hxs, hys, rfl⟩, hpasses.trans hpasses'⟩
  complete {c b bs rest} hc h hrest := by
    obtain ⟨a, xs, ys, hxs, hys, rfl⟩ := h
    exact (hm.takes hxs).bind ((hf a).takes hys) hc hrest

theorem Reads.map (hm : Reads m G) (g : α → β) :
    Reads (m >>= fun a => Pure.pure (g a)) fun b bs => ∃ a, b = g a ∧ G a bs := by
  refine (hm.bind fun a => Reads.pure (g a)).congr fun b bs => ?_
  constructor
  · intro h
    obtain ⟨a, xs, ys, hxs, ⟨rfl, rfl⟩, rfl⟩ := h
    rw [List.append_nil]
    exact ⟨a, rfl, hxs⟩
  · intro h
    obtain ⟨a, rfl, hbs⟩ := h
    exact ⟨a, bs, [], hbs, ⟨rfl, rfl⟩, (List.append_nil bs).symm⟩

end

/-- A language that is read tells where its words end, and what they stand for. -/
theorem Reads.unique {α : Type} {m : Reader α} {G : α → Bytes → Prop} (h : Reads m G) {a b : α}
    {xs ys us vs : Bytes} (hbound : (xs ++ us).length < 2 ^ 64) (hx : G a xs) (hy : G b ys)
    (heq : xs ++ us = ys ++ vs) : a = b ∧ us = vs := by
  have hc : Cursor.Bounded (.fixed (xs ++ us)) := by
    show 0 + (xs ++ us).length < 2 ^ 64
    omega
  obtain ⟨c₁, hrun, hpasses⟩ := h.complete hc hx rfl
  obtain ⟨c₂, hrun', hpasses'⟩ := h.complete hc hy heq
  rw [hrun] at hrun'
  cases hrun'
  exact ⟨rfl, (hpasses.rest_eq rfl).symm.trans (hpasses'.rest_eq heq)⟩

/-! ### Bytes -/

theorem byte_reads : Reads byte fun b bs => bs = [b] where
  sound {c c₁ b} h := by
    rcases c with ⟨_ | ⟨initial, rest⟩, offset, base, moving⟩
    · cases h
    · cases h
      exact ⟨[b], rfl, ⟨rfl, rfl⟩⟩
  complete {c b bs rest} _ h hrest := by
    subst h
    rcases c with ⟨bytes, offset, base, moving⟩
    simp only at hrest
    subst hrest
    exact ⟨⟨rest, offset + 1, base, moving⟩, rfl, ⟨rfl, rfl⟩⟩

theorem take_run (n : Nat) (c : Cursor) :
    (take n).run c =
      if c.rest.length < n then
        .error (.malformed .endOfValue (c.offset + c.rest.length - c.base))
      else .ok (c.rest.take n, { c with rest := c.rest.drop n, offset := c.offset + n }) := by
  by_cases h : c.rest.length < n
  · rw [if_pos h]
    simp [take, h]
    rfl
  · rw [if_neg h]
    simp [take, h]
    rfl

theorem take_reads (n : Nat) : Reads (take n) fun x bs => x = bs ∧ bs.length = n where
  sound {c c₁ x} h := by
    rw [take_run] at h
    split at h
    · cases h
    · next hle =>
      cases h
      have hlength : (c.rest.take n).length = n := List.length_take_of_le (by omega)
      refine ⟨_, ⟨rfl, hlength⟩, ⟨(List.take_append_drop n c.rest).symm, ?_⟩⟩
      rw [hlength]
  complete {c x bs rest} _ h hrest := by
    obtain ⟨rfl, rfl⟩ := h
    rw [take_run, hrest, List.take_left, List.drop_left,
      if_neg (by rw [List.length_append]; omega)]
    exact ⟨_, rfl, ⟨hrest, rfl⟩⟩

theorem passes_rebase (c : Cursor) :
    c.Passes [] (if c.moving then { c with base := c.offset } else c) := by
  by_cases hmoving : c.moving = true
  · rw [if_pos hmoving]
    exact ⟨rfl, rfl⟩
  · rw [if_neg hmoving]
    exact .refl c

theorem rebase_reads : Reads rebase fun _ bs => bs = [] where
  sound {c c₁ u} h := by
    cases h
    exact ⟨[], rfl, passes_rebase c⟩
  complete {c u bs rest} _ h _ := by
    subst h
    exact ⟨_, rfl, passes_rebase c⟩

theorem Reads.after_rebase {α : Type} {m : Reader α} {G : α → Bytes → Prop} (hm : Reads m G) :
    Reads (rebase >>= fun _ => m) G := by
  refine (rebase_reads.bind fun _ => hm).congr fun a bs => ?_
  constructor
  · intro h
    obtain ⟨_, xs, ys, rfl, hys, rfl⟩ := h
    exact hys
  · intro h
    exact ⟨(), [], bs, rfl, h, rfl⟩

/-- The first byte of a word may decide how it goes on. -/
theorem Reads.cons {α : Type} {f : UInt8 → Reader α} {G : α → Bytes → Prop}
    (hf : ∀ b, Reads (f b) fun a bs => G a (b :: bs)) (hnil : ∀ a, ¬G a []) :
    Reads (byte >>= f) G := by
  refine (byte_reads.bind hf).congr fun a bs => ?_
  constructor
  · intro h
    obtain ⟨b, xs, ys, rfl, hys, rfl⟩ := h
    exact hys
  · intro h
    cases bs with
    | nil => exact (hnil a h).elim
    | cons b bs => exact ⟨b, [b], bs, rfl, h, rfl⟩

/-! ### Arguments -/

theorem argument_reads (info : Nat) : Reads (argument info) (IsArgument info) := by
  unfold argument
  by_cases hshort : info < 24
  · rw [if_pos hshort]
    exact (Reads.pure _).congr fun a bs => (isArgument_short_iff hshort).symm
  rw [if_neg hshort]
  by_cases hone : info = 24
  · subst hone
    refine (byte_reads.map fun b => some b.toNat).congr fun a bs => ?_
    refine Iff.trans ?_ (isArgument_long_iff 0).symm
    constructor
    · intro h
      obtain ⟨b, rfl, rfl⟩ := h
      exact ⟨by rw [toNat_cons]; simp, rfl⟩
    · intro h
      obtain ⟨rfl, hlength⟩ := h
      obtain ⟨b, rfl⟩ := List.length_eq_one_iff.mp hlength
      exact ⟨b, by rw [toNat_cons]; simp, rfl⟩
  rw [if_neg hone]
  by_cases hlong : info < 28
  · obtain ⟨size, rfl⟩ : ∃ size : Fin 4, info = 24 + size.val :=
      ⟨⟨info - 24, by omega⟩, by show info = 24 + (info - 24); omega⟩
    rw [if_pos hlong]
    refine ((take_reads _).map fun bs => some (toNat bs)).congr fun a bs => ?_
    rw [isArgument_long_iff, Nat.add_sub_cancel_left, Nat.one_shiftLeft]
    constructor
    · intro h
      obtain ⟨digits, rfl, rfl, hlength⟩ := h
      exact ⟨rfl, hlength⟩
    · intro h
      obtain ⟨rfl, hlength⟩ := h
      exact ⟨bs, rfl, rfl, hlength⟩
  rw [if_neg hlong]
  by_cases hindefinite : info = 31
  · subst hindefinite
    exact (Reads.pure _).congr fun a bs => isArgument_indefinite_iff.symm
  · rw [if_neg hindefinite]
    exact Reads.fail fun a bs => not_isArgument (by omega) hindefinite

theorem definite_reads (info : Nat) :
    Reads (definite info) fun n digits => IsArgument info (some n) digits := by
  refine ((argument_reads info).bind (H := fun argument n bs => argument = some n ∧ bs = [])
    fun argument => ?_).congr fun n bs => ?_
  · cases argument with
    | some n =>
      refine (Reads.pure n).congr fun a bs => ?_
      rw [Option.some.injEq, eq_comm]
    | none => exact Reads.fail fun a bs h => nomatch h.1
  · constructor
    · intro h
      obtain ⟨argument, xs, ys, hxs, ⟨rfl, rfl⟩, rfl⟩ := h
      rw [List.append_nil]
      exact hxs
    · intro h
      exact ⟨some n, bs, [], h, ⟨rfl, rfl⟩, (List.append_nil bs).symm⟩

/-! ### Strings -/

/-- A string of definite length as a part of one of indefinite length, or the end of that. -/
def IsChunk (major : Nat) : Option Bytes → Bytes → Prop
  | none, bs => bs = [0xFF]
  | some content, bs =>
    ∃ header, IsHeader major (some content.length) header ∧ bs = header ++ content

theorem isChunk_cons {major : Nat} {content bs : Bytes} {b : UInt8} :
    IsChunk major (some content) (b :: bs) ↔ b.toNat / 32 = major ∧
      ∃ digits, IsArgument (b.toNat % 32) (some content.length) digits ∧
        bs = digits ++ content := by
  constructor
  · intro h
    obtain ⟨_ | ⟨initial, digits⟩, hheader, heq⟩ := h
    · exact hheader.elim
    · cases heq
      exact ⟨hheader.1, digits, hheader.2, rfl⟩
  · intro h
    obtain ⟨hmajor, digits, hdigits, rfl⟩ := h
    exact ⟨b :: digits, ⟨hmajor, hdigits⟩, rfl⟩

theorem not_isChunk_nil {major : Nat} (found : Option Bytes) : ¬IsChunk major found [] := by
  intro h
  cases found with
  | none => cases h
  | some content =>
    obtain ⟨_ | ⟨initial, digits⟩, hheader, heq⟩ := h
    · exact hheader
    · cases heq

theorem chunk?_reads (major : Nat) : Reads (chunk? major) (IsChunk major) := by
  refine Reads.cons (fun b => ?_) not_isChunk_nil
  dsimp only
  by_cases hbreak : b.toNat = 0xFF
  · rw [if_pos hbreak]
    refine (Reads.pure none).congr fun found bs => ?_
    obtain rfl : b = 0xFF := UInt8.toNat_inj.mp hbreak
    cases found with
    | none => simp [IsChunk]
    | some content =>
      refine iff_of_false (fun h => nomatch h.1) ?_
      rw [isChunk_cons]
      intro h
      obtain ⟨-, digits, hdigits, -⟩ := h
      exact absurd hdigits.info_lt (by decide)
  rw [if_neg hbreak]
  have hnone : ∀ bs, ¬IsChunk major none (b :: bs) := by
    intro bs h
    cases h
    exact hbreak rfl
  by_cases hcode : b.toNat / 32 ≠ major ∨ 28 ≤ b.toNat % 32
  · rw [if_pos hcode]
    refine Reads.never (fun c => ⟨_, rfl⟩) fun found bs => ?_
    cases found with
    | none => exact hnone bs
    | some content =>
      rw [isChunk_cons]
      intro h
      obtain ⟨hmajor, digits, hdigits, -⟩ := h
      have hinfo := hdigits.info_lt
      omega
  rw [if_neg hcode]
  obtain ⟨hmajor, hlow⟩ := not_or.mp hcode
  refine ((argument_reads _).bind (H := fun length found bs =>
    length = some bs.length ∧ found = some bs) fun length => ?_).congr fun found bs => ?_
  · cases length with
    | none => exact Reads.fail fun found bs h => nomatch h.1
    | some n =>
      refine ((take_reads n).map some).congr fun found bs => ?_
      constructor
      · intro h
        obtain ⟨content, rfl, rfl, rfl⟩ := h
        exact ⟨rfl, rfl⟩
      · intro h
        obtain ⟨hlength, rfl⟩ := h
        exact ⟨bs, rfl, rfl, (Option.some.inj hlength).symm⟩
  · cases found with
    | none =>
      refine iff_of_false ?_ (hnone bs)
      intro h
      obtain ⟨_, _, _, _, ⟨_, hfound⟩, _⟩ := h
      cases hfound
    | some content =>
      rw [isChunk_cons]
      constructor
      · intro h
        obtain ⟨length, digits, rest, hdigits, ⟨rfl, hfound⟩, rfl⟩ := h
        cases hfound
        exact ⟨not_not.mp hmajor, digits, hdigits, rfl⟩
      · intro h
        obtain ⟨-, digits, hdigits, rfl⟩ := h
        exact ⟨_, digits, content, hdigits, ⟨rfl, rfl⟩, rfl⟩

theorem chunks_sound {major n : Nat} {c c₁ : Cursor} {content : Bytes}
    (h : (chunks major n).run c = .ok (content, c₁)) :
    ∃ bs, IsChunks major content bs ∧ c.Passes bs c₁ := by
  induction n generalizing c content with
  | zero => cases h
  | succ n ih =>
    obtain ⟨found, c₂, hchunk, h⟩ := run_bind_eq_ok.mp h
    obtain ⟨bs, hbs, hpasses⟩ := (chunk?_reads major).sound hchunk
    cases found with
    | none =>
      obtain ⟨rfl, rfl⟩ := run_pure_eq_ok.mp h
      obtain rfl : bs = [0xFF] := hbs
      exact ⟨_, .stop, hpasses⟩
    | some first =>
      obtain ⟨later, c₃, hlater, h⟩ := run_bind_eq_ok.mp h
      obtain ⟨rfl, rfl⟩ := run_pure_eq_ok.mp h
      obtain ⟨bs', hbs', hpasses'⟩ := ih hlater
      obtain ⟨header, hheader, rfl⟩ := hbs
      exact ⟨_, .chunk hheader hbs', hpasses.trans hpasses'⟩

/-- Every chunk takes at least a byte, so that as many rounds as bytes are enough. -/
theorem chunks_complete {major n : Nat} {c : Cursor} {content bs rest : Bytes} (hc : c.Bounded)
    (h : IsChunks major content bs) (hn : bs.length ≤ n) (hrest : c.rest = bs ++ rest) :
    ∃ c₁, (chunks major n).run c = .ok (content, c₁) ∧ c.Passes bs c₁ := by
  induction h generalizing n c with
  | stop =>
    obtain ⟨n, rfl⟩ := Nat.exists_eq_add_one.mpr hn
    obtain ⟨c₁, hchunk, hpasses⟩ := (chunk?_reads major).complete (a := none) hc rfl hrest
    exact ⟨c₁, run_bind_eq_ok.mpr ⟨none, c₁, hchunk, rfl⟩, hpasses⟩
  | @chunk header first content bs hheader hs ih =>
    rw [List.append_assoc] at hrest
    have hlength : 0 < (header ++ first).length := by
      apply List.length_pos_iff.mpr
      intro hnil
      exact not_isChunk_nil (some first) ⟨header, hheader, hnil.symm⟩
    rw [List.length_append] at hn
    obtain ⟨n, rfl⟩ := Nat.exists_eq_add_one.mpr (Nat.lt_of_lt_of_le hlength (by omega : _ ≤ n))
    obtain ⟨c₁, hchunk, hpasses⟩ :=
      (chunk?_reads major).complete (a := some first) hc ⟨header, hheader, rfl⟩ hrest
    obtain ⟨c₂, hlater, hpasses'⟩ :=
      ih (hpasses.bounded hc) (by omega : _ ≤ n) (hpasses.rest_eq hrest)
    refine ⟨c₂, run_bind_eq_ok.mpr ⟨some first, c₁, hchunk, ?_⟩, hpasses.trans hpasses'⟩
    exact run_bind_eq_ok.mpr ⟨content, c₂, hlater, rfl⟩

theorem indefiniteString_reads (major : Nat) : Reads (indefiniteString major) (IsChunks major) where
  sound {c c₁ content} h := by
    obtain ⟨_, c₂, hrebase, h⟩ := run_bind_eq_ok.mp h
    obtain ⟨_, rfl, hpasses⟩ := rebase_reads.sound hrebase
    obtain ⟨bs, hbs, hpasses'⟩ := chunks_sound (c := c₂) h
    exact ⟨bs, hbs, hpasses.trans hpasses'⟩
  complete {c content bs rest} hc h hrest := by
    obtain ⟨c₁, hrebase, hpasses⟩ := rebase_reads.complete (a := ()) hc rfl rfl
    have hrest₁ : c₁.rest = bs ++ rest := hpasses.rest_eq hrest
    have hlength : bs.length ≤ c₁.rest.length + 1 := by
      rw [hrest₁, List.length_append]
      omega
    obtain ⟨c₂, hchunks, hpasses'⟩ := chunks_complete (hpasses.bounded hc) h hlength hrest₁
    exact ⟨c₂, run_bind_eq_ok.mpr ⟨(), c₁, hrebase, hchunks⟩, hpasses.trans hpasses'⟩

theorem decodeText_reads (bs : Bytes) :
    Reads (decodeText bs) fun t word => bs = Utf8.encode t ∧ word = [] := by
  unfold decodeText
  cases hdecode : Utf8.decode? bs with
  | some t =>
    refine (Reads.pure t).congr fun t' word => ?_
    rw [← Utf8.decode?_eq_some_iff, hdecode, Option.some.injEq, eq_comm]
  | none =>
    refine Reads.never (fun c => ⟨_, rfl⟩) fun t word => ?_
    rw [← Utf8.decode?_eq_some_iff, hdecode]
    exact fun h => nomatch h.1

theorem take_content (major n : Nat) : Reads (take n) (IsContent major (some n)) := by
  refine (take_reads n).congr fun content bs => ?_
  constructor
  · intro h
    obtain ⟨rfl, rfl⟩ := h
    exact .definite content
  · intro h
    cases h
    exact ⟨rfl, rfl⟩

theorem indefinite_content (major : Nat) :
    Reads (indefiniteString major) (IsContent major none) := by
  refine (indefiniteString_reads major).congr fun content bs => ?_
  constructor
  · intro h
    exact .indefinite h
  · intro h
    cases h with
    | indefinite h => exact h

theorem byteString_reads (length : Option Nat) :
    Reads (byteString length) (IsContent 2 length) := by
  have hpure : ∀ content : Bytes, Reads (rebase >>= fun _ => pure content)
      fun found bs => found = content ∧ bs = [] :=
    fun content => (Reads.pure content).after_rebase
  have hlast : ∀ content bs, (∃ found xs ys, IsContent 2 length found xs ∧
      (content = found ∧ ys = []) ∧ bs = xs ++ ys) ↔ IsContent 2 length content bs := by
    intro content bs
    simp
  cases length with
  | some n => exact (((take_content 2 n).bind hpure).congr hlast).after_rebase
  | none => exact ((indefinite_content 2).bind hpure).congr hlast

/-- The content of a string as a text. -/
theorem decoded_reads {m : Reader Bytes} {length : Option Nat} (h : Reads m (IsContent 3 length)) :
    Reads (m >>= fun bs => rebase >>= fun _ => decodeText bs)
      fun t => IsContent 3 length (Utf8.encode t) := by
  refine (h.bind fun bs => (decodeText_reads bs).after_rebase).congr fun t bs => ?_
  constructor
  · intro h
    obtain ⟨content, xs, ys, hxs, ⟨rfl, rfl⟩, rfl⟩ := h
    rw [List.append_nil]
    exact hxs
  · intro h
    exact ⟨_, bs, [], h, ⟨rfl, rfl⟩, (List.append_nil bs).symm⟩

theorem textString_reads (length : Option Nat) :
    Reads (textString length) fun t => IsContent 3 length (Utf8.encode t) := by
  cases length with
  | none => exact decoded_reads (indefinite_content 3)
  | some n =>
    have hreads := (decoded_reads (take_content 3 n)).after_rebase
    have hrun : ∀ c, (textString (some n)).run c =
        if 0x10000000000000000 ≤ c.offset + n then .error (.malformed .lengthOutOfRange c.offset)
        else
          (rebase >>= fun _ => take n >>= fun bs => rebase >>= fun _ => decodeText bs).run c := by
      intro c
      by_cases h : 0x10000000000000000 ≤ c.offset + n
      · rw [if_pos h]
        simp [textString, h]
        rfl
      · rw [if_neg h]
        simp [textString, h]
    constructor
    · intro c c₁ t h
      rw [hrun] at h
      split at h
      · cases h
      · exact hreads.sound h
    · intro c t bs rest hc h hrest
      have hlength : n = bs.length := by
        generalize Utf8.encode t = content at h
        cases h
        rfl
      -- A text that is there ends within the input, and so below `2 ^ 64`.
      rw [hrun, if_neg]
      · exact hreads.complete hc h hrest
      · unfold Cursor.Bounded at hc
        rw [hrest, List.length_append] at hc
        omega

/-! ### Heads -/

theorem float_reads (width : Nat) (widen : Nat → UInt64) :
    Reads (take width >>= fun bs => pure (Head.float (widen (toNat bs))))
      fun head bs => head = .float (widen (toNat bs)) ∧ bs.length = width := by
  refine ((take_reads width).map fun bs => Head.float (widen (toNat bs))).congr fun head bs => ?_
  constructor
  · intro h
    obtain ⟨_, rfl, rfl, hlength⟩ := h
    exact ⟨rfl, hlength⟩
  · intro h
    obtain ⟨rfl, hlength⟩ := h
    exact ⟨bs, rfl, rfl, hlength⟩

theorem simple_reads (info : Nat) : Reads (simple info) (IsSimple info) := by
  unfold simple
  by_cases hfalse : info = 20
  · rw [if_pos hfalse]
    refine (Reads.pure _).congr fun head bs => ?_
    subst hfalse
    constructor
    · intro h
      obtain ⟨rfl, rfl⟩ := h
      exact .false
    · intro h
      cases h
      exact ⟨rfl, rfl⟩
  rw [if_neg hfalse]
  by_cases htrue : info = 21
  · rw [if_pos htrue]
    refine (Reads.pure _).congr fun head bs => ?_
    subst htrue
    constructor
    · intro h
      obtain ⟨rfl, rfl⟩ := h
      exact .true
    · intro h
      cases h
      exact ⟨rfl, rfl⟩
  rw [if_neg htrue]
  by_cases hnull : info = 22 ∨ info = 23
  · rw [if_pos hnull]
    refine (Reads.pure _).congr fun head bs => ?_
    constructor
    · intro h
      obtain ⟨rfl, rfl⟩ := h
      rcases hnull with rfl | rfl
      · exact .null
      · exact .undefined
    · intro h
      rcases hnull with rfl | rfl
      all_goals
        cases h
        exact ⟨rfl, rfl⟩
  rw [if_neg hnull]
  obtain ⟨hnull, hundefined⟩ := not_or.mp hnull
  by_cases hhalf : info = 25
  · rw [if_pos hhalf]
    refine (float_reads 2 Binary.half.widen).congr fun head bs => ?_
    subst hhalf
    constructor
    · intro h
      obtain ⟨rfl, hlength⟩ := h
      exact .half hlength
    · intro h
      cases h with
      | half hlength => exact ⟨rfl, hlength⟩
  rw [if_neg hhalf]
  by_cases hsingle : info = 26
  · rw [if_pos hsingle]
    refine (float_reads 4 Binary.single.widen).congr fun head bs => ?_
    subst hsingle
    constructor
    · intro h
      obtain ⟨rfl, hlength⟩ := h
      exact .single hlength
    · intro h
      cases h with
      | single hlength => exact ⟨rfl, hlength⟩
  rw [if_neg hsingle]
  by_cases hdouble : info = 27
  · rw [if_pos hdouble]
    refine (float_reads 8 UInt64.ofNat).congr fun head bs => ?_
    subst hdouble
    constructor
    · intro h
      obtain ⟨rfl, hlength⟩ := h
      exact .double hlength
    · intro h
      cases h with
      | double hlength => exact ⟨rfl, hlength⟩
  rw [if_neg hdouble]
  have hnone : ∀ head bs, ¬IsSimple info head bs := by
    intro head bs h
    cases h <;> contradiction
  by_cases hbreak : info = 31
  · rw [if_pos hbreak]
    exact Reads.fail hnone
  · rw [if_neg hbreak]
    exact Reads.fail hnone

theorem head?_reads : Reads head? IsHead := by
  refine Reads.cons (fun b => ?_) fun head => id
  dsimp only [IsHead]
  have hmajor : b.toNat / 32 < 8 := by
    have hb := b.toNat_lt
    omega
  -- The first byte has a major type and five more bits, which are independent from here on.
  generalize b.toNat % 32 = info
  generalize b.toNat / 32 = major at hmajor
  match major, hmajor with
  | 0, _ =>
    refine ((definite_reads info).map fun n => some (Head.unsigned n)).congr fun head bs => ?_
    constructor
    · intro h
      obtain ⟨n, rfl, h⟩ := h
      exact IsBody.unsigned h
    · intro h
      cases h with
      | unsigned h => exact ⟨_, rfl, h⟩
  | 1, _ =>
    refine ((definite_reads info).map fun n => some (Head.negative n)).congr fun head bs => ?_
    constructor
    · intro h
      obtain ⟨n, rfl, h⟩ := h
      exact IsBody.negative h
    · intro h
      cases h with
      | negative h => exact ⟨_, rfl, h⟩
  | 2, _ =>
    refine ((argument_reads info).bind fun length =>
      (byteString_reads length).map fun bs => some (Head.bytes bs)).congr fun head bs => ?_
    constructor
    · intro h
      obtain ⟨length, digits, rest, hdigits, ⟨content, rfl, hcontent⟩, rfl⟩ := h
      exact IsBody.bytes hdigits hcontent
    · intro h
      cases h with
      | bytes hdigits hcontent => exact ⟨_, _, _, hdigits, ⟨_, rfl, hcontent⟩, rfl⟩
  | 3, _ =>
    refine ((argument_reads info).bind fun length =>
      (textString_reads length).map fun t => some (Head.text t)).congr fun head bs => ?_
    constructor
    · intro h
      obtain ⟨length, digits, rest, hdigits, ⟨t, rfl, hcontent⟩, rfl⟩ := h
      exact IsBody.text hdigits hcontent
    · intro h
      cases h with
      | text hdigits hcontent => exact ⟨_, _, _, hdigits, ⟨_, rfl, hcontent⟩, rfl⟩
  | 4, _ =>
    refine ((argument_reads info).map fun count => some (Head.array count)).congr fun head bs => ?_
    constructor
    · intro h
      obtain ⟨count, rfl, h⟩ := h
      exact IsBody.array h
    · intro h
      cases h with
      | array h => exact ⟨_, rfl, h⟩
  | 5, _ =>
    refine ((argument_reads info).map fun count => some (Head.map count)).congr fun head bs => ?_
    constructor
    · intro h
      obtain ⟨count, rfl, h⟩ := h
      exact IsBody.map h
    · intro h
      cases h with
      | map h => exact ⟨_, rfl, h⟩
  | 6, _ =>
    refine ((definite_reads info).map fun _ => (none : Option Head)).congr fun head bs => ?_
    constructor
    · intro h
      obtain ⟨n, rfl, h⟩ := h
      exact IsBody.tag h
    · intro h
      cases h with
      | tag h => exact ⟨_, rfl, h⟩
  | 7, _ =>
    refine ((simple_reads info).map some).congr fun head bs => ?_
    constructor
    · intro h
      obtain ⟨simple, rfl, h⟩ := h
      exact IsBody.simple h
    · intro h
      cases h with
      | simple h => exact ⟨_, rfl, h⟩

/-! ### Whole inputs -/

theorem finish_run_eq_ok {c c₁ : Cursor} {u : Unit} :
    finish.run c = .ok (u, c₁) ↔ c.rest = [] ∧ c = c₁ := by
  rcases c with ⟨_ | ⟨b, rest⟩, offset, base, moving⟩
  · constructor
    · intro h
      cases h
      exact ⟨rfl, rfl⟩
    · intro h
      rw [← h.2]
      rfl
  · exact iff_of_false nofun nofun

section

variable {α : Type} {read : Reader α} {G : α → Bytes → Prop} {c : Cursor} {a : α} {bs rest : Bytes}

theorem runAll_eq (read : Reader α) (c : Cursor) :
    read.runAll c = ((read >>= fun x => finish >>= fun _ => pure x).run c).map (·.1) := rfl

theorem runAll_eq_ok :
    read.runAll c = .ok a ↔ ∃ c₁, read.run c = .ok (a, c₁) ∧ c₁.rest = [] := by
  rw [runAll_eq, map_eq_ok]
  constructor
  · intro h
    obtain ⟨⟨_, c₂⟩, hrun, rfl⟩ := h
    obtain ⟨x, c₁, hread, hrun⟩ := run_bind_eq_ok.mp hrun
    obtain ⟨_, c₃, hfinish, hrun⟩ := run_bind_eq_ok.mp hrun
    obtain ⟨rfl, -⟩ := run_pure_eq_ok.mp hrun
    exact ⟨c₁, hread, (finish_run_eq_ok.mp hfinish).1⟩
  · intro h
    obtain ⟨c₁, hread, hrest⟩ := h
    exact ⟨(a, c₁), run_bind_eq_ok.mpr ⟨a, c₁, hread,
      run_bind_eq_ok.mpr ⟨(), c₁, finish_run_eq_ok.mpr ⟨hrest, rfl⟩, rfl⟩⟩, rfl⟩

theorem runAll_of_error {e : DecodeError} (h : read.run c = .error e) :
    read.runAll c = .error e := by
  rw [runAll_eq, StateT.run_bind, h]
  rfl

theorem Takes.runAll (h : Takes read a bs) (hc : c.Bounded) (hrest : c.rest = bs) :
    read.runAll c = .ok a := by
  rw [← List.append_nil bs] at hrest
  obtain ⟨c₁, hrun, hpasses⟩ := h hc hrest
  exact runAll_eq_ok.mpr ⟨c₁, hrun, hpasses.rest_eq hrest⟩

/-- Anything that comes after the word is too much. -/
theorem Takes.runAll_trailing (h : Takes read a bs) (hc : c.Bounded)
    (hrest : c.rest = bs ++ rest) (hne : rest ≠ []) :
    read.runAll c = .error (.malformed .trailingData (c.offset + bs.length + 1)) := by
  obtain ⟨c₁, hrun, hpasses⟩ := h hc hrest
  have hfinish : finish.run c₁ = .error (.malformed .trailingData (c₁.offset + 1)) := by
    have hleft := hpasses.rest_eq hrest
    rcases c₁ with ⟨_ | ⟨b, left⟩, offset, base, moving⟩
    · exact absurd hleft.symm hne
    · rfl
  rw [runAll_eq, StateT.run_bind, hrun]
  show ((finish >>= fun _ => Pure.pure a).run c₁).map (·.1) = _
  rw [StateT.run_bind, hfinish, hpasses.offset]
  rfl

theorem Reads.of_runAll (h : Reads read G) (hrun : read.runAll c = .ok a) : G a c.rest := by
  obtain ⟨c₁, hread, hrest⟩ := runAll_eq_ok.mp hrun
  obtain ⟨bs, hbs, hpasses⟩ := h.sound hread
  rw [hpasses.rest, hrest, List.append_nil]
  exact hbs

theorem Reads.runAll_iff (h : Reads read G) (hc : c.Bounded) :
    read.runAll c = .ok a ↔ G a c.rest :=
  ⟨h.of_runAll, fun ha => (h.takes ha).runAll hc rfl⟩

end

end Reader

end Cbor

end SecureCoap
