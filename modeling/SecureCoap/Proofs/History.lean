import SecureCoap.History

/-!
# Histories of calls

An invariant that every call keeps holds at every step of a history and at its end. Two systems
whose calls agree under a view of their states have the same histories under that view. Where calls
of two kinds do not notice each other, it does not matter how they are interleaved.
-/

namespace SecureCoap

section

variable {σ τ κ ρ ρ' : Type} {perform : κ → σ → ρ × σ} {perform' : κ → τ → ρ' × τ}

def Step.view (f : σ → τ) (s : Step σ κ) : Step τ κ := ⟨f s.before, s.call⟩

theorem history_invariant {I : σ → Prop} (hstep : ∀ c s, I s → I (perform c s).2) {s : σ}
    (hs : I s) (cs : List κ) : ∀ st ∈ history perform s cs, I st.before := by
  induction cs generalizing s with
  | nil =>
    intro st hst
    cases hst
  | cons c cs ih =>
    intro st hst
    rcases List.mem_cons.mp hst with rfl | hst
    · exact hs
    · exact ih (hstep c s hs) st hst

theorem finalState_invariant {I : σ → Prop} (hstep : ∀ c s, I s → I (perform c s).2) {s : σ}
    (hs : I s) (cs : List κ) : I (finalState perform s cs) := by
  induction cs generalizing s with
  | nil => exact hs
  | cons c cs ih => exact ih (hstep c s hs)

theorem finalState_append (perform : κ → σ → ρ × σ) (s : σ) (cs cs' : List κ) :
    finalState perform s (cs ++ cs') = finalState perform (finalState perform s cs) cs' := by
  induction cs generalizing s with
  | nil => rfl
  | cons c cs ih => exact ih (perform c s).2

theorem history_append (perform : κ → σ → ρ × σ) (s : σ) (cs cs' : List κ) :
    history perform s (cs ++ cs') =
      history perform s cs ++ history perform (finalState perform s cs) cs' := by
  induction cs generalizing s with
  | nil => rfl
  | cons c cs ih => exact congrArg (List.cons (⟨s, c⟩ : Step σ κ)) (ih (perform c s).2)

/-- Around one of its steps a history is two histories. -/
theorem history_eq_append {s : σ} {cs : List κ} {earlier later : List (Step σ κ)} {st : Step σ κ}
    (h : history perform s cs = earlier ++ st :: later) :
    ∃ cs₁ cs₂, earlier = history perform s cs₁ ∧ st.before = finalState perform s cs₁ ∧
      later = history perform (st.after perform) cs₂ := by
  induction earlier generalizing s cs with
  | nil =>
    cases cs with
    | nil => cases h
    | cons c cs =>
      cases h
      exact ⟨[], cs, rfl, rfl, rfl⟩
  | cons first earlier ih =>
    cases cs with
    | nil => cases h
    | cons c cs =>
      obtain ⟨hfirst, hrest⟩ := List.cons.inj h
      obtain ⟨cs₁, cs₂, rfl, hbefore, hlater⟩ := ih hrest
      refine ⟨c :: cs₁, cs₂, ?_, hbefore, hlater⟩
      rw [history_cons, hfirst]

theorem call_mem_of_mem_history {s : σ} {cs : List κ} {st : Step σ κ}
    (h : st ∈ history perform s cs) : st.call ∈ cs := by
  induction cs generalizing s with
  | nil => cases h
  | cons c cs ih =>
    rcases List.mem_cons.mp h with rfl | h
    · exact List.mem_cons_self ..
    · exact List.mem_cons_of_mem c (ih h)

/-- Calls that leave the state alone may be deleted: the others find the same states. -/
theorem history_filter {kept : Step σ κ → Bool}
    (h : ∀ st, kept st = false → st.after perform = st.before) (s : σ) (cs : List κ) :
    history perform s (((history perform s cs).filter kept).map Step.call) =
        (history perform s cs).filter kept ∧
      finalState perform s (((history perform s cs).filter kept).map Step.call) =
        finalState perform s cs := by
  induction cs generalizing s with
  | nil => exact ⟨rfl, rfl⟩
  | cons c cs ih =>
    obtain ⟨hhistory, hfinal⟩ := ih (perform c s).2
    cases hkept : kept ⟨s, c⟩ with
    | true =>
      rw [history_cons, List.filter_cons_of_pos hkept, List.map_cons]
      exact ⟨congrArg (List.cons (⟨s, c⟩ : Step σ κ)) hhistory, hfinal⟩
    | false =>
      have hsame : (perform c s).2 = s := h ⟨s, c⟩ hkept
      rw [history_cons, List.filter_cons_of_neg (by rw [hkept]; decide)]
      rw [hsame] at hhistory hfinal ⊢
      refine ⟨hhistory, hfinal.trans ?_⟩
      show finalState perform s cs = finalState perform (perform c s).2 cs
      rw [hsame]

theorem history_view (f : σ → τ) (h : ∀ c s, f (perform c s).2 = (perform' c (f s)).2) (s : σ)
    (cs : List κ) : (history perform s cs).map (Step.view f) = history perform' (f s) cs := by
  induction cs generalizing s with
  | nil => rfl
  | cons c cs ih =>
    rw [history_cons, history_cons, List.map_cons, ih, h]
    rfl

/-! ### Calls of two kinds -/

/-- The calls of a history, each with what it gave. -/
def outcomes (perform : κ → σ → ρ × σ) (s : σ) (cs : List κ) : List (κ × ρ) :=
  (history perform s cs).map fun st => (st.call, st.result perform)

@[simp] theorem outcomes_cons (perform : κ → σ → ρ × σ) (s : σ) (c : κ) (cs : List κ) :
    outcomes perform s (c :: cs) =
      (c, (perform c s).1) :: outcomes perform (perform c s).2 cs := rfl

theorem outcomes_append (perform : κ → σ → ρ × σ) (s : σ) (cs cs' : List κ) :
    outcomes perform s (cs ++ cs') =
      outcomes perform s cs ++ outcomes perform (finalState perform s cs) cs' := by
  unfold outcomes
  rw [history_append, List.map_append]

/-- Calls of different kinds do not notice each other, and may be swapped. -/
structure Independent (perform : κ → σ → ρ × σ) (kind : κ → Bool) : Prop where
  result : ∀ c d s, kind c ≠ kind d → (perform c (perform d s).2).1 = (perform c s).1
  state : ∀ c d s, kind c ≠ kind d →
    (perform c (perform d s).2).2 = (perform d (perform c s).2).2

namespace Independent

variable {kind : κ → Bool}

theorem not (h : Independent perform kind) : Independent perform fun c => !kind c where
  result c d s hne := h.result c d s fun heq => hne (congrArg Bool.not heq)
  state c d s hne := h.state c d s fun heq => hne (congrArg Bool.not heq)

/-- One call may be made after calls of the other kind in place of before them. -/
theorem swap (h : Independent perform kind) {d : κ} {cs : List κ}
    (hcs : ∀ c ∈ cs, kind c ≠ kind d) (s : σ) :
    outcomes perform (perform d s).2 cs = outcomes perform s cs ∧
      finalState perform (perform d s).2 cs = (perform d (finalState perform s cs)).2 := by
  induction cs generalizing s with
  | nil => exact ⟨rfl, rfl⟩
  | cons c cs ih =>
    obtain ⟨hc, hcs⟩ := List.forall_mem_cons.mp hcs
    obtain ⟨houtcomes, hfinal⟩ := ih hcs (perform c s).2
    constructor
    · rw [outcomes_cons, outcomes_cons, h.result c d s hc, h.state c d s hc, houtcomes]
    · show finalState perform (perform c (perform d s).2).2 cs = _
      rw [h.state c d s hc, hfinal]
      rfl

theorem outcomes_after (h : Independent perform kind) {ds cs : List κ}
    (hcs : ∀ c ∈ cs, ∀ d ∈ ds, kind c ≠ kind d) (s : σ) :
    outcomes perform (finalState perform s ds) cs = outcomes perform s cs := by
  induction ds generalizing s with
  | nil => rfl
  | cons d ds ih =>
    show outcomes perform (finalState perform (perform d s).2 ds) cs = _
    rw [ih fun c hc d' hd' => hcs c hc d' (List.mem_cons_of_mem d hd')]
    exact (h.swap (fun c hc => hcs c hc d (List.mem_cons_self ..)) s).1

theorem kind_ne_of_mem_filter {cs : List κ} {c d : κ} (hc : c ∈ cs.filter kind)
    (hd : kind d = false) : kind c ≠ kind d := by
  rw [(List.mem_filter.mp hc).2, hd]
  exact Bool.noConfusion

/-- The calls of one kind give on their own what they gave among the others. -/
theorem outcomes_filter (h : Independent perform kind) (s : σ) (cs : List κ) :
    outcomes perform s (cs.filter kind) = (outcomes perform s cs).filter (kind ·.1) := by
  induction cs generalizing s with
  | nil => rfl
  | cons c cs ih =>
    cases hc : kind c with
    | true => simp [hc, ih]
    | false =>
      have hothers : ∀ d ∈ cs.filter kind, kind d ≠ kind c :=
        fun d hd => kind_ne_of_mem_filter hd hc
      have hswap := h.swap hothers s
      simp [hc, ← ih, hswap.1]

theorem finalState_filter (h : Independent perform kind) (s : σ) (cs : List κ) :
    finalState perform s (cs.filter kind ++ cs.filter (!kind ·)) = finalState perform s cs := by
  rw [finalState_append]
  induction cs generalizing s with
  | nil => rfl
  | cons c cs ih =>
    show _ = finalState perform (perform c s).2 cs
    rw [← ih]
    cases hc : kind c with
    | true => simp [hc, finalState]
    | false =>
      have hothers : ∀ d ∈ cs.filter kind, kind d ≠ kind c :=
        fun d hd => kind_ne_of_mem_filter hd hc
      have hswap := h.swap hothers s
      simp [hc, finalState, hswap.2]

/-- An interleaving gives what all calls of one kind give first, and then all calls of the other. -/
theorem outcomes_sorted (h : Independent perform kind) (s : σ) (cs : List κ) :
    outcomes perform s (cs.filter kind ++ cs.filter (!kind ·)) =
      (outcomes perform s cs).filter (kind ·.1) ++ (outcomes perform s cs).filter (!kind ·.1) := by
  rw [outcomes_append, h.outcomes_filter, h.outcomes_after, h.not.outcomes_filter]
  intro d hd c hc
  have hd : kind d = false := by simpa using (List.mem_filter.mp hd).2
  exact (kind_ne_of_mem_filter hc hd).symm

end Independent

end

end SecureCoap
