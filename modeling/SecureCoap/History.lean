/-!
# Histories

What a sequence of calls does to a state, call by call. Each step of a history is a call together
with the state that it finds; the result of a call is a function of these two.
-/

namespace SecureCoap

/-- A call in a history, and the state before it. -/
structure Step (σ κ : Type) where
  before : σ
  call : κ
deriving DecidableEq, Repr

namespace Step

variable {σ κ ρ : Type} (perform : κ → σ → ρ × σ)

def result (s : Step σ κ) : ρ := (perform s.call s.before).1

def after (s : Step σ κ) : σ := (perform s.call s.before).2

end Step

section

variable {σ κ ρ : Type} (perform : κ → σ → ρ × σ)

/-- The steps of calls one after another, from a state on. -/
def history : σ → List κ → List (Step σ κ)
  | _, [] => []
  | s, c :: cs => ⟨s, c⟩ :: history (perform c s).2 cs

/-- The state after calls one after another. -/
def finalState : σ → List κ → σ
  | s, [] => s
  | s, c :: cs => finalState (perform c s).2 cs

@[simp] theorem history_nil (s : σ) : history perform s [] = [] := rfl

@[simp] theorem history_cons (s : σ) (c : κ) (cs : List κ) :
    history perform s (c :: cs) = ⟨s, c⟩ :: history perform (perform c s).2 cs := rfl

end

end SecureCoap
