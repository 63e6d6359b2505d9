import SecureCoap.Proofs.Session.Transcript

/-!
# Phases between two worlds

Every change of phase is logged, until a handshake is aborted. So between two worlds there are not
only acts but also phases that were entered, and both add up over worlds one after another.
-/

namespace SecureCoap

namespace Session

variable {ε τ : Type} {s : Setting ε τ}

/-! ### Phases -/

def Event.phaseChange? : Event → Option (Phase × Phase)
  | logged (.phaseChange before after) => some (before, after)
  | _ => none

/-- The changes of phase that were logged, in order. -/
def World.phaseChanges (w : World ε τ) : List (Phase × Phase) :=
  w.conversation.events.filterMap Event.phaseChange?

/-- What is logged on the way from a phase through others. -/
def changes (first : Phase) : List Phase → List (Phase × Phase)
  | [] => []
  | phase :: phases => (first, phase) :: changes phase phases

theorem changes_append (first : Phase) (phases phases' : List Phase) :
    changes first (phases ++ phases') =
      changes first phases ++ changes (phases.getLastD first) phases' := by
  induction phases generalizing first with
  | nil => rfl
  | cons phase phases ih =>
    rw [List.cons_append, changes, changes, ih, List.cons_append, List.getLastD_cons]

namespace World

variable {w w₁ w₂ : World ε τ} {acts acts₁ acts₂ : List Act} {phases phases₁ phases₂ : List Phase}

/-- Between two worlds there were exactly these acts, and these phases were entered. -/
structure Passes (s : Setting ε τ) (acts : List Act) (phases : List Phase) (w w' : World ε τ) :
    Prop where
  acts : w.Does s acts w'
  changes : w'.phaseChanges = w.phaseChanges ++ changes w.phase phases
  phase : w'.phase = phases.getLastD w.phase

theorem Passes.trans (h₁ : w.Passes s acts₁ phases₁ w₁) (h₂ : w₁.Passes s acts₂ phases₂ w₂) :
    w.Passes s (acts₁ ++ acts₂) (phases₁ ++ phases₂) w₂ where
  acts := h₁.acts.trans h₂.acts
  changes := by
    rw [h₂.changes, h₁.changes, h₁.phase, changes_append, List.append_assoc]
  phase := by
    rw [h₂.phase, h₁.phase]
    simp [List.getLastD_eq_getLast?, List.getLast?_append, Option.getD_or]

theorem phaseChanges_of_event {event : Event}
    (hevents : w₁.conversation.events = w.conversation.events ++ [event]) :
    w₁.phaseChanges = w.phaseChanges ++ event.phaseChange?.toList := by
  unfold phaseChanges
  rw [hevents, List.filterMap_append]
  cases h : event.phaseChange? with
  | none => rw [List.filterMap_cons_none h, List.filterMap_nil, Option.toList_none]
  | some change => rw [List.filterMap_cons_some h, List.filterMap_nil, Option.toList_some]

theorem Passes.unseen (hevents : w₁.conversation.events = w.conversation.events)
    (houtside : w₁.outside = w.outside) (hphase : w₁.phase = w.phase) : w.Passes s [] [] w₁ where
  acts := .unseen hevents houtside
  changes := by
    unfold phaseChanges
    rw [hevents]
    exact (List.append_nil _).symm
  phase := hphase

/-- One event that is no change of phase, with what comes of it. -/
theorem Passes.act {event : Event} {act : Act} (h : event.phaseChange? = none)
    (hevents : w₁.conversation.events = w.conversation.events ++ [event])
    (hreact : s.react event w.outside = (some act, w₁.outside)) (hphase : w₁.phase = w.phase) :
    w.Passes s [act] [] w₁ where
  acts := .one hevents hreact
  changes := by
    rw [phaseChanges_of_event hevents, h]
    rfl
  phase := hphase

theorem Passes.logged {entry : LogEntry} (h : (Event.logged entry).phaseChange? = none)
    (hevents : w₁.conversation.events = w.conversation.events ++ [.logged entry])
    (houtside : w₁.outside = w.outside) (hphase : w₁.phase = w.phase) : w.Passes s [] [] w₁ where
  acts := .logged hevents houtside
  changes := by
    rw [phaseChanges_of_event hevents, h]
    rfl
  phase := hphase

theorem Passes.entered {phase : Phase}
    (hevents : w₁.conversation.events =
      w.conversation.events ++ [.logged (.phaseChange w.phase phase)])
    (houtside : w₁.outside = w.outside) (hphase : w₁.phase = phase) :
    w.Passes s [] [phase] w₁ where
  acts := .logged hevents houtside
  changes := phaseChanges_of_event hevents
  phase := hphase

end World

end Session

end SecureCoap
