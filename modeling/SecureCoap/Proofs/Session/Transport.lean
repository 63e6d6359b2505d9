import SecureCoap.Session.Transport

/-!
# Which context belongs to a destination

What registering and forgetting a destination change: the entry of that destination, and no other.
A request to a destination without an entry goes out as it is.
-/

namespace SecureCoap

namespace Session

namespace Transport

variable {τ : Type} (t : Transport τ) (destination : String)

theorem lookup_filter_self (routes : List (String × ContextId)) (destination : String) :
    (routes.filter (·.1 ≠ destination)).lookup destination = none := by
  rw [List.lookup_eq_none_iff]
  intro route hroute
  obtain ⟨-, hne⟩ := List.mem_filter.mp hroute
  have hne : route.1 ≠ destination := of_decide_eq_true hne
  exact bne_iff_ne.mpr hne.symm

theorem lookup_filter_of_ne {destination other : String} (h : other ≠ destination)
    (routes : List (String × ContextId)) :
    (routes.filter (·.1 ≠ destination)).lookup other = routes.lookup other := by
  induction routes with
  | nil => rfl
  | cons route routes ih =>
    obtain ⟨name, id⟩ := route
    by_cases hname : name = destination
    · have hskip : (other == name) = false := by
        rw [hname]
        exact beq_false_of_ne h
      rw [List.filter_cons_of_neg (by simp [hname]), ih, List.lookup_cons, hskip]
    · rw [List.filter_cons_of_pos (by simp [hname]), List.lookup_cons, List.lookup_cons, ih]

/-! ### Forgetting -/

theorem contextFor?_forget_self : (t.forget destination).2.contextFor? destination = none :=
  lookup_filter_self t.routes destination

theorem contextFor?_forget_of_ne {other : String} (h : other ≠ destination) :
    (t.forget destination).2.contextFor? other = t.contextFor? other :=
  lookup_filter_of_ne h t.routes

/-! ### Registering -/

theorem contextFor?_register_self (id : ContextId) :
    (t.register destination id).2.contextFor? destination = some id :=
  List.lookup_cons_self

theorem contextFor?_register_of_ne (id : ContextId) {other : String} (h : other ≠ destination) :
    (t.register destination id).2.contextFor? other = t.contextFor? other := by
  have hskip : (other == destination) = false := beq_false_of_ne h
  show List.lookup other ((destination, id) :: _) = _
  rw [List.lookup_cons, hskip]
  exact lookup_filter_of_ne h t.routes

/-- A new context that is registered is told of. -/
theorem log_register_addContext (context : EdhocContext) :
    ((t.addContext context).2.register destination t.contexts.length).1.log =
      [.contextRegistered destination context.senderId] := by
  show (t.contexts ++ [context])[t.contexts.length]?.toList.map _ = _
  rw [List.getElem?_concat_length]
  rfl

end Transport

end Session

end SecureCoap
