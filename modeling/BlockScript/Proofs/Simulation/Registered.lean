import BlockScript.Simulation.Handlers

/-!
# What the simulated world registers

The registry of the simulated world is filled from two tables. All of their names can be registered,
and nothing else is, so a command that is found by its name stands in the table under that name.
-/
namespace BlockScript
set_option autoImplicit false

namespace Registry

variable {α β : Type} {r r' : Registry α β} {name : String}

theorem addCommand_eq_ok {handler : α} (h : r.addCommand name handler = .ok r') :
    r' = { r with commands := r.commands.insert name handler } := by
  unfold addCommand at h
  split at h
  · cases h
  · cases h
    rfl

theorem addPredicate_eq_ok {handler : β} (h : r.addPredicate name handler = .ok r') :
    r' = { r with predicates := r.predicates.insert name handler } := by
  unfold addPredicate at h
  split at h
  · cases h
  · cases h
    rfl

end Registry

/-- A success is made of parts that succeed. -/
theorem eq_ok_of_bind_eq_ok {ε α β : Type} {x : Except ε α} {f : α → Except ε β} {b : β}
    (h : (x >>= f) = .ok b) : ∃ a, x = .ok a ∧ f a = .ok b := by
  cases x with
  | error fault => cases h
  | ok a => exact ⟨a, rfl, h⟩

/-- What every step keeps that succeeds holds after all of them have succeeded. -/
theorem foldlM_keeps {ε γ ι : Type} {Holds : γ → Prop} {step : γ → ι → Except ε γ}
    {entries : List ι} (hstep : ∀ entry ∈ entries, ∀ before after, Holds before →
      step before entry = .ok after → Holds after) {before after : γ} (hbefore : Holds before)
    (h : entries.foldlM step before = .ok after) : Holds after := by
  induction entries generalizing before with
  | nil =>
    cases h
    exact hbefore
  | cons entry rest ih =>
    rw [List.foldlM_cons] at h
    obtain ⟨next, hfirst, hrest⟩ := eq_ok_of_bind_eq_ok h
    exact ih (fun other hother => hstep other (List.mem_cons_of_mem _ hother))
      (hstep entry List.mem_cons_self before next hbefore hfirst) hrest

namespace Simulation

/-- Whatever is registered stands in one of the tables. -/
structure Tabled (registry : Registry (CommandHandler (Live World)) (PredicateHandler (Live World))) : Prop where
  command : ∀ name handler, registry.command? name = some handler →
    ∃ op : Op, (name, op) ∈ Op.table ∧ handler = op.handler
  predicate : ∀ name handler, registry.predicate? name = some handler →
    ∃ check : Check, (name, check) ∈ Check.table ∧ handler = check.handler

namespace Tabled

variable {registry : Registry (CommandHandler (Live World)) (PredicateHandler (Live World))}

theorem empty : Tabled Registry.empty := ⟨nofun, nofun⟩

theorem addCommand (h : Tabled registry) {name : String} {op : Op} (hop : (name, op) ∈ Op.table)
    {after : Registry (CommandHandler (Live World)) (PredicateHandler (Live World))}
    (hadd : registry.addCommand name op.handler = .ok after) : Tabled after := by
  obtain rfl := Registry.addCommand_eq_ok hadd
  refine ⟨fun other handler hfound => ?_, h.predicate⟩
  rw [Registry.command?, Dict.get?_insert] at hfound
  split at hfound
  · next hsame =>
    subst hsame
    cases hfound
    exact ⟨op, hop, rfl⟩
  · exact h.command other handler hfound

theorem addPredicate (h : Tabled registry) {name : String} {check : Check}
    (hcheck : (name, check) ∈ Check.table)
    {after : Registry (CommandHandler (Live World)) (PredicateHandler (Live World))}
    (hadd : registry.addPredicate name check.handler = .ok after) : Tabled after := by
  obtain rfl := Registry.addPredicate_eq_ok hadd
  refine ⟨h.command, fun other handler hfound => ?_⟩
  rw [Registry.predicate?, Dict.get?_insert] at hfound
  split at hfound
  · next hsame =>
    subst hsame
    cases hfound
    exact ⟨check, hcheck, rfl⟩
  · exact h.predicate other handler hfound

end Tabled

theorem tabled_of_registry {r : Registry (CommandHandler (Live World)) (PredicateHandler (Live World))}
    (h : registry = .ok r) : Tabled r := by
  unfold registry at h
  obtain ⟨commands, hcommands, hpredicates⟩ := eq_ok_of_bind_eq_ok h
  have htabled : Tabled commands :=
    foldlM_keeps (fun _ hentry _ _ hbefore => hbefore.addCommand hentry) .empty hcommands
  exact foldlM_keeps (fun _ hentry _ _ hbefore => hbefore.addPredicate hentry) htabled hpredicates

/-- Every name of the tables can be registered. -/
theorem registry_eq_ok : ∃ r, registry = .ok r := by
  have hdone : registry.toBool = true := by decide +kernel
  cases hregistry : registry with
  | ok r => exact ⟨r, rfl⟩
  | error error =>
    rw [hregistry] at hdone
    cases hdone

end Simulation

end BlockScript
