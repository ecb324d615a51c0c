import BlockScript.Proofs.Run.Observation

/-!
# Traces change nothing

A run with traces and the same run without them are two views of one watched run: what the watched
run is asked, answers and leaves behind does not depend on which of its events are published.
-/
namespace BlockScript
set_option autoImplicit false

namespace Run

variable {σ : Type}

/-- What the two runs have in common, and what a subscriber receives from each. -/
theorem program_traced_silent (context : Context σ) (options : RunOptions) (program : Program)
    (journal : Journal) (world : σ) :
    let run (trace : Bool) := Run.program ⟨context, { options with trace }⟩ program journal world
    (run true).1 = (run false).1 ∧ (run true).2.world = (run false).2.world ∧
    ∀ id, journal.listens id = true → ∃ events,
      (run true).2.journal.inbox id = journal.inbox id ++ events ∧
      (run false).2.journal.inbox id =
        journal.inbox id ++ events.filter fun event => !event.isTrace := by
  intro run
  let traced : Setup σ := ⟨context, { options with trace := true }⟩
  let silent : Setup σ := ⟨context, { options with trace := false }⟩
  obtain ⟨answer, s, w, hs, hw, events, htraced, -⟩ :=
    watched_body journal (keeps_nothing traced) program world trivial
  obtain ⟨answer', t, w', ht, hw', events', hsilent, -⟩ :=
    watched_body journal (keeps_nothing silent) program world trivial
  -- Both setups are watched by the same one.
  have hsame : body silent.watched program (start journal (world, [])) = (answer, w) := hw
  rw [hw'] at hsame
  cases hsame
  have hruntraced : run true = finish (outcomeOf answer) s := by
    change Run.program traced program journal world = _
    rw [Run.program, hs]
  have hrunsilent : run false = finish (outcomeOf answer) t := by
    change Run.program silent program journal world = _
    rw [Run.program, ht]
  have hreport : reportOf s (outcomeOf answer) = reportOf t (outcomeOf answer) :=
    (htraced.reportOf_eq _).trans (hsilent.reportOf_eq _).symm
  rw [hruntraced, hrunsilent]
  refine ⟨hreport, htraced.world.trans hsilent.world.symm, fun id hid => ?_⟩
  have hevents : events' = events := by
    have hheard := hsilent.heard.symm.trans htraced.heard
    have hlistens : journal.start.listens id = true := by
      rw [Journal.start_eq, Journal.note_listens, hid]
    have hinbox := congrArg (Journal.inbox · id) hheard
    simp only [Journal.inbox_noteAll hlistens] at hinbox
    exact List.append_cancel_left hinbox
  subst hevents
  have hfull : s.journal = journal.start.noteAll events' := htraced.journal
  have hthin : t.journal =
      journal.start.noteAll (events'.filter fun event => !event.isTrace) := hsilent.journal
  refine ⟨[.started journal.runId journal.correlationId journal.actor] ++ events' ++
    [.finished (finish (outcomeOf answer) s).1], ?_, ?_⟩
  · rw [inbox_finish hid hfull]
    simp only [List.append_assoc]
  · rw [inbox_finish hid hthin]
    have hfinished : (finish (outcomeOf answer) t).1 = (finish (outcomeOf answer) s).1 :=
      hreport.symm
    rw [hfinished]
    simp [Event.isTrace]

/-- Tracing does not interfere. A run with traces and the same run without them give the same report
and leave the same world behind; they ask the world outside the same questions in the same order,
with the same arguments and answers; and without its traces, what a subscriber receives from the
first is what it receives from the second. -/
theorem tracing_does_not_interfere (context : Context σ) (options : RunOptions)
    (program : Program) (journal : Journal) (world : σ) :
    let run (trace : Bool) := Run.program ⟨context, { options with trace }⟩ program journal world
    let seen (trace : Bool) :=
      Run.program ⟨context.recorded, { options with trace }⟩ program journal (world, [])
    ((run true).1 = (run false).1 ∧ (run true).2.world = (run false).2.world) ∧
    (∀ trace, (seen trace).1 = (run trace).1 ∧ (seen trace).2.world.1 = (run trace).2.world) ∧
    (seen true).2.world.2 = (seen false).2.world.2 ∧
    ∀ id, journal.listens id = true → ∃ events,
      (run true).2.journal.inbox id = journal.inbox id ++ events ∧
      (run false).2.journal.inbox id =
        journal.inbox id ++ events.filter fun event => !event.isTrace := by
  intro run seen
  obtain ⟨hreport, hworld, hinbox⟩ := program_traced_silent context options program journal world
  obtain ⟨hseen, hrecord, -⟩ :=
    program_traced_silent context.recorded options program journal (world, [])
  have hwatched : (seen true).1 = (run true).1 ∧ (seen true).2.world.1 = (run true).2.world :=
    program_watched ⟨context, { options with trace := true }⟩ program journal world
  refine ⟨⟨hreport, hworld⟩, fun trace => ?_, congrArg Prod.snd hrecord, hinbox⟩
  cases trace with
  | true => exact hwatched
  | false =>
    have hleft : (seen false).2.world.1 = (seen true).2.world.1 := congrArg Prod.fst hrecord.symm
    exact ⟨hseen.symm.trans (hwatched.1.trans hreport),
      hleft.trans (hwatched.2.trans hworld)⟩

end Run

end BlockScript
