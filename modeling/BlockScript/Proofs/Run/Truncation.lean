import BlockScript.Proofs.Report.Journal
import BlockScript.Proofs.Run.Commands
import BlockScript.Proofs.Run.Lockstep

/-!
# Limits only truncate

Two runs of one program in one context, whose options differ in nothing but the limits on commands,
iterations and calls. As long as no limit is met they are the same run. The run with the lower
limits is cut off where it meets one of them, and by then it has done nothing that the other has
not.
-/
namespace BlockScript
set_option autoImplicit false

/-- Options that are the same but for limits, none of which is higher. -/
structure RunOptions.Tightens (tight loose : RunOptions) : Prop where
  opLimit : tight.opLimit ≤ loose.opLimit
  maxLoopIterations : tight.maxLoopIterations ≤ loose.maxLoopIterations
  maxCallDepth : tight.maxCallDepth ≤ loose.maxCallDepth
  others : { tight with
    opLimit := loose.opLimit
    maxLoopIterations := loose.maxLoopIterations
    maxCallDepth := loose.maxCallDepth } = loose

/-- The causes that are a limit of the options. -/
inductive Halt.IsLimit (options : RunOptions) : Halt → Prop where
  | ops (op : String) : IsLimit options (.opLimit options.opLimit op)
  | iterations : IsLimit options (.iterationLimit options.maxLoopIterations)
  | calls (name : String) : IsLimit options (.callDepth options.maxCallDepth name)

/-- A termination that tells of a limit. -/
def Termination.ByLimit (options : RunOptions) (x : Termination) : Prop :=
  ∃ halt : Halt, halt.IsLimit options ∧ x.kind = halt.kind ∧ x.message = halt.message

/-- An outcome that tells of a limit. -/
def Outcome.ByLimit (options : RunOptions) (outcome : Outcome) : Prop :=
  ∃ x, outcome = .terminated x ∧ x.ByLimit options

namespace Run

variable {σ : Type}

/-- Outsides that are the same, with books that are in order and a journal that goes on from the
given one. -/
structure Abreast (tight : RunOptions) (journal : Journal) (o p : Outside σ) : Prop where
  same : o = p
  counted : o.results.length = o.ops
  within : o.ops ≤ tight.opLimit
  noted : ∃ events, o.journal = journal.noteAll events

/-- What a limit has cut off is a beginning of what has been done without it. -/
structure Truncated (tight loose : RunOptions) (journal : Journal) (x : Termination)
    (o p : Outside σ) : Prop where
  byLimit : x.ByLimit tight
  noted : ∃ events, o.journal = journal.noteAll events
  events : ∃ later, p.journal = o.journal.noteAll later
  results : ∃ later, p.results = later ++ o.results
  cause : o.results.length = tight.opLimit ∨
    tight.maxLoopIterations < loose.maxLoopIterations ∨ tight.maxCallDepth < loose.maxCallDepth

namespace Abreast

variable {α : Type} {tight loose : RunOptions} {journal : Journal}

theorem asks (f : Act σ α) : AsksAlike (Abreast tight journal) f f where
  answer := fun o p h => by rw [h.same]
  kept := fun o p h => by
    obtain ⟨rfl, hcounted, hwithin, hnoted⟩ := h
    exact ⟨rfl, hcounted, hwithin, hnoted⟩

theorem traced {a b : Setup σ} (htrace : a.options.trace = b.options.trace) (loc : Location)
    (kind : TraceKind) {o p : Outside σ} (h : Abreast tight journal o p) :
    Abreast tight journal (o.traced a loc kind) (p.traced b loc kind) := by
  obtain ⟨rfl, hcounted, hwithin, events, hevents⟩ := h
  unfold Outside.traced
  rw [htrace]
  split
  · refine ⟨rfl, hcounted, hwithin, events ++ [.trace ⟨o.journal.createdAt, loc, kind⟩], ?_⟩
    rw [Journal.noteAll_concat, ← hevents, Journal.trace_eq]
  · exact ⟨rfl, hcounted, hwithin, events, hevents⟩

theorem concluded {o p : Outside σ} (h : Abreast tight journal o p) (hops : o.ops < tight.opLimit)
    (op : String) (result : StepResult) (world : σ) :
    Abreast tight journal (o.concluded op result world) (p.concluded op result world) := by
  obtain ⟨rfl, hcounted, -, events, hevents⟩ := h
  refine ⟨rfl, congrArg (· + 1) hcounted, hops, events ++ [.step result], ?_⟩
  rw [Journal.noteAll_concat, ← hevents]
  rfl

theorem cut {o p : Outside σ} (h : Abreast tight journal o p) {x : Termination}
    (hx : x.ByLimit tight)
    (hcause : o.results.length = tight.opLimit ∨
      tight.maxLoopIterations < loose.maxLoopIterations ∨
        tight.maxCallDepth < loose.maxCallDepth) :
    Truncated tight loose journal x o p := by
  obtain ⟨rfl, -, -, hnoted⟩ := h
  exact ⟨hx, hnoted, ⟨[], rfl⟩, ⟨[], rfl⟩, hcause⟩

end Abreast

namespace Truncated

variable {tight loose : RunOptions} {journal : Journal} {x : Termination} {o p : Outside σ}

theorem traced (h : Truncated tight loose journal x o p) (setup : Setup σ) (loc : Location)
    (kind : TraceKind) : Truncated tight loose journal x o (p.traced setup loc kind) := by
  unfold Outside.traced
  split
  · obtain ⟨later, hlater⟩ := h.events
    refine { h with events := ⟨later ++ [.trace ⟨p.journal.createdAt, loc, kind⟩], ?_⟩ }
    rw [Journal.noteAll_concat, ← hlater, Journal.trace_eq]
  · exact h

theorem concluded (h : Truncated tight loose journal x o p) (op : String) (result : StepResult)
    (world : σ) :
    Truncated tight loose journal x o (p.concluded op result world) := by
  obtain ⟨events, hevents⟩ := h.events
  obtain ⟨later, hlater⟩ := h.results
  refine { h with events := ⟨events ++ [.step result], ?_⟩, results := ⟨result :: later, ?_⟩ }
  · rw [Journal.noteAll_concat, ← hevents]
    rfl
  · change result :: p.results = result :: later ++ o.results
    rw [hlater]
    rfl

end Truncated

/-! ## The two runs -/

section

variable (context : Context σ) {tight loose : RunOptions} (journal : Journal)

theorem sameSight_of_tightens (h : tight.Tightens loose) :
    SameSight ⟨context, tight⟩ ⟨context, loose⟩ (Abreast tight journal)
      (Truncated tight loose journal) := by
  have hothers := h.others
  have hactor : tight.actor = loose.actor := hothers ▸ rfl
  have hradius : tight.defaultScanRadius = loose.defaultScanRadius := hothers ▸ rfl
  have htrace : tight.trace = loose.trace := hothers ▸ rfl
  exact
    { actor := hactor
      ops := fun _ _ hj => hj.same ▸ rfl
      lastOp := fun _ _ hj => hj.same ▸ rfl
      lastOk := fun _ _ hj => hj.same ▸ rfl
      stamp := fun _ _ hj => hj.same ▸ rfl
      pose := Abreast.asks _
      search := fun query origin => by
        rw [hradius]
        exact Abreast.asks _
      waypoint := fun name => by
        rw [hactor]
        exact Abreast.asks _
      predicate := fun name => by
        cases context.registry.predicate? name with
        | none => exact .none
        | some handler => exact .some fun _ => Abreast.asks _
      told := fun loc name value o p _ hj => hj.traced htrace loc _
      toldLastOk := fun loc o p hj => by
        rw [← hj.same]
        exact (hj.same ▸ hj : Abreast tight journal o o).traced htrace loc _
      cutWorld := fun _ _ _ _ hcut => { hcut with }
      cutTraced := fun _ _ _ loc kind hcut => hcut.traced _ loc kind }

theorem byLimit_terminate {halt : Halt} (h : halt.IsLimit tight) (loc : Location)
    (notes : List String) (s : State σ) : (terminate halt loc notes s).ByLimit tight :=
  ⟨halt, h, rfl, rfl⟩

theorem sameCommand_of_tightens (h : tight.Tightens loose) (call : CommandCall)
    (handler : CommandHandler σ) :
    SameCommand ⟨context, tight⟩ ⟨context, loose⟩ (Abreast tight journal)
      (Truncated tight loose journal) call handler handler := by
  have hothers := h.others
  have hradius : tight.defaultScanRadius = loose.defaultScanRadius := hothers ▸ rfl
  have htrace : tight.trace = loose.trace := hothers ▸ rfl
  exact
    { cancelled := Abreast.asks _
      opLimit := h.opLimit
      opCut := fun _ s t hj hfull => by
        refine hj.cut (byLimit_terminate (.ops _) _ _ s) (.inl ?_)
        have hcounted : s.results.length = s.ops := hj.counted
        have hwithin : s.ops ≤ tight.opLimit := hj.within
        change s.results.length = tight.opLimit
        exact hcounted.trans (Nat.le_antisymm hwithin hfull)
      started := fun o p hj => by
        rw [← hj.same]
        exact (hj.same ▸ hj : Abreast tight journal o o).traced htrace _ _
      autoScan := hothers ▸ rfl
      needsScan := Abreast.asks _
      scan := by
        rw [hradius]
        exact Abreast.asks _
      stopOnFailure := hothers ▸ rfl
      settles := fun o p prepared hj hops => by
        have hkept := fun result world => hj.concluded hops call.name result world
        obtain ⟨rfl, -, -, -⟩ := hj
        exact ⟨rfl, hkept _ _⟩
      cutConcluded := fun _ _ _ result world hcut => hcut.concluded _ result world }

theorem sameCourse_of_tightens (h : tight.Tightens loose) :
    SameCourse ⟨context, tight⟩ ⟨context, loose⟩ (Abreast tight journal)
      (Truncated tight loose journal) := by
  have hothers := h.others
  have hactor : tight.actor = loose.actor := hothers ▸ rfl
  have htrace : tight.trace = loose.trace := hothers ▸ rfl
  have hsight := sameSight_of_tightens context journal h
  exact
    { hsight with
      cancelled := Abreast.asks _
      function := fun name => by
        rw [hactor]
        exact Abreast.asks _
      command := fun call => by
        cases context.registry.command? call.name with
        | none => exact .none
        | some handler =>
          exact .some fun _ hR =>
            (sameCommand_of_tightens context journal h call handler).dispatch hsight hR
      flow := fun loc kind o p _ hj => hj.traced htrace loc kind
      iterationLimit := h.maxLoopIterations
      iterationCut := fun hlt loc s t hj =>
        hj.cut (byLimit_terminate .iterations loc _ s) (.inr (.inl hlt))
      callDepth := h.maxCallDepth
      depthCut := fun hlt name loc s t hj =>
        hj.cut (byLimit_terminate (.calls name) loc _ s) (.inr (.inr hlt)) }

/-- The run with the lower limits ends as the other one does, or it is cut off. -/
theorem bodies_agree (h : tight.Tightens loose) (program : Program) (world : σ) :
    Agree (Alike (Abreast tight journal.start)) (Truncated tight loose journal.start)
      (body ⟨context, tight⟩ program (start journal world))
      (body ⟨context, loose⟩ program (start journal world)) := by
  have hfollows := (sameCourse_of_tightens context journal.start h).body (Alike.tracks _) program 0
  have hstart : Abreast tight journal.start (start journal world).outside
      (start journal world).outside := ⟨rfl, rfl, Nat.zero_le _, [], rfl⟩
  exact hfollows.agree _ _ ⟨hstart, rfl, rfl, rfl, rfl, rfl⟩

/-- Limits only truncate: what a subscriber receives from the run with the lower limits, up to its
report, is a beginning of what it receives from the other run. Unless a limit was met, results and
outcome are the same; and under a lower limit on commands alone, the results are the first ones. -/
theorem limits_only_truncate (h : tight.Tightens loose) (program : Program) (world : σ) :
    let first := Run.program ⟨context, tight⟩ program journal world
    let second := Run.program ⟨context, loose⟩ program journal world
    (∀ id, journal.listens id = true → ∃ events later,
      first.2.journal.inbox id = events ++ [.finished first.1] ∧
        second.2.journal.inbox id = events ++ later ++ [.finished second.1]) ∧
    (¬ first.1.outcome.ByLimit tight →
      first.1.results = second.1.results ∧ first.1.outcome = second.1.outcome) ∧
    (tight.maxLoopIterations = loose.maxLoopIterations → tight.maxCallDepth = loose.maxCallDepth →
      first.1.results = second.1.results.take tight.opLimit) := by
  have hagree := bodies_agree context journal h program world
  dsimp only [Run.program]
  generalize body ⟨context, tight⟩ program (start journal world) = first,
    body ⟨context, loose⟩ program (start journal world) = second at hagree
  cases hagree with
  | @both answer s t hst =>
    obtain ⟨hsame, hcounted, hwithin, events, hevents⟩ := hst.outside
    have hresults : s.results = t.results := congrArg Outside.results hsame
    have hjournal : t.journal = journal.start.noteAll events :=
      (congrArg Outside.journal hsame).symm.trans hevents
    refine ⟨fun id hid => ?_, fun _ => ⟨congrArg List.reverse hresults, rfl⟩, fun _ _ => ?_⟩
    · refine ⟨_, [], inbox_finish hid hevents _, ?_⟩
      rw [List.append_nil]
      exact inbox_finish hid hjournal _
    · change s.results.reverse = t.results.reverse.take tight.opLimit
      rw [← hresults, List.take_of_length_le]
      rw [List.length_reverse]
      exact hcounted.symm ▸ hwithin
  | @cut x s second hcut =>
    obtain ⟨answer, t⟩ := second
    obtain ⟨hlimit, ⟨events, hevents⟩, ⟨later, hlater⟩, ⟨more, hmore⟩, hcause⟩ := hcut
    refine ⟨fun id hid => ?_, fun hnot => absurd ⟨x, rfl, hlimit⟩ hnot, fun hloops hcalls => ?_⟩
    · have hjournal : t.journal = journal.start.noteAll (events ++ later) := by
        rw [Journal.noteAll_append]
        rw [← (show s.journal = _ from hevents)]
        exact hlater
      refine ⟨_, later, inbox_finish hid hevents _, ?_⟩
      rw [List.append_assoc _ events]
      exact inbox_finish hid hjournal _
    · have hfull : s.results.length = tight.opLimit := by
        rcases hcause with hfull | hless | hless
        · exact hfull
        · omega
        · omega
      change s.results.reverse = t.results.reverse.take tight.opLimit
      rw [show t.results = more ++ s.results from hmore, List.reverse_append, ← hfull,
        ← List.length_reverse, List.take_left]

end

/-- Two commands that always succeed, of which a limit of one lets the first one through. -/
theorem limits_only_truncate_second_command :
    let handler : CommandHandler Unit := { execute := fun _ world => (.ok [], world) }
    let context : Context Unit :=
      { registry := ⟨Dict.empty.insert "go" handler, Dict.empty⟩
        probe :=
          { pose := fun world => (.error (.unavailable ""), world)
            blockAt := fun _ world => (.ok none, world)
            findBlock := fun _ _ _ world => (.ok none, world) } }
    let go : Statement := .command "go" [] default
    let journal : Journal := (default : Journal).subscribe.2
    let results (limit : Nat) : List StepResult :=
      (Run.program ⟨context, { opLimit := limit }⟩ [go, go] journal ()).1.results
    results 1 = (results 2).take 1 ∧ (results 1).length = 1 ∧ (results 2).length = 2 := by
  intro handler context go journal results
  have htightens : RunOptions.Tightens { opLimit := 1 } { opLimit := 2 } :=
    ⟨by decide, Nat.le_refl _, Nat.le_refl _, rfl⟩
  refine ⟨(limits_only_truncate context journal htightens [go, go] ()).2.2 rfl rfl, ?_, ?_⟩
  · decide +kernel
  · decide +kernel

end Run

end BlockScript
