import BlockScript.Proofs.Run.Bookkeeping
import BlockScript.Proofs.Run.Terminations

/-!
# Stopping at the first failure

A run that stops on failure beside the run that goes on. The two do the same until a command fails,
and there the first one ends. The same comparison of a run with itself shows what a lost connection
does, since that ends a run in any case.
-/
namespace BlockScript
set_option autoImplicit false

/-- The termination tells of a failed command. -/
structure Termination.TellsOf (x : Termination) (failure : StepFailure) : Prop where
  kind : x.kind = failure.kind
  loc : x.loc = some failure.loc
  lastOpIndex : x.lastOpIndex = some failure.opIndex
  op : x.op = some failure.op
  notes : x.notes = failure.notes

/-- A result that ends a run, whether or not the run is to stop on failure. -/
def StepResult.IsFatal (stop : Bool) (result : StepResult) : Prop :=
  ∃ failure, result = .failure failure ∧ (failure.kind = .connectionLost ∨ stop = true)

/-- A run that stops on failure is ended by every failure. -/
theorem StepResult.isFatal_stop_iff {result : StepResult} :
    result.IsFatal true ↔ result.isSuccess = false := by
  cases result with
  | success step => simp [IsFatal, isSuccess]
  | failure failure => simp [IsFatal, isSuccess]

/-- Where a run goes on after failures, no cause of its end is of a failed command's kind. -/
theorem Halt.kind_ne_command {options : RunOptions} (hoption : options.stopOnFailure = false)
    {halt : Halt} (h : halt.isRegular options = true) : halt.kind ≠ .command := by
  cases halt with
  | commandFailed kind op message =>
    rintro ⟨⟩
    rcases of_decide_eq_true h with hkind | ⟨hstop, -⟩
    · cases hkind
    · rw [hoption] at hstop
      cases hstop
  | unresolved error => cases error <;> nofun
  | probe error => cases error <;> nofun
  | predicateFault name fault => cases fault <;> nofun
  | _ => nofun

/-- The first element of a list that fails a test, and what is before it, are unique. -/
theorem first_failing_unique {α : Type} {p : α → Bool} {before before' after after' : List α}
    {a a' : α} (h : before ++ a :: after = before' ++ a' :: after')
    (hbefore : ∀ b ∈ before, p b = true) (hbefore' : ∀ b ∈ before', p b = true)
    (ha : p a = false) (ha' : p a' = false) : before = before' ∧ a = a' := by
  have htaken : ∀ (list rest : List α) (x : α), (∀ b ∈ list, p b = true) → p x = false →
      (list ++ x :: rest).takeWhile p = list := by
    intro list rest x hlist hx
    rw [List.takeWhile_append_of_pos hlist]
    simp [hx]
  have hsame : before = before' := by
    rw [← htaken before after a hbefore ha, h, htaken before' after' a' hbefore' ha']
  subst hsame
  exact ⟨rfl, (List.cons.inj (List.append_cancel_left h)).1⟩

theorem Outside.traced_results {σ : Type} (setup : Setup σ) (loc : Location) (kind : TraceKind)
    (o : Outside σ) : (o.traced setup loc kind).results = o.results := by
  unfold Outside.traced
  split <;> rfl

namespace Run

variable {σ α : Type}

/-- The setup of a run that stops on failure, or not. -/
def stopping (context : Context σ) (options : RunOptions) (stop : Bool) : Setup σ :=
  ⟨context, { options with stopOnFailure := stop }⟩

/-- Nothing outside tells two runs apart, and the first one has had no result that ends it. -/
def GoingOn (stop : Bool) (o p : Outside σ) : Prop :=
  o = p ∧ ∀ result ∈ o.results, ¬ result.IsFatal stop

/-- The first run has ended at a result of which its termination tells. The second has that result,
those before it and perhaps more. -/
structure CutOff (stop : Bool) (x : Termination) (o p : Outside σ) : Prop where
  ended : ∃ failure before, o.results = .failure failure :: before ∧
    (StepResult.failure failure).IsFatal stop ∧ x.TellsOf failure ∧
      ∀ result ∈ before, ¬ result.IsFatal stop
  more : ∃ more, p.results = more ++ o.results

/-! ## Evaluation -/

theorem GoingOn.asks {stop : Bool} (act : Act σ α) : AsksAlike (GoingOn stop) act act := by
  constructor
  · rintro o p ⟨rfl, -⟩
    rfl
  · rintro o p ⟨rfl, hresults⟩
    exact ⟨rfl, hresults⟩

section

variable {context : Context σ} {options : RunOptions} {first second : Bool}

theorem GoingOn.traced {o p : Outside σ} (h : GoingOn first o p) (loc : Location)
    (kind : TraceKind) :
    GoingOn first (o.traced (stopping context options first) loc kind)
      (p.traced (stopping context options second) loc kind) := by
  obtain ⟨rfl, hresults⟩ := h
  refine ⟨rfl, ?_⟩
  rw [Outside.traced_results]
  exact hresults

theorem sameSight_stopping :
    SameSight (stopping context options first) (stopping context options second) (GoingOn first)
      (CutOff first) where
  actor := rfl
  ops := fun _ _ h => h.1 ▸ rfl
  lastOp := fun _ _ h => h.1 ▸ rfl
  lastOk := fun _ _ h => h.1 ▸ rfl
  stamp := fun _ _ h => h.1 ▸ rfl
  pose := GoingOn.asks _
  search := fun _ _ => GoingOn.asks _
  waypoint := fun _ => GoingOn.asks _
  predicate := fun name => by
    change Option.Rel _ (context.registry.predicate? name) (context.registry.predicate? name)
    cases context.registry.predicate? name with
    | none => exact .none
    | some handler => exact .some fun _ => GoingOn.asks _
  told := fun loc _ _ _ _ _ h => h.traced loc _
  toldLastOk := fun loc o p h => by
    have hsame : o = p := h.1
    subst hsame
    exact h.traced loc _
  cutWorld := fun _ _ _ _ hcut => ⟨hcut.ended, hcut.more⟩
  cutTraced := fun x o p loc kind hcut => by
    refine ⟨hcut.ended, ?_⟩
    rw [Outside.traced_results]
    exact hcut.more

/-! ## Commands -/

/-- A failure is told at the place of its command. -/
theorem settle_loc {call : CommandCall} {handler : CommandHandler σ} {opIndex : Nat}
    {stamp : Timestamp} {prepared : Prepared} {world : σ} {failure : StepFailure}
    (h : (settle call handler opIndex stamp prepared world).1 = .failure failure) :
    failure.loc = call.loc := by
  cases prepared with
  | lookupFailed message notes =>
    cases h
    rfl
  | ready args notes =>
    change resultOf call opIndex stamp notes (attempt handler args world).1 = _ at h
    cases hattempt : (attempt handler args world).1 with
    | ok more =>
      rw [hattempt] at h
      cases h
    | error fault =>
      rw [hattempt] at h
      cases h
      rfl

/-- The conclusion of a command tells of its failure. -/
theorem tellsOf_terminate {failure : StepFailure} {loc : Location} {s : State σ}
    (hloc : failure.loc = loc) (hindex : s.ops = failure.opIndex + 1)
    (hop : s.lastOp = some failure.op) :
    (terminate (.commandFailed failure.kind failure.op failure.message) loc failure.notes
      s).TellsOf failure where
  kind := rfl
  loc := by
    rw [hloc]
    rfl
  lastOpIndex := by
    unfold terminate
    simp [hindex]
  op := hop
  notes := rfl

theorem afterResult_of_not_fatal {setup : Setup σ} {stop : Bool}
    (hstop : setup.options.stopOnFailure = true → stop = true) {result : StepResult}
    (h : ¬ result.IsFatal stop) (loc : Location) (s : State σ) :
    afterResult setup loc s result = .ok () := by
  cases result with
  | success step => rfl
  | failure failure =>
    apply if_neg
    intro hends
    exact h ⟨failure, rfl, hends.imp_right hstop⟩

/-- A result either leaves both runs going on or ends the first one. -/
theorem settled_stopping (hstop : second = true → first = true) {R : State σ → State σ → Prop}
    (hR : Sees R (GoingOn first)) {call : CommandCall} {s t : State σ} (hst : R s t)
    {result : StepResult} (hindex : result.opIndex = s.ops) (hop : result.op = call.name)
    (hloc : ∀ failure, result = .failure failure → failure.loc = call.loc) (world : σ) :
    let u := s.withOutside (s.outside.concluded call.name result world)
    let v := t.withOutside (t.outside.concluded call.name result world)
    Agree R (CutOff first) (afterResult (stopping context options first) call.loc u result, u)
      (afterResult (stopping context options second) call.loc v result, v) := by
  intro u v
  obtain ⟨hsame, hresults⟩ := hR.outside hst
  by_cases hfatal : result.IsFatal first
  · obtain ⟨failure, rfl, hends⟩ := hfatal
    have hafter : afterResult (stopping context options first) call.loc u (.failure failure) =
        .error (terminate (.commandFailed failure.kind failure.op failure.message) call.loc
          failure.notes u) := if_pos hends
    have hcount : u.ops = failure.opIndex + 1 := congrArg (· + 1) hindex.symm
    have hlast : u.lastOp = some failure.op := congrArg some hop.symm
    have htells := tellsOf_terminate (hloc failure rfl) hcount hlast
    have hmore : v.outside.results = [] ++ u.outside.results := by
      show StepResult.failure failure :: t.outside.results = .failure failure :: s.outside.results
      rw [hsame]
    rw [hafter]
    exact .cut ⟨⟨failure, s.results, rfl, ⟨failure, rfl, hends⟩, htells, hresults⟩, [], hmore⟩
  · have hgoing : GoingOn first u.outside v.outside := by
      refine ⟨congrArg (Outside.concluded call.name result world) hsame, ?_⟩
      intro other hother
      rcases List.mem_cons.1 hother with rfl | hold
      · exact hfatal
      · exact hresults other hold
    have hfirst : afterResult (stopping context options first) call.loc u result = .ok () :=
      afterResult_of_not_fatal (fun h => h) hfatal call.loc u
    have hsecond : afterResult (stopping context options second) call.loc v result = .ok () :=
      afterResult_of_not_fatal hstop hfatal call.loc v
    rw [hfirst, hsecond]
    exact .both (hR.update hst hgoing)

theorem concludes_stopping (hstop : second = true → first = true) {R : State σ → State σ → Prop}
    (hR : Sees R (GoingOn first)) (call : CommandCall) (handler : CommandHandler σ) :
    Concludes (stopping context options first) (stopping context options second) R (CutOff first)
      call handler handler where
  agree := fun prepared s t hst _ => by
    have hsame := (hR.outside hst).1
    have hops : t.ops = s.ops := congrArg Outside.ops hsame.symm
    have hworld : t.world = s.world := congrArg Outside.world hsame.symm
    have hjournal : t.journal = s.journal := congrArg Outside.journal hsame.symm
    obtain ⟨hindex, hop⟩ :=
      settle_of_call call handler s.ops s.journal.createdAt prepared s.world
    rw [conclude_eq, conclude_eq, hops, hworld, hjournal]
    exact settled_stopping hstop hR hst hindex hop (fun _ h => settle_loc h) _
  survives := fun opIndex prepared x o t hcut => by
    rw [conclude_eq]
    obtain ⟨more, hmore⟩ := hcut.more
    have hkept := fun result : StepResult => congrArg (result :: ·) hmore
    exact ⟨hcut.ended, _ :: more, hkept _⟩

theorem sameCourse_stopping (hstop : second = true → first = true) :
    SameCourse (stopping context options first) (stopping context options second) (GoingOn first)
      (CutOff first) :=
  { sameSight_stopping with
    cancelled := GoingOn.asks _
    function := fun _ => GoingOn.asks _
    command := fun call => by
      change Option.Rel _ (context.registry.command? call.name)
        (context.registry.command? call.name)
      cases context.registry.command? call.name with
      | none => exact .none
      | some handler =>
        have hstart : SameStart (stopping context options first) (stopping context options second)
            (GoingOn first) (CutOff first) call handler handler :=
          { cancelled := GoingOn.asks _
            opLimit := Nat.le_refl _
            opCut := fun hlt => absurd hlt (Nat.lt_irrefl _)
            started := fun o p h => by
              have hsame : o = p := h.1
              subst hsame
              exact h.traced call.loc _
            autoScan := rfl
            needsScan := GoingOn.asks _
            scan := GoingOn.asks _ }
        exact .some fun _ hR =>
          hstart.dispatch sameSight_stopping hR (concludes_stopping hstop hR call handler)
    flow := fun loc kind _ _ _ h => h.traced loc kind
    iterationLimit := Nat.le_refl _
    iterationCut := fun hlt => absurd hlt (Nat.lt_irrefl _)
    callDepth := Nat.le_refl _
    depthCut := fun hlt => absurd hlt (Nat.lt_irrefl _) }

theorem bodies_stopping (hstop : second = true → first = true) (program : Program)
    (journal : Journal) (world : σ) :
    Agree (Alike (GoingOn first)) (CutOff first)
      (body (stopping context options first) program (start journal world))
      (body (stopping context options second) program (start journal world)) := by
  have hcourse : SameCourse (stopping context options first) (stopping context options second)
      (GoingOn first) (CutOff first) := sameCourse_stopping hstop
  have hfollows := hcourse.body (Alike.tracks _) program 0
  have hstart : GoingOn first (start journal world).outside (start journal world).outside :=
    ⟨rfl, fun _ h => nomatch h⟩
  exact hfollows.agree _ _ ⟨hstart, rfl, rfl, rfl, rfl, rfl⟩

/-! ## Whole runs -/

theorem Alike.eq {J : Outside σ → Outside σ → Prop} {s t : State σ} (h : Alike J s t)
    (houtside : s.outside = t.outside) : s = t := by
  obtain ⟨-, henv, hiterations, hdepth, hfunctions, hvalidated⟩ := h
  obtain ⟨world, env, ops, iterations, depth, lastOk, lastOp, functions, validated, results,
    journal⟩ := s
  cases houtside
  cases henv
  cases hiterations
  cases hdepth
  cases hfunctions
  cases hvalidated
  rfl

/-- Either nothing that would end the first run has come up, and the runs are the same, or the
second run has a first result that ends the first one. -/
theorem program_stopping (hstop : second = true → first = true) (program : Program)
    (journal : Journal) (world : σ) :
    let run (stop : Bool) := Run.program (stopping context options stop) program journal world
    (run first = run second ∧ ∀ result ∈ (run second).1.results, ¬ result.IsFatal first) ∨
    ∃ before failure after x,
      (run second).1.results = before ++ .failure failure :: after ∧
      (StepResult.failure failure).IsFatal first ∧
      (∀ result ∈ before, ¬ result.IsFatal first) ∧
      (run first).1.results = before ++ [.failure failure] ∧
      (run first).1.outcome = .terminated x ∧ x.TellsOf failure := by
  have hagree : Agree _ _ (body (stopping context options first) program (start journal world))
      (body (stopping context options second) program (start journal world)) :=
    bodies_stopping hstop program journal world
  dsimp only [Run.program]
  generalize body (stopping context options first) program (start journal world) = u,
    body (stopping context options second) program (start journal world) = v at hagree
  cases hagree with
  | @both answer s t hst =>
    obtain ⟨hsame, hresults⟩ := hst.outside
    obtain rfl := hst.eq hsame
    refine .inl ⟨rfl, fun result hresult => ?_⟩
    exact hresults result (List.mem_reverse.1 hresult)
  | @cut x s v hcut =>
    obtain ⟨answer, t⟩ := v
    obtain ⟨failure, before, hfirst, hfatal, htells, hbefore⟩ := hcut.ended
    obtain ⟨more, hmore⟩ := hcut.more
    have hs : s.results = .failure failure :: before := hfirst
    have ht : t.results = more ++ s.results := hmore
    refine .inr ⟨before.reverse, failure, more.reverse, x, ?_, hfatal, ?_, ?_, rfl, htells⟩
    · show t.results.reverse = _
      rw [ht, hs]
      simp
    · intro result hresult
      exact hbefore result (List.mem_reverse.1 hresult)
    · show s.results.reverse = _
      rw [hs]
      simp

end

/-- In a run that goes on after failures, no termination is that of a failed command. -/
theorem kind_ne_command {setup : Setup σ} (hoption : setup.options.stopOnFailure = false)
    {program : Program} {journal : Journal} {world : σ} {x : Termination}
    (h : (Run.program setup program journal world).1.outcome = .terminated x) :
    x.kind ≠ .command := by
  obtain ⟨s, hbody, -⟩ := body_of_terminated h
  have hpervasive : Pervasive setup (Fails fun x _ => x.kind ≠ .command) := by
    refine Fails.pervasive ?_ ?_ ?_ ?_
    · exact fun _ _ _ _ hkind => hkind
    · intro halt loc notes _ hregular
      exact Halt.kind_ne_command hoption hregular
    · rintro α function error name loc world - - s x s' ⟨⟩ ⟨⟩
    · intro call loc _
      unfold unknown
      split <;> nofun
  exact hpervasive.body program _ x s hbody

/-- Stopping on failure cuts a run at its first failure and changes nothing else. If the run that
goes on has no failure, the run that stops is the same. Otherwise it has the results up to the first
failure, and its termination tells of that failure. The run that goes on is never terminated by a
command's own failure, and a lost connection is its last result and the reason of its end. -/
theorem stop_on_failure_cuts_at_first_failure (context : Context σ) (options : RunOptions)
    (program : Program) (journal : Journal) (world : σ) :
    let run (stop : Bool) :=
      Run.program ⟨context, { options with stopOnFailure := stop }⟩ program journal world
    ((∀ result ∈ (run false).1.results, result.isSuccess = true) → run true = run false) ∧
    (∀ before failure after,
      (run false).1.results = before ++ .failure failure :: after →
      (∀ result ∈ before, result.isSuccess = true) →
      (run true).1.results = before ++ [.failure failure] ∧
        ∃ x, (run true).1.outcome = .terminated x ∧ x.TellsOf failure) ∧
    (∀ x, (run false).1.outcome = .terminated x → x.kind ≠ .command) ∧
    (∀ before failure after,
      (run false).1.results = before ++ .failure failure :: after →
      failure.kind = .connectionLost →
      after = [] ∧ ∃ x, (run false).1.outcome = .terminated x ∧ x.kind = .connectionLost) := by
  intro run
  have hstops : (run true = run false ∧ ∀ result ∈ (run false).1.results, ¬ result.IsFatal true) ∨
      _ := program_stopping (fun _ => rfl) program journal world
  have hgoes : (run false = run false ∧
      ∀ result ∈ (run false).1.results, ¬ result.IsFatal false) ∨
      _ := program_stopping (fun h => h) program journal world
  refine ⟨fun hall => ?_, fun before failure after hresults hbefore => ?_,
    fun x hx => kind_ne_command rfl hx, fun before failure after hresults hlost => ?_⟩
  · rcases hstops with ⟨hsame, -⟩ | ⟨before, failure, after, -, hresults, -⟩
    · exact hsame
    · have hsuccess := hall (.failure failure) (hresults ▸ List.mem_append_right _ List.mem_cons_self)
      cases hsuccess
  · rcases hstops with ⟨-, hnone⟩ |
      ⟨before', failure', after', x, hresults', -, hbefore', hcut, hx, htells⟩
    · have hmem : StepResult.failure failure ∈ (run false).1.results := by
        rw [hresults]
        exact List.mem_append_right _ List.mem_cons_self
      exact absurd (StepResult.isFatal_stop_iff.2 rfl) (hnone _ hmem)
    · have hsuccesses : ∀ result ∈ before', result.isSuccess = true := by
        intro result hresult
        have hgoing := hbefore' result hresult
        rw [StepResult.isFatal_stop_iff] at hgoing
        simpa using hgoing
      obtain ⟨rfl, hsame⟩ := first_failing_unique (hresults.symm.trans hresults') hbefore hsuccesses
        rfl rfl
      cases hsame
      exact ⟨hcut, x, hx, htells⟩
  · have hfatal : (StepResult.failure failure).IsFatal false := ⟨failure, rfl, .inl hlost⟩
    rcases hgoes with ⟨-, hnone⟩ | ⟨before', failure', -, x, -, -, hbefore', hcut, hx, htells⟩
    · have hmem : StepResult.failure failure ∈ (run false).1.results := by
        rw [hresults]
        exact List.mem_append_right _ List.mem_cons_self
      exact absurd hfatal (hnone _ hmem)
    · have hsplit := hresults.symm.trans hcut
      rcases List.eq_nil_or_concat after with rfl | ⟨others, last, rfl⟩
      · obtain ⟨-, hlast⟩ := List.append_inj' hsplit rfl
        cases hlast
        exact ⟨rfl, x, hx, htells.kind.trans hlost⟩
      · -- A failure before the last result would be among those that end no run.
        have hregrouped : (before ++ .failure failure :: others) ++ [last] =
            before' ++ [.failure failure'] := by
          rw [← hsplit]
          simp
        have hearlier := (List.append_inj' hregrouped rfl).1
        have hmem : StepResult.failure failure ∈ before' := by
          rw [← hearlier]
          exact List.mem_append_right _ List.mem_cons_self
        exact absurd hfatal (hbefore' _ hmem)

end Run

end BlockScript
