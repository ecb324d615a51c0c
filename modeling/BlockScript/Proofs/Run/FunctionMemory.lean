import BlockScript.Proofs.Run.Invariants
import BlockScript.Proofs.Run.Lookups
import BlockScript.Proofs.Run.Machinery
import BlockScript.Proofs.Run.Observation

/-!
# The memory of functions

A run asks its store for a function at most once. What the store has answered stays in memory, a
function as well as the answer that there is none, so whatever the store would answer later, each
call of a name enters the same body with the same parameters.

The invariant ties the memory to the contacts of the watched run: every name that the store has been
asked for is in memory, with what has been read from the answer. A lookup that ends the run leaves a
question without memory, but nothing is asked after it.
-/
namespace BlockScript
set_option autoImplicit false

/-- The question for a stored function that a contact is: the name and the answer. -/
def Contact.lookup? : Contact → Option (String × Except StoreError (Option StoredFunction))
  | function _ name answer => some (name, answer)
  | _ => none

/-- The functions that the store has been asked for, with its answers, newest first. -/
def lookups (contacts : List Contact) :
    List (String × Except StoreError (Option StoredFunction)) :=
  contacts.filterMap Contact.lookup?

namespace Run

variable {σ α β : Type}

/-! ## Memory -/

/-- What is in memory stays there, unchanged. -/
def Retained (functions functions' : Dict (Option Callee)) : Prop :=
  ∀ name found, functions.get? name = some found → functions'.get? name = some found

theorem Retained.refl (functions : Dict (Option Callee)) : Retained functions functions :=
  fun _ _ h => h

theorem Retained.trans {first second third : Dict (Option Callee)} (h : Retained first second)
    (h' : Retained second third) : Retained first third :=
  fun name found hfound => h' name found (h name found hfound)

/-- No name has been asked for twice, none is the name of a command, and what is in memory has been
read from what the store has answered. -/
structure Asked (setup : Setup σ) (s : State (σ × List Contact)) : Prop where
  once : ((lookups s.world.2).map Prod.fst).Nodup
  noCommand : ∀ lookup ∈ lookups s.world.2, setup.context.registry.hasCommand lookup.1 = false
  read : ∀ name found, s.functions.get? name = some found →
    ∃ answer, (name, .ok answer) ∈ lookups s.world.2 ∧
      ∀ loc (t : State (σ × List Contact)), loadFound loc answer t = (.ok found, t)

/-- Every name that has been asked for is in memory. -/
structure Remembers (setup : Setup σ) (s : State (σ × List Contact)) : Prop extends
    Asked setup s where
  known : ∀ lookup ∈ lookups s.world.2, ∃ found, s.functions.get? lookup.1 = some found

/-- A step that asks the store for nothing, and leaves the memory as it is. -/
def Unasking (m : Run (σ × List Contact) α) : Prop :=
  ∀ s, (m s).2.functions = s.functions ∧ lookups (m s).2.world.2 = lookups s.world.2

/-- A step after which the memory is as good as before, unless it ends the run. -/
def Remembering (setup : Setup σ) (m : Run (σ × List Contact) α) : Prop :=
  ∀ s, Remembers setup s →
    Ends m s (fun _ s' => Remembers setup s' ∧ Retained s.functions s'.functions)
      (fun _ s' => Asked setup s' ∧ Retained s.functions s'.functions)

section

variable {setup : Setup σ} {s s' : State (σ × List Contact)}

theorem Asked.of_same (h : Asked setup s) (hfunctions : s'.functions = s.functions)
    (hlookups : lookups s'.world.2 = lookups s.world.2) : Asked setup s' := by
  refine ⟨?_, ?_, ?_⟩
  · rw [hlookups]
    exact h.once
  · rw [hlookups]
    exact h.noCommand
  · rw [hfunctions, hlookups]
    exact h.read

theorem Remembers.of_same (h : Remembers setup s) (hfunctions : s'.functions = s.functions)
    (hlookups : lookups s'.world.2 = lookups s.world.2) : Remembers setup s' := by
  refine ⟨h.toAsked.of_same hfunctions hlookups, ?_⟩
  rw [hfunctions, hlookups]
  exact h.known

/-- A name that is not in memory may be asked for. -/
theorem Remembers.asks (h : Remembers setup s) {name : String}
    (hcommand : setup.context.registry.hasCommand name = false)
    (hnew : s.functions.get? name = none) {answer : Except StoreError (Option StoredFunction)}
    (hfunctions : s'.functions = s.functions)
    (hlookups : lookups s'.world.2 = (name, answer) :: lookups s.world.2) : Asked setup s' := by
  refine ⟨?_, ?_, fun other found hfound => ?_⟩
  · rw [hlookups, List.map_cons]
    refine List.nodup_cons.2 ⟨fun hmem => ?_, h.once⟩
    obtain ⟨lookup, hlookup, rfl⟩ := List.mem_map.1 hmem
    obtain ⟨found, hfound⟩ := h.known lookup hlookup
    cases hnew.symm.trans hfound
  · rw [hlookups]
    exact List.forall_mem_cons.2 ⟨hcommand, h.noCommand⟩
  · rw [hfunctions] at hfound
    obtain ⟨answer, hmem, hread⟩ := h.read other found hfound
    rw [hlookups]
    exact ⟨answer, List.mem_cons_of_mem _ hmem, hread⟩

/-- What has been read from the answer comes into memory. -/
theorem Remembers.learns (h : Remembers setup s) {name : String}
    (hcommand : setup.context.registry.hasCommand name = false)
    (hnew : s.functions.get? name = none) {answer : Option StoredFunction}
    {found : Option Callee}
    (hread : ∀ loc (t : State (σ × List Contact)), loadFound loc answer t = (.ok found, t))
    (hfunctions : s'.functions = s.functions.insert name found)
    (hlookups : lookups s'.world.2 = (name, .ok answer) :: lookups s.world.2) :
    Remembers setup s' := by
  have hasked : Asked setup { s' with functions := s.functions } :=
    h.asks hcommand hnew rfl hlookups
  refine ⟨⟨hasked.once, hasked.noCommand, fun other known hknown => ?_⟩, ?_⟩
  · rw [hfunctions, Dict.get?_insert] at hknown
    split at hknown
    · next heq =>
      cases hknown
      subst heq
      rw [hlookups]
      exact ⟨answer, List.mem_cons_self, hread⟩
    · exact hasked.read other known hknown
  · rw [hfunctions, hlookups]
    refine List.forall_mem_cons.2 ⟨⟨found, Dict.get?_insert_self ..⟩, fun lookup hlookup => ?_⟩
    obtain ⟨known, hknown⟩ := h.known lookup hlookup
    refine ⟨known, (Dict.get?_insert_of_ne _ _ ?_).trans hknown⟩
    intro heq
    rw [heq, hnew] at hknown
    cases hknown

end

/-! ## Steps that ask for no function -/

namespace Unasking

variable {setup : Setup σ}

/-- A change of control that leaves the memory as it is. -/
theorem modify {f : State (σ × List Contact) → State (σ × List Contact)}
    (hfunctions : ∀ s, (f s).functions = s.functions) (hworld : ∀ s, (f s).world = s.world) :
    Unasking (Run.modify f) :=
  fun s => ⟨hfunctions s, congrArg (fun world => lookups world.2) (hworld s)⟩

theorem of_keeping {m : Run (σ × List Contact) α} (haside : Aside m)
    (hkeeping : ∀ list, Keeping (fun o => lookups o.world.2 = list) (fun _ _ => False) m) :
    Unasking m :=
  fun s => ⟨(haside s).2.1, (hkeeping _ s rfl).state⟩

/-- What evaluation asks for is no function. -/
theorem sighted (setup : Setup σ)
    (list : List (String × Except StoreError (Option StoredFunction))) :
    Sighted setup.watched (fun o => lookups o.world.2 = list) where
  pose := fun _ h => h
  search := fun _ _ _ h => h
  waypoint := fun _ _ h => h
  predicate := fun name handler hfound args o h => by
    rw [predicate?_watched] at hfound
    obtain ⟨_, -, rfl⟩ := Option.map_eq_some_iff.1 hfound
    exact h
  told := fun o loc name value h => by
    unfold Outside.traced
    split <;> exact h

theorem eval (e : Expr) : Unasking (Run.eval setup.watched e) :=
  of_keeping (.eval _ e) fun list => .of_sight (sighted setup list) fun _ _ _ hs hR => hs.eval hR e

theorem evalCondition (e : Expr) : Unasking (Run.evalCondition setup.watched e) :=
  of_keeping (.evalCondition _ e) fun list =>
    .of_sight (sighted setup list) fun _ _ _ hs hR => hs.evalCondition hR e

theorem bindArgs (callee : String) (loc : Location) (params : List CallParam)
    (args : List (Arg Expr)) : Unasking (Run.bindArgs setup.watched callee loc params args) :=
  of_keeping (.bindArgs _ callee loc params args) fun list =>
    .of_sight (sighted setup list) fun _ _ _ hs hR => hs.bindArgs hR callee loc params args

theorem trace (loc : Location) (kind : TraceKind) :
    Unasking (Run.trace setup.watched loc kind) := by
  intro s
  rw [trace_eq]
  exact ⟨rfl, rfl⟩

theorem checkCancelled (loc : Location) : Unasking (Run.checkCancelled setup.watched loc) :=
  of_keeping (.checkCancelled _ loc) fun _ => checkCancelled_keeping (fun _ h => h) loc

/-- The check and the action of a command are no questions for a function. -/
theorem lookups_footprint {result : StepResult} {footprint : List Contact}
    (h : Footprint result footprint) (contacts : List Contact) :
    lookups (footprint.reverse ++ contacts) = lookups contacts := by
  cases h <;> rfl

theorem settle (call : CommandCall) (handler : CommandHandler σ) (opIndex : Nat)
    (stamp : Timestamp) (prepared : Prepared) (seen : σ × List Contact) :
    lookups (Run.settle call (handler.recorded call.name) opIndex stamp prepared seen).2.2 =
      lookups seen.2 := by
  obtain ⟨footprint, hfootprint, hsettle⟩ :=
    settle_recorded call handler opIndex stamp prepared seen
  rw [hsettle]
  exact lookups_footprint hfootprint seen.2

theorem dispatch (call : CommandCall) (handler : CommandHandler σ) :
    Unasking (Run.dispatch setup.watched call (handler.recorded call.name)) := by
  refine of_keeping (.dispatch _ call _) fun list s hs => ?_
  let Inv (o : Outside (σ × List Contact)) : Prop := lookups o.world.2 = list
  cases hcancelled : (setup.watched.context.cancelled s.world).1 with
  | true =>
    refine .of_error (dispatch_stopped hcancelled call _) (.inl ?_)
    exact hs
  | false =>
    have hneeds : Harmless Inv (handler.recorded call.name).needsScan := fun _ h => h
    have hscan : Harmless Inv
        (setup.watched.context.probe.scan setup.watched.options.defaultScanRadius) := fun _ h => h
    refine dispatch_ends Inv Inv Inv (fun _ _ => False) hcancelled hs (fun _ h => h) ?_
      (sighted setup list) hneeds hscan (fun _ _ h => .inl h) ?_
    · intro o h
      unfold Outside.traced
      split <;> exact h
    · intro o prepared h
      exact (settle ..).trans h

end Unasking

/-! ## Steps and the memory -/

namespace Remembering

variable {setup : Setup σ}

theorem pure (a : α) : Remembering setup (Pure.pure a) := fun _ hs => .pure ⟨hs, .refl _⟩

theorem bind {m : Run (σ × List Contact) α} {k : α → Run (σ × List Contact) β}
    (hm : Remembering setup m) (hk : ∀ a, Remembering setup (k a)) :
    Remembering setup (m >>= k) := by
  intro s hs
  refine (hm s hs).bind fun a s₁ _ ⟨hs₁, hretained⟩ => ?_
  exact (hk a s₁ hs₁).imp (fun _ _ h => ⟨h.1, hretained.trans h.2⟩)
    fun _ _ h => ⟨h.1, hretained.trans h.2⟩

theorem of_unasking {m : Run (σ × List Contact) α} (h : Unasking m) : Remembering setup m := by
  intro s hs
  obtain ⟨hfunctions, hlookups⟩ := h s
  constructor
  · intro a s' hm
    rw [hm] at hfunctions hlookups
    exact ⟨hs.of_same hfunctions hlookups, hfunctions ▸ .refl _⟩
  · intro x s' hm
    rw [hm] at hfunctions hlookups
    exact ⟨hs.toAsked.of_same hfunctions hlookups, hfunctions ▸ .refl _⟩

theorem read (f : State (σ × List Contact) → α) : Remembering setup (Run.read f) :=
  of_unasking fun _ => ⟨rfl, rfl⟩

theorem fail (halt : Halt) (loc : Location) :
    Remembering setup (Run.fail halt loc : Run (σ × List Contact) α) :=
  of_unasking fun _ => ⟨rfl, rfl⟩

theorem control {f : State (σ × List Contact) → State (σ × List Contact)}
    (hfunctions : ∀ s, (f s).functions = s.functions) (hworld : ∀ s, (f s).world = s.world) :
    Remembering setup (Run.modify f) :=
  of_unasking (.modify hfunctions hworld)

/-- A lookup asks for a name that is not in memory, and takes the answer down. -/
theorem fetch {name : String} (hcommand : setup.context.registry.hasCommand name = false)
    (loc : Location) : Remembering setup (Run.fetch setup.watched name loc) := by
  intro s hs
  constructor
  · intro found s' h
    cases fetch_eq_ok_iff.1 h with
    | known => exact ⟨hs, .refl _⟩
    | @asked answer hnew hanswer hload =>
      have hlookups : lookups (lookedUp setup.watched name found s).world.2 =
          (name, .ok answer) :: lookups s.world.2 := by
        rw [← hanswer]
        rfl
      exact ⟨hs.learns hcommand hnew hload rfl hlookups,
        fun other known => (fetch_eq_ok_iff.1 h).kept⟩
  · intro x s' h
    obtain ⟨hnew, rfl⟩ := fetch_eq_error h
    exact ⟨hs.asks hcommand hnew rfl rfl, .refl _⟩

theorem isKnown (declared : List String) (call : Call) :
    Remembering setup (Run.isKnown setup.watched declared call) := by
  unfold Run.isKnown
  split
  · exact .pure _
  · refine .bind (.read _) fun found => ?_
    split
    · exact .pure _
    · next hother =>
      have hcommand : setup.context.registry.hasCommand call.name = false := by
        have hnone := (Bool.or_eq_false_iff.1 (Bool.of_not_eq_true hother)).2
        exact (hasCommand_watched setup call.name).symm.trans hnone
      exact .bind (.fetch hcommand call.loc) fun _ => .pure _

theorem validate (statements : List Statement) :
    Remembering setup (Run.validate setup.watched statements) := by
  unfold Run.validate
  induction Program.calls statements with
  | nil => exact .pure ()
  | cons call rest ih =>
    refine .bind (.isKnown _ call) fun known => ?_
    cases known with
    | true => exact ih
    | false => exact .fail _ _

theorem validateOnce (callee : Callee) :
    Remembering setup (Run.validateOnce setup.watched callee) := by
  unfold Run.validateOnce
  cases callee.stored with
  | none => exact .pure ()
  | some name =>
    refine .bind (.read _) fun done => ?_
    cases done with
    | true => exact .pure ()
    | false =>
      exact .bind (.validate callee.body) fun _ => .control (fun _ => rfl) fun _ => rfl

/-! ### What the machine does -/

theorem openFrame (bound : List (String × Value)) (statements : List Statement) :
    Remembering setup (Run.openFrame bound statements) :=
  .bind (.control (fun _ => rfl) fun _ => rfl) fun _ =>
    .bind (.control (fun _ => rfl) fun _ => rfl) fun _ => .pure _

theorem openCall (command : CommandCall) (callee : Callee) :
    Remembering setup (Run.openCall setup.watched command callee) := by
  refine .bind (.read _) fun depth => ?_
  split
  · exact .fail _ _
  · exact .bind (.of_unasking (.bindArgs _ _ _ _)) fun bound =>
      .bind (.validateOnce callee) fun _ => .bind (.read _) fun _ =>
        .bind (.of_unasking (.trace _ _)) fun _ => .openFrame bound _

theorem openCommand (command : CommandCall) :
    Remembering setup (Run.openCommand setup.watched command) := by
  refine .bind (.read _) fun found => ?_
  cases found with
  | some m => exact .openCall command _
  | none =>
    dsimp only
    have hsame := command?_watched setup command.name
    cases hhandler : setup.context.registry.command? command.name with
    | some handler =>
      rw [hsame, hhandler]
      exact .bind (.of_unasking (.dispatch command handler)) fun _ => .pure []
    | none =>
      rw [hsame, hhandler]
      have hcommand : setup.context.registry.hasCommand command.name = false :=
        congrArg Option.isSome hhandler
      refine .bind (.fetch hcommand command.loc) fun callee => ?_
      cases callee with
      | some callee => exact .openCall command callee
      | none => exact .fail _ _

/-- The small steps of the machine. -/
theorem machinery (setup : Setup σ) :
    Machinery setup.watched fun _ m => Remembering setup m where
  pure := pure
  bind := bind
  read := read
  fail := fail
  scope := fun _ => .control (fun _ => rfl) fun _ => rfl
  iterate := .control (fun _ => rfl) fun _ => rfl
  assign := fun name value => .of_unasking fun s => by
    unfold Run.assign
    split <;> exact ⟨rfl, rfl⟩
  flow := fun loc kind _ _ => .of_unasking (.trace loc kind)
  cancelled := fun loc => .of_unasking (.checkCancelled loc)
  eval := fun e => .of_unasking (.eval e)
  condition := fun e => .of_unasking (.evalCondition e)

/-- One step of what is left to do. -/
theorem run (task : Task) : Remembering setup (task.run setup.watched) :=
  (machinery setup).run validate openCommand (.control (fun _ => rfl) fun _ => rfl) task

end Remembering

/-! ## The machine -/

namespace Config

/-- While the run goes on, every name that has been asked for is in memory. -/
structure Remembers (setup : Setup σ) (c : Config (σ × List Contact)) : Prop where
  asked : Asked setup c.state
  known : c.status = .ok () → Run.Remembers setup c.state

variable {setup : Setup σ} {c d : Config (σ × List Contact)}

theorem remembers_initial (setup : Setup σ) (program : Program) (journal : Journal) (world : σ) :
    (Config.initial program journal (world, [])).Remembers setup := by
  have hasked : Asked setup (start journal (world, [])) := ⟨List.nodup_nil, nofun, nofun⟩
  exact ⟨hasked, fun _ => ⟨hasked, nofun⟩⟩

theorem Remembers.next (hc : c.Remembers setup) (h : c.next setup.watched = some d) :
    d.Remembers setup ∧ Retained c.state.functions d.state.functions := by
  cases hstatus : c.status with
  | error x =>
    have hgoes := error_of_next h hstatus
    have hworld : d.state.world = c.state.world :=
      congrArg Outside.world (outside_of_next h hstatus)
    have hfunctions := functions_of_next h hstatus
    refine ⟨⟨hc.asked.of_same hfunctions (congrArg (fun world => lookups world.2) hworld), ?_⟩,
      hfunctions ▸ .refl _⟩
    intro hok
    rw [hgoes] at hok
    cases hok
  | ok _ =>
    obtain ⟨task, rest, -, ⟨advance, hrun, -, -⟩ | ⟨x, hrun, herror⟩⟩ := next_cases h hstatus
    · obtain ⟨hd, hretained⟩ := (Remembering.run task c.state (hc.known hstatus)).ok _ _ hrun
      exact ⟨⟨hd.toAsked, fun _ => hd⟩, hretained⟩
    · obtain ⟨hd, hretained⟩ := (Remembering.run task c.state (hc.known hstatus)).error _ _ hrun
      refine ⟨⟨hd, fun hok => ?_⟩, hretained⟩
      rw [herror] at hok
      cases hok

theorem Remembers.after {steps : Nat} (hc : c.Remembers setup)
    (h : c.after setup.watched steps = some d) :
    d.Remembers setup ∧ Retained c.state.functions d.state.functions := by
  induction steps generalizing c with
  | zero =>
    cases h
    exact ⟨hc, .refl _⟩
  | succ steps ih =>
    obtain ⟨e, hnext, hrest⟩ := Option.bind_eq_some_iff.1 h
    obtain ⟨he, hretained⟩ := hc.next hnext
    obtain ⟨hd, hretained'⟩ := ih he hrest
    exact ⟨hd, hretained.trans hretained'⟩

end Config

/-! ## Calls of stored functions -/

/-- The next step is a command that goes to the store or to the memory of functions: no macro in
sight has its name, and no handler. -/
structure Config.LooksUp (setup : Setup σ) (c : Config σ) (command : CommandCall)
    (found : Option Callee) (s : State σ) : Prop where
  goes : c.status = .ok ()
  first : ∃ more rest,
    c.tasks = .each (.command command.name command.args command.loc :: more) :: rest
  looked : ∃ s₀, checkLocated setup (.command command.name command.args command.loc) c.state =
      (.ok (), s₀) ∧
    s₀.env.findMacro? command.name = none ∧
    setup.context.registry.command? command.name = none ∧
    fetch setup command.name command.loc s₀ = (.ok found, s)

/-- A step that enters the body of a callee, in a frame with the arguments of the command bound to
the parameters of the callee. -/
structure Config.Enters (setup : Setup σ) (c d : Config σ) (command : CommandCall)
    (callee : Callee) (s : State σ) : Prop where
  tasks : ∃ more rest,
    c.tasks = .each (.command command.name command.args command.loc :: more) :: rest ∧
    d.tasks = .each callee.body :: .closeFrame :: .each more :: rest
  framed : ∃ (bound : List (String × Value)) (s₁ : State σ) (env : Env),
    bindArgs setup command.name command.loc callee.params command.args s = (.ok bound, s₁) ∧
    d.state.env = (callee.body.filterMap Statement.macro?).foldl Env.define
      (bound.foldl (fun env (key, value) => env.declare key value) env.pushFrame)

section

variable {setup : Setup σ}

theorem openCall_eq_ok {command : CommandCall} {callee : Callee} {s s' : State σ}
    {tasks : List Task} (h : openCall setup command callee s = (.ok tasks, s')) :
    tasks = [.each callee.body, .closeFrame] ∧
      ∃ (bound : List (String × Value)) (s₁ : State σ) (env : Env),
      bindArgs setup command.name command.loc callee.params command.args s = (.ok bound, s₁) ∧
      s'.env = (callee.body.filterMap Statement.macro?).foldl Env.define
        (bound.foldl (fun env (key, value) => env.declare key value) env.pushFrame) := by
  obtain ⟨depth, s₀, hdepth, h⟩ := bind_eq_ok h
  obtain ⟨-, rfl⟩ := read_eq_ok hdepth
  split at h
  · cases h
  · obtain ⟨bound, s₁, hbound, h⟩ := bind_eq_ok h
    obtain ⟨_, s₂, -, h⟩ := bind_eq_ok h
    obtain ⟨_, s₃, -, h⟩ := bind_eq_ok h
    obtain ⟨_, s₄, -, h⟩ := bind_eq_ok h
    cases h
    exact ⟨rfl, bound, s₁, s₄.env, hbound, rfl⟩

/-- What a command does with what has been looked up. -/
def enterFound (setup : Setup σ) (command : CommandCall) : Option Callee → Run σ (List Task)
  | some callee => openCall setup command callee
  | none => fail (.unknownCommand command.name) command.loc

namespace Config.LooksUp

variable {c d : Config σ} {command : CommandCall} {found : Option Callee} {s : State σ}

theorem run_eq (h : c.LooksUp setup command found s) (more : List Statement) :
    (Task.each (.command command.name command.args command.loc :: more)).run setup c.state =
      (enterFound setup command found >>= fun tasks =>
        pure (⟨tasks ++ [.each more], 0⟩ : Advance)) s := by
  obtain ⟨s₀, hlocated, hmacro, hhandler, hfetch⟩ := h.looked
  have hopen : openCommand setup command s₀ = enterFound setup command found s := by
    refine (bind_ok (read_at hmacro)).trans ?_
    dsimp only
    rw [hhandler]
    refine (bind_ok hfetch).trans ?_
    cases found <;> rfl
  refine (bind_ok hlocated).trans ?_
  change (openCommand setup command >>= fun tasks => pure _) s₀ = _
  cases hdone : enterFound setup command found s with
  | mk answer s' =>
    rw [hdone] at hopen
    cases answer with
    | ok tasks => rw [bind_ok hopen, bind_ok hdone]
    | error x => rw [bind_error hopen, bind_error hdone]

/-- The next configuration is what is left after the command has gone on. -/
theorem next (h : c.LooksUp setup command found s) :
    ∃ d, c.next setup = some d ∧ d.state = (enterFound setup command found s).2 ∧
      (d.status = .ok () → ∃ callee, found = some callee ∧ c.Enters setup d command callee s) := by
  obtain ⟨more, rest, htasks⟩ := h.first
  have hrun := h.run_eq more
  obtain ⟨tasks, state, status, begun⟩ := c
  obtain rfl : status = .ok () := h.goes
  obtain rfl : tasks = _ := htasks
  cases hdone : enterFound setup command found s with
  | mk answer s' =>
    cases answer with
    | error x =>
      rw [bind_error hdone] at hrun
      exact ⟨_, next_of_error hrun rest begun, rfl, nofun⟩
    | ok tasks =>
      rw [bind_ok hdone] at hrun
      refine ⟨_, next_of_ok hrun rest begun, rfl, fun _ => ?_⟩
      cases found with
      | none => cases hdone
      | some callee =>
        obtain ⟨rfl, hframed⟩ := openCall_eq_ok hdone
        exact ⟨callee, rfl, ⟨more, rest, rfl, rfl⟩, hframed⟩

end Config.LooksUp

end

namespace Remembering

variable {setup : Setup σ}

theorem enterFound (command : CommandCall) (found : Option Callee) :
    Remembering setup (Run.enterFound setup.watched command found) := by
  cases found with
  | some callee => exact .openCall command callee
  | none => exact .fail _ _

end Remembering

/-- A lookup in a run comes into memory, and stays there. -/
theorem Config.LooksUp.remembered {setup : Setup σ} {c d : Config (σ × List Contact)}
    {command : CommandCall} {found : Option Callee} {s : State (σ × List Contact)}
    (h : c.LooksUp setup.watched command found s) (hc : c.Remembers setup)
    (hd : d.state = (enterFound setup.watched command found s).2) :
    d.state.functions.get? command.name = some found := by
  obtain ⟨s₀, hlocated, -, hhandler, hfetch⟩ := h.looked
  have hcommand : setup.context.registry.hasCommand command.name = false :=
    (hasCommand_watched setup command.name).symm.trans (congrArg Option.isSome hhandler)
  have hlocates : Remembering setup (checkLocated setup.watched
      (.command command.name command.args command.loc)) :=
    (Remembering.machinery setup).checkLocated _
  obtain ⟨hs₀, -⟩ := (hlocates c.state (hc.known h.goes)).ok _ _ hlocated
  obtain ⟨hs, -⟩ := (Remembering.fetch hcommand command.loc s₀ hs₀).ok _ _ hfetch
  have hfound := (fetch_eq_ok_iff.1 hfetch).remembered
  have hgoesOn := Remembering.enterFound command found s hs
  rw [hd]
  cases hdone : enterFound setup.watched command found s with
  | mk answer s' =>
    cases answer with
    | ok tasks => exact (hgoesOn.ok _ _ hdone).2 _ _ hfound
    | error x => exact (hgoesOn.error _ _ hdone).2 _ _ hfound

/-! ## Whole runs -/

/-- Stored functions are looked up once. Whatever the store answers, and however its answers change,
a run asks it for each name at most once, and never for the name of a command. For every name there
is one thing that it means to the store in the whole run: a callee, or that there is none. This is
all that is ever in memory for the name, it has been read from the one answer of the store, and each
command that goes to the store by this name finds just this. If it is a callee and the run goes on,
its body is entered with the arguments bound to its parameters. -/
theorem functions_looked_up_once (setup : Setup σ) (program : Program) (journal : Journal)
    (world : σ) :
    let run := Run.program setup program journal world
    let seen := Run.program setup.watched program journal (world, [])
    (seen.1 = run.1 ∧ seen.2.world.1 = run.2.world) ∧
    ((lookups seen.2.world.2).map Prod.fst).Nodup ∧
    (∀ lookup ∈ lookups seen.2.world.2, setup.context.registry.hasCommand lookup.1 = false) ∧
    ∀ name, ∃ found : Option Callee, ∀ steps config,
      (Config.initial program journal (world, [])).after setup.watched steps = some config →
      (∀ known, config.state.functions.get? name = some known → known = found ∧
        ∃ answer, (name, .ok answer) ∈ lookups seen.2.world.2 ∧
          ∀ loc (t : State (σ × List Contact)), loadFound loc answer t = (.ok known, t)) ∧
      ∀ command known s, command.name = name → config.LooksUp setup.watched command known s →
        known = found ∧ ∃ next, config.next setup.watched = some next ∧
          next.state.functions.get? name = some found ∧
          (next.status = .ok () → ∃ callee, found = some callee ∧
            config.Enters setup.watched next command callee s) := by
  intro run seen
  obtain ⟨steps, last, hlast, hstops, hbody⟩ :=
    steps_to_end setup.watched program journal (world, [])
  have hseen : seen.2.world = last.state.world := by
    change (Run.program setup.watched program journal (world, [])).2.world = _
    unfold Run.program
    rw [hbody]
    rfl
  have hinitial := Config.remembers_initial setup program journal world
  obtain ⟨hend, -⟩ := hinitial.after hlast
  refine ⟨program_watched setup program journal world, ?_⟩
  rw [hseen]
  refine ⟨hend.asked.once, hend.asked.noCommand,
    fun name => ⟨(last.state.functions.get? name).getD none, fun i config hconfig => ?_⟩⟩
  -- Whatever is in memory on the way is in memory at the end.
  obtain ⟨hremembers, -⟩ := hinitial.after hconfig
  have hstays : ∀ {k : Nat} {c : Config (σ × List Contact)} {known : Option Callee},
      (Config.initial program journal (world, [])).after setup.watched k = some c →
      c.state.functions.get? name = some known →
        last.state.functions.get? name = some known := by
    intro k c known hc hknown
    obtain ⟨rest, hrest⟩ := Config.after_of_last hc hlast hstops
    exact ((hinitial.after hc).1.after hrest).2 name known hknown
  refine ⟨fun known hknown => ?_, ?_⟩
  · have hfinal := hstays hconfig hknown
    rw [hfinal]
    exact ⟨rfl, hend.asked.read name known hfinal⟩
  · rintro command known s rfl hlooks
    obtain ⟨next, hnext, hstate, henters⟩ := hlooks.next
    have hremembered := hlooks.remembered hremembers hstate
    have hafter : (Config.initial program journal (world, [])).after setup.watched (i + 1) =
        some next := by
      rw [Config.after_add, hconfig]
      change (config.next setup.watched).bind some = some next
      rw [hnext]
      rfl
    have hfinal := hstays hafter hremembered
    rw [hfinal]
    exact ⟨rfl, next, hnext, hremembered, henters⟩

/-- A store whose second answer would be another function. -/
theorem functions_looked_up_once_of_changing_store :
    let mark : CommandHandler Nat := { execute := fun _ asked => (.ok [], asked) }
    let answer (asked : Nat) : StoredFunction :=
      ⟨"go", none, [], if asked = 0 then "mark();" else "other();", 1⟩
    let context : Context Nat :=
      { registry := ⟨(Dict.empty.insert "mark" mark).insert "other" mark, Dict.empty⟩
        probe :=
          { pose := fun asked => (.error (.unavailable ""), asked)
            blockAt := fun _ asked => (.ok none, asked)
            findBlock := fun _ _ _ asked => (.ok none, asked) }
        function := fun _ _ asked => (.ok (some (answer asked)), asked + 1) }
    let setup : Setup Nat := ⟨context, {}⟩
    let go : Statement := .command "go" [] default
    let seen := Run.program setup.watched [go, go] default (0, [])
    ((lookups seen.2.world.2).map Prod.fst).Nodup ∧
      (lookups seen.2.world.2).map Prod.fst = ["go"] ∧
      seen.1.results.map StepResult.op = ["mark", "mark"] ∧ seen.2.world.1 = 1 := by
  intro mark answer context setup go seen
  obtain ⟨-, honce, -⟩ := functions_looked_up_once setup [go, go] default 0
  exact ⟨honce, by decide +kernel, by decide +kernel, by decide +kernel⟩

end Run

end BlockScript
