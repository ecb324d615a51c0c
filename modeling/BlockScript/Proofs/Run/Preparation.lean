import BlockScript.Proofs.Run.Observation

/-!
# The preparation of arguments

The values of a command's arguments become what its handler is given. The spatial ones are resolved
in order against one orientation, which is read from the world only if there are any; the first of
them that has no position decides what becomes of the command, and its handler is not called.
-/
namespace BlockScript
set_option autoImplicit false

/-! ## Arguments in order -/

/-- Puts an argument behind the positional ones, or under its name. -/
def Arguments.take (args : Arguments) : Option String × Argument → Arguments
  | (.some key, argument) => args.insert key argument
  | (.none, argument) => args.push argument

namespace Arguments

/-- The argument of a pair without a name. -/
def unnamed? : Option String × Argument → Option Argument
  | (.none, argument) => some argument
  | (.some _, _) => .none

theorem positional_takeAll (pairs : List (Option String × Argument)) (args : Arguments) :
    (pairs.foldl take args).positional = args.positional ++ pairs.filterMap unnamed? := by
  induction pairs generalizing args with
  | nil => rw [List.foldl_nil, List.filterMap_nil, List.append_nil]
  | cons pair rest ih =>
    obtain ⟨key, argument⟩ := pair
    rw [List.foldl_cons, ih]
    cases key with
    | some key => rfl
    | none => exact List.append_assoc ..

/-- Of two arguments with one name the later is found. -/
theorem named_takeAll (pairs : List (Option String × Argument)) (args : Arguments) (key : String) :
    (pairs.foldl take args).named.get? key =
      (pairs.reverse.lookup (some key)).or (args.named.get? key) := by
  induction pairs generalizing args with
  | nil => rfl
  | cons pair rest ih =>
    obtain ⟨other, argument⟩ := pair
    rw [List.foldl_cons, ih, List.reverse_cons, List.lookup_append, Option.or_assoc]
    congr 1
    cases other with
    | none => rfl
    | some other =>
      change (args.named.insert other argument).get? key = _
      rw [Dict.get?_insert]
      by_cases hkey : key = other
      · subst hkey
        rw [if_pos rfl, List.lookup_cons_self]
        rfl
      · have hne : (some key == some other) = false := beq_false_of_ne (by simpa using hkey)
        rw [if_neg hkey, List.lookup_cons, hne]
        rfl

end Arguments

namespace Run

variable {σ : Type}

/-! ## Spatial values -/

/-- The values that need a position, in order. -/
def spatialValues (values : List (Option String × Value)) : List Value :=
  (values.map Prod.snd).filter Value.isSpatial

theorem plainArgument?_eq_none_iff {value : Value} :
    plainArgument? value = none ↔ value.isSpatial = true := by
  cases value <;> simp [plainArgument?, Value.isSpatial]

theorem spatialValues_plain {key : Option String} {value : Value} {argument : Argument}
    (h : plainArgument? value = some argument) (rest : List (Option String × Value)) :
    spatialValues ((key, value) :: rest) = spatialValues rest := by
  refine List.filter_cons_of_neg fun hspatial => ?_
  rw [plainArgument?_eq_none_iff.2 hspatial] at h
  cases h

theorem spatialValues_spatial {key : Option String} {value : Value}
    (h : plainArgument? value = none) (rest : List (Option String × Value)) :
    spatialValues ((key, value) :: rest) = value :: spatialValues rest :=
  List.filter_cons_of_pos (plainArgument?_eq_none_iff.1 h)

/-- The arguments with each spatial value replaced by the next of the positions. -/
def substitute : List (Option String × Value) → List Position → List (Option String × Argument)
  | [], _ => []
  | (key, value) :: rest, positions =>
    match plainArgument? value, positions with
    | some argument, positions => (key, argument) :: substitute rest positions
    | none, position :: positions => (key, .position position) :: substitute rest positions
    | none, [] => substitute rest []

theorem substitute_plain {key : Option String} {value : Value} {argument : Argument}
    (h : plainArgument? value = some argument) (rest : List (Option String × Value))
    (positions : List Position) :
    substitute ((key, value) :: rest) positions = (key, argument) :: substitute rest positions := by
  simp only [substitute, h]

theorem substitute_spatial {key : Option String} {value : Value} (h : plainArgument? value = none)
    (rest : List (Option String × Value)) (position : Position) (positions : List Position) :
    substitute ((key, value) :: rest) (position :: positions) =
      (key, .position position) :: substitute rest positions := by
  simp only [substitute, h]

/-- Resolves values one after another against one orientation, up to the first that has no
position. -/
inductive Locates (lookup : WaypointLookup σ) (origin : Orientation) :
    List Value → σ → List (Value × Position) → Option (Value × ResolveError) → σ → Prop where
  | done (world : σ) : Locates lookup origin [] world [] none world
  | found {value : Value} {rest : List Value} {world next after : σ} {position : Position}
    {found : List (Value × Position)} {failure : Option (Value × ResolveError)}
    (first : value.resolve lookup origin world = (.ok position, next))
    (later : Locates lookup origin rest next found failure after) :
    Locates lookup origin (value :: rest) world ((value, position) :: found) failure after
  | lost {value : Value} {world after : σ} {error : ResolveError}
    (first : value.resolve lookup origin world = (.error error, after)) (rest : List Value) :
    Locates lookup origin (value :: rest) world [] (some (value, error)) after

/-- The note on a value that has been found. -/
def foundNote (found : Value × Position) : String := found.1.render ++ " -> " ++ found.2.render

/-- What the preparation comes to, by the value that has no position, if there is one. -/
def answerOf (actor : String) (loc : Location) (args : Arguments) (notes : List String)
    (state : State σ) : Option (Value × ResolveError) → Except Termination Prepared
  | none => .ok (.ready args notes)
  | some (_, .overflow selector) =>
    .error (terminate (.unresolved (.overflow selector)) loc [] state)
  | some (_, .missingWaypoint name) =>
    .ok (.lookupFailed ("unknown waypoint '" ++ name ++ "'")
      (notes ++ ["waypoint '" ++ name ++ "' not found for actor '" ++ actor ++ "'"]))
  | some (value, error) =>
    .ok (.lookupFailed error.message (notes ++ ["could not resolve " ++ value.render]))

theorem kind_of_answerOf {actor : String} {loc : Location} {args : Arguments}
    {notes : List String} {state : State σ} {failure : Option (Value × ResolveError)}
    {x : Termination} (h : answerOf actor loc args notes state failure = .error x) :
    x.kind = .runtime := by
  unfold answerOf at h
  split at h
  · cases h
  · cases h
    rfl
  · cases h
  · cases h

/-- All of the values have been found, or those before the one that has no position. -/
theorem Locates.values_eq {lookup : WaypointLookup σ} {origin : Orientation} {values : List Value}
    {world after : σ} {found : List (Value × Position)} {failure : Option (Value × ResolveError)}
    (h : Locates lookup origin values world found failure after) :
    ∃ later, values = found.map Prod.fst ++ (failure.map Prod.fst).toList ++ later ∧
      (failure = none → later = []) := by
  induction h with
  | done world => exact ⟨[], rfl, fun _ => rfl⟩
  | found first later ih =>
    obtain ⟨rest, hvalues, hall⟩ := ih
    exact ⟨rest, congrArg (_ :: ·) hvalues, hall⟩
  | lost first rest => exact ⟨rest, rfl, nofun⟩

section

variable (setup : Setup σ) (loc : Location)

theorem args_add (p : Preparation) (key : Option String) (argument : Argument) :
    (p.add key argument).args = p.args.take (key, argument) := by
  cases key <;> rfl

theorem notes_add (p : Preparation) (key : Option String) (argument : Argument) :
    (p.add key argument).notes = p.notes := by
  cases key <;> rfl

theorem origin_add (p : Preparation) (key : Option String) (argument : Argument) :
    (p.add key argument).origin = p.origin := by
  cases key <;> rfl

/-- What follows from the position of a spatial value, or from its having none. -/
def settleSpatial (p : Preparation) (key : Option String) (value : Value)
    (rest : List (Option String × Value)) : Except ResolveError Position → Run σ Prepared
  | .ok position =>
    prepareFrom setup loc ((p.note (foundNote (value, position))).add key (.position position)) rest
  | .error error => fun s =>
    (answerOf setup.options.actor loc p.args p.notes s (some (value, error)), s)

/-- A spatial value is resolved against the orientation at hand. -/
theorem prepareFrom_spatial {p : Preparation} {origin : Orientation} {value : Value}
    {answer : Except ResolveError Position} {s : State σ} {next : σ}
    (horigin : p.origin = some origin) (hplain : plainArgument? value = none)
    (hresolve : value.resolve (setup.context.waypoint setup.options.actor) origin s.world =
      (answer, next)) (key : Option String) (rest : List (Option String × Value)) :
    prepareFrom setup loc p ((key, value) :: rest) s =
      settleSpatial setup loc p key value rest answer { s with world := next } := by
  obtain ⟨args, notes, _⟩ := p
  subst horigin
  have hask : ask (value.resolve (setup.context.waypoint setup.options.actor) origin) s =
      (.ok answer, { s with world := next }) := by
    unfold ask
    rw [hresolve]
  rw [prepareFrom, hplain]
  dsimp only [originOf]
  rw [pure_bind, bind_ok hask]
  cases answer with
  | ok position => rfl
  | error error => cases error <;> rfl

/-- With the orientation at hand the preparation looks up the spatial values, and what comes of them
decides the answer. -/
theorem prepareFrom_locates (values : List (Option String × Value)) {p : Preparation}
    {origin : Orientation} (horigin : p.origin = some origin) (s : State σ) :
    ∃ found failure after,
      Locates (setup.context.waypoint setup.options.actor) origin (spatialValues values) s.world
        found failure after ∧
      prepareFrom setup loc p values s =
        (answerOf setup.options.actor loc
          ((substitute values (found.map Prod.snd)).foldl Arguments.take p.args)
          (p.notes ++ found.map foundNote) { s with world := after } failure,
        { s with world := after }) := by
  induction values generalizing p s with
  | nil =>
    refine ⟨[], none, s.world, .done _, ?_⟩
    have hnotes : p.notes ++ [] = p.notes := List.append_nil _
    change (Except.ok (Prepared.ready p.args p.notes), s) =
      (Except.ok (Prepared.ready p.args (p.notes ++ [])), s)
    rw [hnotes]
  | cons first rest ih =>
    obtain ⟨key, value⟩ := first
    cases hplain : plainArgument? value with
    | some argument =>
      obtain ⟨found, failure, after, hlocates, heq⟩ :=
        ih (p := p.add key argument) ((origin_add ..).trans horigin) s
      rw [spatialValues_plain hplain]
      refine ⟨found, failure, after, hlocates, ?_⟩
      rw [substitute_plain hplain, List.foldl_cons, ← args_add, ← notes_add p key argument, ← heq,
        prepareFrom, hplain]
    | none =>
      rw [spatialValues_spatial hplain]
      cases hresolve : value.resolve (setup.context.waypoint setup.options.actor) origin s.world with
      | mk answer next =>
        rw [prepareFrom_spatial setup loc horigin hplain hresolve]
        cases answer with
        | ok position =>
          obtain ⟨found, failure, after, hlocates, heq⟩ :=
            ih (p := (p.note (foundNote (value, position))).add key (.position position))
              ((origin_add ..).trans horigin) { s with world := next }
          refine ⟨(value, position) :: found, failure, after, .found hresolve hlocates, ?_⟩
          rw [settleSpatial, heq, args_add, notes_add, List.map_cons, substitute_spatial hplain,
            List.foldl_cons, List.map_cons, List.append_cons]
          rfl
        | error error =>
          refine ⟨[], some (value, error), next, .lost hresolve _, ?_⟩
          cases error <;> simp only [settleSpatial, answerOf, List.map_nil, List.append_nil]

/-- The pose is read before the first spatial value, and not at all if there is none. -/
theorem prepareFrom_unread (values : List (Option String × Value)) {p : Preparation}
    (hunread : p.origin = none) {s : State σ} {pose : Pose} {read : σ}
    (hpose : setup.context.probe.pose s.world = (.ok pose, read)) :
    prepareFrom setup loc p values s =
      prepareFrom setup loc { p with origin := some pose.orientation } values
        { s with world := if spatialValues values = [] then s.world else read } := by
  induction values generalizing p with
  | nil => rfl
  | cons first rest ih =>
    obtain ⟨key, value⟩ := first
    cases hplain : plainArgument? value with
    | some argument =>
      rw [spatialValues_plain hplain, prepareFrom, prepareFrom, hplain]
      dsimp only
      rw [ih ((origin_add ..).trans hunread)]
      cases key <;> rfl
    | none =>
      have hread : originOf setup loc p s = (.ok pose.orientation, { s with world := read }) := by
        have hask : ask setup.context.probe.pose s = (.ok (.ok pose), { s with world := read }) := by
          unfold ask
          rw [hpose]
        unfold originOf Run.pose
        rw [hunread]
        dsimp only
        rw [bind_assoc, bind_ok hask]
        rfl
      rw [spatialValues_spatial hplain, if_neg (List.cons_ne_nil _ _), prepareFrom, prepareFrom,
        hplain]
      dsimp only
      rw [bind_ok hread]
      rfl

/-! ## What is asked of the world outside -/

variable {setup loc}

/-- Looking up a value leaves the world as it was, or asks for the one waypoint. -/
theorem resolve_world {lookup : WaypointLookup σ} {origin : Orientation} {value : Value}
    {world next : σ} {answer : Except ResolveError Position}
    (h : value.resolve lookup origin world = (answer, next)) :
    next = world ∨ ∃ name, value = .waypoint name ∧ next = (lookup name world).2 := by
  unfold Value.resolve at h
  cases value with
  | waypoint name => exact .inr ⟨name, rfl, (congrArg Prod.snd h).symm⟩
  | selector selector =>
    dsimp only at h
    split at h <;> exact .inl (congrArg Prod.snd h).symm
  | query query =>
    dsimp only at h
    split at h <;> exact .inl (congrArg Prod.snd h).symm
  | _ => exact .inl (congrArg Prod.snd h).symm

/-- Looking up a value asks at most for a waypoint. -/
theorem resolve_contacts {actor : String} {origin : Orientation} {value : Value}
    {seen next : σ × List Contact} {answer : Except ResolveError Position}
    (h : value.resolve (setup.watched.context.waypoint actor) origin seen = (answer, next)) :
    ∃ asked, next.2 = asked ++ seen.2 ∧
      ∀ contact ∈ asked, ∃ name answer, contact = .waypoint actor name answer := by
  rcases resolve_world h with rfl | ⟨name, -, rfl⟩
  · exact ⟨[], rfl, nofun⟩
  · exact ⟨[.waypoint actor name _], rfl, fun contact hcontact =>
      ⟨name, _, List.mem_singleton.1 hcontact⟩⟩

theorem Locates.contacts {actor : String} {origin : Orientation} {values : List Value}
    {seen after : σ × List Contact} {found : List (Value × Position)}
    {failure : Option (Value × ResolveError)}
    (h : Locates (setup.watched.context.waypoint actor) origin values seen found failure after) :
    ∃ asked, after.2 = asked ++ seen.2 ∧
      ∀ contact ∈ asked, ∃ name answer, contact = .waypoint actor name answer := by
  induction h with
  | done seen => exact ⟨[], rfl, nofun⟩
  | found first later ih =>
    obtain ⟨asked, hasked, hfirst⟩ := resolve_contacts first
    obtain ⟨more, hmore, hlater⟩ := ih
    refine ⟨more ++ asked, by rw [hmore, hasked, List.append_assoc], fun contact hcontact => ?_⟩
    rcases List.mem_append.1 hcontact with hcontact | hcontact
    · exact hlater contact hcontact
    · exact hfirst contact hcontact
  | lost first rest => exact resolve_contacts first

end

/-! ## The preparation as a whole -/

section

variable (setup : Setup σ) (loc : Location) (values : List (Option String × Value)) (s : State σ)
  {pose : Pose} {read : σ}

/-- The preparation from its beginning. -/
theorem prepare_locates (hpose : setup.context.probe.pose s.world = (.ok pose, read)) :
    ∃ found failure after,
      Locates (setup.context.waypoint setup.options.actor) pose.orientation (spatialValues values)
        (if spatialValues values = [] then s.world else read) found failure after ∧
      prepare setup loc values s =
        (answerOf setup.options.actor loc
          ((substitute values (found.map Prod.snd)).foldl Arguments.take Arguments.none)
          (found.map foundNote) { s with world := after } failure, { s with world := after }) := by
  rw [prepare, prepareFrom_unread setup loc values rfl hpose]
  exact prepareFrom_locates setup loc values (p := ⟨Arguments.none, [], some pose.orientation⟩) rfl
    { s with world := if spatialValues values = [] then s.world else read }

/-- The preparation asks for the pose, if it needs one, and then for waypoints. -/
theorem prepare_contacts (hpose : setup.context.probe.pose s.world = (.ok pose, read)) :
    ∃ asked,
      (prepare setup.watched loc values { s with world := (s.world, []) }).2.world.2 =
        asked ++ (if spatialValues values = [] then [] else [.pose (.ok pose)]) ∧
      ∀ contact ∈ asked, ∃ name answer, contact = .waypoint setup.options.actor name answer := by
  have hseen : setup.watched.context.probe.pose (s.world, []) =
      (.ok pose, read, [.pose (.ok pose)]) := by
    change ((setup.context.probe.pose s.world).1, (setup.context.probe.pose s.world).2,
      [Contact.pose (setup.context.probe.pose s.world).1]) = _
    rw [hpose]
  obtain ⟨found, failure, after, hlocates, hstep⟩ :=
    prepare_locates setup.watched loc values { s with world := (s.world, []) } hseen
  obtain ⟨asked, hasked, hwaypoints⟩ := hlocates.contacts
  refine ⟨asked, ?_, hwaypoints⟩
  rw [hstep]
  dsimp only
  rw [hasked]
  split <;> rfl

/-- The handler of a command is not called where the preparation fails. -/
theorem prepare_conclude (call : CommandCall) (handler : CommandHandler σ) (opIndex : Nat) :
    let step := prepare setup loc values s
    let whole := (prepare setup loc values >>= conclude setup call handler opIndex) s
    (∀ x, step.1 = .error x → whole = (.error x, step.2)) ∧
    ∀ message notes, step.1 = .ok (.lookupFailed message notes) →
      whole.2 = step.2.withOutside (step.2.outside.concluded call.name
        (lookupResult call opIndex step.2.journal.createdAt message notes) step.2.world) := by
  intro step whole
  refine ⟨fun x hx => bind_error (Prod.ext hx rfl), fun message notes hfailed => ?_⟩
  have hwhole : whole = conclude setup call handler opIndex (.lookupFailed message notes) step.2 :=
    bind_ok (Prod.ext hfailed rfl)
  rw [hwhole, conclude_eq]
  rfl

/-- The preparation reads the pose only if there are spatial values, and then exactly once, before it
resolves them in order against this one pose; waypoints are all that it looks up besides. If all of
them have a position, the handler is given the values in order, each spatial one replaced by its
position, with one note for each of these. The first that has none decides otherwise: an overflow ends
the run with an error of its own, and a waypoint that is not there or cannot be read makes the command
fail, with the notes so far and one on the failure. In neither case is the handler called. -/
theorem arguments_prepared (hpose : setup.context.probe.pose s.world = (.ok pose, read)) :
    let spatial := spatialValues values
    let lookup := setup.context.waypoint setup.options.actor
    let start := if spatial = [] then s.world else read
    let step := prepare setup loc values s
    (∃ found failure after args,
      Locates lookup pose.orientation spatial start found failure after ∧
      (∃ later, spatial = found.map Prod.fst ++ (failure.map Prod.fst).toList ++ later ∧
        (failure = none → later = [])) ∧
      step = (answerOf setup.options.actor loc args (found.map foundNote)
        { s with world := after } failure, { s with world := after }) ∧
      args.positional = (substitute values (found.map Prod.snd)).filterMap Arguments.unnamed? ∧
      ∀ key, args.named.get? key =
        (substitute values (found.map Prod.snd)).reverse.lookup (some key)) ∧
    (∃ asked,
      (prepare setup.watched loc values { s with world := (s.world, []) }).2.world.2 =
        asked ++ (if spatial = [] then [] else [.pose (.ok pose)]) ∧
      ∀ contact ∈ asked, ∃ name answer, contact = .waypoint setup.options.actor name answer) ∧
    ∀ (call : CommandCall) (handler : CommandHandler σ) (opIndex : Nat),
      let whole := (prepare setup loc values >>= conclude setup call handler opIndex) s
      (∀ x, step.1 = .error x → x.kind = .runtime ∧ whole = (.error x, step.2)) ∧
      ∀ message notes, step.1 = .ok (.lookupFailed message notes) →
        whole.2 = step.2.withOutside (step.2.outside.concluded call.name
          (lookupResult call opIndex step.2.journal.createdAt message notes) step.2.world) := by
  intro spatial lookup start step
  obtain ⟨found, failure, after, hlocates, hstep⟩ := prepare_locates setup loc values s hpose
  have hkind : ∀ x, step.1 = .error x → x.kind = .runtime := by
    intro x hx
    rw [show step = _ from hstep] at hx
    exact kind_of_answerOf hx
  refine ⟨⟨found, failure, after, _, hlocates, hlocates.values_eq, hstep, ?_, fun key => ?_⟩,
    prepare_contacts setup loc values s hpose, fun call handler opIndex => ?_⟩
  · rw [Arguments.positional_takeAll]
    rfl
  · rw [Arguments.named_takeAll]
    exact Option.or_none
  · obtain ⟨herror, hlookup⟩ := prepare_conclude setup loc values s call handler opIndex
    exact ⟨fun x hx => ⟨hkind x hx, herror x hx⟩, hlookup⟩

end

/-- A waypoint that is not there stands behind a coordinate. The pose has been read once, and the
handler has not been called. -/
theorem arguments_prepared_missing_waypoint :
    let context : Context Nat :=
      { registry := ⟨Dict.empty, Dict.empty⟩
        probe :=
          { pose := fun looks => (.ok ⟨0, ⟨0, 64, 0⟩⟩, looks + 1)
            blockAt := fun _ looks => (.ok none, looks)
            findBlock := fun _ _ _ looks => (.ok none, looks) } }
    let setup : Setup Nat := ⟨context, { actor := "steve" }⟩
    let handler : CommandHandler Nat := { execute := fun _ looks => (.ok [], looks + 100) }
    let values : List (Option String × Value) :=
      [(some "to", .world ⟨1, 2, 3⟩), (none, .int 4), (none, .waypoint "home")]
    let start : State Nat := State.initial default 0
    (prepare setup default values start).1 = .ok (.lookupFailed "unknown waypoint 'home'"
      ["world(1, 2, 3) -> (1, 2, 3)", "waypoint 'home' not found for actor 'steve'"]) ∧
    ((prepare setup default values >>= conclude setup ⟨"move", [], default⟩ handler 0)
      start).2.world = 1 := by
  intro context setup handler values start
  obtain ⟨-, -, hconclude⟩ := arguments_prepared setup default values start rfl
  have hfailed : (prepare setup default values start).1 = .ok (.lookupFailed
      "unknown waypoint 'home'"
      ["world(1, 2, 3) -> (1, 2, 3)", "waypoint 'home' not found for actor 'steve'"]) := rfl
  refine ⟨hfailed, ?_⟩
  rw [(hconclude ⟨"move", [], default⟩ handler 0).2 _ _ hfailed]
  rfl

end Run

end BlockScript
