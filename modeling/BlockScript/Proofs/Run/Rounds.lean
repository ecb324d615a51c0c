import BlockScript.Proofs.Run.Halting
import BlockScript.Proofs.Run.Invariants
import BlockScript.Proofs.Scope.Insertion

/-!
# Counted loops

A loop over a count or a range decides by its index alone whether there is another round. The indices
of its rounds are then a list that is known before the first one, and the loop runs through that
list. Over a range it is a list of integers in equal strides; no sum in it leaves the machine size,
although the one that would follow the last may.
-/
namespace BlockScript
set_option autoImplicit false

/-! ## Progressions -/

/-- How many values a range has: the distance to its end by its stride, rounded up. -/
def strides (first last stride : Int64) : Nat :=
  (-(first.toInt - last.toInt).fdiv stride.toInt).toNat

/-- The values of a range, in exact steps from its start. -/
def progression (first last stride : Int64) : List Int64 :=
  (List.range (strides first last stride)).map fun k : Nat =>
    Int64.ofInt (first.toInt + k * stride.toInt)

/-- A value lies before the end of a range, as seen in the direction of its stride. -/
def Within (last stride : Int64) (value : Int) : Prop :=
  (0 < stride.toInt ∧ value < last.toInt) ∨ (stride.toInt < 0 ∧ last.toInt < value)

instance (last stride : Int64) (value : Int) : Decidable (Within last stride value) :=
  inferInstanceAs (Decidable (_ ∨ _))

theorem lt_strides_iff (first last : Int64) {stride : Int64} (h : stride ≠ 0) (k : Nat) :
    k < strides first last stride ↔ Within last stride (first.toInt + k * stride.toInt) := by
  have hne : stride.toInt ≠ 0 := fun hzero => h (Int64.toInt_inj.1 hzero)
  unfold strides Within
  rw [Int.lt_toNat, Int.lt_neg_iff]
  rcases Int.lt_or_gt_of_ne hne with hneg | hpos
  · -- Both sides change their signs, so that the divisor is positive.
    rw [← Int.neg_fdiv_neg, Int.fdiv_eq_ediv_of_nonneg _ (by omega),
      Int.ediv_lt_iff_lt_mul (by omega), Int.neg_mul_neg]
    constructor
    · exact fun hlt => .inr ⟨hneg, by omega⟩
    · rintro (⟨hpos, -⟩ | ⟨-, hlt⟩) <;> omega
  · rw [Int.fdiv_eq_ediv_of_nonneg _ (by omega), Int.ediv_lt_iff_lt_mul hpos, Int.neg_mul]
    constructor
    · exact fun hlt => .inl ⟨hpos, by omega⟩
    · rintro (⟨-, hlt⟩ | ⟨hneg, -⟩) <;> omega

theorem toInt_of_within {first last stride : Int64} {k : Nat}
    (h : Within last stride (first.toInt + k * stride.toInt)) :
    (Int64.ofInt (first.toInt + k * stride.toInt)).toInt = first.toInt + k * stride.toInt := by
  have hfirst := first.minValue_le_toInt
  have hfirst' := first.toInt_le
  have hlast := last.minValue_le_toInt
  have hlast' := last.toInt_le
  have hk : (0 : Int) ≤ k := Int.natCast_nonneg k
  have hmin : Int64.minValue.toInt = -2 ^ 63 := rfl
  have hmax : Int64.maxValue.toInt = 2 ^ 63 - 1 := rfl
  rcases h with ⟨hpos, hlt⟩ | ⟨hneg, hlt⟩
  · have hrise : 0 ≤ k * stride.toInt := Int.mul_nonneg hk (Int.le_of_lt hpos)
    exact Int64.toInt_ofInt_of_le (by omega) (by omega)
  · have hfall : k * stride.toInt ≤ 0 := Int.mul_nonpos_of_nonneg_of_nonpos hk (Int.le_of_lt hneg)
    exact Int64.toInt_ofInt_of_le (by omega) (by omega)

/-- From zero in strides of one. -/
theorem strides_zero_one (n : Int64) : strides 0 n 1 = n.toInt.toNat := by
  have hzero : Int64.toInt 0 = 0 := rfl
  have hone : Int64.toInt 1 = 1 := rfl
  unfold strides
  rw [hzero, hone, Int.fdiv_one, Int.zero_sub, Int.neg_neg]

/-- The values of a range are all that lie before its end, in steps from its start. -/
theorem getElem?_progression (first last : Int64) {stride : Int64} (h : stride ≠ 0) (k : Nat) :
    (progression first last stride)[k]?.map Int64.toInt =
      if Within last stride (first.toInt + k * stride.toInt) then
        some (first.toInt + k * stride.toInt)
      else none := by
  unfold progression
  rw [List.getElem?_map, Option.map_map]
  split
  · next hwithin =>
    rw [List.getElem?_range ((lt_strides_iff first last h k).2 hwithin)]
    exact congrArg some (toInt_of_within hwithin)
  · next hwithin =>
    rw [← lt_strides_iff first last h k, Nat.not_lt] at hwithin
    rw [List.getElem?_eq_none (by rwa [List.length_range])]
    rfl

example : progression 6 0 (-2) = [6, 4, 2] := by decide

theorem zipIdx_progression (first last stride : Int64) :
    (progression first last stride).zipIdx = (List.range (strides first last stride)).map
      fun k : Nat => (Int64.ofInt (first.toInt + k * stride.toInt), k) := by
  let value (k : Nat) : Int64 := Int64.ofInt (first.toInt + k * stride.toInt)
  let counts := List.range (strides first last stride)
  have hzip : (counts.map value).zip (counts.map id) = counts.map fun k => (value k, k) :=
    List.zip_map'
  rw [List.map_id] at hzip
  unfold progression
  rw [List.zipIdx_eq_zip_range', List.length_map, List.length_range, ← List.range_eq_range']
  exact hzip

namespace Run

variable {σ ι : Type}

/-! ## Loops through a list -/

/-- The indices of the rounds of a loop, where nothing else decides about them. -/
inductive Rounds.Lists (rounds : Rounds σ ι) : ι → List ι → Prop where
  | done {i : ι} (hmore : rounds.more i = pure false) : Lists rounds i []
  | last {i : ι} (hmore : rounds.more i = pure true) (hnext : rounds.next i = none) :
    Lists rounds i [i]
  | step {i j : ι} {rest : List ι} (hmore : rounds.more i = pure true)
    (hnext : rounds.next i = some j) (h : Lists rounds j rest) : Lists rounds i (i :: rest)

theorem Rounds.Lists.loop_eq {rounds : Rounds σ ι} {i : ι} {indices : List ι}
    (h : rounds.Lists i indices) {left : Nat} (hleft : indices.length ≤ left) :
    Run.loop rounds left i = indices.forM (fun i => do rounds.start i; rounds.body i) := by
  induction h generalizing left with
  | done hmore =>
    cases left <;> rw [loop, hmore] <;> rfl
  | last hmore hnext =>
    obtain ⟨left, rfl⟩ := Nat.exists_eq_add_of_le' hleft
    rw [List.length_singleton, loop, hmore, pure_bind, if_pos rfl, hnext]
    exact (bind_assoc _ _ _).symm
  | step hmore hnext _ ih =>
    rw [List.length_cons] at hleft
    obtain ⟨left, rfl⟩ := Nat.exists_eq_add_of_le' (Nat.le_of_add_left_le hleft)
    rw [loop, hmore, pure_bind, if_pos rfl, hnext]
    dsimp only
    rw [ih (by omega)]
    exact (bind_assoc _ _ _).symm

variable (setup : Setup σ)

/-- A loop within its budget runs through the list; one that is over budget halts at the same
place. -/
theorem Rounds.Lists.runRounds_eq {rounds : Rounds σ ι} {i : ι} {indices : List ι}
    (h : rounds.Lists i indices) (hpaced : Paced setup.options.maxLoopIterations rounds) :
    runRounds setup rounds i = indices.forM (fun i => do rounds.start i; rounds.body i) := by
  funext s
  have hbudget : setup.options.maxLoopIterations ≤
      setup.options.maxLoopIterations + indices.length := Nat.le_add_right _ _
  rw [Run.runRounds_eq hpaced i s hbudget, h.loop_eq (Nat.le_add_left _ _)]

section

variable (loc : Location) (name : String) (body : Run σ Unit)

theorem countRounds_lists (count : Int64) {i n : Nat} (h : count.toInt.toNat = i + n) :
    (countRounds setup loc count body).Lists i (List.range' i n) := by
  induction n generalizing i with
  | zero =>
    exact .done (congrArg pure (decide_eq_false (by omega)))
  | succ n ih =>
    rw [List.range'_succ]
    exact .step (congrArg pure (decide_eq_true (by omega))) rfl (ih (by omega))

/-- There is a round for every value of the range. -/
theorem rangeRounds_more {first stride : Int64} (last : Int64) (hstride : stride ≠ 0) {k : Nat}
    {value : Int64} (hvalue : value.toInt = first.toInt + k * stride.toInt) :
    (rangeRounds setup loc name last stride body).more ⟨k, value⟩ =
      pure (decide (k < strides first last stride)) := by
  have hzero : Int64.toInt 0 = 0 := rfl
  refine congrArg pure (Bool.eq_iff_iff.2 ?_)
  rw [decide_eq_true_iff, lt_strides_iff first last hstride, ← hvalue]
  simp only [inRange, Within, Bool.or_eq_true, Bool.and_eq_true, decide_eq_true_iff, gt_iff_lt,
    Int64.lt_iff_toInt_lt, hzero]

theorem rangeRounds_lists {first stride : Int64} (last : Int64) (hstride : stride ≠ 0) {k n : Nat}
    {value : Int64} (hvalue : value.toInt = first.toInt + k * stride.toInt)
    (h : strides first last stride = k + n) :
    (rangeRounds setup loc name last stride body).Lists ⟨k, value⟩
      ((List.range' k n).map fun j : Nat =>
        ⟨j, Int64.ofInt (first.toInt + j * stride.toInt)⟩) := by
  induction n generalizing k value with
  | zero =>
    have hmore := rangeRounds_more setup loc name body last hstride hvalue
    exact .done (hmore.trans (congrArg pure (decide_eq_false (by omega))))
  | succ n ih =>
    have hmore := (rangeRounds_more setup loc name body last hstride hvalue).trans
      (congrArg pure (decide_eq_true (by omega)))
    have hsum : value.toInt + stride.toInt = first.toInt + (k + 1 : Nat) * stride.toInt := by
      rw [hvalue, Int.natCast_add, Int.add_mul, Int.natCast_one, Int.one_mul, Int.add_assoc]
    rw [List.range'_succ, List.map_cons, ← hvalue, Int64.ofInt_toInt]
    cases hnext : fit64 (value.toInt + stride.toInt) with
    | some next =>
      have hrest := ih ((fit64_eq_some_iff.1 hnext).trans hsum) (by omega)
      exact .step hmore (congrArg (Option.map _) hnext) hrest
    | none =>
      cases n with
      | zero => exact .last hmore (congrArg (Option.map _) hnext)
      | succ n =>
        -- Another value lies before the end, so the sum cannot have left the machine size.
        have hwithin := (lt_strides_iff first last hstride (k + 1)).1 (by omega)
        rw [hsum, fit64_eq_some_iff.2 (toInt_of_within hwithin)] at hnext
        cases hnext

/-- So many iterations, counted from zero. -/
def countTurns (n : Nat) : Run σ Unit :=
  (List.range n).forM fun i => do
    beginIteration setup loc i none
    body

/-- An iteration for each of the values in turn; the variable has a scope of its own. -/
def rangeTurns (values : List Int64) : Run σ Unit :=
  values.zipIdx.forM fun (value, i) => do
    beginIteration setup loc i (some (name, value))
    inScope do
      modify fun state => { state with env := state.env.declare name (.int value) }
      body

theorem rangeTurns_progression (first last stride : Int64) :
    rangeTurns setup loc name body (progression first last stride) =
      (List.range (strides first last stride)).forM (fun k : Nat => do
        let value := Int64.ofInt (first.toInt + k * stride.toInt)
        beginIteration setup loc k (some (name, value))
        inScope do
          modify fun state => { state with env := state.env.declare name (.int value) }
          body) := by
  rw [rangeTurns, zipIdx_progression]
  simp only [List.forM_eq_forM, List.forM_map]

variable {body}

theorem runRounds_count (hbody : Steady body) (count : Int64) :
    runRounds setup (countRounds setup loc count body) 0 =
      countTurns setup loc body count.toInt.toNat := by
  have hlists := countRounds_lists setup loc body count (Nat.zero_add _).symm
  rw [← List.range_eq_range'] at hlists
  exact hlists.runRounds_eq setup (.count loc count hbody)

theorem runRounds_range (hbody : Steady body) (first last : Int64) {stride : Int64}
    (hstride : stride ≠ 0) :
    runRounds setup (rangeRounds setup loc name last stride body) ⟨0, first⟩ =
      rangeTurns setup loc name body (progression first last stride) := by
  have hfirst : first.toInt = first.toInt + (0 : Nat) * stride.toInt := by omega
  have hlists := rangeRounds_lists setup loc name body last hstride hfirst (Nat.zero_add _).symm
  rw [hlists.runRounds_eq setup (.range loc name last stride hbody), ← List.range_eq_range',
    rangeTurns_progression]
  simp only [List.forM_eq_forM, List.forM_map]
  rfl

/-! ## The statements -/

theorem execStatement_repeatCount (level : Nat) (count : Expr) (statements : Body Statement) :
    execStatement setup (enterAt setup level) (.repeatCount count statements loc) = (do
      let n ← evalInt setup "repeat count" count
      countTurns setup loc (execBody setup (enterAt setup level) statements) n.toInt.toNat) := by
  rw [execStatement]
  exact bind_congr fun n => runRounds_count setup loc (steady_execBody setup level statements) n

theorem execStatement_repeatRange (level : Nat) (start stop : Expr) (step : Option Expr)
    (statements : Body Statement) :
    execStatement setup (enterAt setup level) (.repeatRange name start stop step statements loc) =
      (do
        let first ← evalInt setup "range start" start
        let last ← evalInt setup "range end" stop
        let stride ← rangeStep setup step
        if stride = 0 then fail .zeroStep loc
        else
          rangeTurns setup loc name (execBody setup (enterAt setup level) statements)
            (progression first last stride)) := by
  rw [execStatement]
  refine bind_congr fun first => bind_congr fun last => bind_congr fun stride => ?_
  split
  · rfl
  · next hstride =>
    exact runRounds_range setup loc name (steady_execBody setup level statements) first last hstride

/-! ## How such a loop may halt -/

theorem forM_halts {turn : ι → Run σ Unit} {items : List ι} {s s' : State σ} {x : Termination}
    (h : items.forM turn s = (.error x, s')) :
    ∃ item ∈ items, ∃ t, turn item t = (.error x, s') := by
  induction items generalizing s with
  | nil => cases h
  | cons item rest ih =>
    change (turn item >>= fun _ => rest.forM turn) s = _ at h
    cases hturn : turn item s with
    | mk answer t =>
      cases answer with
      | error y =>
        rw [bind_error hturn] at h
        exact ⟨item, List.mem_cons_self, s, hturn.trans h⟩
      | ok _ =>
        rw [bind_ok hturn] at h
        obtain ⟨item', hitem, t', ht'⟩ := ih h
        exact ⟨item', List.mem_cons_of_mem _ hitem, t', ht'⟩

/-- The start of an iteration halts a run that is cancelled or has no iteration left. -/
theorem beginIteration_halts {iteration : Nat} {binding : Option (String × Int64)}
    {s s' : State σ} {x : Termination}
    (h : beginIteration setup loc iteration binding s = (.error x, s')) :
    x.kind = .cancelled ∨ setup.options.maxLoopIterations < s'.iterations := by
  cases hcancelled : (setup.context.cancelled s.world).1 with
  | true =>
    rw [beginIteration, bind_error (checkCancelled_stopped hcancelled loc)] at h
    cases h
    exact .inl rfl
  | false =>
    rw [beginIteration, bind_ok (checkCancelled_passed hcancelled loc)] at h
    change (if setup.options.maxLoopIterations < s.iterations + 1 then fail _ loc
      else trace setup loc _ : Run σ Unit) _ = _ at h
    split at h
    · next hover =>
      cases h
      exact .inr hover
    · rw [trace_eq] at h
      cases h

theorem turn_halts {iteration : Nat} {binding : Option (String × Int64)} {inner : Run σ Unit}
    {s s' : State σ} {x : Termination}
    (h : (beginIteration setup loc iteration binding >>= fun _ => inner) s = (.error x, s')) :
    x.kind = .cancelled ∨ setup.options.maxLoopIterations < s'.iterations ∨
      ∃ t, inner t = (.error x, s') := by
  cases hstart : beginIteration setup loc iteration binding s with
  | mk answer t =>
    cases answer with
    | error y =>
      rw [bind_error hstart] at h
      cases h
      exact (beginIteration_halts setup loc hstart).imp_right .inl
    | ok _ =>
      rw [bind_ok hstart] at h
      exact .inr (.inr ⟨t, h⟩)

theorem countTurns_halts {n : Nat} {s s' : State σ} {x : Termination}
    (h : countTurns setup loc body n s = (.error x, s')) :
    x.kind = .cancelled ∨ setup.options.maxLoopIterations < s'.iterations ∨
      ∃ t, body t = (.error x, s') := by
  obtain ⟨i, -, t, ht⟩ := forM_halts h
  exact turn_halts setup loc ht

theorem rangeTurns_halts {values : List Int64} {s s' : State σ} {x : Termination}
    (h : rangeTurns setup loc name body values s = (.error x, s')) :
    x.kind = .cancelled ∨ setup.options.maxLoopIterations < s'.iterations ∨
      ∃ value ∈ values, ∃ t, t.env.get? name = some (.int value) ∧
        (body t).1 = .error x := by
  obtain ⟨⟨value, i⟩, hvalue, t, ht⟩ := forM_halts h
  refine (turn_halts setup loc ht).imp_right (.imp_right fun ⟨u, hu⟩ => ?_)
  refine ⟨value, List.fst_mem_of_mem_zipIdx hvalue,
    { u with env := u.env.push.declare name (.int value) }, ?_, congrArg Prod.fst hu⟩
  exact u.env.get?_push_declare name (.int value)

end

end Run

end BlockScript
