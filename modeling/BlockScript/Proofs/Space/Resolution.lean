import BlockScript.Space.Selector
import Mathlib.Algebra.BigOperators.Group.List.Basic
import Mathlib.Algebra.Order.Group.Int
import Mathlib.Algebra.Order.Ring.Int

/-!
# Where selectors lead

A selector leads as far in each dimension as its terms taken together. It is resolved term by term,
though, with every term and every sum from the first term on held in 32 bits. So it resolves exactly
if none of these leaves the coordinate range and neither does the target. The order of the terms
does not matter exactly if in each dimension the steps one way fit together, and so do the steps
back.
-/
namespace BlockScript
set_option autoImplicit false

theorem exists_toInt32 {n : Int} (hmin : Int32.minValue.toInt ≤ n)
    (hmax : n ≤ Int32.maxValue.toInt) : ∃ w : Int32, w.toInt = n :=
  ⟨Int32.ofInt n, fit32_eq_some_iff.1 (if_pos ⟨hmin, hmax⟩)⟩

inductive Dimension where
  | x
  | y
  | z
deriving DecidableEq

theorem Dimension.forall_iff {P : Dimension → Prop} : (∀ d, P d) ↔ P .x ∧ P .y ∧ P .z := by
  constructor
  · intro h
    exact ⟨h .x, h .y, h .z⟩
  · rintro ⟨hx, hy, hz⟩ d
    cases d with
    | x => exact hx
    | y => exact hy
    | z => exact hz

/-- Whole numbers that a position can have as its coordinates. -/
def InRange (v : Dimension → Int) : Prop :=
  ∀ d, Int32.minValue.toInt ≤ v d ∧ v d ≤ Int32.maxValue.toInt

theorem InRange.of_eq {v w : Dimension → Int} (h : InRange v) (heq : ∀ d, w d = v d) :
    InRange w := by
  rwa [funext heq]

namespace Position

def along (p : Position) : Dimension → Int
  | .x => p.x.toInt
  | .y => p.y.toInt
  | .z => p.z.toInt

theorem inRange_along (p : Position) : InRange p.along :=
  Dimension.forall_iff.2 ⟨⟨p.x.minValue_le_toInt, p.x.toInt_le⟩,
    ⟨p.y.minValue_le_toInt, p.y.toInt_le⟩, ⟨p.z.minValue_le_toInt, p.z.toInt_le⟩⟩

theorem exists_along {v : Dimension → Int} (h : InRange v) :
    ∃ p : Position, ∀ d, p.along d = v d := by
  obtain ⟨x, hx⟩ := exists_toInt32 (h .x).1 (h .x).2
  obtain ⟨y, hy⟩ := exists_toInt32 (h .y).1 (h .y).2
  obtain ⟨z, hz⟩ := exists_toInt32 (h .z).1 (h .z).2
  exact ⟨⟨x, y, z⟩, Dimension.forall_iff.2 ⟨hx, hy, hz⟩⟩

theorem eq_of_along {p q : Position} (h : ∀ d, p.along d = q.along d) : p = q := by
  obtain ⟨px, py, pz⟩ := p
  obtain ⟨qx, qy, qz⟩ := q
  rw [mk.injEq, ← Int32.toInt_inj, ← Int32.toInt_inj, ← Int32.toInt_inj]
  exact ⟨h .x, h .y, h .z⟩

/-- A position is put together from three numbers exactly if all of them fit. -/
theorem fit32_each_iff {x y z : Int} {c : Position} :
    (do return ⟨← fit32 x, ← fit32 y, ← fit32 z⟩ : Option Position) = some c ↔
      c.along .x = x ∧ c.along .y = y ∧ c.along .z = z := by
  simp only [Option.bind_eq_bind, Option.bind_eq_some_iff, fit32_eq_some_iff, Option.pure_def,
    Option.some.injEq]
  constructor
  · rintro ⟨x', hx, y', hy, z', hz, rfl⟩
    exact ⟨hx, hy, hz⟩
  · rintro ⟨hx, hy, hz⟩
    exact ⟨c.x, hx, c.y, hy, c.z, hz, rfl⟩

theorem add?_eq_some_iff {a b c : Position} :
    a.add? b = some c ↔ ∀ d, c.along d = a.along d + b.along d := by
  rw [Dimension.forall_iff]
  exact fit32_each_iff

theorem scale?_eq_some_iff {a c : Position} {k : Int32} :
    a.scale? k = some c ↔ ∀ d, c.along d = a.along d * k.toInt := by
  rw [Dimension.forall_iff]
  exact fit32_each_iff

end Position

/-- How far a term leads in each dimension. -/
def Term.shift (heading : Heading) (term : Term) (d : Dimension) : Int :=
  (term.axis.basis heading).along d * term.magnitude.toInt

namespace Selector

/-- How far terms lead together. -/
def total (heading : Heading) (terms : List Term) (d : Dimension) : Int :=
  (terms.map fun term => term.shift heading d).sum

/-- How far the terms lead that lead up the coordinate. -/
def rise (heading : Heading) (terms : List Term) (d : Dimension) : Int :=
  (terms.map fun term => max 0 (term.shift heading d)).sum

/-- How far the terms lead that lead down the coordinate. -/
def fall (heading : Heading) (terms : List Term) (d : Dimension) : Int :=
  (terms.map fun term => min 0 (term.shift heading d)).sum

/-- No term and no sum from the first term on leaves the coordinate range. -/
structure StaysInRange (heading : Heading) (terms : List Term) : Prop where
  each : ∀ term ∈ terms, InRange (term.shift heading)
  sums : ∀ front, front <+: terms → InRange (total heading front)

variable {heading : Heading} {terms : List Term}

theorem total_cons (term : Term) (d : Dimension) :
    total heading (term :: terms) d = term.shift heading d + total heading terms d :=
  List.sum_cons

/-- One term is added exactly if both its own offset and the sum fit. -/
theorem step_eq_some_iff {start next : Position} {term : Term} :
    ((term.offset? heading).bind start.add?) = some next ↔
      InRange (term.shift heading) ∧ ∀ d, next.along d = start.along d + term.shift heading d := by
  rw [Option.bind_eq_some_iff]
  constructor
  · rintro ⟨offset, hoffset, hnext⟩
    rw [Term.offset?, Position.scale?_eq_some_iff] at hoffset
    rw [Position.add?_eq_some_iff] at hnext
    refine ⟨offset.inRange_along.of_eq fun d => (hoffset d).symm, fun d => ?_⟩
    rw [hnext d, hoffset d, Term.shift]
  · rintro ⟨hrange, hnext⟩
    obtain ⟨offset, hoffset⟩ := Position.exists_along hrange
    refine ⟨offset, Position.scale?_eq_some_iff.2 hoffset, Position.add?_eq_some_iff.2 fun d => ?_⟩
    rw [hnext d, hoffset d]

/-- Adding one term first leads as far as adding all of them. -/
theorem add_total_cons {start next : Position} {term : Term}
    (h : ∀ d, next.along d = start.along d + term.shift heading d) (rest : List Term)
    (d : Dimension) :
    start.along d + total heading (term :: rest) d = next.along d + total heading rest d := by
  rw [total_cons, h d, add_assoc]

/-- The sums from a start on are that start and the sums from the next position on. -/
theorem sums_cons_iff {start next : Position} {term : Term}
    (h : ∀ d, next.along d = start.along d + term.shift heading d) :
    (∀ front, front <+: term :: terms → InRange fun d => start.along d + total heading front d) ↔
      ∀ front, front <+: terms → InRange fun d => next.along d + total heading front d := by
  constructor
  · intro hsums rest hrest
    have hfront : term :: rest <+: term :: terms := List.prefix_cons_iff.2 (.inr ⟨rest, rfl, hrest⟩)
    exact (hsums _ hfront).of_eq fun d => (add_total_cons h rest d).symm
  · intro hsums front hfront
    rcases List.prefix_cons_iff.1 hfront with rfl | ⟨rest, rfl, hrest⟩
    · exact start.inRange_along.of_eq fun d => add_zero _
    · exact (hsums rest hrest).of_eq (add_total_cons h rest)

/-- The whole fold from any start: it ends with the whole sum, and on the way every term and every
sum has to fit. -/
theorem foldlM_eq_some_iff {start sum : Position} :
    terms.foldlM (fun sum term => do sum.add? (← term.offset? heading)) start = some sum ↔
      (∀ term ∈ terms, InRange (term.shift heading)) ∧
      (∀ front, front <+: terms → InRange fun d => start.along d + total heading front d) ∧
      ∀ d, sum.along d = start.along d + total heading terms d := by
  induction terms generalizing start with
  | nil =>
    have hstart : ∀ d, start.along d + total heading [] d = start.along d := fun d => add_zero _
    simp only [List.foldlM_nil, Option.pure_def, Option.some.injEq, hstart]
    constructor
    · rintro rfl
      refine ⟨by simp, fun front hfront => ?_, fun d => rfl⟩
      rw [List.prefix_nil.1 hfront]
      exact start.inRange_along.of_eq hstart
    · rintro ⟨-, -, hsum⟩
      exact (Position.eq_of_along hsum).symm
  | cons term terms ih =>
    rw [List.foldlM_cons, Option.bind_eq_bind, Option.bind_eq_some_iff]
    constructor
    · rintro ⟨next, hnext, hrest⟩
      obtain ⟨hterm, hnext⟩ := step_eq_some_iff.1 hnext
      obtain ⟨heach, hsums, hsum⟩ := ih.1 hrest
      refine ⟨List.forall_mem_cons.2 ⟨hterm, heach⟩, (sums_cons_iff hnext).2 hsums, fun d => ?_⟩
      rw [add_total_cons hnext, hsum d]
    · rintro ⟨heach, hsums, hsum⟩
      obtain ⟨hterm, heach⟩ := List.forall_mem_cons.1 heach
      have hfirst : InRange fun d => start.along d + term.shift heading d :=
        (hsums [term] (by simp)).of_eq fun d => congrArg _ (add_zero _).symm
      obtain ⟨next, hnext⟩ := Position.exists_along hfirst
      refine ⟨next, step_eq_some_iff.2 ⟨hterm, hnext⟩,
        ih.2 ⟨heach, (sums_cons_iff hnext).1 hsums, fun d => ?_⟩⟩
      rw [hsum d, add_total_cons hnext]

theorem offset?_eq_some_iff {selector : Selector} {offset : Position} :
    selector.offset? heading = some offset ↔
      StaysInRange heading selector.terms ∧
      ∀ d, offset.along d = total heading selector.terms d := by
  have hzero : ∀ (n : Int) (d : Dimension), Position.zero.along d + n = n := by
    intro n d
    cases d <;> exact zero_add n
  rw [offset?, foldlM_eq_some_iff]
  simp only [hzero]
  constructor
  · rintro ⟨heach, hsums, hsum⟩
    exact ⟨⟨heach, hsums⟩, hsum⟩
  · rintro ⟨hstays, hsum⟩
    exact ⟨hstays.each, hstays.sums, hsum⟩

/-- A selector resolves exactly if nothing on the way leaves the range, nor does the target. -/
theorem resolve?_eq_some_iff {selector : Selector} {origin : Orientation} {target : Position} :
    selector.resolve? origin = some target ↔
      StaysInRange origin.heading selector.terms ∧
      ∀ d, target.along d = origin.position.along d + total origin.heading selector.terms d := by
  rw [resolve?, Option.bind_eq_bind, Option.bind_eq_some_iff]
  simp only [offset?_eq_some_iff, Position.add?_eq_some_iff]
  constructor
  · rintro ⟨offset, ⟨hstays, hoffset⟩, htarget⟩
    refine ⟨hstays, fun d => ?_⟩
    rw [htarget d, hoffset d]
  · rintro ⟨hstays, htarget⟩
    obtain ⟨offset, hoffset⟩ := Position.exists_along (hstays.sums _ List.prefix_rfl)
    refine ⟨offset, ⟨hstays, hoffset⟩, fun d => ?_⟩
    rw [htarget d, hoffset d]

/-! ## The order of the terms -/

/-- However few of the terms are taken, they lead no further than all that lead the same way. -/
theorem total_mem_of_sublist {part : List Term} (h : part.Sublist terms) (d : Dimension) :
    fall heading terms d ≤ total heading part d ∧ total heading part d ≤ rise heading terms d := by
  induction h with
  | slnil => simp [fall, total, rise]
  | cons term h ih =>
    simp only [fall, rise, List.map_cons, List.sum_cons] at ih ⊢
    omega
  | cons_cons term h ih =>
    simp only [fall, rise, total, List.map_cons, List.sum_cons] at ih ⊢
    omega

theorem staysInRange_of_fits
    (h : ∀ d, Int32.minValue.toInt ≤ fall heading terms d ∧
      rise heading terms d ≤ Int32.maxValue.toInt) : StaysInRange heading terms := by
  have hpart : ∀ part : List Term, part.Sublist terms → InRange (total heading part) := by
    intro part hsublist d
    obtain ⟨hfall, hrise⟩ := total_mem_of_sublist hsublist d
    exact ⟨(h d).1.trans hfall, hrise.trans (h d).2⟩
  refine ⟨fun term hmem => ?_, fun front hfront => hpart front hfront.sublist⟩
  exact (hpart [term] (List.singleton_sublist.2 hmem)).of_eq fun d => (add_zero _).symm

theorem total_filter (keep : Term → Bool) (d : Dimension) :
    total heading (terms.filter keep) d =
      (terms.map fun term => if keep term = true then term.shift heading d else 0).sum := by
  induction terms with
  | nil => rfl
  | cons term terms ih =>
    rw [List.map_cons, List.sum_cons, ← ih]
    by_cases hkeep : keep term = true
    · rw [List.filter_cons_of_pos hkeep, total_cons, if_pos hkeep]
    · rw [List.filter_cons_of_neg hkeep, if_neg hkeep, zero_add]

theorem rise_eq_total (d : Dimension) :
    rise heading terms d = total heading (terms.filter fun term => 0 < term.shift heading d) d := by
  rw [total_filter, rise]
  refine congrArg List.sum (List.map_congr_left fun term _ => ?_)
  simp only [decide_eq_true_eq]
  split <;> omega

theorem fall_eq_total (d : Dimension) :
    fall heading terms d = total heading (terms.filter fun term => term.shift heading d < 0) d := by
  rw [total_filter, fall]
  refine congrArg List.sum (List.map_congr_left fun term _ => ?_)
  simp only [decide_eq_true_eq]
  split <;> omega

/-- Every order of the terms stays in range exactly if the terms that lead up fit together, and so
do those that lead down. -/
theorem all_orders_stay_iff :
    (∀ other : List Term, other.Perm terms → StaysInRange heading other) ↔
      ∀ d, Int32.minValue.toInt ≤ fall heading terms d ∧
        rise heading terms d ≤ Int32.maxValue.toInt := by
  constructor
  · intro h d
    -- Some order begins with the terms that lead one way.
    have hfirst : ∀ keep : Term → Bool, InRange (total heading (terms.filter keep)) := fun keep =>
      (h _ (List.filter_append_perm keep terms)).sums _ (List.prefix_append _ _)
    rw [fall_eq_total, rise_eq_total]
    exact ⟨(hfirst _ d).1, (hfirst _ d).2⟩
  · intro h other hperm
    refine staysInRange_of_fits fun d => ?_
    have hfall : fall heading other d = fall heading terms d := (hperm.map _).sum_eq
    have hrise : rise heading other d = rise heading terms d := (hperm.map _).sum_eq
    rw [hfall, hrise]
    exact h d

/-- A selector whose exact target is a position resolves to it exactly if no term and no sum on the
way leaves the range, and otherwise to nothing. It does so in every order of its terms exactly if in
each dimension the steps one way fit together and so do the steps back. -/
theorem selectors_resolve_within_range (selector : Selector) (origin : Orientation)
    (target : Position)
    (htarget : ∀ d, target.along d =
      origin.position.along d + total origin.heading selector.terms d) :
    (StaysInRange origin.heading selector.terms → selector.resolve? origin = some target) ∧
    (¬ StaysInRange origin.heading selector.terms → selector.resolve? origin = none) ∧
    ((∀ terms : List Term, terms.Perm selector.terms →
        Selector.resolve? ⟨terms⟩ origin = some target) ↔
      ∀ d, Int32.minValue.toInt ≤ fall origin.heading selector.terms d ∧
        rise origin.heading selector.terms d ≤ Int32.maxValue.toInt) := by
  refine ⟨fun h => resolve?_eq_some_iff.2 ⟨h, htarget⟩, fun h => ?_, ?_⟩
  · by_contra hsome
    obtain ⟨other, hother⟩ := Option.ne_none_iff_exists'.1 hsome
    exact h (resolve?_eq_some_iff.1 hother).1
  · rw [← all_orders_stay_iff]
    refine forall_congr' fun terms => forall_congr' fun hperm => ?_
    have hsame : ∀ d, total origin.heading terms d = total origin.heading selector.terms d :=
      fun d => (hperm.map _).sum_eq
    rw [resolve?_eq_some_iff]
    constructor
    · exact And.left
    · intro hstays
      refine ⟨hstays, fun d => ?_⟩
      rw [hsame d]
      exact htarget d

/-- Forward and up to the last position of a dimension, in either order. -/
theorem selectors_resolve_up_to_edge :
    (∀ d, Position.along ⟨2147483647, 65, 0⟩ d =
        Position.along ⟨2147483640, 64, 0⟩ d + total .east [⟨.forward, 7⟩, ⟨.up, 1⟩] d) ∧
      ∀ terms : List Term, terms.Perm [⟨.forward, 7⟩, ⟨.up, 1⟩] →
        Selector.resolve? ⟨terms⟩ ⟨.east, ⟨2147483640, 64, 0⟩⟩ = some ⟨2147483647, 65, 0⟩ := by
  have htarget : ∀ d, Position.along ⟨2147483647, 65, 0⟩ d =
      Position.along ⟨2147483640, 64, 0⟩ d + total .east [⟨.forward, 7⟩, ⟨.up, 1⟩] d := by
    intro d
    cases d <;> decide
  refine ⟨htarget, (selectors_resolve_within_range ⟨[⟨.forward, 7⟩, ⟨.up, 1⟩]⟩
    ⟨.east, ⟨2147483640, 64, 0⟩⟩ _ htarget).2.2.2 fun d => ?_⟩
  cases d <;> decide

/-- Three terms that lead to a position: as they stand a sum on the way leaves the range, with the
last term first none does. -/
theorem order_of_terms_matters :
    (∀ d, Position.along ⟨0, 0, -2147483647⟩ d =
        Position.zero.along d +
          total .north [⟨.forward, 2147483647⟩, ⟨.forward, 2⟩, ⟨.back, 2⟩] d) ∧
      Selector.resolve? ⟨[⟨.forward, 2147483647⟩, ⟨.forward, 2⟩, ⟨.back, 2⟩]⟩
        ⟨.north, Position.zero⟩ = none ∧
      Selector.resolve? ⟨[⟨.back, 2⟩, ⟨.forward, 2147483647⟩, ⟨.forward, 2⟩]⟩
        ⟨.north, Position.zero⟩ = some ⟨0, 0, -2147483647⟩ := by
  refine ⟨fun d => ?_, by decide, by decide⟩
  cases d <;> decide

end Selector

end BlockScript
