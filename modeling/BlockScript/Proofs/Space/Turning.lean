import BlockScript.Proofs.Space.Resolution

/-!
# Selectors and turns

A quarter turn clockwise takes north to east, and with it what lies to the east to the south. Every
axis turns so, and a chain of terms with its axes: the offset under the next heading is the offset
under this one, turned. Heights stay as they are. The law is about whole numbers. At the lower end
of the coordinate range there is no coordinate to turn to, so an offset under one heading does not
promise one under the next.
-/
namespace BlockScript
set_option autoImplicit false

/-- The next heading in the order north, east, south, west. -/
def Heading.clockwise : Heading → Heading
  | north => east
  | east => south
  | south => west
  | west => north

/-- A quarter turn clockwise, seen from above. -/
def turned (v : Dimension → Int) : Dimension → Int
  | .x => -v .z
  | .y => v .y
  | .z => v .x

theorem turned_add (v w : Dimension → Int) (d : Dimension) :
    turned (fun d => v d + w d) d = turned v d + turned w d := by
  cases d with
  | x => exact neg_add (v .z) (w .z)
  | y => rfl
  | z => rfl

theorem turned_mul (v : Dimension → Int) (k : Int) (d : Dimension) :
    turned (fun d => v d * k) d = turned v d * k := by
  cases d with
  | x => exact (neg_mul (v .z) k).symm
  | y => rfl
  | z => rfl

theorem Axis.along_basis_clockwise (axis : Axis) (heading : Heading) (d : Dimension) :
    (axis.basis heading.clockwise).along d = turned (axis.basis heading).along d := by
  cases axis <;> cases heading <;> cases d <;> decide

theorem Term.shift_clockwise (term : Term) (heading : Heading) (d : Dimension) :
    term.shift heading.clockwise d = turned (term.shift heading) d := by
  unfold Term.shift
  rw [Axis.along_basis_clockwise, turned_mul]

namespace Selector

variable {heading : Heading} {terms : List Term}

theorem total_clockwise (d : Dimension) :
    total heading.clockwise terms d = turned (total heading terms) d := by
  induction terms with
  | nil =>
    have hnil : ∀ heading : Heading, total heading [] = fun _ => 0 := fun _ => rfl
    rw [hnil, hnil]
    cases d <;> rfl
  | cons term terms ih =>
    have hsplit : total heading (term :: terms) =
        fun d => term.shift heading d + total heading terms d :=
      funext (total_cons term)
    rw [hsplit, turned_add, total_cons, ih, Term.shift_clockwise]

/-- Every heading is some quarter turns from north, and none of them changes a height. -/
theorem total_height (heading : Heading) : total heading terms .y = total .north terms .y := by
  have hturn : ∀ heading : Heading, total heading.clockwise terms .y = total heading terms .y :=
    fun _ => total_clockwise .y
  cases heading with
  | north => rfl
  | east => exact hturn .north
  | south => exact (hturn .east).trans (hturn .north)
  | west => exact (hturn .south).trans ((hturn .east).trans (hturn .north))

/-- A selector that stays in range resolves to the position plus the exact sum of its terms, and to
nothing else. Where it has an offset under a heading and under the next one, the second offset is
the first after a quarter turn; under any two headings the offsets have the same height. -/
theorem selectors_exact_and_turning (selector : Selector) :
    (∀ origin target, selector.resolve? origin = some target ↔
      StaysInRange origin.heading selector.terms ∧
      ∀ d, target.along d = origin.position.along d + total origin.heading selector.terms d) ∧
    (∀ heading first second, selector.offset? heading = some first →
      selector.offset? heading.clockwise = some second →
        second.x.toInt = -first.z.toInt ∧ second.y = first.y ∧ second.z = first.x) ∧
    ∀ heading other first second, selector.offset? heading = some first →
      selector.offset? other = some second → second.y = first.y := by
  refine ⟨fun origin target => resolve?_eq_some_iff, ?_, ?_⟩
  · intro heading first second hfirst hsecond
    have hfirst := (offset?_eq_some_iff.1 hfirst).2
    have hsecond := (offset?_eq_some_iff.1 hsecond).2
    have hturned : ∀ d, second.along d = turned first.along d := by
      intro d
      rw [hsecond d, total_clockwise, ← funext hfirst]
    exact ⟨hturned .x, Int32.toInt_inj.1 (hturned .y), Int32.toInt_inj.1 (hturned .z)⟩
  · intro heading other first second hfirst hsecond
    have hfirst : first.y.toInt = _ := (offset?_eq_some_iff.1 hfirst).2 .y
    have hsecond : second.y.toInt = _ := (offset?_eq_some_iff.1 hsecond).2 .y
    rw [← Int32.toInt_inj, hfirst, hsecond, total_height other, total_height heading]

/-- A chain that reaches the lower end of the range under two headings in a row, and has no offset
under a third. -/
theorem selectors_exact_and_turning_at_edge :
    let selector : Selector := ⟨[⟨.forward, -2147483648⟩, ⟨.up, 3⟩, ⟨.left, -7⟩]⟩
    let first : Position := ⟨-2147483648, 3, 7⟩
    let second : Position := ⟨-7, 3, -2147483648⟩
    selector.offset? .east = some first ∧ selector.offset? .south = some second ∧
      selector.offset? .north = none ∧
      second.x.toInt = -first.z.toInt ∧ second.y = first.y ∧ second.z = first.x ∧
      selector.resolve? ⟨.east, ⟨5, 64, 0⟩⟩ = some ⟨-2147483643, 67, 7⟩ ∧
      Position.along ⟨-2147483643, 67, 7⟩ .x =
        Position.along ⟨5, 64, 0⟩ .x + total .east selector.terms .x := by
  intro selector first second
  have hfirst : selector.offset? .east = some first := by decide
  have hsecond : selector.offset? .south = some second := by decide
  have hresolved : selector.resolve? ⟨.east, ⟨5, 64, 0⟩⟩ = some ⟨-2147483643, 67, 7⟩ := by decide
  obtain ⟨hexact, hturned, -⟩ := selectors_exact_and_turning selector
  obtain ⟨hx, hy, hz⟩ := hturned .east first second hfirst hsecond
  exact ⟨hfirst, hsecond, by decide, hx, hy, hz, hresolved, ((hexact _ _).1 hresolved).2 .x⟩

end Selector

end BlockScript
