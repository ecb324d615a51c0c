import BlockScript.Space.Heading
import BlockScript.Text.Numeral

/-!
# Selectors

A selector is a chain of terms, each an axis times a signed magnitude. Horizontal axes turn with the
heading, vertical ones do not. A chain whose running sum leaves the coordinate range has no offset.
-/
namespace BlockScript
set_option autoImplicit false

inductive Axis where
  | forward
  | back
  | right
  | left
  | up
  | down
deriving DecidableEq, Inhabited

namespace Axis

def all : List Axis := [forward, back, right, left, up, down]

def letter : Axis → Char
  | forward => 'F'
  | back => 'B'
  | right => 'R'
  | left => 'L'
  | up => 'U'
  | down => 'D'

/-- Letters are read in either case. -/
def ofLetter? (c : Char) : Option Axis :=
  all.find? fun axis => axis.letter = c.toUpper

def basis (heading : Heading) : Axis → Position
  | forward => heading.forward
  | back => -heading.forward
  | right => heading.right
  | left => -heading.right
  | up => Position.up
  | down => Position.down

/-- Splits an axis letter followed by digits only; the digits may be missing. -/
def ofWord? : List Char → Option (Axis × List Char)
  | [] => none
  | c :: digits =>
    match ofLetter? c with
    | none => none
    | some axis => if digits.all Text.isDigit then some (axis, digits) else none

/-- Whether a word reads as a selector term and not as a name. -/
def isWord (word : List Char) : Bool := (ofWord? word).isSome

end Axis

structure Term where
  axis : Axis
  magnitude : Int32
deriving DecidableEq, Inhabited

namespace Term

def offset? (heading : Heading) (term : Term) : Option Position :=
  (term.axis.basis heading).scale? term.magnitude

def key (term : Term) : String :=
  term.axis.letter.toString ++ toString term.magnitude.toInt

theorem toList_key (term : Term) :
    term.key.toList = term.axis.letter :: (toString term.magnitude.toInt).toList := by
  rw [key, String.toList_append, Char.toString, String.toList_singleton]
  rfl

end Term

structure Selector where
  terms : List Term
deriving DecidableEq, Inhabited

namespace Selector

/-- Terms are added in order, each sum within the coordinate range. -/
def offset? (selector : Selector) (heading : Heading) : Option Position :=
  selector.terms.foldlM (fun sum term => do sum.add? (← term.offset? heading)) Position.zero

def resolve? (selector : Selector) (origin : Orientation) : Option Position := do
  origin.position.add? (← selector.offset? origin.heading)

/-- The terms in order, each with an explicit magnitude, joined by `+`. -/
def key (selector : Selector) : String :=
  String.intercalate "+" (selector.terms.map Term.key)

def overflowMessage (selector : Selector) : String :=
  "selector " ++ selector.key ++ " is out of coordinate range"

end Selector

end BlockScript
