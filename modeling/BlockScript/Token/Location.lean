/-!
# Places in a source text

Lines and columns start at one, and a column counts code points.
-/
namespace BlockScript
set_option autoImplicit false

structure Location where
  line : Nat
  column : Nat
deriving DecidableEq, Inhabited

namespace Location

def start : Location := ⟨1, 1⟩

/-- The place after one character. -/
def next (loc : Location) (c : Char) : Location :=
  if c = '\n' then ⟨loc.line + 1, 1⟩ else ⟨loc.line, loc.column + 1⟩

/-- The place after a text. -/
def after (loc : Location) (text : List Char) : Location := text.foldl next loc

def render (loc : Location) : String := toString loc.line ++ ":" ++ toString loc.column

@[simp]
theorem after_nil (loc : Location) : loc.after [] = loc := rfl

@[simp]
theorem after_cons (loc : Location) (c : Char) (text : List Char) :
    loc.after (c :: text) = (loc.next c).after text := rfl

@[simp]
theorem after_append (loc : Location) (s t : List Char) :
    loc.after (s ++ t) = (loc.after s).after t := by
  simp [after, List.foldl_append]

end Location

end BlockScript
