import BlockScript.Run.Eval

/-!
# Binding arguments to parameters

Each argument is evaluated and then put into the slot of its parameter, by place or by name. When all
are placed, empty slots take their defaults.
-/
namespace BlockScript
set_option autoImplicit false

/-- A parameter and the value given to it, if any. -/
structure Slot where
  param : CallParam
  value : Option Value

/-- The slots of a call and the place of its next positional argument. -/
structure Binding where
  slots : List Slot
  next : Nat

namespace Binding

def ofParams (params : List CallParam) : Binding := ⟨params.map fun p => ⟨p, none⟩, 0⟩

/-- Fills an empty slot with a value of its type. -/
def fill (given : Nat) (slots : List Slot) (index : Nat) (value : Value) :
    Except BindError (List Slot) :=
  match slots[index]? with
  | none => .error (.tooMany slots.length given)
  | some ⟨param, some _⟩ => .error (.boundTwice param.name)
  | some ⟨param, none⟩ =>
    if value.hasType param.type then .ok (slots.set index ⟨param, some value⟩)
    else .error (.wrongType param.name param.type value)

def place (given : Nat) (binding : Binding) (key : Option String) (value : Value) :
    Except BindError Binding :=
  match key with
  | none => do
    let slots ← fill given binding.slots binding.next value
    return ⟨slots, binding.next + 1⟩
  | some name =>
    match binding.slots.findIdx? fun slot => slot.param.name = name with
    | none => .error (.noParameter name)
    | some index => do
      let slots ← fill given binding.slots index value
      return ⟨slots, binding.next⟩

/-- The values in the order of the parameters. -/
def bound : List Slot → Except BindError (List (String × Value))
  | [] => .ok []
  | slot :: rest =>
    match slot.value.or slot.param.default with
    | some value => do return (slot.param.name, value) :: (← bound rest)
    | none => if slot.param.optional then bound rest else .error (.missing slot.param.name)

end Binding

namespace Run

variable {σ α : Type} (setup : Setup σ)

def ofBinding (callee : String) (loc : Location) (answer : Except BindError α) : Run σ α :=
  match answer with
  | .ok a => pure a
  | .error error => fail (.badCall callee error) loc

def placeArgs (callee : String) (loc : Location) (given : Nat) :
    Binding → List (Arg Expr) → Run σ Binding
  | binding, [] => pure binding
  | binding, ⟨key, e⟩ :: rest => do
    let value ← eval setup e
    let binding ← ofBinding callee loc (binding.place given key value)
    placeArgs callee loc given binding rest

def bindArgs (callee : String) (loc : Location) (params : List CallParam) (args : List (Arg Expr)) :
    Run σ (List (String × Value)) := do
  let binding ← placeArgs setup callee loc args.length (Binding.ofParams params) args
  ofBinding callee loc (Binding.bound binding.slots)

end Run

end BlockScript
