/-!
# Acts and attempts

An act answers and may change the state it is drawn from. An attempt is an act in steps, each of which
finds what the steps before it have left behind. It may end early, and what it has done by then is not
taken back. Either it fails, which is an answer like any other, or some arithmetic in it leaves its
range, which stops the whole program.
-/
namespace BlockScript
set_option autoImplicit false

/-- An answer that may change the state it is drawn from. -/
abbrev Act (σ α : Type) := σ → α × σ

/-- What may leave its range. -/
inductive Overflow where
  /-- The opposite of the radius of a search. -/
  | radius
  /-- The squared distance of two positions. -/
  | distance
  /-- How many of an item the actor carries. -/
  | itemCount
  /-- How often a world has been scanned. -/
  | scanCount
deriving DecidableEq, Inhabited

/-- Why an attempt ends early. -/
inductive Interruption (ε : Type) where
  | failed (error : ε)
  | overflow (what : Overflow)
deriving DecidableEq, Inhabited

def Attempt (σ ε α : Type) := Act σ (Except (Interruption ε) α)

namespace Attempt

variable {σ ε α : Type}

instance : Monad (Attempt σ ε) where
  pure a := fun state => (.ok a, state)
  bind step next := fun state =>
    match step state with
    | (.ok a, state) => next a state
    | (.error interruption, state) => (.error interruption, state)

def get : Attempt σ ε σ := fun state => (.ok state, state)

def change (f : σ → σ) : Attempt σ ε Unit := fun state => (.ok (), f state)

/-- Asks what does not depend on the state. -/
def require (answer : Except ε α) : Attempt σ ε α := fun state =>
  (answer.mapError .failed, state)

/-- Fails unless a condition holds. -/
def ensure (condition : Bool) (error : ε) : Attempt σ ε Unit := fun state =>
  (if condition then .ok () else .error (.failed error), state)

/-- The result of some arithmetic, which is there if it is in range. -/
def checked (what : Overflow) (result : Option α) : Attempt σ ε α := fun state =>
  (result.elim (.error (.overflow what)) .ok, state)

def ofAct (act : Act σ (Except ε α)) : Attempt σ ε α := fun state =>
  ((act state).1.mapError .failed, (act state).2)

end Attempt

/-- A state as long as no overflow has stopped the program. -/
abbrev Live (σ : Type) := Except Overflow σ

/-- An attempt of a program that may be stopped by it. Once the program has stopped, nobody hears an
answer any more. -/
def Attempt.live {σ ε α : Type} (gone : ε) (attempt : Attempt σ ε α) :
    Act (Live σ) (Except ε α)
  | .error what => (.error gone, .error what)
  | .ok state =>
    match attempt state with
    | (.ok a, state) => (.ok a, .ok state)
    | (.error (.failed error), state) => (.error error, .ok state)
    | (.error (.overflow what), _) => (.error gone, .error what)

end BlockScript
