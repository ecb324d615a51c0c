import BlockScript.Proofs.Run.Agreement
import BlockScript.Proofs.Run.Steps

/-!
# What terminations tell

A termination is written in the state in which a step fails, and afterwards nothing is done but to
close scopes and calls. So what terminations tell of that state need only be looked at where they
are written.
-/
namespace BlockScript
set_option autoImplicit false

namespace Run

variable {σ α β : Type}

/-- A step that fails only with terminations of which `Q` holds in the state that they leave. -/
def Fails (Q : Termination → State σ → Prop) (α : Type) (m : Run σ α) : Prop :=
  ∀ s x s', m s = (.error x, s') → Q x s'

namespace Fails

variable {setup : Setup σ} {Q : Termination → State σ → Prop}

theorem of_ok {m : Run σ α} (h : ∀ s, ∃ a s', m s = (.ok a, s')) : Fails Q α m := by
  intro s x s' hm
  obtain ⟨a, s₁, hok⟩ := h s
  rw [hok] at hm
  cases hm

theorem bind {m : Run σ α} {k : α → Run σ β} (hm : Fails Q α m) (hk : ∀ a, Fails Q β (k a)) :
    Fails Q β (m >>= k) := by
  intro s x s' h
  cases hfirst : m s with
  | mk answer s₁ =>
    cases answer with
    | ok a =>
      rw [bind_ok hfirst] at h
      exact hk a s₁ x s' h
    | error y =>
      rw [bind_error hfirst] at h
      cases h
      exact hm s x s' hfirst

theorem failWith {halt : Halt} {loc : Location} {notes : List String}
    (h : ∀ s, Q (terminate halt loc notes s) s) : Fails Q α (Run.failWith halt loc notes) := by
  rintro s x s' ⟨⟩
  exact h s

/-- A failure in a scope of its own is told as it was inside. -/
theorem inScope (hcontrol : ∀ x s env depth, Q x s → Q x { s with env := env, depth := depth })
    {m : Run σ α} (h : Fails Q α m) : Fails Q α (Run.inScope m) := by
  intro s x s' hrun
  have hanswer : (m { s with env := s.env.push }).1 = .error x := congrArg Prod.fst hrun
  obtain rfl := congrArg Prod.snd hrun
  exact hcontrol x _ _ _ (h _ x _ (Prod.ext hanswer rfl))

theorem inFrame (hcontrol : ∀ x s env depth, Q x s → Q x { s with env := env, depth := depth })
    (bound : List (String × Value)) {m : Run σ α} (h : Fails Q α m) :
    Fails Q α (Run.inFrame bound m) := by
  intro s x s' hrun
  let inner : State σ :=
    { s with
      env := bound.foldl (fun env binding => env.declare binding.1 binding.2) s.env.pushFrame
      depth := s.depth + 1 }
  have hanswer : (m inner).1 = .error x := congrArg Prod.fst hrun
  obtain rfl := congrArg Prod.snd hrun
  exact hcontrol x _ _ _ (h inner x _ (Prod.ext hanswer rfl))

/-- What holds of every termination where it is written holds of every termination of a run. -/
theorem pervasive
    (hcontrol : ∀ x s env depth, Q x s → Q x { s with env := env, depth := depth })
    (hregular : ∀ (halt : Halt) loc notes s, halt.isRegular setup.options = true →
      Q (terminate halt loc notes s) s)
    (hunread : ∀ {α : Type} {function : StoredFunction} {error : SyntaxError} {name : String}
      (loc : Location) (world : σ),
      (setup.context.function setup.options.actor name world).1 = .ok (some function) →
      parse function.body = .error error → Fails Q α (failBody function loc error))
    (hunknown : ∀ call loc s, Q (terminate (unknown call) loc [] s) s) :
    Pervasive setup (Fails Q) where
  pure := fun a => .of_ok fun s => ⟨a, s, rfl⟩
  bind := bind
  read := fun part => .of_ok fun s => ⟨part s, s, rfl⟩
  askBind := fun act k hk s x s' h => hk s.world _ x s' h
  trace := fun loc kind => .of_ok fun s => ⟨(), _, trace_eq setup loc kind s⟩
  change := fun f _ => .of_ok fun s => ⟨(), f s, rfl⟩
  failWith := fun loc notes h => failWith fun s => hregular _ loc notes s h
  failBody := hunread
  predicate := fun name _ =>
    .inr (.inr fun loc => failWith fun s => hunknown ⟨name, loc, true⟩ loc s)
  unknown := fun call loc => failWith fun s => hunknown call loc s
  iterate := .of_ok fun s => ⟨(), _, rfl⟩
  declare := fun _ _ => .of_ok fun s => ⟨(), _, rfl⟩
  hoist := fun _ => .of_ok fun s => ⟨(), _, rfl⟩
  assign := fun name value => .of_ok fun s => by
    unfold Run.assign
    cases s.env.assign? name value with
    | none => exact ⟨false, s, rfl⟩
    | some env => exact ⟨true, _, rfl⟩
  inScope := inScope hcontrol
  inFrame := inFrame hcontrol

end Fails

end Run

end BlockScript
