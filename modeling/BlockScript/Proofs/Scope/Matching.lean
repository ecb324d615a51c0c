import Mathlib.Data.List.Nodup
import BlockScript.Scope.Env

/-!
# Environments that match

The order in which macros of different names are declared in a scope leaves no trace in it. Two
environments match if they have the same scopes with the same variables, and macros under the same
names that are related pairwise. What a statement does to both of them keeps them so.
-/
namespace BlockScript
set_option autoImplicit false

/-! ## Equal dictionaries -/

namespace Dict

variable {α : Type}

theorem mem_entries_iff {dict : Dict α} {key : String} {value : α} :
    (key, value) ∈ dict.entries ↔ dict.get? key = some value := by
  unfold get?
  rw [List.lookup_eq_some_iff]
  constructor
  · intro hmem
    obtain ⟨before, after, hentries⟩ := List.append_of_mem hmem
    refine ⟨before, after, hentries, fun entry hentry => ?_⟩
    have hlt : entry.1 < key :=
      (List.pairwise_append.1 (hentries ▸ dict.sorted)).2.2 entry hentry _ List.mem_cons_self
    refine bne_iff_ne.2 fun heq => ?_
    exact String.lt_irrefl key (heq ▸ hlt)
  · rintro ⟨before, after, hentries, -⟩
    rw [hentries]
    exact List.mem_append_right _ List.mem_cons_self

theorem nodup_entries (dict : Dict α) : dict.entries.Nodup := by
  refine List.Pairwise.imp ?_ dict.sorted
  rintro first _ hlt rfl
  exact String.lt_irrefl first.1 hlt

/-- Two dictionaries that answer every key alike are equal. -/
theorem ext_get? {first second : Dict α} (h : ∀ key, first.get? key = second.get? key) :
    first = second := by
  have hperm : first.entries.Perm second.entries := by
    refine (List.perm_ext_iff_of_nodup first.nodup_entries second.nodup_entries).2 ?_
    rintro ⟨key, value⟩
    rw [mem_entries_iff, mem_entries_iff, h]
  have hentries : first.entries = second.entries := by
    refine hperm.eq_of_pairwise (fun a b _ _ hab hba => ?_) first.sorted second.sorted
    exact absurd (String.lt_trans hab hba) (String.lt_irrefl _)
  obtain ⟨entries, sorted⟩ := first
  obtain rfl : entries = second.entries := hentries
  rfl

theorem insert_comm (dict : Dict α) {key other : String} (hne : key ≠ other) (value value' : α) :
    (dict.insert key value).insert other value' = (dict.insert other value').insert key value := by
  refine ext_get? fun k => ?_
  simp only [get?_insert]
  by_cases hkey : k = key
  · rw [if_pos hkey, if_pos hkey, if_neg fun hother => hne (hkey.symm.trans hother)]
  · rw [if_neg hkey, if_neg hkey]

end Dict

/-! ## The order of declarations -/

namespace Env

theorem define_comm (env : Env) {m other : Macro} (hne : m.name ≠ other.name) :
    (env.define m).define other = (env.define other).define m := by
  obtain ⟨locals, globals⟩ := env
  have hinsert (b : Bindings) :
      (b.macros.insert m.name m).insert other.name other =
        (b.macros.insert other.name other).insert m.name m := b.macros.insert_comm hne m other
  cases locals with
  | nil =>
    simp only [define, modifyInnermost]
    rw [hinsert globals]
  | cons scope outer =>
    simp only [define, modifyInnermost]
    rw [hinsert scope.bindings]

/-- Macros of different names may be declared in any order. -/
theorem defineAll_perm {macros macros' : List Macro} (hperm : macros.Perm macros')
    (hnames : (macros.map Macro.name).Nodup) (env : Env) :
    macros.foldl define env = macros'.foldl define env := by
  refine hperm.foldl_eq' (fun m hm other hother env => ?_) env
  by_cases hname : m.name = other.name
  · rw [List.inj_on_of_nodup_map hnames hm hother hname]
  · exact env.define_comm hname

end Env

/-! ## Matching scopes -/

section

variable (K : Macro → Macro → Prop)

/-- The same variables, and macros of the same names that are related. -/
structure Bindings.Match (b c : Bindings) : Prop where
  vars : b.vars = c.vars
  macros : ∀ name, Option.Rel K (b.macros.get? name) (c.macros.get? name)

structure Scope.Match (scope scope' : Scope) : Prop where
  opensCall : scope.opensCall = scope'.opensCall
  bindings : scope.bindings.Match K scope'.bindings

structure Env.Match (e f : Env) : Prop where
  locals : List.Forall₂ (Scope.Match K) e.locals f.locals
  globals : e.globals.Match K f.globals

end

variable {K : Macro → Macro → Prop}

namespace Bindings.Match

theorem empty : Bindings.empty.Match K Bindings.empty := ⟨rfl, fun _ => .none⟩

variable {b c : Bindings}

theorem declare (h : b.Match K c) (name : String) (value : Value) :
    Bindings.Match K { b with vars := b.vars.insert name value }
      { c with vars := c.vars.insert name value } :=
  { h with vars := congrArg (·.insert name value) h.vars }

theorem define (h : b.Match K c) {m m' : Macro} (hm : K m m') (hname : m'.name = m.name) :
    Bindings.Match K { b with macros := b.macros.insert m.name m }
      { c with macros := c.macros.insert m'.name m' } := by
  refine { h with macros := fun name => ?_ }
  dsimp only
  rw [Dict.get?_insert, Dict.get?_insert, hname]
  split
  · exact .some hm
  · exact h.macros name

end Bindings.Match

theorem Bindings.match_refl (hK : ∀ m, K m m) (b : Bindings) : b.Match K b := by
  refine ⟨rfl, fun name => ?_⟩
  cases b.macros.get? name with
  | none => exact .none
  | some m => exact .some (hK m)

namespace Env

theorem match_refl (hK : ∀ m, K m m) (env : Env) : env.Match K env :=
  ⟨List.forall₂_same.2 fun scope _ => ⟨rfl, Bindings.match_refl hK scope.bindings⟩,
    Bindings.match_refl hK env.globals⟩

theorem getLocal?_match {scopes scopes' : List Scope}
    (h : List.Forall₂ (Scope.Match K) scopes scopes') (name : String) :
    getLocal? name scopes = getLocal? name scopes' := by
  induction h with
  | nil => rfl
  | cons hscope _ ih => simp only [getLocal?, hscope.opensCall, hscope.bindings.vars, ih]

/-- An assignment finds a variable in the same scope of both, or in none. -/
theorem setLocal?_match {scopes scopes' : List Scope}
    (h : List.Forall₂ (Scope.Match K) scopes scopes') (name : String) (value : Value) :
    Option.Rel (List.Forall₂ (Scope.Match K)) (setLocal? name value scopes)
      (setLocal? name value scopes') := by
  induction h with
  | nil => exact .none
  | @cons scope scope' outer outer' hscope houter ih =>
    simp only [setLocal?, ← hscope.opensCall, ← hscope.bindings.vars]
    split
    · have hset := hscope.bindings.declare name value
      rw [← hscope.bindings.vars] at hset
      exact .some (.cons ⟨rfl, hset⟩ houter)
    · split
      · exact .none
      · generalize setLocal? name value outer = found at ih
        generalize setLocal? name value outer' = found' at ih
        cases ih with
        | none => exact .none
        | some hrest => exact .some (.cons hscope hrest)

namespace Match

variable {e f : Env}

theorem get? (h : e.Match K f) (name : String) : e.get? name = f.get? name := by
  unfold Env.get?
  rw [getLocal?_match h.locals, h.globals.vars]

/-- A name means related macros, or none in both. -/
theorem findMacro? (h : e.Match K f) (name : String) :
    Option.Rel K (e.findMacro? name) (f.findMacro? name) := by
  obtain ⟨locals, globals⟩ := e
  obtain ⟨locals', globals'⟩ := f
  obtain ⟨hlocals, hglobals⟩ := h
  unfold Env.findMacro?
  dsimp only at hlocals hglobals ⊢
  induction hlocals with
  | nil => exact hglobals.macros name
  | @cons scope scope' outer outer' hscope _ ih =>
    rw [List.findSome?_cons, List.findSome?_cons]
    have hhere := hscope.bindings.macros name
    generalize scope.bindings.macros.get? name = found at hhere
    generalize scope'.bindings.macros.get? name = found' at hhere
    cases hhere with
    | none => exact ih
    | some hm => exact .some hm

theorem modifyInnermost (h : e.Match K f) {change change' : Bindings → Bindings}
    (hchange : ∀ b c : Bindings, b.Match K c → (change b).Match K (change' c)) :
    (e.modifyInnermost change).Match K (f.modifyInnermost change') := by
  obtain ⟨locals, globals⟩ := e
  obtain ⟨locals', globals'⟩ := f
  obtain ⟨hlocals, hglobals⟩ := h
  cases hlocals with
  | nil => exact ⟨.nil, hchange _ _ hglobals⟩
  | cons hscope houter =>
    exact ⟨.cons ⟨hscope.opensCall, hchange _ _ hscope.bindings⟩ houter, hglobals⟩

theorem declare (h : e.Match K f) (name : String) (value : Value) :
    (e.declare name value).Match K (f.declare name value) :=
  h.modifyInnermost fun _ _ hb => hb.declare name value

theorem define (h : e.Match K f) {m m' : Macro} (hm : K m m') (hname : m'.name = m.name) :
    (e.define m).Match K (f.define m') :=
  h.modifyInnermost fun _ _ hb => hb.define hm hname

theorem declareAll (h : e.Match K f) (bound : List (String × Value)) :
    Env.Match K (bound.foldl (fun env (name, value) => env.declare name value) e)
      (bound.foldl (fun env (name, value) => env.declare name value) f) :=
  List.foldl_rel h fun first _ _ _ h => h.declare first.1 first.2

theorem defineAll (hK : ∀ m, K m m) (h : e.Match K f) (macros : List Macro) :
    (macros.foldl Env.define e).Match K (macros.foldl Env.define f) :=
  List.foldl_rel h fun m _ _ _ h => h.define (hK m) rfl

theorem assign? (h : e.Match K f) (name : String) (value : Value) :
    Option.Rel (Env.Match K) (e.assign? name value) (f.assign? name value) := by
  have hset := setLocal?_match h.locals name value
  unfold Env.assign?
  generalize setLocal? name value e.locals = found at hset
  generalize setLocal? name value f.locals = found' at hset
  cases hset with
  | some hlocals => exact .some ⟨hlocals, h.globals⟩
  | none =>
    dsimp only
    rw [← h.globals.vars]
    split
    · have hglobals := h.globals.declare name value
      rw [← h.globals.vars] at hglobals
      exact .some ⟨h.locals, hglobals⟩
    · exact .none

theorem opened (h : e.Match K f) (opensCall : Bool) :
    Env.Match K { e with locals := ⟨Bindings.empty, opensCall⟩ :: e.locals }
      { f with locals := ⟨Bindings.empty, opensCall⟩ :: f.locals } :=
  ⟨.cons ⟨rfl, .empty⟩ h.locals, h.globals⟩

theorem pop (h : e.Match K f) : e.pop.Match K f.pop := by
  obtain ⟨locals, globals⟩ := e
  obtain ⟨locals', globals'⟩ := f
  obtain ⟨hlocals, hglobals⟩ := h
  cases hlocals with
  | nil => exact ⟨.nil, hglobals⟩
  | cons _ houter => exact ⟨houter, hglobals⟩

end Match

end Env

end BlockScript
