import BlockScript.Proofs.Run.Parameters

/-!
# Arguments and their parameters

An argument is meant for one parameter: without a name for the one of its place among the arguments
without a name, and else for the one of its name. Which values a parameter receives can so be told
from the whole list of arguments, without placing them one by one. Placing them goes well exactly if
no parameter receives two values or one of another type, and then each slot holds what its parameter
receives. Since the named arguments count only by their names, they may stand anywhere.
-/
namespace BlockScript
set_option autoImplicit false

namespace Binding

/-! ## What parameters receive -/

/-- The values of the arguments without a name. -/
def positional (values : List (Option String × Value)) : List Value :=
  (values.filter fun arg => arg.1.isNone).map Prod.snd

/-- The values of the arguments with this name. -/
def named (values : List (Option String × Value)) (name : String) : List Value :=
  (values.filter fun arg => arg.1 = some name).map Prod.snd

/-- What the parameter at this place receives, by its place and by its name. -/
def received (values : List (Option String × Value)) (index : Nat) (param : CallParam) :
    List Value :=
  (positional values)[index]?.toList ++ named values param.name

/-- Every argument has a parameter of its own and the type of that parameter. -/
structure Placeable (params : List CallParam) (values : List (Option String × Value)) : Prop where
  few : (positional values).length ≤ params.length
  known : ∀ name value, (some name, value) ∈ values → ∃ param ∈ params, param.name = name
  once : ∀ index param, params[index]? = some param → (received values index param).length ≤ 1
  typed : ∀ index param, params[index]? = some param →
    ∀ value ∈ received values index param, value.hasType param.type = true

/-- Moreover, only parameters with a default and optional ones go without an argument. -/
structure Fits (params : List CallParam) (values : List (Option String × Value)) : Prop
    extends Placeable params values where
  filled : ∀ index param, params[index]? = some param → received values index param = [] →
    param.default ≠ none ∨ param.optional = true

/-- The parameters in order, each with the value it receives or else with its default. -/
def bindings (params : List CallParam) (values : List (Option String × Value)) :
    List (String × Value) :=
  params.zipIdx.filterMap fun (param, index) =>
    ((received values index param).head?.or param.default).map fun value => (param.name, value)

/-- The slots that hold what their parameters receive, and the number of arguments by place. -/
def after (params : List CallParam) (values : List (Option String × Value)) : Binding :=
  ⟨params.zipIdx.map fun (param, index) => ⟨param, (received values index param).head?⟩,
    (positional values).length⟩

variable {params : List CallParam} {values front back : List (Option String × Value)}
  {key : Option String} {value : Value} {index : Nat} {param : CallParam}

theorem positional_append : positional (front ++ back) = positional front ++ positional back := by
  simp [positional]

theorem named_append (name : String) :
    named (front ++ back) name = named front name ++ named back name := by
  simp [named]

theorem received_sublist (index : Nat) (param : CallParam) :
    (received front index param).Sublist (received (front ++ back) index param) := by
  unfold received
  rw [positional_append, named_append]
  refine List.Sublist.append ?_ (List.sublist_append_left _ _)
  by_cases hindex : index < (positional front).length
  · rw [List.getElem?_append_left hindex]
  · rw [List.getElem?_eq_none (Nat.not_lt.1 hindex)]
    exact List.nil_sublist _

theorem Placeable.nil (params : List CallParam) : Placeable params [] where
  few := Nat.zero_le _
  known := nofun
  once := fun _ _ _ => Nat.zero_le _
  typed := fun _ _ _ => nofun

theorem Placeable.of_append (h : Placeable params (front ++ back)) : Placeable params front where
  few := by
    have hfew := h.few
    rw [positional_append, List.length_append] at hfew
    omega
  known := fun name value hmem => h.known name value (List.mem_append_left _ hmem)
  once := fun index param hparam =>
    Nat.le_trans (received_sublist index param).length_le (h.once index param hparam)
  typed := fun index param hparam value hvalue =>
    h.typed index param hparam value ((received_sublist index param).subset hvalue)

/-! ## One more argument -/

/-- An argument with this key behind the others is meant for this parameter. -/
def Aims (values : List (Option String × Value)) (key : Option String) (index : Nat)
    (param : CallParam) : Prop :=
  match key with
  | none => index = (positional values).length
  | some name => param.name = name

theorem Aims.unique (hnames : (params.map CallParam.name).Nodup) {index' : Nat}
    {param' : CallParam} (h : Aims values key index param) (h' : Aims values key index' param')
    (hparam : params[index]? = some param) (hparam' : params[index']? = some param') :
    index = index' := by
  cases key with
  | none => exact Eq.trans h (Eq.symm h')
  | some name =>
    have hname : param.name = param'.name := Eq.trans h (Eq.symm h')
    obtain ⟨hindex, -⟩ := List.getElem?_eq_some_iff.1 hparam
    refine (List.getElem?_inj (by rwa [List.length_map]) hnames).1 ?_
    rw [List.getElem?_map, List.getElem?_map, hparam, hparam', Option.map_some, Option.map_some,
      hname]

theorem received_of_aims (h : Aims values key index param) (value : Value) :
    (received (values ++ [(key, value)]) index param).Perm
      (value :: received values index param) := by
  unfold received
  rw [positional_append, named_append]
  cases key with
  | none =>
    obtain rfl : index = (positional values).length := h
    have hlast : (positional values ++ positional [(none, value)])[(positional values).length]? =
        some value :=
      List.getElem?_concat_length
    have hnone : (positional values)[(positional values).length]? = none :=
      List.getElem?_eq_none (Nat.le_refl _)
    rw [hlast, hnone]
    simp [named]
  | some name =>
    obtain rfl : param.name = name := h
    have hlast : named [(some param.name, value)] param.name = [value] := by simp [named]
    have hnone : positional [(some param.name, value)] = [] := rfl
    rw [hlast, hnone, List.append_nil, ← List.append_assoc]
    exact List.perm_append_singleton value _

theorem received_of_not_aims (h : ¬ Aims values key index param) (value : Value) :
    received (values ++ [(key, value)]) index param = received values index param := by
  unfold received
  rw [positional_append, named_append]
  cases key with
  | none =>
    have hindex : index ≠ (positional values).length := h
    have hsame : (positional values ++ positional [(none, value)])[index]? =
        (positional values)[index]? := by
      rcases Nat.lt_or_gt_of_ne hindex with hlt | hgt
      · exact List.getElem?_append_left hlt
      · rw [List.getElem?_eq_none (Nat.le_of_lt hgt), List.getElem?_eq_none]
        rw [List.length_append]
        exact hgt
    rw [hsame]
    simp [named]
  | some name =>
    have hname : name ≠ param.name := fun heq => h heq.symm
    simp [positional, named, hname]

/-- The argument is meant for this parameter, which has received nothing yet and has its type. -/
structure Admits (params : List CallParam) (values : List (Option String × Value))
    (key : Option String) (value : Value) (index : Nat) (param : CallParam) : Prop where
  place : params[index]? = some param
  aims : Aims values key index param
  empty : received values index param = []
  type : value.hasType param.type = true

/-- No other parameter notices. -/
theorem Admits.received_eq (hnames : (params.map CallParam.name).Nodup)
    (h : Admits params values key value index param) {other : Nat} {param' : CallParam}
    (hother : params[other]? = some param') :
    received (values ++ [(key, value)]) other param' =
      if other = index then [value] else received values other param' := by
  by_cases hindex : other = index
  · subst hindex
    obtain rfl : param = param' := Option.some.inj (h.place.symm.trans hother)
    have hreceived := received_of_aims h.aims value
    rw [h.empty] at hreceived
    rw [if_pos rfl]
    exact List.perm_singleton.1 hreceived
  · -- Two parameters for one argument would have one place or one name.
    rw [if_neg hindex]
    exact received_of_not_aims (fun haims => hindex (haims.unique hnames h.aims hother h.place)) _

/-- One more argument can be placed exactly if some parameter admits it. -/
theorem placeable_concat_iff (hnames : (params.map CallParam.name).Nodup)
    (h : Placeable params values) :
    Placeable params (values ++ [(key, value)]) ↔
      ∃ index param, Admits params values key value index param := by
  constructor
  · intro hnext
    have haims : ∃ index param, params[index]? = some param ∧ Aims values key index param := by
      cases key with
      | none =>
        have hfew := hnext.few
        rw [positional_append, List.length_append] at hfew
        exact ⟨_, _, List.getElem?_eq_getElem hfew, rfl⟩
      | some name =>
        obtain ⟨param, hmem, hname⟩ := hnext.known name value (by simp)
        obtain ⟨index, hparam⟩ := List.mem_iff_getElem?.1 hmem
        exact ⟨index, param, hparam, hname⟩
    obtain ⟨index, param, hparam, haims⟩ := haims
    have hreceived := received_of_aims haims value
    have honce := hnext.once index param hparam
    rw [hreceived.length_eq, List.length_cons] at honce
    exact ⟨index, param, hparam, haims, List.length_eq_zero_iff.1 (by omega),
      hnext.typed index param hparam value (hreceived.mem_iff.2 List.mem_cons_self)⟩
  · rintro ⟨index, param, hadmits⟩
    refine ⟨?_, ?_, ?_, ?_⟩
    · rw [positional_append, List.length_append]
      cases key with
      | none =>
        obtain ⟨hindex, -⟩ := List.getElem?_eq_some_iff.1 hadmits.place
        obtain rfl : index = (positional values).length := hadmits.aims
        exact hindex
      | some name => exact h.few
    · intro name other hmem
      rcases List.mem_append.1 hmem with hold | hlast
      · exact h.known name other hold
      · obtain ⟨rfl, rfl⟩ := Prod.mk.inj (List.mem_singleton.1 hlast)
        exact ⟨param, List.mem_iff_getElem?.2 ⟨index, hadmits.place⟩, hadmits.aims⟩
    · intro other param' hother
      rw [hadmits.received_eq hnames hother]
      split
      · exact Nat.le_refl _
      · exact h.once other param' hother
    · intro other param' hother given hgiven
      rw [hadmits.received_eq hnames hother] at hgiven
      split at hgiven
      · next hindex =>
        subst hindex
        obtain rfl : param = param' := Option.some.inj (hadmits.place.symm.trans hother)
        obtain rfl := List.mem_singleton.1 hgiven
        exact hadmits.type
      · exact h.typed other param' hother given hgiven

/-! ## Placing -/

theorem after_nil (params : List CallParam) : after params [] = ofParams params := by
  unfold after ofParams
  congr 1
  nth_rewrite 2 [← List.zipIdx_map_fst 0 params]
  rw [List.map_map]
  rfl

theorem getElem?_after (index : Nat) :
    (after params values).slots[index]? =
      params[index]?.map fun param => ⟨param, (received values index param).head?⟩ := by
  unfold after
  rw [List.getElem?_map, List.getElem?_zipIdx, Option.map_map, Nat.zero_add]
  rfl

theorem findIdx?_after (name : String) :
    ((after params values).slots.findIdx? fun slot => slot.param.name = name) =
      params.findIdx? fun param => param.name = name := by
  unfold after
  nth_rewrite 2 [← List.zipIdx_map_fst 0 params]
  rw [List.findIdx?_map, List.findIdx?_map]
  rfl

theorem findIdx?_name (hnames : (params.map CallParam.name).Nodup)
    (hparam : params[index]? = some param) :
    (params.findIdx? fun other => other.name = param.name) = some index := by
  cases hfound : params.findIdx? fun other => other.name = param.name with
  | none =>
    have hdiffers := List.findIdx?_eq_none_iff.1 hfound param
      (List.mem_iff_getElem?.2 ⟨index, hparam⟩)
    rw [decide_eq_false_iff_not] at hdiffers
    exact absurd rfl hdiffers
  | some found =>
    obtain ⟨hbound, hname, -⟩ := List.findIdx?_eq_some_iff_getElem.1 hfound
    have hsame : params[found].name = param.name := of_decide_eq_true hname
    have haims : Aims [] (some param.name) found params[found] := hsame
    rw [haims.unique hnames rfl (List.getElem?_eq_getElem hbound) hparam]

variable {given : Nat} {slots : List Slot} {binding : Binding}

/-- The parameter that admits an argument takes it into its slot. -/
theorem fill_of_admits (given : Nat) (hnames : (params.map CallParam.name).Nodup)
    (h : Admits params values key value index param) :
    fill given (after params values).slots index value =
      .ok (after params (values ++ [(key, value)])).slots := by
  have hempty : (after params values).slots[index]? = some ⟨param, none⟩ := by
    rw [getElem?_after, h.place, Option.map_some, h.empty]
    rfl
  refine fill_eq_ok_iff.2 ⟨param, hempty, h.type, List.ext_getElem? fun other => ?_⟩
  rw [List.getElem?_set, if_pos (List.getElem?_eq_some_iff.1 hempty).1, getElem?_after,
    getElem?_after]
  cases hother : params[other]? with
  | none =>
    have hindex : index ≠ other := by
      rintro rfl
      rw [h.place] at hother
      cases hother
    rw [if_neg hindex]
    rfl
  | some param' =>
    rw [Option.map_some, h.received_eq hnames hother]
    by_cases hindex : other = index
    · subst hindex
      obtain rfl : param = param' := Option.some.inj (h.place.symm.trans hother)
      rw [if_pos rfl, if_pos rfl]
      rfl
    · rw [if_neg hindex, if_neg (Ne.symm hindex)]
      rfl

theorem place_of_admits (given : Nat) (hnames : (params.map CallParam.name).Nodup)
    (h : Admits params values key value index param) :
    place given (after params values) key value =
      .ok (after params (values ++ [(key, value)])) := by
  have hfill := fill_of_admits given hnames h
  have hnext : after params (values ++ [(key, value)]) =
      ⟨(after params (values ++ [(key, value)])).slots,
        (after params values).next + (positional [(key, value)]).length⟩ := by
    unfold after
    rw [positional_append, List.length_append]
  unfold place
  cases key with
  | none =>
    obtain rfl : index = (after params values).next := h.aims
    dsimp only
    rw [hfill, hnext]
    rfl
  | some name =>
    obtain rfl : param.name = name := h.aims
    dsimp only
    rw [findIdx?_after, findIdx?_name hnames h.place]
    dsimp only
    rw [hfill, hnext]
    rfl

theorem admits_of_place (h : place given (after params values) key value = .ok binding) :
    ∃ index param, Admits params values key value index param := by
  obtain ⟨index, hfill, htarget⟩ := filled_of_place h
  obtain ⟨param, hempty, htype, -⟩ := fill_eq_ok_iff.1 hfill
  rw [getElem?_after] at hempty
  obtain ⟨param', hparam, hslot⟩ := Option.map_eq_some_iff.1 hempty
  obtain ⟨rfl, hnone⟩ := Slot.mk.inj hslot
  refine ⟨index, param', hparam, ?_, List.head?_eq_none_iff.1 hnone, htype⟩
  cases key with
  | none => exact htarget
  | some name =>
    dsimp only at htarget
    rw [findIdx?_after] at htarget
    obtain ⟨hbound, hname, -⟩ := List.findIdx?_eq_some_iff_getElem.1 htarget
    obtain ⟨-, rfl⟩ := List.getElem?_eq_some_iff.1 hparam
    have hsame : params[index].name = name := of_decide_eq_true hname
    exact hsame

/-! ## Defaults -/

theorem bound_of_optional
    (h : ∀ slot ∈ slots, slot.supplied? = none → slot.param.optional = true) :
    Binding.bound slots = .ok (slots.filterMap fun slot =>
      slot.supplied?.map fun value => (slot.param.name, value)) := by
  induction slots with
  | nil => rfl
  | cons slot rest ih =>
    obtain ⟨hslot, hrest⟩ := List.forall_mem_cons.1 h
    unfold Binding.bound
    rw [List.filterMap_cons, ih hrest]
    cases hsupplied : slot.supplied? with
    | some value =>
      have hvalue : slot.value.or slot.param.default = some value := hsupplied
      rw [hvalue]
      rfl
    | none =>
      have hvalue : slot.value.or slot.param.default = none := hsupplied
      rw [hvalue]
      exact if_pos (hslot hsupplied)

theorem filterMap_after :
    ((after params values).slots.filterMap fun slot =>
      slot.supplied?.map fun value => (slot.param.name, value)) = bindings params values := by
  unfold after bindings
  rw [List.filterMap_map]
  rfl

/-- Empty slots are no obstacle exactly if their parameters may go without an argument. -/
theorem optional_after_iff :
    (∀ slot ∈ (after params values).slots, slot.supplied? = none → slot.param.optional = true) ↔
      ∀ index param, params[index]? = some param → received values index param = [] →
        param.default ≠ none ∨ param.optional = true := by
  constructor
  · intro h index param hparam hreceived
    have hslot : (after params values).slots[index]? = some ⟨param, none⟩ := by
      rw [getElem?_after, hparam, Option.map_some, hreceived]
      rfl
    by_cases hdefault : param.default = none
    · exact .inr (h _ (List.mem_iff_getElem?.2 ⟨index, hslot⟩) hdefault)
    · exact .inl hdefault
  · intro h slot hmem hnothing
    obtain ⟨index, hslot⟩ := List.mem_iff_getElem?.1 hmem
    rw [getElem?_after] at hslot
    obtain ⟨param, hparam, rfl⟩ := Option.map_eq_some_iff.1 hslot
    obtain ⟨hvalue, hdefault⟩ := Option.or_eq_none_iff.1 hnothing
    rcases h index param hparam (List.head?_eq_none_iff.1 hvalue) with hsome | hoptional
    · exact absurd hdefault hsome
    · exact hoptional

/-! ## Another order -/

/-- Where no parameter receives two values, it receives the same from the arguments in another order
that keeps those without a name in theirs. -/
theorem received_of_perm {values' : List (Option String × Value)} (hperm : values'.Perm values)
    (hplaces : positional values' = positional values)
    (honce : (received values index param).length ≤ 1) :
    received values' index param = received values index param := by
  have hreceived : (received values' index param).Perm (received values index param) := by
    unfold received
    rw [hplaces]
    exact ((hperm.filter _).map _).append_left _
  cases hvalues : received values index param with
  | nil =>
    rw [hvalues] at hreceived
    exact hreceived.eq_nil
  | cons value rest =>
    rw [hvalues] at honce hreceived
    obtain rfl : rest = [] := List.length_eq_zero_iff.1 (by rw [List.length_cons] at honce; omega)
    exact List.perm_singleton.1 hreceived

theorem Fits.of_perm {values' : List (Option String × Value)} (h : Fits params values)
    (hperm : values'.Perm values) (hplaces : positional values' = positional values) :
    Fits params values' := by
  have hsame : ∀ index param, params[index]? = some param →
      received values' index param = received values index param :=
    fun index param hparam => received_of_perm hperm hplaces (h.once index param hparam)
  refine ⟨⟨?_, ?_, ?_, ?_⟩, ?_⟩
  · rw [hplaces]
    exact h.few
  · exact fun name value hmem => h.known name value (hperm.mem_iff.1 hmem)
  · intro index param hparam
    rw [hsame index param hparam]
    exact h.once index param hparam
  · intro index param hparam
    rw [hsame index param hparam]
    exact h.typed index param hparam
  · intro index param hparam
    rw [hsame index param hparam]
    exact h.filled index param hparam

theorem Fits.bindings_eq {values' : List (Option String × Value)} (h : Fits params values)
    (hperm : values'.Perm values) (hplaces : positional values' = positional values) :
    bindings params values' = bindings params values := by
  unfold bindings
  refine List.filterMap_congr ?_
  rintro ⟨param, index⟩ hmem
  have hparam : params[index]? = some param := List.mem_zipIdx_iff_getElem?.1 hmem
  dsimp only
  rw [received_of_perm hperm hplaces (h.once index param hparam)]

end Binding

/-! ## Calls -/

namespace Run

open Binding

variable {σ : Type} {setup : Setup σ} {callee : String} {loc : Location} {params : List CallParam}
  {args : List (Arg Expr)} {done values : List (Option String × Value)} {s s' t : State σ}

/-- Arguments that can be placed behind those already placed are placed there. -/
theorem placeArgs_of_placeable (given : Nat) (hnames : (params.map CallParam.name).Nodup)
    (hvalues : evalArgs setup args s = (.ok values, s')) (h : Placeable params (done ++ values)) :
    placeArgs setup callee loc given (after params done) args s =
      (.ok (after params (done ++ values)), s') := by
  induction args generalizing done values s with
  | nil =>
    cases hvalues
    rw [List.append_nil]
    rfl
  | cons arg rest ih =>
    obtain ⟨value, others, s₁, hvalue, hothers, rfl⟩ := evalArgs_cons_eq_ok hvalues
    -- The first argument counts as placed from here on, so that the rest is placed behind it.
    rw [List.append_cons] at h ⊢
    have hfirst : Placeable params (done ++ [(arg.key, value)]) := h.of_append
    obtain ⟨index, param, hadmits⟩ := (placeable_concat_iff hnames hfirst.of_append).1 hfirst
    rw [placeArgs, bind_ok hvalue, place_of_admits given hnames hadmits]
    exact ih hothers h

/-- Only arguments that can be placed are placed. -/
theorem placeable_of_placeArgs {given : Nat} {binding : Binding}
    (hnames : (params.map CallParam.name).Nodup)
    (hvalues : evalArgs setup args s = (.ok values, s')) (hdone : Placeable params done)
    (h : placeArgs setup callee loc given (after params done) args s = (.ok binding, t)) :
    Placeable params (done ++ values) := by
  induction args generalizing done values s with
  | nil =>
    cases hvalues
    rwa [List.append_nil]
  | cons arg rest ih =>
    obtain ⟨value, others, s₁, hvalue, hothers, rfl⟩ := evalArgs_cons_eq_ok hvalues
    rw [placeArgs, bind_ok hvalue] at h
    obtain ⟨placed, s₃, hplaced, h⟩ := bind_eq_ok h
    obtain ⟨index, param, hadmits⟩ := admits_of_place (ofBinding_ok hplaced)
    rw [place_of_admits given hnames hadmits] at hplaced
    cases hplaced
    have hfirst := (placeable_concat_iff hnames hdone).2 ⟨index, param, hadmits⟩
    have hall := ih hothers hfirst h
    rwa [List.append_assoc] at hall

theorem bindArgs_of_fits (hnames : (params.map CallParam.name).Nodup)
    (hvalues : evalArgs setup args s = (.ok values, s')) (h : Fits params values) :
    bindArgs setup callee loc params args s = (.ok (bindings params values), s') := by
  have hall : Placeable params ([] ++ values) := h.toPlaceable
  unfold bindArgs
  rw [← after_nil, bind_ok (placeArgs_of_placeable args.length hnames hvalues hall),
    List.nil_append, bound_of_optional (optional_after_iff.2 h.filled), filterMap_after]
  rfl

theorem fits_of_bindArgs {bound : List (String × Value)}
    (hnames : (params.map CallParam.name).Nodup)
    (hvalues : evalArgs setup args s = (.ok values, s'))
    (h : bindArgs setup callee loc params args s = (.ok bound, t)) : Fits params values := by
  unfold bindArgs at h
  obtain ⟨binding, s₁, hplaced, h⟩ := bind_eq_ok h
  rw [← after_nil] at hplaced
  have hplaceable := placeable_of_placeArgs hnames hvalues (Placeable.nil params) hplaced
  rw [placeArgs_of_placeable args.length hnames hvalues hplaceable] at hplaced
  cases hplaced
  obtain ⟨-, hoptional⟩ := bound_ok (ofBinding_ok h)
  exact ⟨hplaceable, optional_after_iff.1 hoptional⟩

theorem bindArgs_eq_ok_iff (hnames : (params.map CallParam.name).Nodup)
    (hvalues : evalArgs setup args s = (.ok values, s')) (bound : List (String × Value)) :
    (bindArgs setup callee loc params args s).1 = .ok bound ↔
      Fits params values ∧ bound = bindings params values := by
  constructor
  · intro h
    have hfits : Fits params values := fits_of_bindArgs hnames hvalues (Prod.ext h rfl)
    rw [bindArgs_of_fits hnames hvalues hfits] at h
    exact ⟨hfits, (Except.ok.inj h).symm⟩
  · rintro ⟨hfits, rfl⟩
    rw [bindArgs_of_fits hnames hvalues hfits]

/-- Arguments are bound exactly if they fit. Where the parameters have different names and every
argument has a value, the call is accepted exactly if there are no more arguments without a name than
parameters, every name is that of a parameter, no parameter receives two values or one of another
type, and only parameters with a default and optional ones receive none. Then the parameters are
bound in their order to what they receive or else to their defaults, without those that have neither.
So a call with the same values in another order, which keeps those without a name in theirs, binds
the same or is refused as well. -/
theorem arguments_bound_iff_fit (setup : Setup σ) (callee : String) (loc : Location)
    (params : List CallParam) (args : List (Arg Expr)) (values : List (Option String × Value))
    (s s' : State σ) (hnames : (params.map CallParam.name).Nodup)
    (hvalues : evalArgs setup args s = (.ok values, s')) :
    ((∃ bound, (bindArgs setup callee loc params args s).1 = .ok bound) ↔ Fits params values) ∧
    (∀ bound, (bindArgs setup callee loc params args s).1 = .ok bound →
      bound = bindings params values) ∧
    ∀ args' values' t t', evalArgs setup args' t = (.ok values', t') → values'.Perm values →
      positional values' = positional values → ∀ bound,
        ((bindArgs setup callee loc params args' t).1 = .ok bound ↔
          (bindArgs setup callee loc params args s).1 = .ok bound) := by
  have hiff : ∀ bound, (bindArgs setup callee loc params args s).1 = .ok bound ↔
      Fits params values ∧ bound = bindings params values :=
    bindArgs_eq_ok_iff hnames hvalues
  refine ⟨⟨?_, fun h => ⟨_, (hiff _).2 ⟨h, rfl⟩⟩⟩, fun bound h => ((hiff bound).1 h).2, ?_⟩
  · rintro ⟨bound, h⟩
    exact ((hiff bound).1 h).1
  · intro args' values' t t' hvalues' hperm hplaces bound
    rw [hiff, bindArgs_eq_ok_iff hnames hvalues']
    constructor
    · rintro ⟨hfits, rfl⟩
      exact ⟨hfits.of_perm hperm.symm hplaces.symm,
        (hfits.bindings_eq hperm.symm hplaces.symm).symm⟩
    · rintro ⟨hfits, rfl⟩
      exact ⟨hfits.of_perm hperm hplaces, (hfits.bindings_eq hperm hplaces).symm⟩

/-- Three parameters, of which the second has a default and the third may be omitted, are called with
the first by its place and the second by its name, in both orders. -/
theorem arguments_bound_in_both_orders :
    let context : Context Unit :=
      { registry := ⟨Dict.empty, Dict.empty⟩
        probe :=
          { pose := fun world => (.error (.unavailable ""), world)
            blockAt := fun _ world => (.ok none, world)
            findBlock := fun _ _ _ world => (.ok none, world) } }
    let setup : Setup Unit := ⟨context, {}⟩
    let params : List CallParam :=
      [⟨"steps", .int, none, false⟩, ⟨"name", .string, some (.text "there"), true⟩,
        ⟨"back", .bool, none, true⟩]
    let steps : Arg Expr := ⟨none, .int 3 default⟩
    let name : Arg Expr := ⟨some "name", .text "here" default⟩
    let answer (args : List (Arg Expr)) :=
      (bindArgs setup "walk" default params args (State.initial default ())).1
    Fits params [(some "name", .text "here"), (none, .int 3)] ∧
      answer [steps, name] = .ok [("steps", .int 3), ("name", .text "here")] := by
  intro context setup params steps name answer
  obtain ⟨hfits, -, horder⟩ := arguments_bound_iff_fit setup "walk" default params [name, steps]
    [(some "name", .text "here"), (none, .int 3)] (State.initial default ())
    (State.initial default ()) (by decide) rfl
  have hbound : answer [name, steps] = .ok [("steps", .int 3), ("name", .text "here")] := rfl
  exact ⟨hfits.1 ⟨_, hbound⟩, (horder [steps, name] _ _ _ rfl (.swap ..) rfl _).2 hbound⟩

end Run

end BlockScript
