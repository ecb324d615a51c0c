import BlockScript.Command.Registry
import BlockScript.Proofs.Token.Lossless

/-!
# Names that can be registered and names that can be called

A script calls a command by an identifier, so a name is of use to the registry only if its text is
read as that one identifier. The two notions are compared for every text. They differ in one family:
a selector term with an underscore behind it is taken by the registry, while a script reads the term
and the shorthand for one block down.
-/
namespace BlockScript
set_option autoImplicit false

/-- A selector term with an underscore behind it. -/
def IsLoweredTerm (text : String) : Prop :=
  ∃ term, Axis.isWord term = true ∧ text.toList = term ++ ['_']

/-! ## Identifiers -/

/-- What the registry asks of a name, apart from the names that it knows. -/
def IsCallable (name : String) : Prop :=
  isIdentifier name = true ∧ Keyword.ofWord? name = none ∧ Axis.isWord name.toList = false

theorem isIdentifier_iff (name : String) :
    isIdentifier name = true ↔
      ∃ c cs, name.toList = c :: cs ∧ name ≠ "_" ∧ Lexer.isWordStart c = true ∧
        cs.all Lexer.isWordPart = true := by
  unfold isIdentifier
  split
  · next hnil => simp [hnil]
  · next c cs hcons => simp [hcons, and_assoc]

/-- A text is read as the identifier that it spells exactly if it is a callable name and no lowered
term. -/
theorem readsAs_name_iff (name : String) :
    ReadsAs name [.name name] ↔ IsCallable name ∧ ¬ IsLoweredTerm name := by
  rw [readsAs_name]
  constructor
  · intro hspelling
    obtain ⟨c, cs, hcons, hname, h⟩ := hspelling.name_inv
    have hne : name ≠ "_" := by
      rintro rfl
      exact h.not_underscore hcons.symm
    refine ⟨⟨(isIdentifier_iff name).2 ⟨c, cs, hcons, hne, h.start, ?_⟩, ?_, ?_⟩, ?_⟩
    · exact List.all_eq_true.2 h.part
    · rw [hname]
      exact h.not_keyword
    · rw [hcons, Axis.isWord, h.not_term]
      rfl
    · rintro ⟨term, hterm, hlowered⟩
      exact h.not_lowered term hterm (hcons.symm.trans hlowered)
  · rintro ⟨⟨hidentifier, hkeyword, haxis⟩, hlowered⟩
    obtain ⟨c, cs, hcons, hne, hstart, hparts⟩ := (isIdentifier_iff name).1 hidentifier
    have hname : name = String.ofList (c :: cs) := by rw [← hcons, String.ofList_toList]
    have hword : IsNameWord c cs :=
      { start := hstart
        part := List.all_eq_true.1 hparts
        not_underscore := fun heq => hne (by rw [hname, heq])
        not_keyword := hname ▸ hkeyword
        not_term := by
          rw [hcons] at haxis
          simpa [Axis.isWord] using haxis
        not_lowered := fun term hterm heq => hlowered ⟨term, hterm, hcons.trans heq⟩ }
    rw [hname, String.toList_ofList]
    exact .name hword

/-! ## The registry -/

/-- No keyword and no built-in form ends in an underscore. -/
theorem getLast?_ne_underscore {name : String}
    (h : (∃ keyword : Keyword, keyword.spelling = name) ∨ name ∈ builtinNames) :
    name.toList.getLast? ≠ some '_' := by
  rcases h with ⟨keyword, rfl⟩ | hbuiltin
  · cases keyword <;> decide
  · have hall : ∀ other ∈ builtinNames, other.toList.getLast? ≠ some '_' := by decide
    exact hall name hbuiltin

namespace IsLoweredTerm

variable {name : String}

theorem getLast? (h : IsLoweredTerm name) : name.toList.getLast? = some '_' := by
  obtain ⟨term, -, hname⟩ := h
  rw [hname, List.getLast?_concat]

theorem not_builtin (h : IsLoweredTerm name) : name ∉ builtinNames :=
  fun hbuiltin => getLast?_ne_underscore (.inr hbuiltin) h.getLast?

theorem isCallable (h : IsLoweredTerm name) : IsCallable name := by
  have hkeyword : Keyword.ofWord? name = none := by
    rw [Keyword.ofWord?, List.find?_eq_none]
    intro keyword _ hspelling
    exact getLast?_ne_underscore (.inl ⟨keyword, of_decide_eq_true hspelling⟩) h.getLast?
  obtain ⟨term, hterm, hname⟩ := h
  -- The term is an axis letter and digits.
  obtain ⟨c, digits, rfl⟩ : ∃ c digits, term = c :: digits := by
    cases term with
    | nil => cases hterm
    | cons c digits => exact ⟨c, digits, rfl⟩
  obtain ⟨axis, haxis, hdigits⟩ : ∃ axis, Axis.ofLetter? c = some axis ∧
      digits.all Text.isDigit = true := by
    unfold Axis.isWord Axis.ofWord? at hterm
    cases haxis : Axis.ofLetter? c with
    | none => simp [haxis] at hterm
    | some axis =>
      refine ⟨axis, rfl, ?_⟩
      by_contra hnot
      simp [haxis, hnot] at hterm
  refine ⟨(isIdentifier_iff name).2 ⟨c, digits ++ ['_'], hname, ?_, ?_, ?_⟩, hkeyword, ?_⟩
  · rintro rfl
    have hlength := congrArg List.length hname
    simp at hlength
  · exact Lexer.isWordStart_of_axis haxis
  · rw [List.all_append, Bool.and_eq_true]
    refine ⟨List.all_eq_true.2 fun d hd => ?_, by decide⟩
    exact Lexer.isWordPart_of_isDigit (List.all_eq_true.1 hdigits d hd)
  · rw [hname, List.cons_append, Axis.isWord, Axis.ofWord?, haxis]
    simp [show Text.isDigit '_' = false by decide]

end IsLoweredTerm

namespace Registry

variable {α β : Type}

theorem addCommand_empty_iff_callable (name : String) (handler : α) :
    (∃ registry, (empty : Registry α β).addCommand name handler = .ok registry) ↔
      IsCallable name ∧ name ∉ builtinNames := by
  unfold addCommand checkName IsCallable
  cases hidentifier : isIdentifier name with
  | false => simp
  | true =>
    cases hkeyword : Keyword.ofWord? name with
    | some keyword => simp
    | none =>
      cases haxis : Axis.isWord name.toList with
      | true => simp
      | false =>
        by_cases hbuiltin : name ∈ builtinNames
        · simp [hbuiltin]
        · simp [hbuiltin, empty, Dict.contains]

/-- An empty registry takes a name for a command exactly if a script reads the name as an identifier
and has no form of its own under it, or if the name is a selector term with an underscore behind it.
No name is of both kinds. -/
theorem addCommand_empty_iff (name : String) (handler : α) :
    ((∃ registry, (empty : Registry α β).addCommand name handler = .ok registry) ↔
      (ReadsAs name [.name name] ∧ name ∉ builtinNames) ∨ IsLoweredTerm name) ∧
    ¬ (ReadsAs name [.name name] ∧ IsLoweredTerm name) := by
  rw [addCommand_empty_iff_callable, readsAs_name_iff]
  refine ⟨⟨fun ⟨hcallable, hbuiltin⟩ => ?_, fun h => ?_⟩, fun h => h.1.2 h.2⟩
  · by_cases hlowered : IsLoweredTerm name
    · exact .inr hlowered
    · exact .inl ⟨⟨hcallable, hlowered⟩, hbuiltin⟩
  · rcases h with ⟨⟨hcallable, -⟩, hbuiltin⟩ | hlowered
    · exact ⟨hcallable, hbuiltin⟩
    · exact ⟨hlowered.isCallable, hlowered.not_builtin⟩

/-- A command can be registered as `f_`, although a script reads this as one block forward and one
down. -/
theorem addCommand_forward_down :
    (∃ registry, (empty : Registry Unit Unit).addCommand "f_" () = .ok registry) ∧
      ReadsAs "f_" [.axis .forward none "f", .symbol .underscore] ∧
      ¬ ReadsAs "f_" [.name "f_"] := by
  have htokens : tokenize "f_" =
      .ok ⟨[⟨.axis .forward none "f", ⟨1, 1⟩⟩, ⟨.symbol .underscore, ⟨1, 2⟩⟩], ⟨1, 3⟩⟩ := by
    decide +kernel
  refine ⟨⟨⟨Dict.empty.insert "f_" (), Dict.empty⟩, by rfl⟩, ⟨_, htokens, rfl⟩, ?_⟩
  rintro ⟨list, hlist, hname⟩
  rw [htokens] at hlist
  cases hlist
  cases hname

end Registry

end BlockScript
