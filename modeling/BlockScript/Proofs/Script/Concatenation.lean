import BlockScript.Proofs.Script.Relocation
import BlockScript.Proofs.Script.StatementCompleteness

/-!
# Scripts one behind the other

Two scripts that are read may be put one behind the other, with a new line between them. Whatever the
first one ends with, a name or a comment without its newline, ends there; and nothing that begins a
statement goes on with the statement before. The statements of the second script stand further down.
Only a macro that both declare is refused, where the second declares it.
-/
namespace BlockScript
set_option autoImplicit false

/-- The same column some lines further down. -/
def Location.down (lines : Nat) (loc : Location) : Location := ⟨loc.line + lines, loc.column⟩

namespace Location

theorem down_next (lines : Nat) (loc : Location) (c : Char) :
    (loc.next c).down lines = (loc.down lines).next c := by
  unfold next
  split
  · rw [down, down, Nat.add_right_comm]
  · rfl

/-- The line behind a text is the first line, as many lines further down as the text has. -/
theorem next_newline (text : List Char) :
    (start.after text).next '\n' = start.down (1 + text.count '\n') := by
  have hline : 1 + text.count '\n' + 1 = 1 + (1 + text.count '\n') := by omega
  rw [after_start]
  exact congrArg (Location.mk · 1) hline

end Location

/-! ## Tokens -/

theorem Lexer.scan_down (lines : Nat) (loc : Location) (input : List Char) :
    scan (loc.down lines) input =
      relocated (.down lines) (TokenList.relocate (.down lines)) (scan loc input) := by
  have hnext : ∀ a b : Location, id a = b.down lines →
      ∀ c, id (a.next c) = (b.next c).down lines := by
    rintro a b rfl c
    exact (Location.down_next lines b c).symm
  rw [← relocated_scan hnext (rfl : id (loc.down lines) = loc.down lines) input]
  cases scan (loc.down lines) input with
  | error error => rfl
  | ok list => exact congrArg (fun ts => Except.ok (TokenList.mk ts list.stop)) (List.map_id _).symm

/-- The tokens of two texts, the second of them on lines of its own. -/
theorem tokenize_concat {a b : String} {front back : TokenList} (ha : tokenize a = .ok front)
    (hb : tokenize b = .ok back) :
    tokenize (a ++ "\n" ++ b) =
      .ok ((back.relocate (.down (1 + a.toList.count '\n'))).behind front.tokens) := by
  have htext : (a ++ "\n" ++ b).toList = a.toList ++ '\n' :: b.toList := by
    rw [String.toList_append, String.toList_append, List.append_assoc]
    rfl
  obtain ⟨cuts, hcuts⟩ := Lexer.Reads.of_scan ha
  have hfront : Lexer.Cut.texts cuts = a.toList := by
    rw [← hcuts.split, List.append_nil]
  have htokens : front.tokens = Lexer.Cut.tokens .start cuts := by
    have hscan := hcuts.scan .start
    rw [show Lexer.scan .start a.toList = .ok front from ha, Lexer.scan_nil] at hscan
    rw [Except.ok.inj hscan]
    exact List.append_nil _
  have hreads := hcuts.before_blank (d := '\n') rfl (fun _ => rfl) b.toList
  have hnewline : Lexer.lexeme '\n' b.toList = .ok ⟨none, ['\n'], b.toList⟩ := if_pos rfl
  have hback := Lexer.scan_down (1 + a.toList.count '\n') .start b.toList
  rw [show Lexer.scan .start b.toList = .ok back from hb, ← Location.next_newline] at hback
  rw [hfront] at hreads
  rw [tokenize, htext, hreads.scan, hfront, Lexer.scan_of_lexeme hnewline, Location.after_cons,
    Location.after_nil, hback, htokens]
  rfl

namespace Grammar

open BlockScript.Parser BlockScript.Script

/-! ## Statements -/

theorem Writes.append {ts us : List Located} {first second : List Statement}
    (h : Writes ts (.list first)) (h' : Writes us (.list second)) :
    Writes (ts ++ us) (.list (first ++ second)) := by
  generalize hshape : Shape.list first = shape at h
  induction h generalizing first with
  | nil =>
    cases hshape
    exact h'
  | cons h hrest ih ihrest =>
    cases hshape
    rw [List.append_assoc]
    exact .cons h (ihrest rfl)
  | _ => cases hshape

theorem macroNames_append (first second : List Statement) :
    macroNames (first ++ second) = macroNames first ++ macroNames second := by
  rw [macroNames, List.filterMap_append, List.map_append]
  rfl

variable {ts us : List Located}

/-- One statement is read, and declared; the others come after it. -/
theorem statements_cons {first : Statement} {others : List Statement}
    (h : Writes ts (.statement first)) (hothers : Writes us (.list others)) {n : Nat}
    (hn : (ts ++ us).length ≤ n) (seen : List String) (stop : Location) :
    ∃ k, us.length ≤ k ∧ statements n seen ⟨ts ++ us, stop⟩ =
      (do
        let seen ← declare first seen
        return first :: (← statements k seen) : Parser (List Statement)) ⟨us, stop⟩ := by
  have hnext : NoElse (us ++ []) := hothers.noElse rfl
  obtain ⟨t, more, rfl, hbrace, -⟩ := h.head
  rw [List.cons_append, List.length_cons, List.length_append] at hn
  obtain ⟨k, rfl⟩ : ∃ k, n = k + 1 := ⟨n - 1, by omega⟩
  rw [List.append_nil] at hnext
  have hread := (h.complete k (by rw [List.length_cons]; omega) us stop hnext).1
  refine ⟨k, by omega, ?_⟩
  rw [statements_succ]
  have hopen : ¬ closes (t :: more ++ us) = true := fun heq => hbrace (of_decide_eq_true heq)
  exact (if_neg hopen).trans (bind_ok hread)

/-- A name that has been declared before is refused at its declaration. -/
theorem statements_redeclared {good others : List Statement} {bad : Statement} {decl : Macro}
    (h : Writes ts (.list (good ++ bad :: others))) (hdecl : bad.macro? = some decl) {n : Nat}
    (hn : ts.length ≤ n) {seen : List String} (hseen : (macroNames good ++ seen).Nodup)
    (hagain : decl.name ∈ macroNames good ++ seen) (stop : Location) :
    statements n seen ⟨ts, stop⟩ = .error ⟨decl.loc, .macroRedeclared decl.name⟩ := by
  induction good generalizing ts n seen with
  | nil =>
    generalize hshape : Shape.list ([] ++ bad :: others) = shape at h
    cases h with
    | cons hbad hothers =>
      cases hshape
      obtain ⟨k, -, hread⟩ := statements_cons hbad hothers hn seen stop
      rw [hread]
      refine bind_error ?_
      rw [declare, hdecl]
      exact congrFun (if_pos hagain) _
    | _ => cases hshape
  | cons first good ih =>
    generalize hshape : Shape.list (first :: good ++ bad :: others) = shape at h
    cases h with
    | cons hfirst hothers =>
      cases hshape
      obtain ⟨k, hk, hread⟩ := statements_cons hfirst hothers hn seen stop
      rw [macroNames_cons, List.append_assoc] at hseen hagain
      have hswap := List.perm_append_comm_assoc (macroNames [first]) (macroNames good) seen
      have hothersSeen := hswap.nodup_iff.1 hseen
      have hfirstSeen := (List.nodup_append.1 hothersSeen).2.1
      have hbefore := (List.nodup_append.1 hfirstSeen).2.1
      rw [hread]
      refine (bind_ok ((declare_eq_ok hbefore).2 ⟨rfl, hfirstSeen, rfl⟩)).trans ?_
      exact bind_error (ih hothers hk hothersSeen (hswap.mem_iff.1 hagain))
    | _ => cases hshape

/-- The first declaration that a condition picks splits the statements. -/
theorem find?_macro_split {list : List Statement} {p : Macro → Bool} {decl : Macro}
    (h : (list.filterMap Statement.macro?).find? p = some decl) :
    p decl = true ∧ ∃ good bad others, list = good ++ bad :: others ∧ bad.macro? = some decl ∧
      ∀ other ∈ good.filterMap Statement.macro?, p other = false := by
  obtain ⟨hdecl, earlier, later, hsplit, hearlier⟩ := List.find?_eq_some_iff_append.1 h
  obtain ⟨good, rest, rfl, hgood, hrest⟩ := List.filterMap_eq_append_iff.1 hsplit
  obtain ⟨plain, bad, others, rfl, hplain, hbad, -⟩ := List.filterMap_eq_cons_iff.1 hrest
  refine ⟨hdecl, good ++ plain, bad, others, (List.append_assoc ..).symm, hbad, ?_⟩
  intro other hother
  rw [List.filterMap_append, List.filterMap_eq_nil_iff.2 hplain, List.append_nil, hgood] at hother
  simpa using hearlier other hother

/-- Of two programs one behind the other the second may not declare what the first does. -/
theorem program_redeclared {first second : Program} (h : Derives ts first)
    (h' : Derives us second) {decl : Macro}
    (hdecl : (second.filterMap Statement.macro?).find? (·.name ∈ macroNames first) = some decl)
    (stop : Location) :
    program ⟨ts ++ us, stop⟩ = .error ⟨decl.loc, .macroRedeclared decl.name⟩ := by
  obtain ⟨hmem, good, bad, others, rfl, hbad, hgood⟩ := find?_macro_split hdecl
  have hagain : decl.name ∈ macroNames (first ++ good) ++ [] := by
    rw [List.append_nil, macroNames_append]
    exact List.mem_append_left _ (of_decide_eq_true hmem)
  have hnames : (macroNames (first ++ good) ++ []).Nodup := by
    have hsecond := h'.2
    rw [macroNames_append] at hsecond
    rw [List.append_nil, macroNames_append]
    refine List.nodup_append.2 ⟨h.2, (List.nodup_append.1 hsecond).1, ?_⟩
    rintro name hfirst _ hname rfl
    obtain ⟨other, hother, rfl⟩ := List.mem_map.1 hname
    exact of_decide_eq_false (hgood other hother) hfirst
  have hwrites := h.1.append h'.1
  rw [← List.append_assoc] at hwrites
  refine (bind_ok (p := remaining) rfl).trans (bind_error ?_)
  exact statements_redeclared hwrites hbad (Nat.le_refl _) hnames hagain stop

end Grammar

/-! ## Declarations with other places -/

def Macro.relocate (f : Location → Location) (m : Macro) : Macro :=
  { m with body := Relocated.body f m.body, loc := f m.loc }

open Grammar (macroNames)

variable {f : Location → Location}

theorem macro?_relocate (made : Statement) :
    (Relocated.statement f made).macro? = made.macro?.map (Macro.relocate f) := by
  cases made <;> rfl

theorem filterMap_macro?_relocate (program : Program) :
    (program.relocate f).filterMap Statement.macro? =
      (program.filterMap Statement.macro?).map (Macro.relocate f) := by
  induction program with
  | nil => rfl
  | cons first rest ih =>
    change (Relocated.statement f first :: Program.relocate f rest).filterMap _ = _
    rw [List.filterMap_cons, List.filterMap_cons, macro?_relocate, ih]
    cases first.macro? <;> rfl

theorem macroNames_relocate (program : Program) :
    macroNames (program.relocate f) = macroNames program := by
  rw [macroNames, filterMap_macro?_relocate, List.map_map]
  rfl

/-! ## Texts -/

/-- Scripts concatenate. If both texts are scripts, then so is the first with a new line and the
second behind it, unless some macro is declared on the top level of both: its statements are those of
the first and then those of the second, these as many lines further down as the first text has. If
there are such macros, the first declaration of one of them in the second text is refused, where it
stands then. -/
theorem parse_concat {a b : String} {p q : Program} (ha : parse a = .ok p) (hb : parse b = .ok q) :
    let lines := 1 + a.toList.count '\n'
    ((∀ name ∈ macroNames q, name ∉ macroNames p) →
        parse (a ++ "\n" ++ b) = .ok (p ++ q.relocate (.down lines))) ∧
      ∀ decl, (q.filterMap Statement.macro?).find? (·.name ∈ macroNames p) = some decl →
        parse (a ++ "\n" ++ b) =
          .error ⟨decl.loc.down lines, .macroRedeclared decl.name⟩ := by
  intro lines
  obtain ⟨front, hfront, hp⟩ := Grammar.parse_eq_ok.1 ha
  obtain ⟨back, hback, hq⟩ := Grammar.parse_eq_ok.1 hb
  have htokens := tokenize_concat hfront hback
  have hq' : Grammar.Derives (back.relocate (.down lines)).tokens (q.relocate (.down lines)) := by
    have hmoved := Script.program_moves (f := .down lines) back
    rw [Grammar.program_eq_ok.2 ⟨hq, rfl⟩] at hmoved
    exact (Grammar.program_eq_ok.1 hmoved).1
  constructor
  · intro hdisjoint
    refine Grammar.parse_eq_ok.2 ⟨_, htokens, hp.1.append hq'.1, ?_⟩
    rw [Grammar.macroNames_append, macroNames_relocate]
    refine List.nodup_append.2 ⟨hp.2, hq.2, ?_⟩
    rintro name hname _ hname' rfl
    exact hdisjoint name hname' hname
  · intro decl hdecl
    have hmoved : ((q.relocate (.down lines)).filterMap Statement.macro?).find?
        (·.name ∈ macroNames p) = some (decl.relocate (.down lines)) := by
      rw [filterMap_macro?_relocate, List.find?_map]
      exact congrArg (Option.map _) hdecl
    have hrefused := Grammar.program_redeclared hp hq' hmoved (back.stop.down lines)
    rw [parse, Parser.runOn, htokens]
    change (Script.program ⟨front.tokens ++ (back.relocate (.down lines)).tokens,
      back.stop.down lines⟩ >>= fun made => pure made.1 : Except SyntaxError Program) = _
    rw [hrefused]
    rfl

/-- A comment without its newline ends the first text. The first text behind itself declares a macro
again, two lines further down. -/
theorem parse_concat_of_comment :
    let a := "macro m() \x7b\x7d\nm(); // end"
    let b := "say(f\n+1);"
    ∃ p q, parse a = .ok p ∧ parse b = .ok q ∧
      parse (a ++ "\n" ++ b) = .ok (p ++ q.relocate (.down 2)) ∧
      parse (a ++ "\n" ++ a) = .error ⟨⟨3, 1⟩, .macroRedeclared "m"⟩ := by
  intro a b
  have hdecls : (parse a).toOption.map (fun p => (p.filterMap Statement.macro?).map
      fun m => (m.name, m.loc)) = some [("m", ⟨1, 1⟩)] := by decide +kernel
  have hnone : (parse b).toOption.map macroNames = some [] := by decide +kernel
  have hlines : 1 + a.toList.count '\n' = 2 := by decide
  cases hp : parse a with
  | error error =>
    rw [hp] at hdecls
    cases hdecls
  | ok p =>
    cases hq : parse b with
    | error error =>
      rw [hq] at hnone
      cases hnone
    | ok q =>
      rw [hp] at hdecls
      rw [hq] at hnone
      obtain ⟨hconcat, -⟩ := parse_concat hp hq
      obtain ⟨-, hagain⟩ := parse_concat hp hp
      rw [hlines] at hconcat hagain
      obtain ⟨m, hmacros, hm⟩ := List.map_eq_singleton_iff.1 (Option.some.inj hdecls)
      obtain ⟨hname, hloc⟩ := Prod.mk.inj hm
      refine ⟨p, q, rfl, rfl, hconcat fun name hmem => ?_, ?_⟩
      · rw [Option.some.inj hnone] at hmem
        cases hmem
      · have hfind : (p.filterMap Statement.macro?).find? (·.name ∈ macroNames p) = some m := by
          rw [macroNames, hmacros]
          exact List.find?_cons_of_pos (decide_eq_true (List.mem_singleton_self m.name))
        rw [hagain m hfind, hname, hloc]
        rfl

end BlockScript
