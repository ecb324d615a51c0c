import BlockScript.Token.Basic

/-!
# Syntax errors

Why a text is no script, and where. All wording is in `SyntaxFault.message`.
-/
namespace BlockScript
set_option autoImplicit false

inductive SyntaxFault where
  | unterminatedComment
  | unterminatedText
  | unexpectedCharacter (c : Char)
  | invalidNumber (digits : String)
  | numberOutOfRange (digits : String)
  | magnitudeOutOfRange (digits : String)
  /-- Something of the grammar was due and another token, or the end, stood there. -/
  | expected (what : String) (found : Option Token)
  /-- A selector term stood where a name was due. -/
  | selectorAsName (spelling : String) (what : String)
  | expectedCallOrAssign (name : String) (found : Option Token)
  | unexpected (found : Option Token)
  | unexpectedBrace
  | unclosedBrace
  | elseWithoutIf
  | macroRedeclared (name : String)
  | unknownParameterType (name : String)
  | duplicateParameter (name : String)
  | chainedComparison
  | positionalCriterion
  | afterSelector (found : Option Token)
deriving DecidableEq, Inhabited

def SyntaxFault.message : SyntaxFault → String
  | unterminatedComment => "unterminated block comment"
  | unterminatedText => "unterminated string"
  | unexpectedCharacter c => "unexpected character '" ++ c.toString ++ "'"
  | invalidNumber digits => "invalid number '" ++ digits ++ "'"
  | numberOutOfRange digits => "number '" ++ digits ++ "' is out of range"
  | magnitudeOutOfRange digits => "selector magnitude '" ++ digits ++ "' is out of range"
  | expected what found => "expected " ++ what ++ ", found " ++ Token.describeNext found
  | selectorAsName spelling what =>
    "'" ++ spelling ++ "' is a selector term and cannot be used as " ++ what
  | expectedCallOrAssign name found =>
    "expected '(' or '=' after '" ++ name ++ "', found " ++ Token.describeNext found
  | unexpected found => "unexpected " ++ Token.describeNext found
  | unexpectedBrace => "unexpected '\x7d'"
  | unclosedBrace => "unclosed '\x7b'"
  | elseWithoutIf => "'else' without matching 'if'"
  | macroRedeclared name => "macro '" ++ name ++ "' is already declared in this scope"
  | unknownParameterType name =>
    "unknown parameter type '" ++ name ++ "' (expected int, bool or string)"
  | duplicateParameter name => "duplicate parameter '" ++ name ++ "'"
  | chainedComparison => "comparison operators cannot be chained"
  | positionalCriterion => "block(...) only takes named arguments such as name: \"stone\""
  | afterSelector found => "unexpected " ++ Token.describeNext found ++ " after selector"

structure SyntaxError where
  loc : Location
  fault : SyntaxFault
deriving DecidableEq, Inhabited

namespace SyntaxError

def message (error : SyntaxError) : String := error.fault.message

def render (error : SyntaxError) : String :=
  "Syntax error at line " ++ toString error.loc.line ++ ", column " ++ toString error.loc.column ++
    ": " ++ error.message

end SyntaxError

end BlockScript
