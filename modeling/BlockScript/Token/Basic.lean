import BlockScript.Space.Selector
import BlockScript.Token.Location

/-!
# Tokens

A script is a list of located tokens. An axis word such as `f`, `B3` or `r-2` is a token of its own
kind and never a name; it keeps its spelling, because an argument key may be spelled like one.
-/
namespace BlockScript
set_option autoImplicit false

inductive Keyword where
  | macroWord
  | ifWord
  | elseWord
  | repeatWord
  | whileWord
  | assertWord
  | letWord
  | trueWord
  | falseWord
deriving DecidableEq, Inhabited

namespace Keyword

def all : List Keyword :=
  [macroWord, ifWord, elseWord, repeatWord, whileWord, assertWord, letWord, trueWord, falseWord]

def spelling : Keyword → String
  | macroWord => "macro"
  | ifWord => "if"
  | elseWord => "else"
  | repeatWord => "repeat"
  | whileWord => "while"
  | assertWord => "assert"
  | letWord => "let"
  | trueWord => "true"
  | falseWord => "false"

def ofWord? (word : String) : Option Keyword := all.find? fun keyword => keyword.spelling = word

end Keyword

inductive Symbol where
  | leftParen
  | rightParen
  | leftBrace
  | rightBrace
  | comma
  | colon
  | semicolon
  | assign
  | equal
  | notEqual
  | less
  | lessEqual
  | greater
  | greaterEqual
  | both
  | either
  | bang
  | plus
  | minus
  | star
  | slash
  | caret
  | underscore
deriving DecidableEq, Inhabited

def Symbol.spelling : Symbol → String
  | leftParen => "("
  | rightParen => ")"
  | leftBrace => "\x7b"
  | rightBrace => "\x7d"
  | comma => ","
  | colon => ":"
  | semicolon => ";"
  | assign => "="
  | equal => "=="
  | notEqual => "!="
  | less => "<"
  | lessEqual => "<="
  | greater => ">"
  | greaterEqual => ">="
  | both => "&&"
  | either => "||"
  | bang => "!"
  | plus => "+"
  | minus => "-"
  | star => "*"
  | slash => "/"
  | caret => "^"
  | underscore => "_"

inductive Token where
  | name (spelling : String)
  | int (value : Int64)
  | text (value : String)
  | axis (axis : Axis) (magnitude : Option Int32) (spelling : String)
  | keyword (keyword : Keyword)
  | symbol (symbol : Symbol)
deriving DecidableEq, Inhabited

/-- How an error message speaks of a token. -/
def Token.describe : Token → String
  | name spelling => "identifier '" ++ spelling ++ "'"
  | int value => "number " ++ toString value.toInt
  | text _ => "string"
  | axis _ _ spelling => "selector '" ++ spelling ++ "'"
  | keyword k => "'" ++ k.spelling ++ "'"
  | symbol s => "'" ++ s.spelling ++ "'"

/-- What stands at a place: a token, or nothing at the end of the text. -/
def Token.describeNext : Option Token → String
  | some token => token.describe
  | none => "end of input"

structure Located where
  token : Token
  loc : Location
deriving DecidableEq, Inhabited

/-- The tokens of a text and the place where the text ends. -/
structure TokenList where
  tokens : List Located
  stop : Location
deriving DecidableEq, Inhabited

end BlockScript
