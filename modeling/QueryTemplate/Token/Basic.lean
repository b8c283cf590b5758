import QueryTemplate.Number.DecimalText

set_option autoImplicit false

/- Tokens of templates: raw text, and what stands inside the code regions. -/

namespace QueryTemplate

/-- Tokens that carry nothing but themselves. -/
inductive Mark
  | outputOpen
  | outputClose
  | tagOpen
  | tagClose
  | ifWord
  | elifWord
  | elseWord
  | endifWord
  | forWord
  | inWord
  | endforWord
  | setWord
  | andWord
  | orWord
  | notWord
  | trueWord
  | falseWord
  | nullWord
  | eq
  | notEq
  | less
  | lessEq
  | greater
  | greaterEq
  | assign
  | pipe
  | dot
  | comma
  | parenOpen
  | parenClose
deriving DecidableEq, Repr, Inhabited

inductive Token
  | text (content : String)
  | ident (name : String)
  | string (value : String)
  | int (value : Int)
  | float (value : Binary64)
  | mark (value : Mark)
deriving DecidableEq, Repr, Inhabited

namespace Mark

/-- The words of the language, which are not identifiers. -/
def words : List (String × Mark) := [
  ("if", ifWord), ("elif", elifWord), ("else", elseWord), ("endif", endifWord),
  ("for", forWord), ("in", inWord), ("endfor", endforWord), ("set", setWord),
  ("and", andWord), ("or", orWord), ("not", notWord),
  ("true", trueWord), ("false", falseWord), ("none", nullWord), ("null", nullWord)]

/-- How messages name a mark: delimiters by their spelling, operators and constants by a name. -/
def describe : Mark → String
  | outputOpen => "'\x7b\x7b'"
  | outputClose => "'\x7d\x7d'"
  | tagOpen => "'\x7b%'"
  | tagClose => "'%\x7d'"
  | ifWord => "keyword 'if'"
  | elifWord => "keyword 'elif'"
  | elseWord => "keyword 'else'"
  | endifWord => "keyword 'endif'"
  | forWord => "keyword 'for'"
  | inWord => "keyword 'in'"
  | endforWord => "keyword 'endfor'"
  | setWord => "keyword 'set'"
  | andWord => "And"
  | orWord => "Or"
  | notWord => "Not"
  | trueWord => "True"
  | falseWord => "False"
  | nullWord => "Null"
  | eq => "Eq"
  | notEq => "NotEq"
  | less => "Less"
  | lessEq => "LessEq"
  | greater => "Greater"
  | greaterEq => "GreaterEq"
  | assign => "'='"
  | pipe => "'|'"
  | dot => "'.'"
  | comma => "','"
  | parenOpen => "'('"
  | parenClose => "')'"

end Mark

namespace Token

def describe : Token → String
  | text _ => "template text"
  | ident name => "identifier '" ++ name ++ "'"
  | string value => "string \"" ++ value ++ "\""
  | int value => "number " ++ String.ofList (intText value)
  | float value => "number " ++ String.ofList value.displayText
  | mark value => value.describe

/-- A word of letters, digits and underscores is an identifier unless the language reserves it. -/
def ofWord (word : String) : Token :=
  match Mark.words.lookup word with
  | some reserved => .mark reserved
  | none => .ident word

end Token

end QueryTemplate
