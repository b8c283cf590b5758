import QueryTemplate.Expr.Basic

set_option autoImplicit false

/- Templates as trees: texts, outputs, control flow and the tags that extensions add. -/

namespace QueryTemplate

inductive Arg
  | positional (value : Expr)
  | keyword (key : String) (keySpan : Span) (value : Expr)
deriving Repr, Inhabited

namespace Arg

def value : Arg → Expr
  | positional value => value
  | keyword _ _ value => value

def positional? : Arg → Option Expr
  | positional value => some value
  | keyword .. => none

/-- The value given to a keyword. -/
def keyword? (key : String) : Arg → Option Expr
  | positional _ => none
  | keyword other _ value => if other = key then some value else none

end Arg

/-- The span of a block is that of its opening header. Only block tags have a body. -/
inductive Node
  | text (content : String) (span : Span)
  | output (expr : Expr) (span : Span)
  | branch (arms : List (Expr × List Node)) (otherwise : Option (List Node)) (span : Span)
  | loop (var : String) (varSpan : Span) (iterable : Expr) (body : List Node) (span : Span)
  | assign (var : String) (varSpan : Span) (value : Expr) (span : Span)
  | tag (name : String) (nameSpan : Span) (args : List Arg) (body : Option (List Node))
      (span : Span)
deriving Repr, Inhabited

abbrev Template := List Node

namespace Node

def span : Node → Span
  | text _ span => span
  | output _ span => span
  | branch _ _ span => span
  | loop _ _ _ _ span => span
  | assign _ _ _ span => span
  | tag _ _ _ _ span => span

end Node

/-- How a tag is written: a block tag has a body, which the tag named after it with `end` closes. -/
structure TagGrammar where
  name : String
  block : Bool
deriving DecidableEq, Repr, Inhabited

namespace TagGrammar

def endName (name : String) : String := "end" ++ name

def endTag (grammar : TagGrammar) : String := endName grammar.name

end TagGrammar

abbrev TagGrammars := Table TagGrammar

namespace TagGrammars

/-- The tags of a list, each under its own name. -/
def ofList (grammars : List TagGrammar) : TagGrammars :=
  Table.ofList (grammars.map fun grammar => (grammar.name, grammar))

/-- Whether a tag's name is that of the closer of some block tag. -/
def closesBlock (grammars : TagGrammars) (name : String) : Bool :=
  match name.toList with
  | 'e' :: 'n' :: 'd' :: base =>
    (Table.get? grammars (String.ofList base)).any (·.block)
  | _ => false

end TagGrammars

end QueryTemplate
