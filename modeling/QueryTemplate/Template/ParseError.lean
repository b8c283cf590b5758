import QueryTemplate.Token.Basic
import QueryTemplate.Source
import QueryTemplate.Text.Basic

set_option autoImplicit false

/- Why a source is not a template, the wording of each cause, and what a report of it says to the
author of the template. -/

namespace QueryTemplate

/-- What a `#}`, `}}` or `%}` would close. -/
inductive Region
  | comment
  | output
  | tag
deriving DecidableEq, Repr, Inhabited

namespace Region

def describe : Region → String
  | comment => "comment '\x7b#'"
  | output => "output expression '\x7b\x7b'"
  | tag => "tag '\x7b%'"

end Region

inductive ParseError
  /-- Characters of a code region that begin no token. -/
  | unreadable (slice : String) (span : Span)
  /-- The token at which every way of reading the source fails, or the end of the source; the marks
  are those that would have let it go on. -/
  | unexpected (found : Option Token) (expected : List Mark) (span : Span)
  | unterminated (region : Region) (span : Span)
  | unknownTag (name : String) (span : Span)
  | unclosedTag (name : String) (span : Span)
  | unexpectedTag (name : String) (span : Span)
  | tooDeep (limit : Nat) (span : Span)
deriving DecidableEq, Repr, Inhabited

/-- What a report of an error says; its title is a single line. -/
structure Report where
  title : String
  place : String
  label : String
  expected : List String
deriving DecidableEq, Repr

namespace ParseError

def span : ParseError → Span
  | unreadable _ span => span
  | unexpected _ _ span => span
  | unterminated _ span => span
  | unknownTag _ span => span
  | unclosedTag _ span => span
  | unexpectedTag _ span => span
  | tooDeep _ span => span

def foundText : Option Token → String
  | some token => token.describe
  | none => "end of input"

/-- What a syntax error says of its place. -/
def syntaxDetail? : ParseError → Option String
  | unreadable slice _ => some ("Unexpected character '" ++ slice ++ "'")
  | unexpected found _ _ => some ("Unexpected " ++ foundText found)
  | _ => none

/-- Inserts into a sorted list without repetition. -/
def insertText (text : String) : List String → List String
  | [] => [text]
  | other :: rest =>
    if text < other then text :: other :: rest
    else if text = other then other :: rest
    else other :: insertText text rest

/-- The descriptions of the expected marks in order of code points, each once. -/
def expectedTexts : ParseError → List String
  | unexpected _ expected _ => expected.foldl (fun texts mark => insertText mark.describe texts) []
  | _ => []

def message (error : ParseError) : String :=
  let place := error.span.text
  match error with
  | unreadable slice _ => "Parse error at " ++ place ++ ": Unexpected character '" ++ slice ++ "'"
  | unexpected found _ _ => "Parse error at " ++ place ++ ": Unexpected " ++ foundText found
  | unterminated region _ => "Unterminated " ++ region.describe ++ " at " ++ place
  | unknownTag name _ => "Unknown tag '" ++ name ++ "' at " ++ place
  | unclosedTag name _ => "Tag '" ++ name ++ "' opened at " ++ place ++ " is never closed"
  | unexpectedTag name _ => "Unexpected tag '" ++ name ++ "' at " ++ place
  | tooDeep limit _ =>
    "Nesting deeper than " ++ toString limit ++ " levels at " ++ place

/-- The remark that a report puts beside the place. -/
def label : ParseError → String
  | unreadable slice _ => "Unexpected character '" ++ slice ++ "'"
  | unexpected found _ _ => "Unexpected " ++ foundText found
  | unterminated region _ => region.describe ++ " is never closed"
  | unknownTag name _ => "no extension registers tag '" ++ name ++ "'"
  | unclosedTag name _ => "missing '\x7b% end" ++ name ++ " %\x7d'"
  | unexpectedTag name _ => "'" ++ name ++ "' has no matching opening tag"
  | tooDeep limit _ => "at most " ++ toString limit ++ " levels may be nested"

def report (error : ParseError) (filename source : String) : Report where
  title := String.ofList (Text.firstLine ("Error: " ++ error.message).toList)
  place := filename ++ ":" ++ (Position.ofOffset source error.span.start).text
  label := error.label
  expected := error.expectedTexts

end ParseError

end QueryTemplate
