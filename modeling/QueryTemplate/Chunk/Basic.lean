import QueryTemplate.Template.Basic

set_option autoImplicit false

/- A template before its blocks are nested: texts, outputs and the headers of tags, in order. -/

namespace QueryTemplate

inductive Header
  | branch (condition : Expr)
  | elif (condition : Expr)
  | otherwise
  | endBranch
  | loop (var : String) (varSpan : Span) (iterable : Expr)
  | endLoop
  | assign (var : String) (varSpan : Span) (value : Expr)
  | tag (name : String) (nameSpan : Span) (args : List Arg)
deriving Repr, Inhabited

inductive Chunk
  | text (content : String) (span : Span)
  | output (expr : Expr) (span : Span)
  | header (header : Header) (span : Span)
deriving Repr, Inhabited

namespace Chunk

def span : Chunk → Span
  | text _ span => span
  | output _ span => span
  | header _ span => span

end Chunk

end QueryTemplate
