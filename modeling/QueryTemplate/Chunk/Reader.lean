import QueryTemplate.Chunk.Basic
import QueryTemplate.Expr.Reader
import QueryTemplate.Token.Lexer
import QueryTemplate.Token.Nesting

set_option autoImplicit false

/- The grammar of chunks, and the one error of a source that is not made of chunks: the furthest
token at which reading failed. -/

namespace QueryTemplate

open Reader

namespace Header

def keywordArg : Reader Arg := do
  let key ← ident
  let _ ← mark .assign
  let value ← Expr.reader
  return .keyword key.value key.span value

def positionalArg : Reader Arg := do
  let value ← Expr.reader
  return .positional value

/-- An argument may be followed by a comma. -/
def arg : Reader Arg := do
  let value ← keywordArg.or positionalArg
  let _ ← optional (mark .comma)
  return value

def branchHeader : Reader Header := do
  let _ ← mark .ifWord
  let condition ← Expr.reader
  return .branch condition

def elifHeader : Reader Header := do
  let _ ← mark .elifWord
  let condition ← Expr.reader
  return .elif condition

def wordHeader (word : Mark) (header : Header) : Reader Header := do
  let _ ← mark word
  return header

def loopHeader : Reader Header := do
  let _ ← mark .forWord
  let var ← ident
  let _ ← mark .inWord
  let iterable ← Expr.reader
  return .loop var.value var.span iterable

def assignHeader : Reader Header := do
  let _ ← mark .setWord
  let var ← ident
  let _ ← mark .assign
  let value ← Expr.reader
  return .assign var.value var.span value

def tagHeader : Reader Header := do
  let name ← ident
  let args ← many arg
  return .tag name.value name.span args

def reader : Reader Header := choice [
  branchHeader, elifHeader, wordHeader .elseWord .otherwise, wordHeader .endifWord .endBranch,
  loopHeader, wordHeader .endforWord .endLoop, assignHeader, tagHeader]

end Header

namespace Chunk

def textReader : Reader Chunk := do
  let content ← accept fun
    | .text content => some content
    | _ => none
  return .text content.value content.span

def outputReader : Reader Chunk := do
  let first ← mark .outputOpen
  let expr ← Expr.reader
  let last ← mark .outputClose
  return .output expr (first.through last)

def tagReader : Reader Chunk := do
  let first ← mark .tagOpen
  let content ← Header.reader
  let last ← mark .tagClose
  return .header content (first.through last)

def reader : Reader Chunk := choice [textReader, outputReader, tagReader]

/-- The end of the tokens. -/
def finish : Reader Unit := fun tokens =>
  match tokens with
  | [] => ⟨some ((), []), none⟩
  | _ => ⟨none, some ⟨tokens.length, []⟩⟩

def listReader : Reader (List Chunk) := do
  let chunks ← many reader
  finish
  return chunks

/-- The error at a miss; `size` is the length of the source. -/
def errorAt (size : Nat) (tokens : List (Located Token)) (miss : Option Miss) : ParseError :=
  let remaining := (miss.map (·.remaining)).getD tokens.length
  let expected := (miss.map (·.expected)).getD []
  match tokens[tokens.length - remaining]? with
  | some token => .unexpected (some token.value) expected token.span
  | none => .unexpected none expected ⟨size, size⟩

def ofTokens (size : Nat) (tokens : List (Located Token)) : Except ParseError (List Chunk) :=
  match listReader tokens with
  | ⟨some (chunks, _), _⟩ => .ok chunks
  | ⟨none, miss⟩ => .error (errorAt size tokens miss)

def ofSource (source : String) : Except ParseError (List Chunk) := do
  let tokens ← QueryTemplate.tokens source
  Nesting.start.check tokens
  ofTokens source.utf8ByteSize tokens

end Chunk

end QueryTemplate
