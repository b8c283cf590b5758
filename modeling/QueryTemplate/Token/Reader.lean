import QueryTemplate.Token.Basic
import QueryTemplate.Source

set_option autoImplicit false

/- Readers of token lists by ordered choice. A reader gives what it read and the tokens left, and,
whether it succeeds or not, the furthest place at which some way of reading on has failed. -/

namespace QueryTemplate

/-- A place where reading failed, by the number of tokens from there on, and the marks that were
tried there. -/
structure Miss where
  remaining : Nat
  expected : List Mark
deriving DecidableEq, Repr

namespace Miss

/-- The further of two misses; misses at one place are joined. -/
def join : Option Miss → Option Miss → Option Miss
  | none, miss => miss
  | some miss, none => some miss
  | some a, some b =>
    if a.remaining < b.remaining then some a
    else if b.remaining < a.remaining then some b
    else some ⟨a.remaining, a.expected ++ b.expected⟩

@[simp] theorem join_none_left (miss : Option Miss) : join none miss = miss := rfl

@[simp] theorem join_none_right (miss : Option Miss) : join miss none = miss := by
  cases miss <;> rfl

end Miss

structure Outcome (α : Type) where
  result : Option (α × List (Located Token))
  miss : Option Miss
deriving Repr

def Reader (α : Type) : Type := List (Located Token) → Outcome α

namespace Reader

variable {α β : Type}

protected def pure (value : α) : Reader α := fun tokens => ⟨some (value, tokens), none⟩

protected def bind (reader : Reader α) (next : α → Reader β) : Reader β := fun tokens =>
  match reader tokens with
  | ⟨none, miss⟩ => ⟨none, miss⟩
  | ⟨some (value, rest), miss⟩ =>
    let after := next value rest
    ⟨after.result, Miss.join miss after.miss⟩

instance : Monad Reader where
  pure := Reader.pure
  bind := Reader.bind

def fail : Reader α := fun _ => ⟨none, none⟩

/-- Reads one given mark. -/
def mark (wanted : Mark) : Reader Span := fun tokens =>
  match tokens with
  | ⟨.mark found, span⟩ :: rest =>
    if found = wanted then ⟨some (span, rest), none⟩
    else ⟨none, some ⟨tokens.length, [wanted]⟩⟩
  | _ => ⟨none, some ⟨tokens.length, [wanted]⟩⟩

/-- Reads one token of a class. Its absence is a miss at which no mark was tried. -/
def accept (select : Token → Option α) : Reader (Located α) := fun tokens =>
  match tokens with
  | [] => ⟨none, some ⟨0, []⟩⟩
  | token :: rest =>
    match select token.value with
    | some value => ⟨some (⟨value, token.span⟩, rest), none⟩
    | none => ⟨none, some ⟨tokens.length, []⟩⟩

/-- Tries the second reader where the first one fails. -/
def or (first second : Reader α) : Reader α := fun tokens =>
  match first tokens with
  | ⟨some read, miss⟩ => ⟨some read, miss⟩
  | ⟨none, miss⟩ =>
    let other := second tokens
    ⟨other.result, Miss.join miss other.miss⟩

/-- The first of several readers that succeeds. -/
def choice : List (Reader α) → Reader α
  | [] => fail
  | [reader] => reader
  | reader :: readers => reader.or (choice readers)

def optional (reader : Reader α) : Reader (Option α) := fun tokens =>
  match reader tokens with
  | ⟨some (value, rest), miss⟩ => ⟨some (some value, rest), miss⟩
  | ⟨none, miss⟩ => ⟨some (none, tokens), miss⟩

/-- Reads as often as it succeeds and takes at least one token. -/
def many (reader : Reader α) (tokens : List (Located Token)) : Outcome (List α) :=
  match reader tokens with
  | ⟨none, miss⟩ => ⟨some ([], tokens), miss⟩
  | ⟨some (value, rest), miss⟩ =>
    if rest.length < tokens.length then
      match many reader rest with
      | ⟨some (values, last), after⟩ => ⟨some (value :: values, last), Miss.join miss after⟩
      | ⟨none, after⟩ => ⟨some ([value], rest), Miss.join miss after⟩
    else ⟨some ([], tokens), miss⟩
termination_by tokens.length

def ident : Reader (Located String) :=
  accept fun
    | .ident name => some name
    | _ => none

end Reader

end QueryTemplate
