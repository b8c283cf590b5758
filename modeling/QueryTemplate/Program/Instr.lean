import QueryTemplate.Expr.Operator

set_option autoImplicit false

/- Programs of the stack machine. A jump target is the index of an instruction. -/

namespace QueryTemplate

inductive Instr
  /-- Append raw text to the current builder. -/
  | text (content : String)
  | const (value : Json)
  | load (name : String)
  | attr (name : String)
  | negate
  | binary (op : BinaryOp)
  /-- Apply a filter to `argc` arguments and the value beneath them. -/
  | filter (awaited : Bool) (name : String) (argc : Nat)
  /-- Bind the top value as a parameter, or splice the top builder. -/
  | emit
  | assign (name : String)
  | jump (target : Nat)
  | jumpIfFalse (target : Nat)
  /-- Keep a false top value and jump, or else pop it. -/
  | jumpIfFalseOrPop (target : Nat)
  /-- Keep a true top value and jump, or else pop it. -/
  | jumpIfTrueOrPop (target : Nat)
  /-- Pop an iterable and open a loop over it. -/
  | iterStart
  /-- Bind the next item, or close the loop and jump to its exit. -/
  | iterNext (var : String) (exit : Nat)
  /-- Open a builder that collects the body of a tag. -/
  | capture
  /-- Call a tag; its keyword values were pushed after the positional ones. -/
  | callTag (name : String) (argc : Nat) (kwargs : List String) (hasBody : Bool)
  /-- Export the main builder unless one was already exported. -/
  | deliver
deriving Repr, Inhabited

namespace Instr

def mnemonic : Instr → String
  | text _ => "text"
  | const _ => "const"
  | load _ => "load"
  | attr _ => "attr"
  | negate => "not"
  | binary _ => "binop"
  | filter false _ _ => "filter"
  | filter true _ _ => "await_filter"
  | emit => "emit"
  | assign _ => "set"
  | jump _ => "jump"
  | jumpIfFalse _ => "jump_if_false"
  | jumpIfFalseOrPop _ => "jump_if_false_or_pop"
  | jumpIfTrueOrPop _ => "jump_if_true_or_pop"
  | iterStart => "iter_start"
  | iterNext _ _ => "iter_next"
  | capture => "capture"
  | callTag .. => "call_tag"
  | deliver => "export"

def target? : Instr → Option Nat
  | jump target => some target
  | jumpIfFalse target => some target
  | jumpIfFalseOrPop target => some target
  | jumpIfTrueOrPop target => some target
  | iterNext _ exit => some exit
  | _ => none

end Instr

abbrev Program := List Instr

end QueryTemplate
