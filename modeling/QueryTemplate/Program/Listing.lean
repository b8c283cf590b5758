import QueryTemplate.Program.Instr
import QueryTemplate.Json.Document
import QueryTemplate.Json.Printer
import QueryTemplate.Text.Basic

set_option autoImplicit false

/- The text form of programs: one instruction a line between a header and a footer, a mnemonic with
an operand in JSON. White space around a line and blank lines do not count. -/

namespace QueryTemplate

/-- What is wrong with the operand of an instruction. -/
inductive OperandFault
  | missing (mnemonic : String)
  /-- The operand is no JSON of the instruction's shape. -/
  | malformed
  | unknownOperator (symbol : String)
deriving DecidableEq, Repr, Inhabited

inductive CodeError
  | missingHeader
  | missingFooter
  | unknownInstruction (line : Nat) (mnemonic : String)
  | invalidOperand (line : Nat) (fault : OperandFault)
  | jumpOutOfBounds (target length : Nat)
deriving DecidableEq, Repr, Inhabited

namespace OperandFault

def message : OperandFault → String
  | missing mnemonic => "'" ++ mnemonic ++ "' requires an operand"
  | malformed => "<json>"
  | unknownOperator symbol => "unknown operator '" ++ symbol ++ "'"

end OperandFault

namespace CodeError

def message : CodeError → String
  | missingHeader => "compiled code does not start with 'program v1'"
  | missingFooter => "compiled code does not end with 'end'"
  | unknownInstruction line mnemonic =>
    "line " ++ toString line ++ ": unknown instruction '" ++ mnemonic ++ "'"
  | invalidOperand line fault => "line " ++ toString line ++ ": " ++ fault.message
  | jumpOutOfBounds target length =>
    "jump target " ++ toString target ++ " out of bounds (program length " ++
      toString length ++ ")"

end CodeError

namespace Listing

def header : List Char := "program v1".toList

def footer : List Char := "end".toList

def boolText (value : Bool) : List Char := (if value then "true" else "false").toList

/-- An object whose members keep their order. -/
def record : List (String × List Char) → List Char
  | [] => ['{', '}']
  | (name, value) :: members =>
    '{' :: Json.printString name ++ ':' :: value ++
      members.flatMap (fun member => ',' :: Json.printString member.1 ++ ':' :: member.2) ++ ['}']

def operand? : Instr → Option (List Char)
  | .text content => some (Json.printString content)
  | .const value => some value.print
  | .load name => some (Json.printString name)
  | .attr name => some (Json.printString name)
  | .negate => none
  | .binary op => some (Json.printString op.symbol)
  | .filter _ name argc =>
    some (record [("name", Json.printString name), ("argc", Decimal.natText argc)])
  | .emit => none
  | .assign name => some (Json.printString name)
  | .jump target => some (Decimal.natText target)
  | .jumpIfFalse target => some (Decimal.natText target)
  | .jumpIfFalseOrPop target => some (Decimal.natText target)
  | .jumpIfTrueOrPop target => some (Decimal.natText target)
  | .iterStart => none
  | .iterNext var exit =>
    some (record [("var", Json.printString var), ("exit", Decimal.natText exit)])
  | .capture => none
  | .callTag name argc kwargs hasBody =>
    some (record [("name", Json.printString name), ("argc", Decimal.natText argc),
      ("kwargs", (Json.strings kwargs).print), ("body", boolText hasBody)])
  | .deliver => none

def line (instr : Instr) : List Char :=
  match operand? instr with
  | some operand => instr.mnemonic.toList ++ ' ' :: operand
  | none => instr.mnemonic.toList

def encodeChars (program : Program) : List Char :=
  header ++ '\n' :: program.flatMap (fun instr => line instr ++ ['\n']) ++ footer ++ ['\n']

def string? : Json.Document → Option String
  | .string value => value
  | _ => none

def nat? : Json.Document → Option Nat
  | .number (some (.int value)) => if 0 ≤ value then some value.toNat else none
  | _ => none

def bool? : Json.Document → Option Bool
  | .bool value => some value
  | _ => none

def strings? : Json.Document → Option (List String)
  | .array items => items.mapM string?
  | _ => none

/-- The member with a name, if there is exactly one. -/
def only? (members : List (String × Json.Document)) (name : String) : Option Json.Document :=
  match members.filter (·.1 == name) with
  | [member] => some member.2
  | _ => none

/-- The fields of a record in order, written as an object, which may have further members, or as an
array of exactly the fields. -/
def fields? (names : List String) : Json.Document → Option (List Json.Document)
  | .array items => if items.length = names.length then some items else none
  | .object members => do
    let members ← members.mapM fun member => member.1.map fun name => (name, member.2)
    names.mapM (only? members)
  | _ => none

def filterOperand? (document : Json.Document) : Option (String × Nat) := do
  let [name, argc] ← fields? ["name", "argc"] document | none
  return (← string? name, ← nat? argc)

def iterOperand? (document : Json.Document) : Option (String × Nat) := do
  let [var, exit] ← fields? ["var", "exit"] document | none
  return (← string? var, ← nat? exit)

def tagOperand? (document : Json.Document) : Option Instr := do
  let [name, argc, kwargs, body] ← fields? ["name", "argc", "kwargs", "body"] document | none
  return .callTag (← string? name) (← nat? argc) (← strings? kwargs) (← bool? body)

def read? {α : Type} (decode : Json.Document → Option α) (operand : List Char) : Option α :=
  (Json.Document.ofText? operand).bind decode

/-- Reads an operand by its shape. -/
def withOperand {α : Type} (mnemonic : String) (operand : Option (List Char))
    (decode : Json.Document → Option α) : Except OperandFault α :=
  match operand with
  | none => .error (.missing mnemonic)
  | some chars =>
    match read? decode chars with
    | some value => .ok value
    | none => .error .malformed

/-- The mnemonics and how their operands are read; an instruction without operand ignores one. -/
def instr? (mnemonic : String) (operand : Option (List Char)) :
    Option (Except OperandFault Instr) :=
  let take {α : Type} (decode : Json.Document → Option α) (make : α → Instr) :
      Option (Except OperandFault Instr) :=
    some ((withOperand mnemonic operand decode).map make)
  match mnemonic with
  | "text" => take string? .text
  | "const" => take (Json.Document.toJson? Json.maxDepth) .const
  | "load" => take string? .load
  | "attr" => take string? .attr
  | "set" => take string? .assign
  | "binop" =>
    some <| match withOperand mnemonic operand string? with
      | .error fault => .error fault
      | .ok symbol =>
        match BinaryOp.ofSymbol? symbol with
        | some op => .ok (.binary op)
        | none => .error (.unknownOperator symbol)
  | "filter" => take filterOperand? fun (name, argc) => .filter false name argc
  | "await_filter" => take filterOperand? fun (name, argc) => .filter true name argc
  | "jump" => take nat? .jump
  | "jump_if_false" => take nat? .jumpIfFalse
  | "jump_if_false_or_pop" => take nat? .jumpIfFalseOrPop
  | "jump_if_true_or_pop" => take nat? .jumpIfTrueOrPop
  | "iter_next" => take iterOperand? fun (var, exit) => .iterNext var exit
  | "call_tag" => take tagOperand? id
  | "not" => some (.ok .negate)
  | "emit" => some (.ok .emit)
  | "iter_start" => some (.ok .iterStart)
  | "capture" => some (.ok .capture)
  | "export" => some (.ok .deliver)
  | _ => none

/-- Reads one line; the operand begins after the first space. -/
def readLine (number : Nat) (chars : List Char) : Except CodeError Instr :=
  let mnemonic := String.ofList (chars.takeWhile (· ≠ ' '))
  let operand := match chars.dropWhile (· ≠ ' ') with
    | [] => none
    | _ :: rest => some rest
  match instr? mnemonic operand with
  | none => .error (.unknownInstruction number mnemonic)
  | some (.error fault) => .error (.invalidOperand number fault)
  | some (.ok instr) => .ok instr

/-- The lines that are not blank, trimmed, with their numbers counted from one. -/
def numbered (chars : List Char) : List (Nat × List Char) :=
  ((Text.lines chars).zipIdx 1).filterMap fun (line, number) =>
    match Text.trim line with
    | [] => none
    | trimmed => some (number, trimmed)

/-- Reads the lines after the header up to the footer, after which there is nothing. -/
def readBody : List (Nat × List Char) → Except CodeError Program
  | [] => .error .missingFooter
  | (number, chars) :: rest =>
    if chars = footer then
      if rest.isEmpty then .ok [] else .error .missingFooter
    else
      match readLine number chars with
      | .error error => .error error
      | .ok instr =>
        match readBody rest with
        | .error error => .error error
        | .ok program => .ok (instr :: program)

/-- The first jump beyond the end of a program is an error. -/
def checkTargets (program : Program) : Except CodeError Program :=
  match (program.filterMap Instr.target?).find? (program.length < ·) with
  | some target => .error (.jumpOutOfBounds target program.length)
  | none => .ok program

def decodeChars (chars : List Char) : Except CodeError Program :=
  match numbered chars with
  | [] => .error .missingHeader
  | (_, first) :: rest =>
    if first = header then
      match readBody rest with
      | .error error => .error error
      | .ok program => checkTargets program
    else .error .missingHeader

end Listing

namespace Program

def encode (program : Program) : String := String.ofList (Listing.encodeChars program)

def decode (code : String) : Except CodeError Program := Listing.decodeChars code.toList

end Program

end QueryTemplate
