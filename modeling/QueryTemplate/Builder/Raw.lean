import QueryTemplate.Json.Basic
import QueryTemplate.Number.DecimalText
import QueryTemplate.Text.Basic
import QueryTemplate.Text.Utf8

set_option autoImplicit false

/- The fields of query builders, and operations on them in which every slice of a statement and every
subtraction is checked. An operation has no result where fields do not go together. -/

namespace QueryTemplate.Builder

open Text (byteLength)

/-- How a parameter is written in a statement; parameters are counted from one. -/
def placeholderText (index : Nat) : List Char := '$' :: Decimal.natText (index + 1)

structure Raw where
  name : Option String := none
  statement : List Char := []
  parameters : List Json := []
  /-- The byte offset of the `$` of each placeholder. -/
  placeholders : List Nat := []
deriving Repr, Inhabited

/-- Whether a statement has the placeholders of the parameters from an index on at the given places,
one after the other and none before the byte `copied`. -/
def placed (statement : List Char) (index copied : Nat) : List Nat → Bool
  | [] => true
  | place :: places =>
    let stop := place + byteLength (placeholderText index)
    (Text.slice? copied place statement).isSome &&
      Text.slice? place stop statement == some (placeholderText index) &&
      placed statement (index + 1) stop places

namespace Raw

/-- There is a placeholder for each parameter, and it stands where it is said to stand. -/
def WF (raw : Raw) : Prop :=
  raw.placeholders.length = raw.parameters.length ∧
    placed raw.statement 0 0 raw.placeholders = true

instance (raw : Raw) : Decidable raw.WF := inferInstanceAs (Decidable (_ ∧ _))

def push (raw : Raw) (text : List Char) : Raw := { raw with statement := raw.statement ++ text }

/-- Writes the placeholder of the parameter at an index. -/
def writePlaceholder (raw : Raw) (index : Nat) : Raw :=
  { raw with
    statement := raw.statement ++ placeholderText index
    placeholders := raw.placeholders ++ [byteLength raw.statement] }

def addParameters (raw : Raw) (values : List Json) : Raw :=
  { raw with parameters := raw.parameters ++ values }

/-- Binds a value as the next parameter and writes its placeholder. -/
def bind (raw : Raw) (value : Json) : Raw :=
  (raw.writePlaceholder raw.parameters.length).addParameters [value]

/-- Copies a statement from its byte `copied` on: the placeholder at the next recorded offset is the
one of parameter `index`. -/
def copyFrom? (raw : Raw) (statement : List Char) (index copied : Nat) : List Nat → Option Raw
  | [] => do
    let rest ← Text.slice? copied (byteLength statement) statement
    return raw.push rest
  | place :: places => do
    let before ← Text.slice? copied place statement
    ((raw.push before).writePlaceholder (raw.parameters.length + index)).copyFrom? statement
      (index + 1) (place + byteLength (placeholderText index)) places

/-- Appends a statement and its parameters; the name of what is appended is dropped. -/
def append? (raw other : Raw) : Option Raw := do
  let copied ← raw.copyFrom? other.statement 0 0 other.placeholders
  return copied.addParameters other.parameters

/-- A difference that is not negative. -/
def sub? (value less : Nat) : Option Nat := if less ≤ value then some (value - less) else none

/-- Removes white space around the statement. -/
def trim? (raw : Raw) : Option Raw := do
  let leading ← sub? (byteLength raw.statement) (byteLength (Text.trimStart raw.statement))
  let places ← raw.placeholders.mapM (sub? · leading)
  return { raw with statement := Text.trim raw.statement, placeholders := places }

theorem copyFrom?_nil (raw : Raw) (index : Nat) {copied : Nat} (later : 0 < copied)
    (places : List Nat) : raw.copyFrom? [] index copied places = none := by
  have absent (stop : Nat) : Text.slice? copied stop [] = none := by
    have beyond : copied ≠ 0 := by omega
    simp [Text.slice?, Text.splitAt?, beyond]
  cases places <;> simp [copyFrom?, absent]

/-- A builder whose statement was taken away from under its placeholders cannot be appended. -/
theorem append?_of_statement_nil (raw : Raw) {other : Raw} (cleared : other.statement = [])
    (recorded : other.placeholders ≠ []) : raw.append? other = none := by
  cases recalled : other.placeholders with
  | nil => exact absurd recalled recorded
  | cons place places =>
      have later : 0 < place + byteLength (placeholderText 0) := by
        have wide : 0 < byteLength (placeholderText 0) := by decide
        omega
      simp [append?, cleared, recalled, copyFrom?, copyFrom?_nil _ _ later]

example : Raw.append? {} { parameters := [.null], placeholders := [1] } = none := rfl

end Raw

end QueryTemplate.Builder
