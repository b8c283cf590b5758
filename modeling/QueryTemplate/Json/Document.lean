import QueryTemplate.Json.NumberText
import QueryTemplate.Json.Quoted

set_option autoImplicit false

/- JSON texts. A document keeps what a text spells out: every member of an object in the order of
the text, and the place of numbers and strings that denote nothing, which only a reader that needs
their value refuses. -/

namespace QueryTemplate.Json

inductive Document
  | null
  | bool (value : Bool)
  /-- A number, unless it is out of range. -/
  | number (value : Option Number)
  /-- A string, unless it holds a surrogate without its partner. -/
  | string (value : Option String)
  | array (items : List Document)
  | object (members : List (Option String × Document))
deriving Repr, Inhabited

namespace Document

def isSpace (c : Char) : Bool := c == ' ' || c == '\n' || c == '\t' || c == '\r'

def skipSpace (chars : List Char) : List Char := chars.dropWhile isSpace

theorem skipSpace_length (chars : List Char) : (skipSpace chars).length ≤ chars.length :=
  NumberText.length_dropWhile_le _ _

theorem length_of_skipSpace {c : Char} {chars rest : List Char}
    (spaced : skipSpace chars = c :: rest) : rest.length < chars.length := by
  have := skipSpace_length chars
  rw [spaced, List.length_cons] at this
  omega

def textOf (pieces : List Quoted.Piece) : Option String :=
  (Quoted.assemble pieces).map String.ofList

/-- What is left of a text is shorter than the text. -/
abbrev Rest (chars : List Char) := { rest : List Char // rest.length < chars.length }

mutual

/-- Reads one document after white space. -/
def read (chars : List Char) : Option (Document × Rest chars) :=
  match spaced : skipSpace chars with
  | 'n' :: 'u' :: 'l' :: 'l' :: rest =>
    some (.null, ⟨rest, by
      have := length_of_skipSpace spaced
      simp only [List.length_cons] at this; omega⟩)
  | 't' :: 'r' :: 'u' :: 'e' :: rest =>
    some (.bool true, ⟨rest, by
      have := length_of_skipSpace spaced
      simp only [List.length_cons] at this; omega⟩)
  | 'f' :: 'a' :: 'l' :: 's' :: 'e' :: rest =>
    some (.bool false, ⟨rest, by
      have := length_of_skipSpace spaced
      simp only [List.length_cons] at this; omega⟩)
  | '"' :: rest =>
    match scanned : Quoted.scan rest with
    | none => none
    | some (pieces, after) =>
      some (.string (textOf pieces), ⟨after, by
        have := length_of_skipSpace spaced
        have := Quoted.scan_length scanned
        omega⟩)
  | '[' :: rest =>
    have shorter : rest.length < chars.length := length_of_skipSpace spaced
    match skipped : skipSpace rest with
    | ']' :: after =>
      some (.array [], ⟨after, Nat.lt_trans (length_of_skipSpace skipped) shorter⟩)
    | _ =>
      match readItems rest with
      | none => none
      | some (items, ⟨after, _⟩) => some (.array items, ⟨after, by omega⟩)
  | '{' :: rest =>
    have shorter : rest.length < chars.length := length_of_skipSpace spaced
    match skipped : skipSpace rest with
    | '}' :: after =>
      some (.object [], ⟨after, Nat.lt_trans (length_of_skipSpace skipped) shorter⟩)
    | _ =>
      match readMembers rest with
      | none => none
      | some (members, ⟨after, _⟩) => some (.object members, ⟨after, by omega⟩)
  | other =>
    match numbered : NumberText.read other with
    | none => none
    | some (text, after) =>
      some (.number text.toNumber?, ⟨after, by
        have shorter := NumberText.read_length numbered
        rw [← spaced] at shorter
        exact Nat.lt_of_lt_of_le shorter (skipSpace_length chars)⟩)
termination_by (chars.length, 0)

/-- Reads the items of an array up to its closing bracket. -/
def readItems (chars : List Char) : Option (List Document × Rest chars) :=
  match read chars with
  | none => none
  | some (item, ⟨after, less⟩) =>
    match skipped : skipSpace after with
    | ']' :: rest => some ([item], ⟨rest, Nat.lt_trans (length_of_skipSpace skipped) less⟩)
    | ',' :: rest =>
      have shorter : rest.length < chars.length :=
        Nat.lt_trans (length_of_skipSpace skipped) less
      match readItems rest with
      | none => none
      | some (items, ⟨last, _⟩) => some (item :: items, ⟨last, by omega⟩)
    | _ => none
termination_by (chars.length, 1)

/-- Reads the members of an object up to its closing brace. -/
def readMembers (chars : List Char) : Option (List (Option String × Document) × Rest chars) :=
  match spaced : skipSpace chars with
  | '"' :: rest =>
    match scanned : Quoted.scan rest with
    | none => none
    | some (pieces, named) =>
      match separated : skipSpace named with
      | ':' :: rest' =>
        have shorter : rest'.length < chars.length := by
          have := length_of_skipSpace spaced
          have := Quoted.scan_length scanned
          have := length_of_skipSpace separated
          omega
        match read rest' with
        | none => none
        | some (value, ⟨after, less⟩) =>
          have within : after.length < chars.length := Nat.lt_trans less shorter
          match skipped : skipSpace after with
          | '}' :: last =>
            some ([(textOf pieces, value)],
              ⟨last, Nat.lt_trans (length_of_skipSpace skipped) within⟩)
          | ',' :: next =>
            have nextShorter : next.length < chars.length :=
              Nat.lt_trans (length_of_skipSpace skipped) within
            match readMembers next with
            | none => none
            | some (members, ⟨last, _⟩) =>
              some ((textOf pieces, value) :: members, ⟨last, by omega⟩)
          | _ => none
      | _ => none
  | _ => none
termination_by (chars.length, 1)

end

/-- The document that a whole text holds, white space around it aside. -/
def ofText? (chars : List Char) : Option Document :=
  match read chars with
  | none => none
  | some (document, ⟨rest, _⟩) => if skipSpace rest = [] then some document else none

mutual

/-- The value denoted, if everything in the document denotes something and no more than `depth`
arrays and objects are open at once. The last of several members of one name counts. -/
def toJson? (depth : Nat) : Document → Option Json
  | null => some .null
  | bool value => some (.bool value)
  | number value => value.map .number
  | string value => value.map .string
  | array items =>
    match depth with
    | 0 => none
    | inner + 1 => (itemsToJson? inner items).map .array
  | object members =>
    match depth with
    | 0 => none
    | inner + 1 => (membersToJson? inner members).map .ofMembers

def itemsToJson? (depth : Nat) : List Document → Option (List Json)
  | [] => some []
  | item :: items =>
    match toJson? depth item, itemsToJson? depth items with
    | some value, some values => some (value :: values)
    | _, _ => none

def membersToJson? (depth : Nat) :
    List (Option String × Document) → Option (List (String × Json))
  | [] => some []
  | (name, member) :: members =>
    match name, toJson? depth member, membersToJson? depth members with
    | some name, some value, some values => some ((name, value) :: values)
    | _, _, _ => none

end

end Document

/-- How many arrays and objects may be open at once. -/
def maxDepth : Nat := 127

def ofText? (chars : List Char) : Option Json :=
  (Document.ofText? chars).bind (Document.toJson? maxDepth)

end QueryTemplate.Json
