import QueryTemplate.Toml.Section

set_option autoImplicit false

/- Documents: lines with entries and headers, which together write one table. -/

namespace QueryTemplate.Toml

/-- How many arrays and tables in braces may be open at once. -/
def maxNesting : Nat := 79

def comma : Scan Unit := Scan.char ','

def array (item : Scan Value) : Scan Value := do
  Scan.char '['
  let items ← (Scan.separated comma (filler *> item <* filler) <* (comma <|> pure ())) <|> pure []
  filler
  Scan.char ']'
  return .array items

def pair (item : Scan Value) : Scan (Path × Value) := do
  let path ← path
  Scan.char '='
  blanks
  let value ← item
  return (path, value)

/-- A table in braces, which is complete and stands in one line. -/
def inlineTable (item : Scan Value) : Scan Value := do
  Scan.char '{'
  let pairs ← Scan.separated comma (pair item <* blanks) <|> pure []
  blanks
  Scan.char '}'
  match Members.addAll pairs [] with
  | some members => return .table (Entry.membersToValues members)
  | none => failure

/-- A value with at most so many arrays and tables open at once. -/
def value : (nesting : Nat) → Scan Value
  | 0 => do return .scalar (← scalar)
  | nesting + 1 =>
    (do return .scalar (← scalar)) <|> array (value nesting) <|> inlineTable (value nesting)

/-- What a line of a document says. -/
inductive Line
  | blank
  | entry (path : Path) (value : Value)
  | table (path : Path)
  | tableItem (path : Path)
deriving Repr, Inhabited

namespace Line

def header : Scan Line := do
  Scan.char '['
  let line ←
    (do
      Scan.char '['
      let path ← path
      Scan.exactly [']', ']']
      return tableItem path) <|>
    (do
      let path ← path
      Scan.char ']'
      return table path)
  lineEnd
  return line

def assignment : Scan Line := do
  let (path, value) ← pair (value maxNesting)
  lineEnd
  return entry path value

def commented : Scan Line := do
  comment
  (newline <|> Scan.atEnd)
  return blank

def read : Scan Line := (commented <|> header <|> (newline *> pure blank) <|> assignment) <* blanks

end Line

/-- A byte order mark before the first line does not count. -/
def lines : Scan (List Line) := do
  (Scan.char '\ufeff' <|> pure ())
  blanks
  let lines ← Scan.many Line.read
  Scan.atEnd
  return lines

/-- A document as far as it is read, and the table that its entries are added to. -/
structure Draft where
  members : Members := []
  current : List String := []

namespace Draft

def add (draft : Draft) : Line → Option Draft
  | .blank => some draft
  | .entry path value =>
    (Members.change false (fun _ members => members.addEntry path value) draft.current .written
      draft.members).map fun members => { draft with members }
  | .table path =>
    (draft.members.addTable path).map fun members => ⟨members, path.parents ++ [path.key]⟩
  | .tableItem path =>
    (draft.members.addTableItem path).map fun members => ⟨members, path.parents ++ [path.key]⟩

def addAll : List Line → Draft → Option Draft
  | [], draft => some draft
  | line :: lines, draft => (draft.add line).bind (addAll lines)

end Draft

/-- The table that a document writes. -/
def ofText? (text : String) : Option (Table Value) :=
  match lines.run text.toList with
  | none => none
  | some (lines, _) =>
    (Draft.addAll lines {}).map fun draft => Entry.membersToValues draft.members

end QueryTemplate.Toml
