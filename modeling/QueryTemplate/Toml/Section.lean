import QueryTemplate.Table
import QueryTemplate.Toml.Scalar

set_option autoImplicit false

/- The tables of a document while it is read. A table is written once: under its header, or by the
dotted keys of one section, or within braces. Tables that only lead to others may still get a
header of their own. -/

namespace QueryTemplate.Toml

inductive Value
  | scalar (value : Scalar)
  | array (items : List Value)
  | table (members : List (String × Value))
deriving Repr, Inhabited

/-- Where a table was written. -/
inductive Origin
  /-- Under a header, or the document itself. -/
  | written
  /-- Only on the way to the table of a header. -/
  | implied
  | dotted
deriving DecidableEq, Repr, Inhabited

inductive Entry
  /-- A value, which nothing can be added to. -/
  | value (content : Value)
  | table (origin : Origin) (members : List (String × Entry))
  /-- Tables under one repeated header, the last of which is open. -/
  | tables (earlier : List (List (String × Entry))) (last : List (String × Entry))
deriving Inhabited

namespace Entry

mutual

def toValue : Entry → Value
  | value content => content
  | table _ members => .table (membersToValues members)
  | tables earlier last => .array (tablesToValues earlier ++ [.table (membersToValues last)])

def membersToValues : List (String × Entry) → List (String × Value)
  | [] => []
  | (key, entry) :: members => (key, toValue entry) :: membersToValues members

def tablesToValues : List (List (String × Entry)) → List Value
  | [] => []
  | members :: rest => .table (membersToValues members) :: tablesToValues rest

end

end Entry

/-- The members of a table that is being written. -/
abbrev Members := Table Entry

namespace Members

/-- Changes the table that keys lead to; tables that are missing on the way are made. Keys of a
dotted path do not lead into tables with a header of their own. -/
def change (dotted : Bool) (edit : Origin → Members → Option Members) :
    List String → Origin → Members → Option Members
  | [], origin, members => edit origin members
  | key :: keys, _, members =>
    match Table.get? members key with
    | none =>
      let origin : Origin := if dotted then .dotted else .implied
      (change dotted edit keys origin []).map fun inner =>
        Table.insert members key (.table origin inner)
    | some (.value _) => none
    | some (.tables earlier last) =>
      (change dotted edit keys .written last).map fun inner =>
        Table.insert members key (.tables earlier inner)
    | some (.table origin inner) =>
      if dotted ∧ origin = .written then none
      else
        (change dotted edit keys origin inner).map fun inner =>
          Table.insert members key (.table origin inner)

/-- Adds an entry to a table; only tables made by dotted keys are open to dotted keys. -/
def addEntry (path : Path) (value : Value) : Members → Option Members :=
  change true
    (fun origin members =>
      if path.parents ≠ [] ∧ origin ≠ .dotted then none
      else if Table.contains members path.key then none
      else some (Table.insert members path.key (.value value)))
    path.parents .written

/-- Writes the header of a table. -/
def addTable (path : Path) : Members → Option Members :=
  change false
    (fun _ members =>
      match Table.get? members path.key with
      | none => some (Table.insert members path.key (.table .written []))
      | some (.table .implied inner) =>
        some (Table.insert members path.key (.table .written inner))
      | some _ => none)
    path.parents .written

/-- Writes the header of one more table of an array. -/
def addTableItem (path : Path) : Members → Option Members :=
  change false
    (fun _ members =>
      match Table.get? members path.key with
      | none => some (Table.insert members path.key (.tables [] []))
      | some (.tables earlier last) =>
        some (Table.insert members path.key (.tables (earlier ++ [last]) []))
      | some _ => none)
    path.parents .written

def addAll : List (Path × Value) → Members → Option Members
  | [], members => some members
  | (path, value) :: rest, members => (members.addEntry path value).bind (addAll rest)

end Members

end QueryTemplate.Toml
