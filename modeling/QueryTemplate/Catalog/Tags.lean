import QueryTemplate.Extension.Basic

set_option autoImplicit false

/- The tag `error`, which ends the execution with a code of the template's choice, and the block tag
`req`, which renders its body into a named builder. The builder becomes a variable of its name, and
the result of the execution if it is marked with `main` or is the first one. -/

namespace QueryTemplate.Catalog.Raise

def name : String := "error"

def metadataKey : String := "error.codes"

/-- A code that the source spells out, and the place of the tag that raises it. -/
structure Code where
  code : String
  offset : Nat
deriving DecidableEq, Repr, Inhabited

def Code.toJson (code : Code) : Json :=
  .ofMembers [("code", .string code.code), ("offset", .nat code.offset)]

def visit (found : List Code) : Element → List Code
  | .node (.tag tag _ args _ span) =>
    if tag = name then
      match args.findSome? Arg.positional? with
      | some (.literal (.string code) _) => found ++ [⟨code, span.start⟩]
      | _ => found
    else found
  | _ => found

def hooks : Hooks where
  State := List Code
  initial := []
  interestedIn := fun kind => kind == .tag
  visit := visit
  contribution := fun found =>
    if found.isEmpty then none else some (metadataKey, .array (found.map Code.toJson))

def run : TagRunner := fun context =>
  match context.args with
  | .string code :: _ => .error (.raised code)
  | _ => .error (.invalidArgument name "expected an error code string")

def builder : Extension := .tagBuilder name ⟨name, false⟩ ⟨.all, hooks⟩

def runner : Extension := .tagRunner name run

end QueryTemplate.Catalog.Raise

namespace QueryTemplate.Catalog.Request

def name : String := "req"

def metadataKey : String := "builder.requests"

/-- A request as far as the source tells: its name if that is a literal, and whether its first
`main` is the literal `true`. -/
structure Declaration where
  name : Option String
  main : Bool
deriving DecidableEq, Repr, Inhabited

namespace Declaration

def ofArgs (args : List Arg) : Declaration where
  name := match args.findSome? Arg.positional? with
    | some (.literal (.string name) _) => some name
    | _ => none
  main := match args.findSome? (Arg.keyword? "main") with
    | some (.literal (.bool main) _) => main
    | _ => false

def toJson (declaration : Declaration) : Json :=
  .ofMembers [("name", (declaration.name.map Json.string).getD .null),
    ("main", .bool declaration.main)]

end Declaration

def visit (found : List Declaration) : Element → List Declaration
  | .node (.tag tag _ args _ _) => if tag = name then found ++ [.ofArgs args] else found
  | _ => found

def hooks : Hooks where
  State := List Declaration
  initial := []
  interestedIn := fun kind => kind == .tag
  visit := visit
  contribution := fun found =>
    if found.isEmpty then none
    else some (metadataKey, .array (found.map Declaration.toJson))

def run : TagRunner := fun context =>
  match context.args with
  | .string requested :: _ =>
    if requested = "" then
      .error (.invalidArgument name "expected a request name as first argument")
    else
      let builder := { (context.body.getD .empty).trim with name := some requested }
      let isMain := (Table.get? context.kwargs "main").any Json.isTruthy
      if isMain || !context.hasExported then
        .ok [.setBuilder requested builder, .deliver builder]
      else .ok [.setBuilder requested builder]
  | _ => .error (.invalidArgument name "expected a request name as first argument")

def builder : Extension := .tagBuilder name ⟨name, true⟩ ⟨.all, hooks⟩

def runner : Extension := .tagRunner name run

end QueryTemplate.Catalog.Request
