import QueryTemplate.Catalog.Filters
import QueryTemplate.Catalog.Tags
import QueryTemplate.Extension.Registry

set_option autoImplicit false

/- The extensions that come with the language, and the choice of some of them by name. -/

namespace QueryTemplate

/-- Every built-in extension in the order of loading. -/
def catalog : List Extension := [
  Catalog.Request.builder, Catalog.Request.runner,
  Catalog.Raise.builder, Catalog.Raise.runner,
  Catalog.LetterCase.builder "upper", Catalog.LetterCase.upperRunner,
  Catalog.LetterCase.builder "lower", Catalog.LetterCase.lowerRunner,
  Catalog.Required.builder, Catalog.Required.runner]

/-- A reference to a built-in extension as a configuration writes it. -/
structure ExtensionDecl where
  phase : String
  kind : String
  name : String
deriving DecidableEq, Repr, Inhabited

namespace ExtensionDecl

def resolve (decl : ExtensionDecl) : Except ConfigError (Phase × ExtensionKind) :=
  match Phase.ofText? decl.phase with
  | none => .error (.invalidPhase decl.phase)
  | some phase =>
    match ExtensionKind.ofText? decl.kind with
    | none => .error (.invalidKind decl.kind)
    | some kind => .ok (phase, kind)

/-- The built-in extension referred to. -/
def select (decl : ExtensionDecl) : Except ConfigError Extension :=
  match decl.resolve with
  | .error error => .error error
  | .ok (phase, kind) =>
    match catalog.find? fun extension => extension.key == (phase, kind, decl.name) with
    | none => .error (.unknownExtension phase kind decl.name)
    | some extension => .ok extension

/-- The built-in extensions referred to, in order; the first reference that fails is an error. -/
def selectAll : List ExtensionDecl → Except ConfigError (List Extension)
  | [] => .ok []
  | decl :: rest =>
    match decl.select with
    | .error error => .error error
    | .ok extension =>
      match selectAll rest with
      | .error error => .error error
      | .ok extensions => .ok (extension :: extensions)

end ExtensionDecl

end QueryTemplate
