import QueryTemplate.Engine
import QueryTemplate.Toml.Document

set_option autoImplicit false

/- The configuration of an engine: whether undefined variables are errors, and which built-in
extensions are loaded. -/

namespace QueryTemplate

structure Config where
  strictVariables : Bool := false
  /-- Without a list every built-in extension is loaded. -/
  extensions : Option (List ExtensionDecl) := none
deriving Repr, Inhabited

namespace Config

open Toml (Value)

def textOf? : Value → Option String
  | .scalar (.string text) => some text
  | _ => none

/-- A reference is a table, whose other members do not count, or an array that starts with phase,
kind and name. -/
def declOf? : Value → Option ExtensionDecl
  | .table members => do
    let text (key : String) : Option String := (Table.get? members key).bind textOf?
    return ⟨← text "phase", ← text "kind", ← text "name"⟩
  | .array (phase :: kind :: name :: _) => do
    return ⟨← textOf? phase, ← textOf? kind, ← textOf? name⟩
  | _ => none

def declsOf? : Value → Option (List ExtensionDecl)
  | .array items => items.mapM declOf?
  | _ => none

/-- Takes one member of a document into a configuration; there are no other members. -/
def addMember (config : Config) : String × Value → Option Config
  | ("strict_variables", .scalar (.boolean strictVariables)) => some { config with strictVariables }
  | ("extensions", value) =>
    (declsOf? value).map fun decls => { config with extensions := some decls }
  | _ => none

def ofToml (text : String) : Except ConfigError Config :=
  match (Toml.ofText? text).bind (·.foldlM addMember {}) with
  | none => .error .malformed
  | some config => .ok config

/-- Reads a file, which is given by its contents if it is there. -/
def ofFile : Option String → Except ConfigError Config
  | none => .error .unavailable
  | some contents => ofToml contents

def resolve (config : Config) : Except ConfigError (List Extension) :=
  match config.extensions with
  | none => .ok catalog
  | some decls => ExtensionDecl.selectAll decls

end Config

namespace Engine

def ofConfig (config : Config) : Except ConfigError Engine :=
  match config.resolve with
  | .error error => .error error
  | .ok extensions => build extensions config.strictVariables

def ofConfigEvents (config : Config) : List Event :=
  match config.resolve with
  | .error _ => []
  | .ok extensions => buildEvents extensions config.strictVariables

end Engine

end QueryTemplate
