import QueryTemplate.Compilation.Session
import QueryTemplate.Program.Generate
import QueryTemplate.Program.Listing
import QueryTemplate.Template.Awaiting
import QueryTemplate.Template.Symbol
import QueryTemplate.Template.Tree

set_option autoImplicit false

/- Compilation of a template: its tree with awaited filters marked, the metadata that extensions
gather from it, and its program. -/

namespace QueryTemplate

inductive CompileError
  | parse (error : ParseError)
  /-- A tag or filter without behaviour at run time. -/
  | unresolved (symbol : Symbol)
deriving DecidableEq, Repr, Inhabited

namespace CompileError

def message : CompileError → String
  | parse error => "parse errors: " ++ error.message
  | unresolved symbol =>
    "unresolved " ++ symbol.kind.text ++ " '" ++ symbol.name ++ "' at " ++ symbol.span.text

/-- The name of the tag or filter that the template uses without a registration. -/
def symbol? : CompileError → Option String
  | parse (.unknownTag name _) => some name
  | parse _ => none
  | unresolved symbol => some symbol.name

end CompileError

namespace RuntimeEnvironment

def resolves (env : RuntimeEnvironment) (symbol : Symbol) : Bool :=
  match symbol.kind with
  | .tag => env.hasTag symbol.name
  | .filter => env.hasFilter symbol.name

end RuntimeEnvironment

/-- The program of a template whose tags and filters are all registered; the first one that is not,
in document order, is an error. -/
def generate (template : Template) (env : RuntimeEnvironment) : Except CompileError Program :=
  match (Template.symbols template).find? fun symbol => !env.resolves symbol with
  | some symbol => .error (.unresolved symbol)
  | none => .ok (Template.program template)

namespace Environments

/-- The filters whose results may come later, by either environment. -/
def asyncFilters (envs : Environments) : List String :=
  let announced := envs.compileTime.asyncFilters
  announced ++ envs.runtime.asyncFilters.filter fun name => !announced.contains name

def sessions (envs : Environments) (template : Template) : List Session :=
  Session.walk (Template.elements template) (envs.watchers.map Session.start)

def metadata (envs : Environments) (template : Template) : Metadata :=
  Session.aggregate (envs.sessions template)

end Environments

structure Compiled where
  code : String
  metadata : Metadata
deriving Repr, Inhabited

namespace Environments

/-- The tree of a source with awaited filters marked, and the metadata of the source. -/
def analyze (envs : Environments) (source : String) : Except CompileError (Template × Metadata) :=
  match Template.parse envs.compileTime.tags source with
  | .error error => .error (.parse error)
  | .ok template => .ok (Template.awaiting envs.asyncFilters template, envs.metadata template)

def compile (envs : Environments) (source : String) : Except CompileError Compiled :=
  match envs.analyze source with
  | .error error => .error error
  | .ok (template, metadata) =>
    match generate template envs.runtime with
    | .error error => .error error
    | .ok program => .ok ⟨program.encode, metadata⟩

def analyzeEvents (envs : Environments) (source : String) : List Event :=
  match Template.parse envs.compileTime.tags source with
  | .error _ => []
  | .ok template =>
    .debug "parsed template" [("nodes", toString template.length)] ::
      Session.aggregateEvents [] (envs.sessions template) ++
      [.debug "preprocessed template"
        [("metadata_keys", toString (envs.metadata template).length),
          ("async_filters", toString envs.asyncFilters.length)]]

def compileEvents (envs : Environments) (source : String) : List Event :=
  envs.analyzeEvents source ++
    match envs.analyze source with
    | .error _ => []
    | .ok (template, _) =>
      match generate template envs.runtime with
      | .error _ => []
      | .ok program => [.debug "generated code" [("instructions", toString program.length)]]

end Environments

end QueryTemplate
