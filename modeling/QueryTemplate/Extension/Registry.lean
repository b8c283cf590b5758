import QueryTemplate.Extension.Basic
import QueryTemplate.Token.Basic

set_option autoImplicit false

/- Loading extensions in order into the environments of compilation and of execution. An extension
that cannot be loaded leaves the registry as it was, and a set that holds one is not loaded at all.
-/

namespace QueryTemplate

inductive Level
  | debug
  | warn
deriving DecidableEq, Repr, Inhabited

/-- What a stage of compilation or execution tells an observer. -/
structure Event where
  level : Level
  message : String
  fields : List (String × String)
deriving DecidableEq, Repr, Inhabited

namespace Event

def debug (message : String) (fields : List (String × String)) : Event :=
  ⟨.debug, message, fields⟩

def warn (message : String) (fields : List (String × String)) : Event :=
  ⟨.warn, message, fields⟩

end Event

inductive ConfigError
  | invalidPhase (text : String)
  | invalidKind (text : String)
  | duplicate (phase : Phase) (kind : ExtensionKind) (name : String)
  | invalidName (name : String)
  | reservedName (name : String)
  | unknownExtension (phase : Phase) (kind : ExtensionKind) (name : String)
  /-- The configuration cannot be read from where it is kept. -/
  | unavailable
  /-- The configuration is not of the right form. -/
  | malformed
deriving DecidableEq, Repr, Inhabited

namespace ConfigError

def message : ConfigError → String
  | invalidPhase text =>
    "invalid extension phase '" ++ text ++ "' (expected 'compile-time' or 'runtime')"
  | invalidKind text =>
    "invalid extension kind '" ++ text ++ "' (expected 'tag' or 'filter')"
  | duplicate phase kind name =>
    "duplicate " ++ phase.text ++ " " ++ kind.text ++ " extension '" ++ name ++ "'"
  | invalidName name => "'" ++ name ++ "' is not a valid extension name"
  | reservedName name =>
    "extension name '" ++ name ++ "' is reserved by the template language"
  | unknownExtension phase kind name =>
    "no built-in " ++ phase.text ++ " " ++ kind.text ++ " extension named '" ++ name ++ "'"
  | unavailable => "failed to read configuration file"
  | malformed => "failed to parse configuration TOML"

end ConfigError

/-- What compilation knows of the extensions: how tags are written, and which filters may give
their results later. -/
structure CompileEnvironment where
  tags : TagGrammars := []
  filters : Table Bool := []
deriving Repr, Inhabited

/-- The tags and filters that programs can use. -/
structure RuntimeEnvironment where
  tags : Table TagRunner := []
  filters : Table FilterRunner := []
deriving Inhabited

namespace CompileEnvironment

def asyncFilters (env : CompileEnvironment) : List String :=
  (env.filters.filter (·.2)).map (·.1)

end CompileEnvironment

namespace RuntimeEnvironment

def asyncFilters (env : RuntimeEnvironment) : List String :=
  (env.filters.filter (·.2.isAsync)).map (·.1)

def hasTag (env : RuntimeEnvironment) (name : String) : Bool := Table.contains env.tags name

def hasFilter (env : RuntimeEnvironment) (name : String) : Bool := Table.contains env.filters name

def namesText (names : List String) : String :=
  "[" ++ ", ".intercalate (names.map fun name => "\"" ++ name ++ "\"") ++ "]"

/-- The names of the tags and filters, which are identifiers, in order. -/
def describe (env : RuntimeEnvironment) : String :=
  "RuntimeEnvironment \x7b tags: " ++ namesText (Table.keys env.tags) ++ ", filters: " ++
    namesText (Table.keys env.filters) ++ " \x7d"

end RuntimeEnvironment

/-- A compile-time extension that has some capability. -/
structure Watcher : Type 1 where
  name : String
  observer : Observer

structure Environments : Type 1 where
  compileTime : CompileEnvironment := {}
  runtime : RuntimeEnvironment := {}
  /-- In the order of loading. -/
  watchers : List Watcher := []

namespace Environments

def visitors (envs : Environments) : List Watcher :=
  envs.watchers.filter (·.observer.capabilities.astVisit)

def providers (envs : Environments) : List Watcher :=
  envs.watchers.filter (·.observer.capabilities.provideMetadata)

end Environments

/-- The names that extensions may not take. -/
def reservedWords : List String := [
  "if", "elif", "else", "endif", "for", "in", "endfor", "set", "and", "or", "not", "true",
  "false", "none", "null", "loop"]

/-- These are the words of the language and the variable that loops set. -/
theorem reservedWords_eq : reservedWords = Mark.words.map (·.1) ++ ["loop"] := rfl

def isIdentifier (name : String) : Bool :=
  match name.toList with
  | [] => false
  | first :: rest =>
    (first.isAlpha || first == '_') && rest.all fun c => c.isAlphanum || c == '_'

/-- Tags may not look like the closers of block tags. -/
def checkName (kind : ExtensionKind) (name : String) : Except ConfigError Unit :=
  if isIdentifier name then
    if reservedWords.contains name ||
        (kind == .tag && "end".toList.isPrefixOf name.toList) then
      .error (.reservedName name)
    else .ok ()
  else .error (.invalidName name)

abbrev ExtensionKey := Phase × ExtensionKind × String

namespace Extension

def key (extension : Extension) : ExtensionKey :=
  (extension.phase, extension.kind, extension.name)

end Extension

structure Registry : Type 1 where
  envs : Environments := {}
  seen : List ExtensionKey := []

namespace Environments

def add (envs : Environments) : Extension → Environments
  | .tagBuilder _ grammar _ =>
    { envs with compileTime :=
      { envs.compileTime with tags := Table.insert envs.compileTime.tags grammar.name grammar } }
  | .filterBuilder name isAsync _ =>
    { envs with compileTime :=
      { envs.compileTime with filters := Table.insert envs.compileTime.filters name isAsync } }
  | .tagRunner name runner =>
    { envs with runtime :=
      { envs.runtime with tags := Table.insert envs.runtime.tags name runner } }
  | .filterRunner name runner =>
    { envs with runtime :=
      { envs.runtime with filters := Table.insert envs.runtime.filters name runner } }

def watch (envs : Environments) (extension : Extension) : Environments :=
  match extension.observer? with
  | some observer =>
    if observer.capabilities.any then
      { envs with watchers := envs.watchers ++ [⟨extension.name, observer⟩] }
    else envs
  | none => envs

end Environments

namespace Registry

def load (registry : Registry) (extension : Extension) : Except ConfigError Registry :=
  match checkName extension.kind extension.name with
  | .error error => .error error
  | .ok () =>
    if registry.seen.contains extension.key then
      .error (.duplicate extension.phase extension.kind extension.name)
    else
      .ok ⟨(registry.envs.add extension).watch extension, extension.key :: registry.seen⟩

def loadAll (registry : Registry) : List Extension → Except ConfigError Registry
  | [] => .ok registry
  | extension :: rest =>
    match registry.load extension with
    | .error error => .error error
    | .ok next => next.loadAll rest

def loadEvent (extension : Extension) : Event :=
  .debug "loaded extension" [
    ("phase", extension.phase.text), ("kind", extension.kind.text), ("name", extension.name),
    ("ast_visit", toString extension.capabilities.astVisit),
    ("provide_metadata", toString extension.capabilities.provideMetadata)]

/-- One event for each extension before the first that cannot be loaded. -/
def loadEvents (registry : Registry) : List Extension → List Event
  | [] => []
  | extension :: rest =>
    match registry.load extension with
    | .error _ => []
    | .ok next => loadEvent extension :: next.loadEvents rest

end Registry

namespace Environments

def ofExtensions (extensions : List Extension) : Except ConfigError Environments :=
  match Registry.loadAll {} extensions with
  | .error error => .error error
  | .ok registry => .ok registry.envs

def loadEvents (extensions : List Extension) : List Event :=
  Registry.loadEvents {} extensions

end Environments

end QueryTemplate
