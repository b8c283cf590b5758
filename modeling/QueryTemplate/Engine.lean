import QueryTemplate.Catalog.Basic
import QueryTemplate.Execution.Executor

set_option autoImplicit false

/- An engine: one set of extensions with the templates that were registered under it. There is no
engine over a set of extensions that does not load. -/

namespace QueryTemplate

structure Engine : Type 1 where
  envs : Environments
  store : Store := []
  executor : Executor

namespace Engine

def build (extensions : List Extension) (strict : Bool) : Except ConfigError Engine :=
  match Environments.ofExtensions extensions with
  | .error error => .error error
  | .ok envs => .ok { envs, executor := { runtime := envs.runtime, strict } }

/-- Puts code into the store without a word to the executor. -/
def save (engine : Engine) (name : String) (compiled : Compiled) : Engine :=
  { engine with store := engine.store.save name compiled }

def invalidate (engine : Engine) (name : String) : Engine :=
  { engine with executor := engine.executor.invalidate name }

def compile (engine : Engine) (source : String) : Except CompileError Compiled :=
  engine.envs.compile source

/-- Compiles a source and puts it in the place of the template of that name; a source that does not
compile changes nothing. -/
def register (engine : Engine) (name source : String) :
    Except CompileError Metadata × Engine :=
  match engine.compile source with
  | .error error => (.error error, engine)
  | .ok compiled => (.ok compiled.metadata, (engine.save name compiled).invalidate name)

def execute (engine : Engine) (fuel : Nat) (name : String) (data : Json) :
    ExecuteResult × Engine :=
  let (result, executor) := engine.executor.execute engine.store.loader fuel name data
  (result, { engine with executor })

def readyEvent (engine : Engine) : Event :=
  .debug "engine ready"
    [("tags", toString engine.envs.compileTime.tags.length),
      ("strict_variables", toString engine.executor.strict)]

def buildEvents (extensions : List Extension) (strict : Bool) : List Event :=
  Environments.loadEvents extensions ++
    match build extensions strict with
    | .error _ => []
    | .ok engine => [engine.readyEvent]

def registerEvents (engine : Engine) (name source : String) : List Event :=
  engine.envs.compileEvents source ++
    match engine.compile source with
    | .error _ => []
    | .ok _ => [.debug "registered template" [("template", name)]]

end Engine

end QueryTemplate
