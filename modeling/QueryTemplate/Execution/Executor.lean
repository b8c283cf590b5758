import QueryTemplate.Execution.Cache
import QueryTemplate.Execution.Machine

set_option autoImplicit false

/- Execution of stored templates by name. An execution looks its program up in the cache, asks a
loader for the code when it is not there, and then runs. Other executions, saves and invalidations
may happen between these three steps. -/

namespace QueryTemplate

/-- The life of one execution. -/
inductive ExecutionState
  | idle
  | loading
  | running
  | resolved
  | failed
deriving DecidableEq, Repr, Inhabited

namespace ExecutionState

def text : ExecutionState → String
  | idle => "idle"
  | loading => "loading"
  | running => "running"
  | resolved => "resolved"
  | failed => "failed"

end ExecutionState

inductive ExecuteResult
  | delivered (builder : Builder)
  | failed (error : ExecuteError)
  /-- The program did not end in the steps allowed. -/
  | unfinished
deriving Repr, Inhabited

/-- What the cache tells an execution that begins. -/
inductive Lookup
  | cached (program : Program)
  | absent (generation : Nat)
deriving Repr, Inhabited

namespace ProgramCache

def lookup (cache : ProgramCache) (name : String) : Lookup :=
  match cache.find? name with
  | some program => .cached program
  | none => .absent (cache.generation name)

end ProgramCache

/-- Reads what a loader answered as a program. -/
def Loader.programOf (name : String) (answer : Except StoreError (Option String)) :
    Except ExecuteError Program :=
  match answer with
  | .error error => .error (.store error)
  | .ok none => .error (.templateNotFound name)
  | .ok (some code) =>
    match Program.decode code with
    | .error error => .error (.execution name (.code error))
    | .ok program => .ok program

structure Executor where
  runtime : RuntimeEnvironment
  strict : Bool
  cache : ProgramCache := {}
deriving Inhabited

namespace Executor

def lookup (executor : Executor) (name : String) : Lookup := executor.cache.lookup name

def isCached (executor : Executor) (name : String) : Bool := executor.cache.contains name

def invalidate (executor : Executor) (name : String) : Executor :=
  { executor with cache := executor.cache.invalidate name }

/-- Keeps the program that an answer holds for an execution that began in a generation. -/
def absorb (executor : Executor) (name : String) (generation : Nat)
    (answer : Except StoreError (Option String)) : Executor :=
  match Loader.programOf name answer with
  | .error _ => executor
  | .ok program => { executor with cache := executor.cache.accept name generation program }

/-- Runs a program under the name of its template. -/
def run (executor : Executor) (fuel : Nat) (name : String) (data : Json) (program : Program) :
    ExecuteResult :=
  match Machine.runProgram executor.runtime executor.strict fuel program data with
  | .failed error => .failed (.execution name error)
  | .finished none => .failed (.missingExport name)
  | .finished (some builder) => .delivered builder
  | .outOfFuel => .unfinished

/-- Runs the program that an answer holds. -/
def runLoaded (executor : Executor) (fuel : Nat) (name : String) (data : Json)
    (answer : Except StoreError (Option String)) : ExecuteResult :=
  match Loader.programOf name answer with
  | .error error => .failed error
  | .ok program => executor.run fuel name data program

/-- All three steps with nothing between them. -/
def execute (executor : Executor) (loader : Loader) (fuel : Nat) (name : String) (data : Json) :
    ExecuteResult × Executor :=
  match executor.lookup name with
  | .cached program => (executor.run fuel name data program, executor)
  | .absent generation =>
    let answer := loader name
    (executor.runLoaded fuel name data answer, executor.absorb name generation answer)

def transition (name : String) (source target : ExecutionState) : Event :=
  .debug "execution transition"
    [("template", name), ("from", source.text), ("to", target.text)]

/-- An execution that is in a state ends with a result. -/
def endEvents (name : String) (state : ExecutionState) : ExecuteResult → List Event
  | .delivered _ => [transition name state .resolved]
  | .failed error =>
    [.debug "execution failed" [("template", name), ("error", error.message)],
      transition name state .failed]
  | .unfinished => []

def beginEvents (name : String) : List Event := [transition name .idle .loading]

def runEvents (name : String) (result : ExecuteResult) : List Event :=
  transition name .loading .running :: endEvents name .running result

/-- Whether the program that was loaded is kept. -/
def absorbEvent (executor : Executor) (name : String) (generation : Nat) (program : Program) :
    Event :=
  if executor.cache.generation name = generation then
    .debug "cached program"
      [("template", name), ("instructions", toString program.length)]
  else .debug "invalidated during load, not caching" [("template", name)]

def loadedEvents (executor : Executor) (name : String) (generation : Nat)
    (answer : Except StoreError (Option String)) (result : ExecuteResult) : List Event :=
  match Loader.programOf name answer with
  | .error _ => endEvents name .loading result
  | .ok program => executor.absorbEvent name generation program :: runEvents name result

def executeEvents (executor : Executor) (loader : Loader) (name : String)
    (result : ExecuteResult) : List Event :=
  beginEvents name ++
    match executor.lookup name with
    | .cached _ => runEvents name result
    | .absent generation => executor.loadedEvents name generation (loader name) result

end Executor

end QueryTemplate
