import QueryTemplate.Builder.Basic
import QueryTemplate.Template.Element

set_option autoImplicit false

/- Extensions: tags and filters that come from outside the language. At compile time an extension
announces itself and may watch the tree; at run time it carries the behaviour of its tag or filter.
-/

namespace QueryTemplate

inductive Phase
  | compileTime
  | runtime
deriving DecidableEq, Repr, Inhabited

namespace Phase

def text : Phase → String
  | compileTime => "compile-time"
  | runtime => "runtime"

def ofText? (text : String) : Option Phase := [compileTime, runtime].find? (·.text == text)

end Phase

inductive ExtensionKind
  | tag
  | filter
deriving DecidableEq, Repr, Inhabited

namespace ExtensionKind

def text : ExtensionKind → String
  | tag => "tag"
  | filter => "filter"

def ofText? (text : String) : Option ExtensionKind := [tag, filter].find? (·.text == text)

end ExtensionKind

inductive ExtensionError
  /-- An error that a template raises on purpose. -/
  | raised (code : String)
  | invalidArgument (extension message : String)
  | failed (extension message : String)
deriving DecidableEq, Repr, Inhabited

namespace ExtensionError

def message : ExtensionError → String
  | raised code => "template raised error " ++ code
  | invalidArgument extension message => extension ++ ": " ++ message
  | failed extension message => extension ++ " failed: " ++ message

end ExtensionError

/-- What a tag sees of the execution that calls it. -/
structure TagContext where
  args : List Json
  kwargs : Table Json
  body : Option Builder
  /-- Variables in scope; builders are seen as data. -/
  lookup : String → Option Json
  /-- The builder that the surroundings of the tag write into. -/
  output : Builder
  hasExported : Bool

/-- What a tag does to the execution that calls it. -/
inductive TagEffect
  | setVariable (name : String) (value : Json)
  /-- Emitting the variable splices the builder. -/
  | setBuilder (name : String) (builder : Builder)
  /-- Puts a builder in the place of the one that the surroundings write into. -/
  | write (output : Builder)
  | deliver (builder : Builder)
deriving Repr, Inhabited

/-- A tag reaches builders through their operations, so what it hands back is well-formed. -/
abbrev TagRunner := TagContext → Except ExtensionError (List TagEffect)

structure FilterRunner where
  isAsync : Bool
  transform : Json → List Json → Except ExtensionError Json

structure Capabilities where
  astVisit : Bool
  provideMetadata : Bool
deriving DecidableEq, Repr, Inhabited

namespace Capabilities

def none : Capabilities := ⟨false, false⟩

def all : Capabilities := ⟨true, true⟩

def any (capabilities : Capabilities) : Bool :=
  capabilities.astVisit || capabilities.provideMetadata

end Capabilities

/-- How an extension watches one compilation: a state that each element of interest changes, and
at the end at most one entry of metadata. -/
structure Hooks : Type 1 where
  State : Type
  initial : State
  interestedIn : ElementKind → Bool
  visit : State → Element → State
  contribution : State → Option (String × Json)

namespace Hooks

def idle : Hooks where
  State := Unit
  initial := ()
  interestedIn := fun _ => true
  visit := fun state _ => state
  contribution := fun _ => none

end Hooks

structure Observer : Type 1 where
  capabilities : Capabilities
  hooks : Hooks

namespace Observer

def idle : Observer := ⟨.none, .idle⟩

end Observer

inductive Extension : Type 1
  | tagBuilder (name : String) (grammar : TagGrammar) (observer : Observer)
  | filterBuilder (name : String) (isAsync : Bool) (observer : Observer)
  | tagRunner (name : String) (runner : TagRunner)
  | filterRunner (name : String) (runner : FilterRunner)

namespace Extension

def phase : Extension → Phase
  | tagBuilder .. => .compileTime
  | filterBuilder .. => .compileTime
  | tagRunner .. => .runtime
  | filterRunner .. => .runtime

def kind : Extension → ExtensionKind
  | tagBuilder .. => .tag
  | filterBuilder .. => .filter
  | tagRunner .. => .tag
  | filterRunner .. => .filter

def name : Extension → String
  | tagBuilder name _ _ => name
  | filterBuilder name _ _ => name
  | tagRunner name _ => name
  | filterRunner name _ => name

/-- Extensions of the run time watch no compilation. -/
def observer? : Extension → Option Observer
  | tagBuilder _ _ observer => some observer
  | filterBuilder _ _ observer => some observer
  | tagRunner .. => none
  | filterRunner .. => none

def capabilities (extension : Extension) : Capabilities :=
  match extension.observer? with
  | some observer => observer.capabilities
  | none => .none

end Extension

end QueryTemplate
