import QueryTemplate.Extension.Registry

set_option autoImplicit false

/- Watching one compilation. Every element of the tree goes to every session in the order of
loading; then the sessions that provide metadata add their entries, a later one replacing an earlier
one of the same key. -/

namespace QueryTemplate

abbrev Metadata := Table Json

structure Session : Type 1 where
  name : String
  capabilities : Capabilities
  hooks : Hooks
  state : hooks.State

namespace Session

def start (watcher : Watcher) : Session where
  name := watcher.name
  capabilities := watcher.observer.capabilities
  hooks := watcher.observer.hooks
  state := watcher.observer.hooks.initial

def sees (session : Session) (element : Element) : Bool :=
  session.capabilities.astVisit && session.hooks.interestedIn element.kind

def visit (session : Session) (element : Element) : Session :=
  if session.sees element then
    { session with state := session.hooks.visit session.state element }
  else session

def contribution? (session : Session) : Option (String × Json) :=
  if session.capabilities.provideMetadata then session.hooks.contribution session.state else none

/-- Shows the elements of a template to all sessions, element by element. -/
def walk (elements : List Element) (sessions : List Session) : List Session :=
  elements.foldl (fun sessions element => sessions.map (·.visit element)) sessions

def contribute (metadata : Metadata) (session : Session) : Metadata :=
  match session.contribution? with
  | some (key, value) => Table.insert metadata key value
  | none => metadata

def aggregate (sessions : List Session) : Metadata := sessions.foldl contribute []

/-- One event for each entry that replaces an earlier one. -/
def aggregateEvents (metadata : Metadata) : List Session → List Event
  | [] => []
  | session :: rest =>
    let after := aggregateEvents (contribute metadata session) rest
    match session.contribution? with
    | some (key, _) =>
      if Table.contains metadata key then
        .warn "metadata key already provided, overriding"
          [("key", key), ("provider", session.name)] :: after
      else after
    | none => after

end Session

end QueryTemplate
