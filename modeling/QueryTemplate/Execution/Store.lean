import QueryTemplate.Compilation.Basic

set_option autoImplicit false

/- Compiled templates kept by name, and what may serve them to an execution. -/

namespace QueryTemplate

inductive StoreError
  | unavailable (reason : String)
deriving DecidableEq, Repr, Inhabited

namespace StoreError

def message : StoreError → String
  | unavailable reason => "artifact store unavailable: " ++ reason

end StoreError

abbrev Store := Table Compiled

/-- Gives the code of a template by name; a template that does not exist has none. -/
abbrev Loader := String → Except StoreError (Option String)

namespace Store

def save (store : Store) (name : String) (compiled : Compiled) : Store :=
  Table.insert store name compiled

def loader (store : Store) : Loader := fun name => .ok ((Table.get? store name).map (·.code))

theorem loader_save_self (store : Store) (name : String) (compiled : Compiled) :
    (store.save name compiled).loader name = .ok (some compiled.code) := by
  simp [loader, save]

theorem loader_save_of_ne (store : Store) (compiled : Compiled) {name other : String}
    (different : other ≠ name) :
    (store.save name compiled).loader other = store.loader other := by
  simp [loader, save, Table.get?_insert_of_ne store compiled different]

end Store

end QueryTemplate
