import QueryTemplate.Extension.Basic
import QueryTemplate.Text.Case

set_option autoImplicit false

/- The filters `upper` and `lower`, which leave everything but strings alone, and the filter `required`,
which refuses null. The variables that a template requires are listed in its metadata. -/

namespace QueryTemplate.Catalog.LetterCase

def onStrings (convert : List Char → List Char) : FilterRunner where
  isAsync := false
  transform := fun value _ =>
    match value with
    | .string text => .ok (.string (String.ofList (convert text.toList)))
    | other => .ok other

def builder (name : String) : Extension := .filterBuilder name false .idle

def upperRunner : Extension := .filterRunner "upper" (onStrings Text.upper)

def lowerRunner : Extension := .filterRunner "lower" (onStrings Text.lower)

end QueryTemplate.Catalog.LetterCase

namespace QueryTemplate.Catalog.Required

def name : String := "required"

def metadataKey : String := "parameters.required"

/-- Paths in order, each once. -/
def visit (found : Table Unit) : Element → Table Unit
  | .expr (.filter _ target filter _ _ _) =>
    if filter = name then
      match target.path? with
      | some path => found.insert path ()
      | none => found
    else found
  | _ => found

def hooks : Hooks where
  State := Table Unit
  initial := []
  interestedIn := fun kind => kind == .filter || kind == .awaitedFilter
  visit := visit
  contribution := fun found =>
    if found.isEmpty then none else some (metadataKey, .strings found.keys)

/-- The first argument may give the text of the error. -/
def transform (value : Json) (args : List Json) : Except ExtensionError Json :=
  match value with
  | .null =>
    match args with
    | .string custom :: _ => .error (.failed name custom)
    | _ => .error (.failed name "value is required")
  | other => .ok other

def builder : Extension := .filterBuilder name false ⟨.all, hooks⟩

def runner : Extension := .filterRunner name ⟨false, transform⟩

end QueryTemplate.Catalog.Required
