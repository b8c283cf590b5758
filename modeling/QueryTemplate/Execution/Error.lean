import QueryTemplate.Extension.Basic
import QueryTemplate.Execution.Store
import QueryTemplate.Program.Listing

set_option autoImplicit false

/- Why an execution fails. -/

namespace QueryTemplate

inductive RuntimeError
  | code (error : CodeError)
  | invalidData (typeName : String)
  | undefinedVariable (name : String)
  | notIterable (typeName : String)
  | unknownTag (name : String)
  | unknownFilter (name : String)
  | unawaitedFilter (name : String)
  | stackUnderflow (mnemonic : String)
  | missingCapture (mnemonic : String)
  | extension (error : ExtensionError)
deriving DecidableEq, Repr, Inhabited

namespace RuntimeError

def message : RuntimeError → String
  | code error => "invalid compiled code: " ++ error.message
  | invalidData typeName => "template data must be an object, got " ++ typeName
  | undefinedVariable name => "undefined variable '" ++ name ++ "'"
  | notIterable typeName => "cannot iterate over " ++ typeName
  | unknownTag name => "no runtime tag '" ++ name ++ "' registered"
  | unknownFilter name => "no runtime filter '" ++ name ++ "' registered"
  | unawaitedFilter name => "asynchronous filter '" ++ name ++ "' applied without await"
  | stackUnderflow mnemonic => mnemonic ++ ": stack underflow"
  | missingCapture mnemonic => mnemonic ++ ": no captured body"
  | extension error => error.message

end RuntimeError

/-- Why a named template gives no builder. -/
inductive ExecuteError
  | templateNotFound (name : String)
  | store (error : StoreError)
  | execution (template : String) (cause : RuntimeError)
  | missingExport (template : String)
deriving DecidableEq, Repr, Inhabited

namespace ExecuteError

def message : ExecuteError → String
  | templateNotFound name => "no compiled template named '" ++ name ++ "'"
  | store error => error.message
  | execution template cause => "execution of '" ++ template ++ "' failed: " ++ cause.message
  | missingExport template =>
    "template '" ++ template ++ "' completed without exporting a builder"

/-- The code of an error that the template raised itself. -/
def raised? : ExecuteError → Option String
  | execution _ (.extension (.raised code)) => some code
  | _ => none

end ExecuteError

end QueryTemplate
