import QueryTemplate.Json.Basic
import QueryTemplate.Json.Quoted
import QueryTemplate.Number.DecimalText

set_option autoImplicit false

/- JSON values in their shortest layout: no white space, the members of an object in key order. -/

namespace QueryTemplate

def Number.print : Number → List Char
  | .int value => intText value
  | .float value => value.jsonText

namespace Json

def printString (text : String) : List Char := Quoted.encode text.toList

mutual

def print : Json → List Char
  | null => "null".toList
  | bool true => "true".toList
  | bool false => "false".toList
  | number value => value.print
  | string value => printString value
  | array [] => ['[', ']']
  | array (item :: items) => '[' :: print item ++ printItems items
  | object [] => ['{', '}']
  | object ((name, value) :: members) =>
    '{' :: printString name ++ ':' :: print value ++ printMembers members

/-- The items after the first, and the closing bracket. -/
def printItems : List Json → List Char
  | [] => [']']
  | item :: items => ',' :: print item ++ printItems items

/-- The members after the first, and the closing brace. -/
def printMembers : List (String × Json) → List Char
  | [] => ['}']
  | (name, value) :: members =>
    ',' :: printString name ++ ':' :: print value ++ printMembers members

end

def text (value : Json) : String := String.ofList value.print

end Json

end QueryTemplate
