import QueryTemplate.Table
import QueryTemplate.Number.Binary64

set_option autoImplicit false

/- JSON values. Numbers keep whether they are integers or floating-point numbers, and the members of
an object form a table, so members that differ only in order are one object. -/

namespace QueryTemplate

inductive Number
  | int (value : Int)
  | float (value : Binary64)
deriving DecidableEq, Repr

namespace Number

def toBinary64 : Number → Binary64
  | int value => Binary64.ofInt value
  | float value => value

def isZero (n : Number) : Bool := n.toBinary64.isZero

/-- An integer is never the same as a floating-point number, whatever their values. -/
def same : Number → Number → Bool
  | int a, int b => a == b
  | float a, float b => a.key == b.key
  | _, _ => false

end Number

inductive Json
  | null
  | bool (value : Bool)
  | number (value : Number)
  | string (value : String)
  | array (items : List Json)
  | object (members : List (String × Json))
deriving Repr, Inhabited

namespace Json

def nat (n : Nat) : Json := number (.int n)

def strings (texts : List String) : Json := array (texts.map string)

/-- An object from members in any order. -/
def ofMembers (members : List (String × Json)) : Json := object (Table.ofList members)

def typeName : Json → String
  | null => "null"
  | bool _ => "boolean"
  | number _ => "number"
  | string _ => "string"
  | array _ => "array"
  | object _ => "object"

def isTruthy : Json → Bool
  | null => false
  | bool value => value
  | number value => !value.isZero
  | string value => value != ""
  | array items => !items.isEmpty
  | object members => !members.isEmpty

/-- The member of an object, null where there is none. -/
def member (value : Json) (name : String) : Json :=
  match value with
  | object members => (Table.get? members name).getD null
  | _ => null

mutual

/-- Equality of structures; numbers of different representation differ. -/
def same : Json → Json → Bool
  | null, null => true
  | bool a, bool b => a == b
  | number a, number b => a.same b
  | string a, string b => a == b
  | array a, array b => sameItems a b
  | object a, object b => sameMembers a b
  | _, _ => false

def sameItems : List Json → List Json → Bool
  | [], [] => true
  | a :: as, b :: bs => same a b && sameItems as bs
  | _, _ => false

def sameMembers : List (String × Json) → List (String × Json) → Bool
  | [], [] => true
  | (name, a) :: as, (other, b) :: bs => name == other && same a b && sameMembers as bs
  | _, _ => false

end

/-- How templates compare values: numbers by their nearest floating-point number, strings by code
points, booleans with false first. Values of different kinds have no order. -/
def compare? : Json → Json → Option Ordering
  | number a, number b => some (compare a.toBinary64.key b.toBinary64.key)
  | string a, string b => some (compare a b)
  | bool a, bool b => some (compare a b)
  | _, _ => none

/-- Numbers are equal when they compare so, everything else when it is the same structure. -/
def equal : Json → Json → Bool
  | number a, number b => compare? (number a) (number b) == some .eq
  | a, b => a.same b

end Json

end QueryTemplate
