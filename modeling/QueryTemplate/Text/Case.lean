import QueryTemplate.Text.CaseTable

set_option autoImplicit false

/- Upper and lower case of texts by the full mappings of the Unicode standard. -/

namespace QueryTemplate

namespace CaseRange

def image? (range : CaseRange) (point : Nat) : Option Nat :=
  if range.first ≤ point ∧ point ≤ range.last ∧ (point - range.first) % range.step = 0 then
    some (range.image + (point - range.first))
  else none

end CaseRange

namespace Text

def inRanges (ranges : List (Nat × Nat)) (c : Char) : Bool :=
  ranges.any fun range => range.1 ≤ c.toNat && c.toNat ≤ range.2

/-- A character that the tables do not mention is its own image. -/
def mapCase (ranges : List CaseRange) (sequences : List (Nat × List Nat)) (c : Char) : List Char :=
  match ranges.findSome? (·.image? c.toNat) with
  | some point => [Char.ofNat point]
  | none =>
    match sequences.lookup c.toNat with
    | some points => points.map Char.ofNat
    | none => [c]

def upperChar (c : Char) : List Char := mapCase CaseTable.upperRanges CaseTable.upperSequences c

def lowerChar (c : Char) : List Char := mapCase CaseTable.lowerRanges CaseTable.lowerSequences c

def upper (chars : List Char) : List Char := chars.flatMap upperChar

/-- Whether a cased character comes first when case-ignorable ones are passed over. -/
def meetsCased (chars : List Char) : Bool :=
  match chars.dropWhile (inRanges CaseTable.caseIgnorable) with
  | [] => false
  | c :: _ => inRanges CaseTable.cased c

/-- Lower case with the characters before in reverse order: a capital sigma that ends a word becomes
a final sigma. -/
def lowerAfter (before : List Char) : List Char → List Char
  | [] => []
  | c :: rest =>
    let image :=
      if c = 'Σ' then if meetsCased before && !meetsCased rest then ['ς'] else ['σ']
      else lowerChar c
    image ++ lowerAfter (c :: before) rest

def lower (chars : List Char) : List Char := lowerAfter [] chars

end Text

end QueryTemplate
