import QueryTemplate.Proofs.Reading.Takes

set_option autoImplicit false

/- How many tokens readers take: a relation between what was read and the number of tokens taken,
which holds of a reader when it holds of the readers that it is made of. -/

namespace QueryTemplate.Reader

/-- Whatever is read from tokens that are all good is in a relation to the number of tokens taken
from their front. -/
def Yields {α : Type} (good : Located Token → Prop) (reader : Reader α)
    (post : α → Nat → Prop) : Prop :=
  ∀ tokens value rest, (∀ token ∈ tokens, good token) →
    (reader tokens).result = some (value, rest) →
    ∃ used, tokens = used ++ rest ∧ post value used.length

/-- Items one after the other, each in the relation to its own tokens. -/
inductive Sums {α : Type} (post : α → Nat → Prop) : List α → Nat → Prop
  | nil : Sums post [] 0
  | cons {value : α} {count : Nat} {values : List α} {counts : Nat} (head : post value count)
      (tail : Sums post values counts) : Sums post (value :: values) (count + counts)

theorem Parts.sums {α : Type} {post : α → Nat → Prop} {values : List α}
    {used : List (Located Token)}
    (parts : Parts (fun value used => post value used.length) values used) :
    Sums post values used.length := by
  induction parts with
  | nil => exact .nil
  | cons head _ ih =>
      rw [List.length_append]
      exact .cons head ih

namespace Yields

variable {α β : Type} {good : Located Token → Prop}

theorem pure {value : α} {post : α → Nat → Prop} (holds : post value 0) :
    Yields good (Pure.pure value : Reader α) post := Takes.pure holds

theorem bind {reader : Reader α} {next : α → Reader β} {mid : α → Nat → Prop}
    {post : β → Nat → Prop} (first : Yields good reader mid)
    (second : ∀ value count, mid value count →
      Yields good (next value) fun result others => post result (count + others)) :
    Yields good (reader >>= next) post := by
  refine Takes.bind first fun value used holds => ?_
  simp only [List.length_append]
  exact second value used.length holds

theorem mono {reader : Reader α} {post weaker : α → Nat → Prop} (strong : Yields good reader post)
    (implied : ∀ value count, post value count → weaker value count) :
    Yields good reader weaker :=
  Takes.mono strong fun value used => implied value used.length

theorem fail {post : α → Nat → Prop} : Yields good (Reader.fail : Reader α) post := Takes.fail

theorem mark (wanted : Mark) : Yields good (Reader.mark wanted) fun _ count => count = 1 := by
  refine (Takes.mark wanted).mono fun span used taken => ?_
  rw [taken]
  rfl

theorem accept (select : Token → Option α) :
    Yields good (Reader.accept select) fun read count =>
      count = 1 ∧ ∃ token, good token ∧ select token.value = some read.value ∧
        token.span = read.span := by
  refine (Takes.accept select).mono fun read used taken => ?_
  obtain ⟨token, rfl, selected⟩ := taken
  exact ⟨rfl, token, selected⟩

theorem or {first second : Reader α} {post : α → Nat → Prop} (left : Yields good first post)
    (right : Yields good second post) : Yields good (first.or second) post :=
  Takes.or left right

theorem choice {readers : List (Reader α)} {post : α → Nat → Prop}
    (each : ∀ reader ∈ readers, Yields good reader post) :
    Yields good (Reader.choice readers) post := Takes.choice each

theorem optional {reader : Reader α} {post : α → Nat → Prop} (inner : Yields good reader post) :
    Yields good (Reader.optional reader) fun read count =>
      match read with
      | some value => post value count
      | none => count = 0 := by
  refine (Takes.optional inner).mono fun read used taken => ?_
  cases read with
  | some value => exact taken
  | none => exact congrArg List.length taken

theorem many {reader : Reader α} {post : α → Nat → Prop} (inner : Yields good reader post) :
    Yields good (Reader.many reader) (Sums post) :=
  (Takes.many inner).mono fun _ _ => Parts.sums

end Yields

end QueryTemplate.Reader
