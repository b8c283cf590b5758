import QueryTemplate.Proofs.Reading.Grammar
import QueryTemplate.Token.Reader

set_option autoImplicit false

/- What readers give, their misses aside, from what the readers that they are made of give. -/

namespace QueryTemplate.Reader

open Grammar

variable {α β : Type} {tokens rest last : List (Located Token)}

/-- A reader fails, or it gives a value and what it leaves. -/
theorem result_eq_none_or (reader : Reader α) (tokens : List (Located Token)) :
    (reader tokens).result = none ∨ ∃ value rest, (reader tokens).result = some (value, rest) := by
  rcases Option.eq_none_or_eq_some (reader tokens).result with none | ⟨⟨value, rest⟩, some⟩
  · exact Or.inl none
  · exact Or.inr ⟨value, rest, some⟩

theorem result_bind (reader : Reader α) (next : α → Reader β) (tokens : List (Located Token)) :
    ((reader >>= next) tokens).result =
      (reader tokens).result.bind fun read => (next read.1 read.2).result := by
  change (Reader.bind reader next tokens).result = _
  unfold Reader.bind
  split
  next read => rw [read]; rfl
  next read => rw [read]; rfl

theorem result_bind_of_some {reader : Reader α} {value : α}
    (read : (reader tokens).result = some (value, rest)) (next : α → Reader β) :
    ((reader >>= next) tokens).result = (next value rest).result := by
  rw [result_bind, read, Option.bind_some]

theorem result_bind_eq_some {reader : Reader α} {next : α → Reader β} {value : β} :
    ((reader >>= next) tokens).result = some (value, rest) ↔
      ∃ read mid, (reader tokens).result = some (read, mid) ∧
        (next read mid).result = some (value, rest) := by
  rw [result_bind, Option.bind_eq_some_iff]
  exact ⟨fun ⟨⟨read, mid⟩, found, after⟩ => ⟨read, mid, found, after⟩,
    fun ⟨read, mid, found, after⟩ => ⟨(read, mid), found, after⟩⟩

theorem result_bind_of_none {reader : Reader α} (fails : (reader tokens).result = none)
    (next : α → Reader β) : ((reader >>= next) tokens).result = none := by
  rw [result_bind, fails, Option.bind_none]

@[simp] theorem result_mark (wanted : Mark) (span : Span) (rest : List (Located Token)) :
    (mark wanted (⟨.mark wanted, span⟩ :: rest)).result = some (span, rest) := by
  simp [mark]

theorem result_mark_eq_some {wanted : Mark} {span : Span} :
    (mark wanted tokens).result = some (span, rest) ↔ tokens = ⟨.mark wanted, span⟩ :: rest := by
  constructor
  · intro found
    unfold mark at found
    split at found
    next found' place after =>
      split at found
      next same =>
        cases found
        rw [same]
      next => cases found
    next => cases found
  · rintro rfl
    exact result_mark ..

theorem result_mark_of_ne {wanted : Mark}
    (other : (values tokens).head? ≠ some (.mark wanted)) : (mark wanted tokens).result = none := by
  unfold mark
  split
  next found span rest =>
    split
    next same => exact absurd (by rw [same]; rfl) other
    next => rfl
  next => rfl

theorem result_or (first second : Reader α) (tokens : List (Located Token)) :
    (first.or second tokens).result = (first tokens).result.or (second tokens).result := by
  unfold Reader.or
  split
  next read => rw [read]; rfl
  next read => rw [read]; rfl

theorem result_optional_of_some {reader : Reader α} {value : α}
    (read : (reader tokens).result = some (value, rest)) :
    (optional reader tokens).result = some (some value, rest) := by
  unfold optional
  split
  next found => rw [found] at read; cases read; rfl
  next found => rw [found] at read; cases read

theorem result_optional_of_none {reader : Reader α} (fails : (reader tokens).result = none) :
    (optional reader tokens).result = some (none, tokens) := by
  unfold optional
  split
  next found => rw [found] at fails; cases fails
  next => rfl

/-- Reading what is optional succeeds, be it with nothing. -/
theorem result_optional_isSome (reader : Reader α) (tokens : List (Located Token)) :
    ∃ value rest, (optional reader tokens).result = some (value, rest) := by
  unfold optional
  split
  all_goals exact ⟨_, _, rfl⟩

theorem result_many_of_none {reader : Reader α} (fails : (reader tokens).result = none) :
    (many reader tokens).result = some ([], tokens) := by
  rw [many]
  split
  next => rfl
  next found => rw [found] at fails; cases fails

/-- Reading many items succeeds, be it with none. -/
theorem result_many_isSome (reader : Reader α) (tokens : List (Located Token)) :
    ∃ values rest, (many reader tokens).result = some (values, rest) := by
  rw [many]
  repeat' split
  all_goals exact ⟨_, _, rfl⟩

theorem result_many_of_some {reader : Reader α} {value : α} {others : List α}
    (read : (reader tokens).result = some (value, rest)) (shorter : rest.length < tokens.length)
    (again : (many reader rest).result = some (others, last)) :
    (many reader tokens).result = some (value :: others, last) := by
  rw [many]
  split
  next found => rw [found] at read; cases read
  next found =>
    rw [found] at read
    cases read
    rw [if_pos shorter]
    split
    next more => rw [more] at again; cases again; rfl
    next more => rw [more] at again; cases again

/-- Folds the items that are read into a start, from the left. -/
def follow (item : Reader β) (step : α → β → α) (start : α) : Reader α := do
  let items ← many item
  return items.foldl step start

variable {item : Reader β} {step : α → β → α} {start : α} {value : β}

theorem result_follow_of_none (fails : (item tokens).result = none) :
    (follow item step start tokens).result = some (start, tokens) :=
  result_bind_of_some (result_many_of_none fails) _

theorem result_follow_of_some (read : (item tokens).result = some (value, rest))
    (shorter : rest.length < tokens.length) :
    (follow item step start tokens).result = (follow item step (step start value) rest).result := by
  obtain ⟨others, last, again⟩ := result_many_isSome item rest
  rw [follow, follow, result_bind_of_some (result_many_of_some read shorter again),
    result_bind_of_some again]
  rfl

end QueryTemplate.Reader
