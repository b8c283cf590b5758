import QueryTemplate.Expr.Reader
import QueryTemplate.Proofs.Reading.Results

set_option autoImplicit false

/- The misses of readers: which of two is the further one, what other tokens would be missed in the
same way, and how the misses of readers come from those of the readers that they are made of. -/

namespace QueryTemplate

open Grammar

/-- A mark that stands for no value, so that it is read only where it is asked for. -/
def Mark.IsPlain (wanted : Mark) : Prop := Expr.literalOf? (.mark wanted) = none

instance (wanted : Mark) : Decidable wanted.IsPlain :=
  inferInstanceAs (Decidable (Expr.literalOf? (.mark wanted) = none))

/-- Nothing, or a mark that was tried. -/
def Tried (expected : List Mark) (part : List (Located Token)) : Prop :=
  part = [] ∨ ∃ wanted ∈ expected, part = [⟨.mark wanted, default⟩]

/-- The other tail begins with the same token, or with a plain mark that was not tried. -/
def Refused (expected : List Mark) (tail other : List (Located Token)) : Prop :=
  (values other).head? = (values tail).head? ∨
    ∃ wanted : Mark, (values other).head? = some (.mark wanted) ∧ wanted.IsPlain ∧
      wanted ∉ expected

theorem Refused.mono {expected fewer : List Mark} {tail other : List (Located Token)}
    (refused : Refused expected tail other) (contained : fewer ⊆ expected) :
    Refused fewer tail other := by
  rcases refused with same | ⟨wanted, first, plain, untried⟩
  · exact Or.inl same
  · exact Or.inr ⟨wanted, first, plain, fun tried => untried (contained tried)⟩

namespace Miss

variable {first second : Option Miss} {joined : Miss} {tail other part : List (Located Token)}

/-- One of two misses is further than the other, or they are at one place. -/
theorem join_cases (first second : Option Miss) :
    join first second = first ∧
        (∀ late, second = some late → ∃ early, first = some early ∧
          early.remaining < late.remaining) ∨
      join first second = second ∧
        (∀ early, first = some early → ∃ late, second = some late ∧
          late.remaining < early.remaining) ∨
      ∃ early late, first = some early ∧ second = some late ∧
        early.remaining = late.remaining ∧
        join first second = some ⟨early.remaining, early.expected ++ late.expected⟩ := by
  match first, second with
  | none, none => exact Or.inl ⟨rfl, fun _ found => nomatch found⟩
  | some early, none => exact Or.inl ⟨rfl, fun _ found => nomatch found⟩
  | none, some late => exact Or.inr (Or.inl ⟨rfl, fun _ found => nomatch found⟩)
  | some early, some late =>
      rcases Nat.lt_trichotomy early.remaining late.remaining with further | same | further
      · refine Or.inl ⟨by simp [join, further], ?_⟩
        rintro _ ⟨⟩
        exact ⟨early, rfl, further⟩
      · refine Or.inr (Or.inr ⟨early, late, rfl, rfl, same, ?_⟩)
        simp [join, same]
      · refine Or.inr (Or.inl ⟨by simp [join, further, Nat.lt_asymm further], ?_⟩)
        rintro _ ⟨⟩
        exact ⟨late, rfl, further⟩

/-- A later miss that is further than the earlier one. -/
theorem join_of_further {late : Miss}
    (further : ∀ early, first = some early → late.remaining < early.remaining) :
    join first (some late) = some late := by
  rcases join_cases first (some late) with ⟨-, more⟩ | ⟨same, -⟩ | ⟨early, _, here, ⟨⟩, level, -⟩
  · obtain ⟨early, here, nearer⟩ := more late rfl
    exact absurd (further early here) (Nat.lt_asymm nearer)
  · exact same
  · exact absurd level (Nat.ne_of_gt (further early here))

/-- A later miss that is not as far as the earlier one. -/
theorem join_of_nearer {early : Miss}
    (nearer : ∀ late, second = some late → early.remaining < late.remaining) :
    join (some early) second = some early := by
  rcases join_cases (some early) second with ⟨same, -⟩ | ⟨-, more⟩ | ⟨_, late, ⟨⟩, there, level, -⟩
  · exact same
  · obtain ⟨late, there, further⟩ := more early rfl
    exact absurd (nearer late there) (Nat.lt_asymm further)
  · exact absurd level (Nat.ne_of_lt (nearer late there))

theorem exists_join (present : (∃ early, first = some early) ∨ ∃ late, second = some late) :
    ∃ joined, join first second = some joined := by
  rcases join_cases first second with ⟨same, more⟩ | ⟨same, more⟩ | ⟨_, _, -, -, -, same⟩
  · rcases present with ⟨early, found⟩ | ⟨late, found⟩
    · exact ⟨early, by rw [same, found]⟩
    · obtain ⟨early, found, -⟩ := more late found
      exact ⟨early, by rw [same, found]⟩
  · rcases present with ⟨early, found⟩ | ⟨late, found⟩
    · obtain ⟨late, found, -⟩ := more early found
      exact ⟨late, by rw [same, found]⟩
    · exact ⟨late, by rw [same, found]⟩
  · exact ⟨_, same⟩

/-- The miss is among so many tokens, and no mark that stands for a value is tried there. -/
def InRange (bound : Nat) (miss : Miss) : Prop :=
  miss.remaining ≤ bound ∧ ∀ wanted ∈ miss.expected, wanted.IsPlain

theorem InRange.of_join {bound : Nat} (front : ∀ early, first = some early → early.InRange bound)
    (back : ∀ late, second = some late → late.InRange bound)
    (found : join first second = some joined) : joined.InRange bound := by
  rcases join_cases first second with ⟨same, -⟩ | ⟨same, -⟩ |
    ⟨early, late, here, there, level, same⟩
  · exact front joined (same ▸ found)
  · exact back joined (same ▸ found)
  · rw [same] at found
    cases found
    refine ⟨(front early here).1, fun wanted within => ?_⟩
    rcases List.mem_append.mp within with within | within
    · exact (front early here).2 wanted within
    · exact (back late there).2 wanted within

/-- Reading has missed nothing beyond the first token of the tail, and would miss the first token of
the other one in the same way. -/
def Blind (miss? : Option Miss) (tail other : List (Located Token)) : Prop :=
  ∀ miss, miss? = some miss → tail.length ≤ miss.remaining ∧
    (miss.remaining = tail.length → Refused miss.expected tail other)

theorem Blind.of_join (blind : Blind (join first second) tail other) :
    Blind first tail other ∧ Blind second tail other := by
  rcases join_cases first second with ⟨same, more⟩ | ⟨same, more⟩ |
    ⟨early, late, here, there, level, same⟩
  · rw [same] at blind
    refine ⟨blind, fun late found => ?_⟩
    obtain ⟨early, here, further⟩ := more late found
    have least := (blind early here).1
    exact ⟨by omega, fun level => absurd level (by omega)⟩
  · rw [same] at blind
    refine ⟨fun early found => ?_, blind⟩
    obtain ⟨late, there, further⟩ := more early found
    have least := (blind late there).1
    exact ⟨by omega, fun level => absurd level (by omega)⟩
  · rw [same] at blind
    obtain ⟨least, refused⟩ := blind _ rfl
    subst here there
    refine ⟨fun _ found => ?_, fun _ found => ?_⟩
    · cases found
      exact ⟨least, fun level => (refused level).mono (List.subset_append_left _ _)⟩
    · cases found
      rw [level] at least refused
      exact ⟨least, fun level => (refused level).mono (List.subset_append_right _ _)⟩

/-- A part that was tried at the furthest miss was tried at the first one, or else only at the
second one. -/
theorem tried_of_join (found : join first second = some joined)
    (tried : Tried joined.expected part) :
    (∃ early, first = some early ∧ early.remaining = joined.remaining ∧
        Tried early.expected part) ∨
      ∃ late, second = some late ∧ late.remaining = joined.remaining ∧ Tried late.expected part ∧
        ∀ early, first = some early → joined.remaining ≤ early.remaining ∧
          (early.remaining = joined.remaining → ∃ wanted ∈ late.expected,
            part = [⟨.mark wanted, default⟩] ∧ wanted ∉ early.expected) := by
  rcases join_cases first second with ⟨same, more⟩ | ⟨same, more⟩ |
    ⟨early, late, here, there, level, same⟩
  · exact Or.inl ⟨joined, same ▸ found, rfl, tried⟩
  · have there := same ▸ found
    refine Or.inr ⟨joined, there, rfl, tried, fun early here => ?_⟩
    obtain ⟨late, found', further⟩ := more early here
    rw [there] at found'
    cases found'
    exact ⟨Nat.le_of_lt further, fun level => absurd level (by omega)⟩
  · rw [same] at found
    cases found
    by_cases before : Tried early.expected part
    · exact Or.inl ⟨early, here, rfl, before⟩
    · rcases tried with rfl | ⟨wanted, within, rfl⟩
      · exact absurd (Or.inl rfl) before
      · have untried : wanted ∉ early.expected := fun member =>
          before (Or.inr ⟨wanted, member, rfl⟩)
        have member := (List.mem_append.mp within).resolve_left untried
        refine Or.inr ⟨late, there, level.symm, Or.inr ⟨wanted, member, rfl⟩, ?_⟩
        intro other found'
        rw [here] at found'
        cases found'
        exact ⟨Nat.le_refl _, fun _ => ⟨wanted, member, rfl, untried⟩⟩

/-- A joined miss is where one of the two is. -/
theorem remaining_of_join (found : join first second = some joined) :
    (∃ early, first = some early ∧ early.remaining = joined.remaining) ∨
      ∃ late, second = some late ∧ late.remaining = joined.remaining := by
  rcases tried_of_join found (Or.inl rfl) with ⟨early, here, level, -⟩ | ⟨late, there, level, -, -⟩
  · exact Or.inl ⟨early, here, level⟩
  · exact Or.inr ⟨late, there, level⟩

/-- What was tried only at the second miss would not have changed the first. -/
theorem blind_of_untried {late : Miss} (there : tail.length = joined.remaining)
    (plain : ∀ wanted ∈ late.expected, wanted.IsPlain)
    (before : ∀ early, first = some early → joined.remaining ≤ early.remaining ∧
      (early.remaining = joined.remaining → ∃ wanted ∈ late.expected,
        part = [⟨.mark wanted, default⟩] ∧ wanted ∉ early.expected))
    (later : List (Located Token)) : Blind first tail (part ++ later) := by
  intro early found
  obtain ⟨least, level⟩ := before early found
  refine ⟨by omega, fun same => ?_⟩
  obtain ⟨wanted, member, rfl, untried⟩ := level (by omega)
  exact Or.inr ⟨wanted, rfl, plain wanted member, untried⟩

end Miss

theorem Outcome.eq_of_parts {α : Type} {first second : Outcome α}
    (result : first.result = second.result) (miss : first.miss = second.miss) : first = second := by
  cases first
  cases second
  cases result
  cases miss
  rfl

namespace Reader

variable {α β : Type} {reader : Reader α} {tokens rest last : List (Located Token)} {value : α}

theorem miss_bind_of_none (fails : (reader tokens).result = none) (next : α → Reader β) :
    ((reader >>= next) tokens).miss = (reader tokens).miss := by
  change (Reader.bind reader next tokens).miss = _
  unfold Reader.bind
  split
  next read => rw [read]
  next read =>
    rw [read] at fails
    cases fails

theorem miss_bind_of_some (read : (reader tokens).result = some (value, rest))
    (next : α → Reader β) :
    ((reader >>= next) tokens).miss = Miss.join (reader tokens).miss (next value rest).miss := by
  change (Reader.bind reader next tokens).miss = _
  unfold Reader.bind
  split
  next found =>
    rw [found] at read
    cases read
  next found =>
    rw [found] at read
    cases read
    rw [found]

theorem miss_or_of_none (fails : (reader tokens).result = none) (other : Reader α) :
    (reader.or other tokens).miss = Miss.join (reader tokens).miss (other tokens).miss := by
  unfold Reader.or
  split
  next read =>
    rw [read] at fails
    cases fails
  next read => rw [read]

theorem miss_or_of_some (read : (reader tokens).result = some (value, rest)) (other : Reader α) :
    (reader.or other tokens).miss = (reader tokens).miss := by
  unfold Reader.or
  split
  next found => rw [found]
  next found =>
    rw [found] at read
    cases read

theorem miss_optional (reader : Reader α) (tokens : List (Located Token)) :
    (optional reader tokens).miss = (reader tokens).miss := by
  unfold optional
  split
  next read => rw [read]
  next read => rw [read]

end Reader

end QueryTemplate
