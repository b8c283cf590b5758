import QueryTemplate.Proofs.Reading.Lookahead

set_option autoImplicit false

/- What misses promise. The tokens that a reader has taken up to its furthest miss can be read on to
an end, as they can with any of the marks that it has tried there. This holds of a reader when it
holds of the readers that it is made of, if none of them looks further than to its furthest miss. -/

namespace QueryTemplate.Reader

open Grammar

variable {α β : Type}

/-- After the tokens in front and the part there are some more with which the reader comes to an end,
wherever it stands and whatever comes after that may follow. -/
def CanEnd (follow : List (Located Token) → Prop) (reader : Reader α)
    (front part : List (Located Token)) : Prop :=
  ∃ word, ∀ front' rest, values front' = values front → follow rest →
    Leaves reader (front' ++ (part ++ (word ++ rest))) rest

namespace CanEnd

variable {follow last : List (Located Token) → Prop} {reader : Reader α} {next : α → Reader β}
  {front part : List (Located Token)}

theorem mono (ends : CanEnd follow reader front part) (implied : ∀ rest, last rest → follow rest) :
    CanEnd last reader front part := by
  obtain ⟨word, leaves⟩ := ends
  exact ⟨word, fun front' rest same follows => leaves front' rest same (implied rest follows)⟩

theorem bind (ends : CanEnd follow reader front part)
    (closes : ∃ word, ∀ rest, last rest →
      follow (word ++ rest) ∧ ∀ value, Leaves (next value) (word ++ rest) rest) :
    CanEnd last (reader >>= next) front part := by
  obtain ⟨word, leaves⟩ := ends
  obtain ⟨word', closes⟩ := closes
  refine ⟨word ++ word', fun front' rest same follows => ?_⟩
  obtain ⟨follows', leaves'⟩ := closes rest follows
  rw [List.append_assoc word]
  exact (leaves front' _ same follows').bind leaves'

theorem or (ends : CanEnd follow reader front part) (other : Reader α) :
    CanEnd follow (reader.or other) front part := by
  obtain ⟨word, leaves⟩ := ends
  exact ⟨word, fun front' rest same follows => (leaves front' rest same follows).or _⟩

theorem many (ends : CanEnd follow reader front part)
    (stops : ∀ rest, last rest → follow rest ∧ Idle reader rest) :
    CanEnd last (Reader.many reader) front part := by
  obtain ⟨word, leaves⟩ := ends
  refine ⟨word, fun front' rest same follows => ?_⟩
  obtain ⟨follows', idle⟩ := stops rest follows
  exact (leaves front' rest same follows').many ⟨front' ++ part ++ word, by simp⟩ idle

end CanEnd

/-- What the reader has taken up to its furthest miss can come to an end, alone and with each mark
that it has tried there. -/
def Hopes (size : Nat) (follow : List (Located Token) → Prop) (reader : Reader α) : Prop :=
  ∀ ⦃front tail miss part⦄, (front ++ tail).length < size →
    (reader (front ++ tail)).miss = some miss → tail.length = miss.remaining →
    Tried miss.expected part → CanEnd follow reader front part

namespace Hopes

variable {size fewer : Nat} {follow last : List (Located Token) → Prop} {reader other : Reader α}
  {next : α → Reader β}

theorem bind (steady : Steady size reader) (hopes : Hopes size follow reader)
    (shrinks : ∀ tokens rest, tokens.length < size → Leaves reader tokens rest →
      rest.length < fewer)
    (alike : ∀ value value', Alike (next value) (next value'))
    (range : ∀ value, Ranges fewer (next value))
    (closes : ∃ word, ∀ rest, last rest →
      follow (word ++ rest) ∧ ∀ value, Leaves (next value) (word ++ rest) rest)
    (hopes' : ∀ value, Hopes fewer last (next value)) : Hopes size last (reader >>= next) := by
  intro front tail miss part small found there tried
  rcases result_eq_none_or reader (front ++ tail) with fails | ⟨value, mid, read⟩
  · rw [miss_bind_of_none fails] at found
    exact (hopes small found there tried).bind closes
  · rw [miss_bind_of_some read] at found
    rcases Miss.tried_of_join found tried with
      ⟨early, here, level, tried⟩ | ⟨late, found', level, tried, untried⟩
    · exact (hopes small here (there.trans level.symm) tried).bind closes
    · -- the first reader has not tried the part, so it leaves what comes after its own tokens
      have less := shrinks _ mid small ⟨value, read⟩
      obtain ⟨bound, plain⟩ := range value less found'
      obtain ⟨kept, rfl⟩ := exists_kept (steady.suffix small ⟨value, read⟩) (by omega)
      obtain ⟨word, ends⟩ := hopes' value less found' (there.trans level.symm) tried
      refine ⟨word, fun front' rest same follows => ?_⟩
      have blind := Miss.blind_of_untried there plain untried (word ++ rest)
      obtain ⟨kept', same', value', read'⟩ := steady.reads small same blind ⟨value, read⟩
      obtain ⟨result, after⟩ := alike value value' _ _ (ends kept' rest same' follows)
      exact ⟨result, (result_bind_of_some read' _).trans after⟩

theorem or (steady : Steady size reader) (hopes : Hopes size follow reader)
    (range : Ranges size other) (hopes' : Hopes size follow other) :
    Hopes size follow (reader.or other) := by
  intro front tail miss part small found there tried
  rcases result_eq_none_or reader (front ++ tail) with fails | ⟨value, mid, read⟩
  · rw [miss_or_of_none fails] at found
    rcases Miss.tried_of_join found tried with
      ⟨early, here, level, tried⟩ | ⟨late, found', level, tried, untried⟩
    · exact (hopes small here (there.trans level.symm) tried).or other
    · obtain ⟨-, plain⟩ := range small found'
      obtain ⟨word, ends⟩ := hopes' small found' (there.trans level.symm) tried
      refine ⟨word, fun front' rest same follows => ?_⟩
      have blind := Miss.blind_of_untried there plain untried (word ++ rest)
      exact leaves_or_of_none (steady.fails small same blind fails) (ends front' rest same follows)
  · rw [miss_or_of_some read] at found
    exact (hopes small found there tried).or other

theorem many (steady : Steady size reader) (hopes : Hopes size follow reader)
    (stops : ∀ rest, last rest → follow rest ∧ Idle reader rest) :
    Hopes size last (Reader.many reader) := by
  intro front
  induction length : front.length using Nat.strongRecOn generalizing front with
  | ind length ih =>
      subst length
      intro tail miss part small found there tried
      rcases idle_or_shorter reader (front ++ tail) with idle | ⟨value, mid, read, shorter⟩
      · rw [many_of_idle idle] at found
        exact (hopes small found there tried).many stops
      · rw [(many_of_leaves read shorter).1] at found
        rcases Miss.tried_of_join found tried with
          ⟨early, here, level, tried⟩ | ⟨late, found', level, tried, untried⟩
        · exact (hopes small here (there.trans level.symm) tried).many stops
        · have less := Nat.lt_trans shorter small
          obtain ⟨bound, plain⟩ := steady.many.range less found'
          obtain ⟨kept, rfl⟩ := exists_kept (steady.suffix small ⟨value, read⟩) (by omega)
          have fewer : kept.length < front.length := by simpa using shorter
          obtain ⟨word, ends⟩ := ih _ fewer rfl less found' (there.trans level.symm) tried
          refine ⟨word, fun front' rest same follows => ?_⟩
          have blind := Miss.blind_of_untried there plain untried (word ++ rest)
          obtain ⟨kept', same', value', read'⟩ := steady.reads small same blind ⟨value, read⟩
          refine ((many_of_leaves read' ?_).2 rest).mpr (ends kept' rest same' follows)
          simpa [length_eq_of_values same', length_eq_of_values same] using fewer

end Hopes

/-- Anything may follow. -/
def Anything (_ : List (Located Token)) : Prop := True

/-- The tokens up to the furthest miss tell what the reader does, and can be read on to an end. -/
structure Predictive (size : Nat) (follow : List (Located Token) → Prop) (reader : Reader α) : Prop
    extends Steady size reader where
  hopes : Hopes size follow reader

namespace Predictive

theorem zero (follow : List (Located Token) → Prop) (reader : Reader α) :
    Predictive 0 follow reader where
  suffix small := absurd small (Nat.not_lt_zero _)
  range _ _ small := absurd small (Nat.not_lt_zero _)
  missed small := absurd small (Nat.not_lt_zero _)
  fails small := absurd small (Nat.not_lt_zero _)
  reads small := absurd small (Nat.not_lt_zero _)
  hopes _ _ _ _ small := absurd small (Nat.not_lt_zero _)

variable {size fewer : Nat} {follow last : List (Located Token) → Prop} {reader other : Reader α}
  {next : α → Reader β}

theorem mono (predictive : Predictive size follow reader)
    (implied : ∀ rest, last rest → follow rest) : Predictive size last reader where
  toSteady := predictive.toSteady
  hopes _ _ _ _ small found there tried :=
    (predictive.hopes small found there tried).mono implied

theorem pure (size : Nat) (follow : List (Located Token) → Prop) (value : α) :
    Predictive size follow (Pure.pure value : Reader α) where
  toSteady := .pure size value
  hopes _ _ _ _ _ found := nomatch found

theorem one {kind : Token → Prop} {expected : List Mark} (takes : TakesOne kind expected reader)
    (some : ∃ token, kind token)
    (plain : ∀ wanted ∈ expected, wanted.IsPlain ∧ kind (.mark wanted))
    (only : ∀ wanted : Mark, wanted.IsPlain → wanted ∉ expected → ¬kind (.mark wanted)) :
    Predictive size follow reader where
  toSteady := .one takes (fun wanted within => (plain wanted within).1) only
  hopes := by
    intro front tail miss part small found there tried
    obtain rfl := takes.of_miss found
    have level : tail.length = front.length + tail.length := there.trans List.length_append
    obtain rfl : front = [] := List.eq_nil_of_length_eq_zero (by omega)
    rcases tried with rfl | ⟨wanted, within, rfl⟩
    · obtain ⟨token, holds⟩ := some
      refine ⟨[⟨token, default⟩], fun front' rest same _ => ?_⟩
      obtain rfl := List.map_eq_nil_iff.mp same
      exact takes.leaves_cons holds default rest
    · refine ⟨[], fun front' rest same _ => ?_⟩
      obtain rfl := List.map_eq_nil_iff.mp same
      exact takes.leaves_cons (plain wanted within).2 default rest

theorem mark {wanted : Mark} (plain : wanted.IsPlain) :
    Predictive size follow (Reader.mark wanted) := by
  refine .one (takesOne_mark wanted) ⟨_, rfl⟩ ?_ ?_
  · rintro _ (_ | ⟨_, ⟨⟩⟩)
    exact ⟨plain, rfl⟩
  · rintro other - untried same
    cases same
    exact untried List.mem_cons_self

theorem accept {select : Token → Option α} (some : ∃ token value, select token = some value)
    (only : ∀ wanted : Mark, wanted.IsPlain → select (.mark wanted) = none) :
    Predictive size follow (Reader.accept select) := by
  refine .one (takesOne_accept select) some (fun _ within => nomatch within) ?_
  rintro wanted plain - ⟨value, found⟩
  rw [only wanted plain] at found
  cases found

theorem bind_of_shrinks (predictive : Predictive size follow reader)
    (shrinks : ∀ tokens rest, tokens.length < size → Leaves reader tokens rest →
      rest.length < fewer)
    (alike : ∀ value value', Alike (next value) (next value'))
    (closes : ∃ word, ∀ rest, last rest →
      follow (word ++ rest) ∧ ∀ value, Leaves (next value) (word ++ rest) rest)
    (later : ∀ value, Predictive fewer last (next value)) :
    Predictive size last (reader >>= next) where
  toSteady := predictive.toSteady.bind shrinks alike fun value => (later value).toSteady
  hopes := predictive.hopes.bind predictive.toSteady shrinks alike
    (fun value => (later value).range) closes fun value => (later value).hopes

theorem bind (predictive : Predictive size follow reader)
    (alike : ∀ value value', Alike (next value) (next value'))
    (closes : ∃ word, ∀ rest, last rest →
      follow (word ++ rest) ∧ ∀ value, Leaves (next value) (word ++ rest) rest)
    (later : ∀ value, Predictive size last (next value)) :
    Predictive size last (reader >>= next) := by
  refine predictive.bind_of_shrinks (fun tokens rest small leaves => ?_) alike closes later
  exact Nat.lt_of_le_of_lt (predictive.suffix small leaves).length_le small

theorem bind_anything (predictive : Predictive size Anything reader)
    (alike : ∀ value value', Alike (next value) (next value'))
    (closes : ∃ word, ∀ rest, last rest → ∀ value, Leaves (next value) (word ++ rest) rest)
    (later : ∀ value, Predictive size last (next value)) :
    Predictive size last (reader >>= next) := by
  obtain ⟨word, ends⟩ := closes
  exact predictive.bind alike ⟨word, fun rest follows => ⟨trivial, ends rest follows⟩⟩ later

theorem mark_then {next : Reader β} {wanted : Mark} (plain : wanted.IsPlain)
    (closes : ∃ word, ∀ rest, last rest → Leaves next (word ++ rest) rest)
    (later : Predictive size last next) :
    Predictive size last (do let _ ← Reader.mark wanted; next) := by
  obtain ⟨word, ends⟩ := closes
  exact (mark plain).bind_anything (fun _ _ => .refl _)
    ⟨word, fun rest follows _ => ends rest follows⟩ fun _ => later

/-- One token less is left after a mark. -/
theorem after_mark {next : Reader β} {wanted : Mark} (plain : wanted.IsPlain)
    (closes : ∃ word, ∀ rest, last rest → Leaves next (word ++ rest) rest)
    (later : Predictive size last next) :
    Predictive (size + 1) last (do let _ ← Reader.mark wanted; next) := by
  have marked : Predictive (size + 1) Anything (Reader.mark wanted) := .mark plain
  obtain ⟨word, ends⟩ := closes
  refine marked.bind_of_shrinks (fun tokens rest small leaves => ?_) (fun _ _ => .refl _)
    ⟨word, fun rest follows => ⟨trivial, fun _ => ends rest follows⟩⟩ fun _ => later
  obtain ⟨token, rfl, -⟩ := (takesOne_mark wanted).exists_cons leaves
  exact Nat.lt_of_succ_lt_succ small

theorem map (predictive : Predictive size follow reader) (make : α → β) :
    Predictive size follow (do let value ← reader; return make value) := by
  refine predictive.bind (fun _ _ => .pure _ _) ⟨[], fun rest follows => ?_⟩ fun _ => .pure _ _ _
  exact ⟨follows, fun _ => leaves_pure _ _⟩

theorem or (predictive : Predictive size follow reader)
    (predictive' : Predictive size follow other) : Predictive size follow (reader.or other) where
  toSteady := predictive.toSteady.or predictive'.toSteady
  hopes := predictive.hopes.or predictive.toSteady predictive'.range predictive'.hopes

theorem choice {readers : List (Reader α)} (present : readers ≠ [])
    (each : ∀ reader ∈ readers, Predictive size follow reader) :
    Predictive size follow (Reader.choice readers) := by
  match readers with
  | [] => exact absurd rfl present
  | [reader] => exact each reader List.mem_cons_self
  | reader :: next :: others =>
      exact (each reader List.mem_cons_self).or
        (choice (List.cons_ne_nil _ _) fun other within =>
          each other (List.mem_cons_of_mem _ within))

theorem optional (predictive : Predictive size follow reader) :
    Predictive size follow (Reader.optional reader) := by
  rw [optional_eq_or]
  exact (predictive.map some).or (.pure _ _ _)

theorem many (predictive : Predictive size follow reader)
    (stops : ∀ rest, last rest → follow rest ∧ Idle reader rest) :
    Predictive size last (Reader.many reader) where
  toSteady := predictive.toSteady.many
  hopes := predictive.hopes.many predictive.toSteady stops

theorem many_anything (predictive : Predictive size Anything reader)
    (idle : ∀ rest, last rest → Idle reader rest) : Predictive size last (Reader.many reader) :=
  predictive.many fun rest follows => ⟨trivial, idle rest follows⟩

end Predictive

end QueryTemplate.Reader
