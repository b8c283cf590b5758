import QueryTemplate.Expr.Reader
import QueryTemplate.Proofs.Reading.Misses

set_option autoImplicit false

/- How far readers look: no further than to their furthest miss, so what comes after that token
makes no difference to them. This holds of a reader when it holds of the readers that it is made of.
-/

namespace QueryTemplate.Reader

open Grammar

variable {α β : Type}

/-- The tokens are read, and the rest is left. -/
def Leaves (reader : Reader α) (tokens rest : List (Located Token)) : Prop :=
  ∃ value, (reader tokens).result = some (value, rest)

section

variable {reader : Reader α} {next : α → Reader β} {tokens mid rest last : List (Located Token)}

theorem leaves_pure (value : α) (tokens : List (Located Token)) :
    Leaves (pure value) tokens tokens := ⟨value, rfl⟩

theorem leaves_mark (wanted : Mark) (span : Span) (rest : List (Located Token)) :
    Leaves (mark wanted) (⟨.mark wanted, span⟩ :: rest) rest := ⟨span, result_mark ..⟩

theorem Leaves.bind (read : Leaves reader tokens mid)
    (later : ∀ value, Leaves (next value) mid rest) : Leaves (reader >>= next) tokens rest := by
  obtain ⟨value, found⟩ := read
  obtain ⟨result, after⟩ := later value
  exact ⟨result, (result_bind_of_some found next).trans after⟩

theorem Leaves.map (read : Leaves reader tokens rest) (make : α → β) :
    Leaves (do let value ← reader; return make value) tokens rest :=
  read.bind fun value => leaves_pure (make value) rest

theorem leaves_optional_of_none (fails : (reader tokens).result = none) :
    Leaves (optional reader) tokens tokens := ⟨none, result_optional_of_none fails⟩

/-- What is optional is read, or nothing is. -/
theorem optional_eq_or (reader : Reader α) :
    optional reader = (reader >>= fun value => pure (some value)).or (pure none) := by
  funext tokens
  rcases result_eq_none_or reader tokens with fails | ⟨value, rest, read⟩
  · have none : ((reader >>= fun value => pure (some value)) tokens).result = none :=
      result_bind_of_none fails _
    refine Outcome.eq_of_parts ?_ ?_
    · rw [result_optional_of_none fails, result_or, none]
      rfl
    · rw [miss_optional, miss_or_of_none none, miss_bind_of_none fails]
      exact (Miss.join_none_right _).symm
  · have read' := result_bind_of_some read fun value => (pure (some value) : Reader (Option α))
    refine Outcome.eq_of_parts ?_ ?_
    · rw [result_optional_of_some read, result_or, read']
      rfl
    · rw [miss_optional, miss_or_of_some read', miss_bind_of_some read]
      exact (Miss.join_none_right _).symm

theorem Leaves.or (leaves : Leaves reader tokens rest) (other : Reader α) :
    Leaves (reader.or other) tokens rest := by
  obtain ⟨value, read⟩ := leaves
  exact ⟨value, by rw [result_or, read, Option.some_or]⟩

theorem leaves_or_of_none {other : Reader α} (fails : (reader tokens).result = none)
    (leaves : Leaves other tokens rest) : Leaves (reader.or other) tokens rest := by
  obtain ⟨value, read⟩ := leaves
  exact ⟨value, by rw [result_or, fails, Option.none_or, read]⟩

/-- Where the one reader leaves something, the other one does as well. -/
def Alike (first second : Reader α) : Prop :=
  ∀ tokens rest, Leaves first tokens rest → Leaves second tokens rest

theorem Alike.refl (reader : Reader α) : Alike reader reader := fun _ _ leaves => leaves

theorem Alike.pure (value value' : α) : Alike (Pure.pure value : Reader α) (Pure.pure value') := by
  rintro tokens rest ⟨_, read⟩
  cases read
  exact leaves_pure value' _

theorem Alike.bind {next' : α → Reader β} (later : ∀ value, Alike (next value) (next' value)) :
    Alike (reader >>= next) (reader >>= next') := by
  rintro tokens rest ⟨result, read⟩
  obtain ⟨value, mid, before, after⟩ := result_bind_eq_some.mp read
  obtain ⟨result', after'⟩ := later value mid rest ⟨result, after⟩
  exact ⟨result', (result_bind_of_some before _).trans after'⟩

theorem Alike.fails {other : Reader α} (alike : Alike other reader)
    (fails : (reader tokens).result = none) : (other tokens).result = none := by
  rcases result_eq_none_or other tokens with none | ⟨value, rest, read⟩
  · exact none
  · obtain ⟨_, found⟩ := alike tokens rest ⟨value, read⟩
    rw [fails] at found
    cases found

/-- The reader takes nothing from the tokens, be it that it fails. -/
def Idle (reader : Reader α) (tokens : List (Located Token)) : Prop :=
  ∀ rest, Leaves reader tokens rest → tokens.length ≤ rest.length

theorem idle_of_none (fails : (reader tokens).result = none) : Idle reader tokens := by
  rintro rest ⟨value, read⟩
  rw [fails] at read
  cases read

theorem many_of_idle (idle : Idle reader tokens) :
    many reader tokens = ⟨some ([], tokens), (reader tokens).miss⟩ := by
  rw [many]
  split
  next read => rw [read]
  next value rest miss read =>
    have long := idle rest ⟨value, by rw [read]⟩
    rw [if_neg (Nat.not_lt.mpr long), read]

theorem many_of_leaves {value : α} (read : (reader tokens).result = some (value, rest))
    (shorter : rest.length < tokens.length) :
    (many reader tokens).miss = Miss.join (reader tokens).miss (many reader rest).miss ∧
      ∀ last, Leaves (many reader) tokens last ↔ Leaves (many reader) rest last := by
  obtain ⟨values, left, again⟩ := result_many_isSome reader rest
  have whole := result_many_of_some read shorter again
  constructor
  · rw [many]
    split
    next found =>
      rw [found] at read
      cases read
    next found =>
      rw [found] at read
      cases read
      rw [if_pos shorter, found]
      split
      next more => rw [more]
      next more => rw [more]
  · rintro last
    constructor
    · rintro ⟨_, found⟩
      rw [whole] at found
      cases found
      exact ⟨values, again⟩
    · rintro ⟨_, found⟩
      rw [again] at found
      cases found
      exact ⟨_, whole⟩

theorem leaves_many_of_idle (idle : Idle reader tokens) : Leaves (many reader) tokens tokens :=
  ⟨[], by rw [many_of_idle idle]⟩

theorem Leaves.many (leaves : Leaves reader tokens rest) (suffix : rest <:+ tokens)
    (idle : Idle reader rest) : Leaves (Reader.many reader) tokens rest := by
  have alone := leaves_many_of_idle idle
  rcases Nat.lt_or_eq_of_le suffix.length_le with shorter | same
  · obtain ⟨value, read⟩ := leaves
    exact ((many_of_leaves read shorter).2 rest).mpr alone
  · rwa [← suffix.eq_of_length same]

theorem idle_or_shorter (reader : Reader α) (tokens : List (Located Token)) :
    Idle reader tokens ∨
      ∃ value rest, (reader tokens).result = some (value, rest) ∧ rest.length < tokens.length := by
  rcases result_eq_none_or reader tokens with fails | ⟨value, rest, read⟩
  · exact Or.inl (idle_of_none fails)
  · by_cases shorter : rest.length < tokens.length
    · exact Or.inr ⟨value, rest, read, shorter⟩
    · refine Or.inl ?_
      rintro other ⟨_, found⟩
      rw [read] at found
      cases found
      exact Nat.le_of_not_lt shorter

end

/-- The reader takes one token, if it is of a kind, and misses where there is no such token. -/
def TakesOne (kind : Token → Prop) (expected : List Mark) (reader : Reader α) : Prop :=
  ∀ tokens, (∃ token rest value, tokens = token :: rest ∧ kind token.value ∧
      reader tokens = ⟨some (value, rest), none⟩) ∨
    (∀ token, (values tokens).head? = some token → ¬kind token) ∧
      reader tokens = ⟨none, some ⟨tokens.length, expected⟩⟩

theorem takesOne_mark (wanted : Mark) :
    TakesOne (· = .mark wanted) [wanted] (mark wanted) := by
  intro tokens
  by_cases first : (values tokens).head? = some (.mark wanted)
  · cases tokens with
    | nil => cases first
    | cons token rest =>
        obtain ⟨value, span⟩ := token
        obtain rfl : value = .mark wanted := Option.some.inj first
        exact Or.inl ⟨_, rest, span, rfl, rfl, by simp [mark]⟩
  · refine Or.inr ⟨fun token found same => first (same ▸ found), ?_⟩
    unfold mark
    split
    next found span rest =>
      have other : found ≠ wanted := fun same => first (same ▸ rfl)
      rw [if_neg other]
    next => rfl

theorem takesOne_accept (select : Token → Option α) :
    TakesOne (fun token => ∃ value, select token = some value) [] (accept select) := by
  intro tokens
  cases tokens with
  | nil => exact Or.inr ⟨fun _ found => (nomatch found), rfl⟩
  | cons token rest =>
      cases selected : select token.value with
      | none =>
          refine Or.inr ⟨?_, by simp [accept, selected]⟩
          rintro _ ⟨⟩ ⟨value, found⟩
          rw [selected] at found
          cases found
      | some value =>
          exact Or.inl ⟨token, rest, ⟨value, token.span⟩, rfl, ⟨value, selected⟩,
            by simp [accept, selected]⟩

section

variable {kind : Token → Prop} {expected : List Mark} {reader : Reader α}
  {tokens rest : List (Located Token)}

theorem TakesOne.result_eq_none (takes : TakesOne kind expected reader)
    (other : ∀ token, (values tokens).head? = some token → ¬kind token) :
    (reader tokens).result = none := by
  rcases takes tokens with ⟨token, rest, value, rfl, holds, -⟩ | ⟨-, whole⟩
  · exact absurd holds (other token.value rfl)
  · rw [whole]

theorem TakesOne.leaves_cons (takes : TakesOne kind expected reader) {token : Token}
    (holds : kind token) (span : Span) (rest : List (Located Token)) :
    Leaves reader (⟨token, span⟩ :: rest) rest := by
  rcases takes (⟨token, span⟩ :: rest) with ⟨_, _, value, same, -, whole⟩ | ⟨other, -⟩
  · cases same
    exact ⟨value, by rw [whole]⟩
  · exact absurd holds (other token rfl)

theorem TakesOne.exists_cons (takes : TakesOne kind expected reader)
    (leaves : Leaves reader tokens rest) :
    ∃ token, tokens = token :: rest ∧ kind token.value ∧ (reader tokens).miss = none := by
  obtain ⟨value, read⟩ := leaves
  rcases takes tokens with ⟨token, _, _, same, holds, whole⟩ | ⟨-, whole⟩
  · rw [whole] at read
    cases read
    exact ⟨token, same, holds, by rw [whole]⟩
  · rw [whole] at read
    cases read

theorem TakesOne.head_of_none (takes : TakesOne kind expected reader)
    (fails : (reader tokens).result = none) :
    (∀ token, (values tokens).head? = some token → ¬kind token) ∧
      (reader tokens).miss = some ⟨tokens.length, expected⟩ := by
  rcases takes tokens with ⟨_, _, _, -, -, whole⟩ | ⟨other, whole⟩
  · rw [whole] at fails
    cases fails
  · exact ⟨other, by rw [whole]⟩

theorem TakesOne.map (takes : TakesOne kind expected reader) (make : α → β) :
    TakesOne kind expected (do let value ← reader; return make value) := by
  intro tokens
  rcases takes tokens with ⟨token, rest, value, same, holds, whole⟩ | ⟨other, whole⟩
  · refine Or.inl ⟨token, rest, make value, same, holds, ?_⟩
    change Reader.bind reader _ tokens = _
    unfold Reader.bind
    rw [whole]
    rfl
  · refine Or.inr ⟨other, ?_⟩
    change Reader.bind reader _ tokens = _
    unfold Reader.bind
    rw [whole]

theorem TakesOne.of_miss (takes : TakesOne kind expected reader) {miss : Miss}
    (found : (reader tokens).miss = some miss) : miss = ⟨tokens.length, expected⟩ := by
  rcases takes tokens with ⟨_, _, _, -, -, whole⟩ | ⟨-, whole⟩
  · rw [whole] at found
    cases found
  · rw [whole] at found
    exact (Option.some.inj found).symm

end

/-- With fewer tokens than `size`, all misses are among the tokens. -/
def Ranges (size : Nat) (reader : Reader α) : Prop :=
  ∀ ⦃tokens miss⦄, tokens.length < size → (reader tokens).miss = some miss →
    miss.InRange tokens.length

/-- What the reader does with fewer tokens than `size` is told by the tokens up to its furthest
miss: it does the same with all tokens that begin in that way. -/
structure Steady (size : Nat) (reader : Reader α) : Prop where
  suffix {tokens rest : List (Located Token)} (small : tokens.length < size)
    (leaves : Leaves reader tokens rest) : rest <:+ tokens
  range : Ranges size reader
  missed {tokens : List (Located Token)} (small : tokens.length < size)
    (fails : (reader tokens).result = none) : ∃ miss, (reader tokens).miss = some miss
  fails {front tail front' other : List (Located Token)} (small : (front ++ tail).length < size)
    (same : values front' = values front)
    (blind : Miss.Blind (reader (front ++ tail)).miss tail other)
    (fails : (reader (front ++ tail)).result = none) : (reader (front' ++ other)).result = none
  reads {front tail front' other kept : List (Located Token)}
    (small : (front ++ tail).length < size) (same : values front' = values front)
    (blind : Miss.Blind (reader (front ++ tail)).miss tail other)
    (leaves : Leaves reader (front ++ tail) (kept ++ tail)) :
    ∃ kept', values kept' = values kept ∧ Leaves reader (front' ++ other) (kept' ++ other)

theorem exists_kept {front tail rest : List (Located Token)} (suffix : rest <:+ front ++ tail)
    (long : tail.length ≤ rest.length) : ∃ kept, rest = kept ++ tail := by
  obtain ⟨kept, rfl⟩ :=
    List.suffix_of_suffix_length_le (List.suffix_append front tail) suffix long
  exact ⟨kept, rfl⟩

theorem length_eq_of_values {tokens others : List (Located Token)}
    (same : values others = values tokens) : others.length = tokens.length := by
  rw [← length_values, same, length_values]

namespace Steady

variable {size : Nat} {reader other : Reader α} {next : α → Reader β}
  {front tail front' later : List (Located Token)}

/-- Where reading fails only after the tail begins, there are all tokens of the tail. -/
theorem long_of_fails (steady : Steady size reader) {tokens : List (Located Token)}
    (small : tokens.length < size) (fails : (reader tokens).result = none)
    (blind : Miss.Blind (reader tokens).miss tail later) : tail.length ≤ tokens.length := by
  obtain ⟨miss, found⟩ := steady.missed small fails
  exact Nat.le_trans (blind miss found).1 (steady.range small found).1

theorem pure (size : Nat) (value : α) : Steady size (Pure.pure value : Reader α) where
  suffix := by
    rintro tokens rest - ⟨_, read⟩
    cases read
    exact List.suffix_rfl
  range _ _ _ found := nomatch found
  missed _ fails := nomatch fails
  fails _ _ _ fails := nomatch fails
  reads := by
    rintro front tail front' later kept - same - ⟨_, read⟩
    have whole : front ++ tail = kept ++ tail := congrArg Prod.snd (Option.some.inj read)
    rw [← List.append_cancel_right whole]
    exact ⟨front', same, leaves_pure value _⟩

theorem one {kind : Token → Prop} {expected : List Mark} (takes : TakesOne kind expected reader)
    (plain : ∀ wanted ∈ expected, wanted.IsPlain)
    (only : ∀ wanted : Mark, wanted.IsPlain → wanted ∉ expected → ¬kind (.mark wanted)) :
    Steady size reader where
  suffix _ leaves := by
    obtain ⟨token, rfl, -⟩ := takes.exists_cons leaves
    exact List.suffix_cons ..
  range _ _ _ found := by
    obtain rfl := takes.of_miss found
    exact ⟨Nat.le_refl _, plain⟩
  missed _ fails := ⟨_, (takes.head_of_none fails).2⟩
  fails := by
    intro front tail front' later _ same blind fails
    obtain ⟨none, missed⟩ := takes.head_of_none fails
    refine takes.result_eq_none fun token found => ?_
    rw [values_append, same] at found
    cases front with
    | nil =>
        -- the other tail begins with the same token, or with a plain mark that was not tried
        rcases (blind _ missed).2 rfl with alike | ⟨wanted, first, unvalued, untried⟩
        · exact none token (alike ▸ found)
        · cases first.symm.trans found
          exact only wanted unvalued untried
    | cons head front => exact none token found
  reads := by
    intro front tail front' later kept _ same _ leaves
    obtain ⟨token, split, holds, -⟩ := takes.exists_cons leaves
    rw [← List.cons_append] at split
    obtain rfl := List.append_cancel_right split
    obtain ⟨span, kept', rfl, alike⟩ := values_eq_cons same
    exact ⟨kept', alike, takes.leaves_cons holds span _⟩

theorem bind {fewer : Nat} (steady : Steady size reader)
    (shrinks : ∀ tokens rest, tokens.length < size → Leaves reader tokens rest →
      rest.length < fewer)
    (alike : ∀ value value', Alike (next value) (next value'))
    (steady' : ∀ value, Steady fewer (next value)) : Steady size (reader >>= next) where
  suffix := by
    rintro tokens rest small ⟨result, read⟩
    obtain ⟨value, mid, before, after⟩ := result_bind_eq_some.mp read
    have less := shrinks tokens mid small ⟨value, before⟩
    exact ((steady' value).suffix less ⟨result, after⟩).trans
      (steady.suffix small ⟨value, before⟩)
  range := by
    intro tokens miss small found
    rcases result_eq_none_or reader tokens with fails | ⟨value, mid, read⟩
    · rw [miss_bind_of_none fails] at found
      exact steady.range small found
    · rw [miss_bind_of_some read] at found
      have less := shrinks tokens mid small ⟨value, read⟩
      have short := (steady.suffix small ⟨value, read⟩).length_le
      refine .of_join (fun early here => steady.range small here) (fun late there => ?_) found
      obtain ⟨bound, plain⟩ := (steady' value).range less there
      exact ⟨Nat.le_trans bound short, plain⟩
  missed := by
    intro tokens small fails
    rcases result_eq_none_or reader tokens with none | ⟨value, mid, read⟩
    · rw [miss_bind_of_none none]
      exact steady.missed small none
    · rw [result_bind_of_some read] at fails
      rw [miss_bind_of_some read]
      have less := shrinks tokens mid small ⟨value, read⟩
      exact Miss.exists_join (Or.inr ((steady' value).missed less fails))
  fails := by
    intro front tail front' later small same blind fails
    rcases result_eq_none_or reader (front ++ tail) with none | ⟨value, mid, read⟩
    · rw [miss_bind_of_none none] at blind
      exact result_bind_of_none (steady.fails small same blind none) _
    · rw [miss_bind_of_some read] at blind
      rw [result_bind_of_some read] at fails
      -- as what follows has failed in what is seen, the first reader has not taken any of the tail
      have less := shrinks _ mid small ⟨value, read⟩
      have long := (steady' value).long_of_fails less fails blind.of_join.2
      obtain ⟨kept, rfl⟩ := exists_kept (steady.suffix small ⟨value, read⟩) long
      obtain ⟨kept', same', value', read'⟩ := steady.reads small same blind.of_join.1 ⟨value, read⟩
      rw [result_bind_of_some read']
      exact (alike value' value).fails ((steady' value).fails less same' blind.of_join.2 fails)
  reads := by
    rintro front tail front' later kept small same blind ⟨result, whole⟩
    obtain ⟨value, mid, read, after⟩ := result_bind_eq_some.mp whole
    rw [miss_bind_of_some read] at blind
    have less := shrinks _ mid small ⟨value, read⟩
    have long := ((steady' value).suffix less ⟨result, after⟩).length_le
    rw [List.length_append] at long
    obtain ⟨before, rfl⟩ :=
      exists_kept (steady.suffix small ⟨value, read⟩) (Nat.le_of_add_left_le long)
    obtain ⟨before', same', value', read'⟩ := steady.reads small same blind.of_join.1 ⟨value, read⟩
    obtain ⟨kept', same'', leaves⟩ :=
      (steady' value).reads less same' blind.of_join.2 ⟨result, after⟩
    obtain ⟨result', after'⟩ := alike value value' _ _ leaves
    exact ⟨kept', same'', result', (result_bind_of_some read' _).trans after'⟩

theorem or (steady : Steady size reader) (steady' : Steady size other) :
    Steady size (reader.or other) where
  suffix := by
    rintro tokens rest small ⟨value, read⟩
    rw [result_or] at read
    rcases Option.or_eq_some_iff.mp read with here | ⟨-, there⟩
    · exact steady.suffix small ⟨value, here⟩
    · exact steady'.suffix small ⟨value, there⟩
  range := by
    intro tokens miss small found
    rcases result_eq_none_or reader tokens with fails | ⟨value, mid, read⟩
    · rw [miss_or_of_none fails] at found
      exact .of_join (fun early here => steady.range small here)
        (fun late there => steady'.range small there) found
    · rw [miss_or_of_some read] at found
      exact steady.range small found
  missed := by
    intro tokens small fails
    rw [result_or, Option.or_eq_none_iff] at fails
    rw [miss_or_of_none fails.1]
    exact Miss.exists_join (Or.inl (steady.missed small fails.1))
  fails := by
    intro front tail front' later small same blind fails
    rw [result_or, Option.or_eq_none_iff] at fails
    rw [miss_or_of_none fails.1] at blind
    rw [result_or, steady.fails small same blind.of_join.1 fails.1, Option.none_or]
    exact steady'.fails small same blind.of_join.2 fails.2
  reads := by
    rintro front tail front' later kept small same blind ⟨value, read⟩
    rw [result_or] at read
    rcases Option.or_eq_some_iff.mp read with here | ⟨fails, there⟩
    · rw [miss_or_of_some here] at blind
      obtain ⟨kept', same', leaves⟩ := steady.reads small same blind ⟨value, here⟩
      exact ⟨kept', same', leaves.or _⟩
    · rw [miss_or_of_none fails] at blind
      obtain ⟨kept', same', leaves⟩ := steady'.reads small same blind.of_join.2 ⟨value, there⟩
      exact ⟨kept', same',
        leaves_or_of_none (steady.fails small same blind.of_join.1 fails) leaves⟩

/-- A reader that takes nothing takes nothing from tokens that begin in the same way either. -/
theorem idle (steady : Steady size reader) (small : (front ++ tail).length < size)
    (same : values front' = values front)
    (blind : Miss.Blind (reader (front ++ tail)).miss tail later)
    (idle : Idle reader (front ++ tail)) : Idle reader (front' ++ later) := by
  rcases result_eq_none_or reader (front ++ tail) with fails | ⟨value, rest, read⟩
  · exact idle_of_none (steady.fails small same blind fails)
  · have long := idle rest ⟨value, read⟩
    have suffix := steady.suffix small ⟨value, read⟩
    obtain rfl := suffix.eq_of_length (Nat.le_antisymm suffix.length_le long)
    obtain ⟨kept', same', value', read'⟩ := steady.reads small same blind ⟨value, read⟩
    rintro left ⟨_, found⟩
    rw [read'] at found
    cases found
    refine Nat.le_of_eq ?_
    rw [List.length_append, List.length_append, length_eq_of_values same',
      length_eq_of_values same]

theorem suffix_many (steady : Steady size reader) {tokens rest : List (Located Token)}
    (small : tokens.length < size) (leaves : Leaves (Reader.many reader) tokens rest) :
    rest <:+ tokens := by
  induction length : tokens.length using Nat.strongRecOn generalizing tokens with
  | ind length ih =>
      subst length
      rcases idle_or_shorter reader tokens with idle | ⟨value, mid, read, shorter⟩
      · obtain ⟨_, found⟩ := leaves
        rw [many_of_idle idle] at found
        cases found
        exact List.suffix_rfl
      · have after := ((many_of_leaves read shorter).2 rest).mp leaves
        exact (ih _ shorter (Nat.lt_trans shorter small) after rfl).trans
          (steady.suffix small ⟨value, read⟩)

/-- One item less stands before the tail after each that is read. -/
theorem reads_many (steady : Steady size reader) {kept : List (Located Token)}
    (small : (front ++ tail).length < size) (same : values front' = values front)
    (blind : Miss.Blind (Reader.many reader (front ++ tail)).miss tail later)
    (leaves : Leaves (Reader.many reader) (front ++ tail) (kept ++ tail)) :
    ∃ kept', values kept' = values kept ∧
      Leaves (Reader.many reader) (front' ++ later) (kept' ++ later) := by
  induction length : front.length using Nat.strongRecOn generalizing front front' with
  | ind length ih =>
      subst length
      rcases idle_or_shorter reader (front ++ tail) with idle | ⟨value, mid, read, shorter⟩
      · rw [many_of_idle idle] at blind
        obtain ⟨_, found⟩ := leaves
        rw [many_of_idle idle] at found
        have whole : front ++ tail = kept ++ tail := congrArg Prod.snd (Option.some.inj found)
        rw [← List.append_cancel_right whole]
        exact ⟨front', same, leaves_many_of_idle (steady.idle small same blind idle)⟩
      · obtain ⟨joined, onwards⟩ := many_of_leaves read shorter
        rw [joined] at blind
        have less := Nat.lt_trans shorter small
        have after := (onwards _).mp leaves
        have long := (steady.suffix_many less after).length_le
        rw [List.length_append] at long
        obtain ⟨before, rfl⟩ :=
          exists_kept (steady.suffix small ⟨value, read⟩) (Nat.le_of_add_left_le long)
        have fewer : before.length < front.length := by simpa using shorter
        obtain ⟨before', same', value', read'⟩ :=
          steady.reads small same blind.of_join.1 ⟨value, read⟩
        obtain ⟨kept', same'', leaves'⟩ := ih _ fewer less same' blind.of_join.2 after rfl
        have shorter' : (before' ++ later).length < (front' ++ later).length := by
          simpa [length_eq_of_values same', length_eq_of_values same] using fewer
        exact ⟨kept', same'', ((many_of_leaves read' shorter').2 _).mpr leaves'⟩

theorem many (steady : Steady size reader) : Steady size (Reader.many reader) where
  suffix := steady.suffix_many
  range := by
    intro tokens
    induction length : tokens.length using Nat.strongRecOn generalizing tokens with
    | ind length ih =>
        subst length
        rintro miss small found
        rcases idle_or_shorter reader tokens with idle | ⟨value, mid, read, shorter⟩
        · rw [many_of_idle idle] at found
          exact steady.range small found
        · rw [(many_of_leaves read shorter).1] at found
          refine .of_join (fun early here => steady.range small here) (fun late there => ?_) found
          obtain ⟨bound, plain⟩ := ih _ shorter rfl (Nat.lt_trans shorter small) there
          exact ⟨Nat.le_trans bound (Nat.le_of_lt shorter), plain⟩
  missed {tokens} _ fails := by
    obtain ⟨values, rest, read⟩ := result_many_isSome reader tokens
    rw [read] at fails
    cases fails
  fails {front tail} _ _ _ _ _ fails := by
    obtain ⟨values, rest, read⟩ := result_many_isSome reader (front ++ tail)
    rw [read] at fails
    cases fails
  reads := steady.reads_many

end Steady

end QueryTemplate.Reader
