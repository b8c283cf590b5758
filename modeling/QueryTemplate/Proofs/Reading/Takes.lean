import QueryTemplate.Token.Reader

set_option autoImplicit false

/- What readers make of tokens: a relation between what was read and the tokens that were taken,
which holds of a reader when it holds of the readers that it is made of. -/

namespace QueryTemplate.Reader

/-- Whatever is read from tokens that are all good is in a relation to the tokens taken from their
front. -/
def Takes {α : Type} (good : Located Token → Prop) (reader : Reader α)
    (post : α → List (Located Token) → Prop) : Prop :=
  ∀ tokens value rest, (∀ token ∈ tokens, good token) →
    (reader tokens).result = some (value, rest) →
    ∃ used, tokens = used ++ rest ∧ post value used

/-- Items one after the other, each in the relation to its own tokens. -/
inductive Parts {α : Type} (post : α → List (Located Token) → Prop) :
    List α → List (Located Token) → Prop
  | nil : Parts post [] []
  | cons {value : α} {used : List (Located Token)} {values : List α}
      {others : List (Located Token)} (head : post value used) (tail : Parts post values others) :
      Parts post (value :: values) (used ++ others)

theorem Parts.exists_of_mem {α : Type} {post : α → List (Located Token) → Prop} {values : List α}
    {used : List (Located Token)} (parts : Parts post values used) {value : α}
    (within : value ∈ values) : ∃ own, own.Sublist used ∧ post value own := by
  induction parts with
  | nil => cases within
  | @cons _ own _ _ head _ ih =>
      rcases List.mem_cons.mp within with rfl | within
      · exact ⟨own, List.sublist_append_left _ _, head⟩
      · obtain ⟨own, part, holds⟩ := ih within
        exact ⟨own, part.trans (List.sublist_append_right _ _), holds⟩

/-- What holds of a start, and is kept by each item that is folded into it, holds of the fold. -/
theorem Parts.foldl {α β : Type} {post : β → List (Located Token) → Prop}
    {kept : α → List (Located Token) → Prop} {step : α → β → α}
    (keeps : ∀ value item front used, kept value front → post item used →
      kept (step value item) (front ++ used))
    {items : List β} {others : List (Located Token)} (parts : Parts post items others) {value : α}
    {front : List (Located Token)} (start : kept value front) :
    kept (items.foldl step value) (front ++ others) := by
  induction parts generalizing value front with
  | nil => rwa [List.append_nil]
  | cons head _ ih =>
      rw [← List.append_assoc]
      exact ih (keeps _ _ _ _ start head)

namespace Takes

variable {α β : Type} {good : Located Token → Prop}

theorem pure {value : α} {post : α → List (Located Token) → Prop} (holds : post value []) :
    Takes good (Pure.pure value : Reader α) post := by
  intro tokens result rest _ found
  cases found
  exact ⟨[], rfl, holds⟩

theorem bind {reader : Reader α} {next : α → Reader β} {mid : α → List (Located Token) → Prop}
    {post : β → List (Located Token) → Prop} (first : Takes good reader mid)
    (second : ∀ value used, mid value used →
      Takes good (next value) fun result others => post result (used ++ others)) :
    Takes good (reader >>= next) post := by
  intro tokens result last all found
  change (Reader.bind reader next tokens).result = some (result, last) at found
  unfold Reader.bind at found
  split at found
  next => cases found
  next value rest miss read =>
    obtain ⟨used, rfl, holds⟩ := first tokens value rest all (by rw [read])
    have others : ∀ token ∈ rest, good token :=
      fun token within => all token (List.mem_append_right used within)
    obtain ⟨more, rfl, finished⟩ := second value used holds rest result last others found
    exact ⟨used ++ more, by rw [List.append_assoc], finished⟩

theorem mono {reader : Reader α} {post weaker : α → List (Located Token) → Prop}
    (strong : Takes good reader post)
    (implied : ∀ value used, post value used → weaker value used) :
    Takes good reader weaker := by
  intro tokens value rest all found
  obtain ⟨used, split, holds⟩ := strong tokens value rest all found
  exact ⟨used, split, implied value used holds⟩

theorem fail {post : α → List (Located Token) → Prop} :
    Takes good (Reader.fail : Reader α) post := by
  intro _ _ _ _ found
  cases found

theorem mark (wanted : Mark) :
    Takes good (Reader.mark wanted) fun span used => used = [⟨.mark wanted, span⟩] := by
  intro tokens value rest _ found
  unfold Reader.mark at found
  split at found
  next span after =>
    split at found
    next same =>
      cases found
      exact ⟨[_], rfl, by rw [same]⟩
    next => cases found
  next => cases found

theorem accept (select : Token → Option α) :
    Takes good (Reader.accept select) fun read used =>
      ∃ token, used = [token] ∧ good token ∧ select token.value = some read.value ∧
        token.span = read.span := by
  intro tokens value rest all found
  unfold Reader.accept at found
  split at found
  next => cases found
  next token after =>
    split at found
    next chosen selected =>
      cases found
      exact ⟨[token], rfl, token, rfl, all token List.mem_cons_self, selected, rfl⟩
    next => cases found

theorem or {first second : Reader α} {post : α → List (Located Token) → Prop}
    (left : Takes good first post) (right : Takes good second post) :
    Takes good (first.or second) post := by
  intro tokens value rest all found
  unfold Reader.or at found
  split at found
  next read =>
    obtain ⟨used, split, holds⟩ := left tokens value rest all (by rw [read]; exact found)
    exact ⟨used, split, holds⟩
  next => exact right tokens value rest all found

theorem choice {readers : List (Reader α)} {post : α → List (Located Token) → Prop}
    (each : ∀ reader ∈ readers, Takes good reader post) :
    Takes good (Reader.choice readers) post := by
  match readers with
  | [] => exact fail
  | [reader] => exact each reader List.mem_cons_self
  | reader :: next :: others =>
      exact (each reader List.mem_cons_self).or
        (choice fun other within => each other (List.mem_cons_of_mem _ within))

theorem optional {reader : Reader α} {post : α → List (Located Token) → Prop}
    (inner : Takes good reader post) :
    Takes good (Reader.optional reader) fun read used =>
      match read with
      | some value => post value used
      | none => used = [] := by
  intro tokens value rest all found
  unfold Reader.optional at found
  split at found
  next read =>
    cases found
    exact inner tokens _ rest all (by rw [read])
  next =>
    cases found
    exact ⟨[], rfl, rfl⟩

theorem many {reader : Reader α} {post : α → List (Located Token) → Prop}
    (inner : Takes good reader post) : Takes good (Reader.many reader) (Parts post) := by
  intro tokens
  induction size : tokens.length using Nat.strongRecOn generalizing tokens with
  | ind size ih =>
      subst size
      intro values rest all found
      rw [Reader.many] at found
      split at found
      next =>
        cases found
        exact ⟨[], rfl, Parts.nil⟩
      next value after miss read =>
        obtain ⟨used, rfl, holds⟩ := inner tokens value after all (by rw [read])
        have others : ∀ token ∈ after, good token :=
          fun token within => all token (List.mem_append_right used within)
        split at found
        next shorter =>
          split at found
          next more last _ again =>
            cases found
            obtain ⟨further, split, tail⟩ := ih _ shorter after rfl more rest others (by rw [again])
            exact ⟨used ++ further, by rw [List.append_assoc, split], Parts.cons holds tail⟩
          next =>
            cases found
            refine ⟨used ++ [], by rw [List.append_nil], Parts.cons holds Parts.nil⟩
        next =>
          cases found
          exact ⟨[], rfl, Parts.nil⟩

end Takes

end QueryTemplate.Reader
