import QueryTemplate.Proofs.Reading.Accepted

set_option autoImplicit false

/- Expressions nest as deep as their tokens let them. The reader of expressions has a bound on
parentheses that is never reached, so it is the loosest level around itself. -/

namespace QueryTemplate

namespace Reader

variable {α β : Type} {size : Nat}

/-- The readers do the same on fewer tokens than `size`. -/
def Same (size : Nat) (first second : Reader α) : Prop :=
  ∀ tokens, tokens.length < size → first tokens = second tokens

namespace Same

variable {first second other another : Reader α} {next next' : α → Reader β}
  {post : α → List (Located Token) → Prop}

theorem refl (size : Nat) (reader : Reader α) : Same size reader reader := fun _ _ => rfl

/-- What is left is no more than there was. -/
theorem length_rest_le (takes : Takes (fun _ => True) first post)
    {tokens rest : List (Located Token)} {value : α}
    (read : (first tokens).result = some (value, rest)) : rest.length ≤ tokens.length := by
  obtain ⟨used, rfl, -⟩ := takes tokens value rest (fun _ _ => trivial) read
  rw [List.length_append]
  exact Nat.le_add_left _ _

theorem bind (same : Same size first second) (takes : Takes (fun _ => True) first post)
    (later : ∀ value, Same size (next value) (next' value)) :
    Same size (first >>= next) (second >>= next') := by
  intro tokens small
  change Reader.bind first next tokens = Reader.bind second next' tokens
  unfold Reader.bind
  rw [← same tokens small]
  split
  next => rfl
  next value rest miss read =>
    have fewer := length_rest_le takes (congrArg Outcome.result read)
    rw [later value rest (Nat.lt_of_le_of_lt fewer small)]

/-- One token less is left after a mark. -/
theorem after_mark {next next' : Span → Reader β} (wanted : Mark)
    (later : ∀ span, Same size (next span) (next' span)) :
    Same (size + 1) (Reader.mark wanted >>= next) (Reader.mark wanted >>= next') := by
  intro tokens small
  change Reader.bind (Reader.mark wanted) next tokens =
    Reader.bind (Reader.mark wanted) next' tokens
  unfold Reader.bind
  split
  next => rfl
  next span rest miss read =>
    have marked : Takes (fun _ => True) (Reader.mark wanted) _ := Takes.mark wanted
    obtain ⟨used, rfl, rfl⟩ := marked tokens span rest (fun _ _ => trivial) (by rw [read])
    rw [later span rest (by simpa using small)]

theorem or (same : Same size first second) (others : Same size other another) :
    Same size (first.or other) (second.or another) := by
  intro tokens small
  unfold Reader.or
  rw [same tokens small, others tokens small]

theorem optional (same : Same size first second) :
    Same size (Reader.optional first) (Reader.optional second) := by
  intro tokens small
  unfold Reader.optional
  rw [same tokens small]

theorem many (same : Same size first second) :
    Same size (Reader.many first) (Reader.many second) := by
  intro tokens
  induction length : tokens.length using Nat.strongRecOn generalizing tokens with
  | ind length ih =>
      subst length
      intro small
      rw [Reader.many, Reader.many, ← same tokens small]
      split
      next => rfl
      next value rest miss read =>
        split
        next shorter => rw [ih _ shorter rest rfl (Nat.lt_trans shorter small)]
        next => rfl

end Same

end Reader

namespace Expr

open Reader

variable {size : Nat} {inner inner' : Reader Expr}

theorem same_parens (same : Same size inner inner') (each : Accepts inner (Derived .disjunction)) :
    Same (size + 1) (parens inner) (parens inner') :=
  .after_mark .parenOpen fun _ => same.bind each fun _ => .refl _ _

theorem same_accessed (same : Same size inner inner')
    (each : Accepts inner (Derived .disjunction)) :
    Same (size + 1) (accessed inner) (accessed inner') := by
  have atom : Same (size + 1) (atom inner) (Expr.atom inner') :=
    (Same.refl _ literalReader).or ((Same.refl _ varReader).or (same_parens same each))
  exact atom.bind (accepts_atom each) fun _ => .refl _ _

theorem same_commaList (same : Same size inner inner')
    (each : Accepts inner (Derived .disjunction)) :
    Same size (commaList inner) (commaList inner') := by
  refine same.optional.bind (Takes.optional each) fun head => ?_
  cases head with
  | none => exact .refl _ _
  | some expr =>
      have next : Same size (do let _ ← mark .comma; inner) (do let _ ← mark .comma; inner') :=
        (Same.refl _ (mark .comma)).bind (Takes.mark .comma) fun _ => same
      exact next.many.bind (Takes.many (accepts_nextArg each)) fun _ => .refl _ _

theorem same_filtered (same : Same size inner inner')
    (each : Accepts inner (Derived .disjunction)) :
    Same (size + 1) (filtered inner) (filtered inner') := by
  have args : Same (size + 1) (filterArgs inner) (filterArgs inner') :=
    .after_mark .parenOpen fun _ =>
      (same_commaList same each).bind (accepts_commaList each) fun _ => .refl _ _
  have suffix : Same (size + 1) (filterSuffix inner) (filterSuffix inner') := by
    refine (Same.refl _ (mark .pipe)).bind (Takes.mark .pipe) fun _ => ?_
    refine (Same.refl _ ident).bind accepts_ident fun _ => ?_
    exact args.optional.bind (Takes.optional (accepts_filterArgs each)) fun _ => .refl _ _
  refine (same_accessed same each).bind (accepts_accessed each) fun _ => ?_
  exact suffix.many.bind (Takes.many (accepts_filterSuffix each)) fun _ => .refl _ _

theorem same_comparison (same : Same size inner inner')
    (each : Accepts inner (Derived .disjunction)) :
    Same (size + 1) (comparison inner) (comparison inner') := by
  have negated : Same (size + 1) (negated inner) (Expr.negated inner') := by
    refine (Same.refl _ (many (mark .notWord))).bind (Takes.many (Takes.mark .notWord)) fun _ => ?_
    exact (same_filtered same each).bind (accepts_filtered each) fun _ => .refl _ _
  have shrinks := (accepts_negated each).mono fun _ _ _ => trivial
  have operand : Same (size + 1)
      (do let op ← comparisonOp; let right ← Expr.negated inner; return (op, right))
      (do let op ← comparisonOp; let right ← Expr.negated inner'; return (op, right)) := by
    refine (Same.refl _ comparisonOp).bind accepts_comparisonOp fun _ => ?_
    exact negated.bind shrinks fun _ => .refl _ _
  have taken : Accepts (do
      let op ← comparisonOp
      let right ← Expr.negated inner
      return (op, right)) fun _ _ => True :=
    accepts_comparisonOp.bind fun _ _ _ => shrinks.bind fun _ _ _ => Takes.pure trivial
  refine negated.bind shrinks fun _ => ?_
  exact operand.optional.bind (Takes.optional taken) fun _ => .refl _ _

theorem same_chain {operand operand' : Reader Expr} {level : Precedence} (word : Mark)
    (op : BinaryOp) (same : Same size operand operand') (each : Accepts operand (Derived level)) :
    Same size (chain word op operand) (chain word op operand') := by
  have next : Same size (do let _ ← mark word; operand) (do let _ ← mark word; operand') :=
    (Same.refl _ (mark word)).bind (Takes.mark word) fun _ => same
  have taken : Accepts (do let _ ← mark word; operand) fun _ _ => True :=
    (Takes.mark word).bind fun _ _ _ => each.mono fun _ _ _ => trivial
  exact same.bind each fun _ => next.many.bind (Takes.many taken) fun _ => .refl _ _

theorem same_disjunction (same : Same size inner inner')
    (each : Accepts inner (Derived .disjunction)) :
    Same (size + 1) (disjunction inner) (disjunction inner') := by
  have conjunction := same_chain .andWord .and (same_comparison same each) (accepts_comparison each)
  exact same_chain .orWord .or conjunction (accepts_chain .and rfl rfl (accepts_comparison each))

/-- More parentheses than there are tokens make no difference. -/
theorem same_readerWithin (size more : Nat) :
    Same size (readerWithin size) (readerWithin (size + more)) := by
  induction size with
  | zero => exact fun _ none => absurd none (Nat.not_lt_zero _)
  | succ size ih =>
      rw [Nat.succ_add]
      exact same_disjunction ih (accepts_readerWithin size)

/-- Expressions in parentheses are read as any others. -/
theorem reader_eq_disjunction : reader = disjunction reader := by
  funext tokens
  have inner : Same tokens.length (readerWithin tokens.length) reader := by
    intro others fewer
    obtain ⟨more, enough⟩ := Nat.exists_eq_add_of_le (Nat.succ_le_of_lt fewer)
    have same := same_readerWithin (others.length + 1) more others (Nat.lt_succ_self _)
    rw [enough, reader, same]
  exact same_disjunction inner (accepts_readerWithin _) tokens (Nat.lt_succ_self _)

end Expr

end QueryTemplate
