import QueryTemplate.Proofs.Reading.Limits
import QueryTemplate.Proofs.Reading.Regions

set_option autoImplicit false

/- The limits in the header of a tag. Nesting is taken back at the end of every argument, but
operators are counted through the whole region, so arguments that are within the limits by
themselves may exceed them together. -/

namespace QueryTemplate

open Reader Grammar

/-- A token that is counted as an operator. -/
def Token.isOperator : Token → Bool
  | .mark .dot | .mark .pipe | .mark .andWord | .mark .orWord | .mark .eq | .mark .notEq
  | .mark .less | .mark .lessEq | .mark .greater | .mark .greaterEq => true
  | _ => false

/-- How many of the tokens are operators. -/
def operatorsIn (tokens : List (Located Token)) : Nat := tokens.countP (·.value.isOperator)

theorem operatorsIn_cons (token : Located Token) (rest : List (Located Token)) :
    operatorsIn (token :: rest) = operatorsIn rest + if token.value.isOperator then 1 else 0 :=
  List.countP_cons

namespace Nesting

/-- Nothing is open in the region, no word `not` stands before what comes, and there have been so
many operators. -/
def flat (operators : Nat) : Nesting := ⟨[], 0, 0, operators⟩

/-- A token that ends a region. -/
def Closes (token : Token) : Prop := token = .mark .outputClose ∨ token = .mark .tagClose

theorem after_of_closes {token : Token} (closes : Closes token) (n : Nesting) :
    n.after token = start := by
  rcases closes with rfl | rfl <;> rfl

theorem operators_after {token : Token} (inside : ¬ Closes token) (n : Nesting) :
    (n.after token).operators = n.operators + if token.isOperator then 1 else 0 := by
  cases token with
  | mark value =>
      cases value with
      | outputClose => exact absurd (.inl rfl) inside
      | tagClose => exact absurd (.inr rfl) inside
      | _ => rfl
  | _ => rfl

/-- The operators seen before play no part in the nesting. -/
theorem after_operators {token : Token} (inside : ¬ Closes token) (n : Nesting) (count : Nat) :
    ∃ more, ({ n with operators := count } : Nesting).after token =
      { n.after token with operators := more } := by
  cases token with
  | mark value =>
      cases value with
      | outputClose => exact absurd (.inl rfl) inside
      | tagClose => exact absurd (.inr rfl) inside
      | _ => exact ⟨_, rfl⟩
  | _ => exact ⟨_, rfl⟩

/-- The limit of nesting is kept after each of the tokens. -/
def Shallow (n : Nesting) : List Token → Prop
  | [] => True
  | token :: rest =>
    (n.after token).depth + (n.after token).nots ≤ maxNesting ∧ (n.after token).Shallow rest

variable {n : Nesting}

theorem Shallow.append {front back : List Token} (first : n.Shallow front)
    (second : (n.run front).Shallow back) : n.Shallow (front ++ back) := by
  induction front generalizing n with
  | nil => exact second
  | cons token rest ih => exact ⟨first.1, ih first.2 second⟩

theorem Passes.shallow {tokens : List Token} (passes : n.Passes tokens) : n.Shallow tokens := by
  induction tokens generalizing n with
  | nil => trivial
  | cons token rest ih => exact ⟨passes.2.within.nesting, ih passes.2⟩

theorem Shallow.with_operators {tokens : List Token} (inside : ∀ token ∈ tokens, ¬ Closes token)
    (shallow : n.Shallow tokens) (count : Nat) :
    ({ n with operators := count } : Nesting).Shallow tokens := by
  induction tokens generalizing n count with
  | nil => trivial
  | cons token rest ih =>
      obtain ⟨first, others⟩ := List.forall_mem_cons.mp inside
      obtain ⟨more, same⟩ := after_operators first n count
      rw [Shallow, same]
      exact ⟨shallow.1, ih others shallow.2 more⟩

/-- Where nesting is no matter, the first operator beyond the limit is the error. -/
theorem check_of_shallow {tokens : List (Located Token)}
    (inside : ∀ token ∈ values tokens, ¬ Closes token) (shallow : n.Shallow (values tokens))
    (rest : List (Located Token)) :
    (n.operators + operatorsIn tokens ≤ maxOperators →
      n.check (tokens ++ rest) = (n.run (values tokens)).check rest) ∧
    (n.operators ≤ maxOperators → maxOperators < n.operators + operatorsIn tokens →
      ∃ front operator back, tokens = front ++ operator :: back ∧
        operator.value.isOperator = true ∧ n.operators + operatorsIn front = maxOperators ∧
        n.check (tokens ++ rest) = .error (.tooDeep maxOperators operator.span)) := by
  induction tokens generalizing n with
  | nil => exact ⟨fun _ => rfl, fun few many => absurd many (Nat.not_lt_of_le few)⟩
  | cons token tokens ih =>
      rw [values_cons] at inside shallow
      obtain ⟨first, others⟩ := List.forall_mem_cons.mp inside
      have seen := operators_after first n
      obtain ⟨passed, exceeded⟩ := ih others shallow.2
      rw [List.cons_append, check, if_neg (Nat.not_lt_of_le shallow.1), operatorsIn_cons]
      rw [values_cons, run_cons]
      constructor
      · intro few
        rw [if_neg (by omega)]
        exact passed (by omega)
      · intro few many
        by_cases last : maxOperators < (n.after token.value).operators
        · -- this token is the operator too many
          have operator : token.value.isOperator = true := by
            cases counted : token.value.isOperator with
            | true => rfl
            | false =>
                rw [counted] at seen
                simp only [Bool.false_eq_true, ↓reduceIte] at seen
                omega
          rw [if_pos operator] at seen
          rw [if_pos last]
          refine ⟨[], token, tokens, rfl, operator, ?_, rfl⟩
          change n.operators + 0 = maxOperators
          omega
        · rw [if_neg last]
          obtain ⟨front, operator, back, split, isOperator, full, failed⟩ :=
            exceeded (by omega) (by omega)
          refine ⟨token :: front, operator, back, congrArg _ split, isOperator, ?_, failed⟩
          rw [operatorsIn_cons]
          omega

/-- The tokens stay in the region, nest within the limit, and leave nothing but operators behind. -/
structure Level (tokens : List (Located Token)) (count : Nat) : Prop where
  inside : ∀ token ∈ values tokens, ¬ Closes token
  run : ∀ operators, (flat operators).run (values tokens) = flat (operators + count)
  shallow : ∀ operators, (flat operators).Shallow (values tokens)

/-- Tokens after which more operators have been seen the more there were before. -/
theorem not_closes_of_run {tokens : List Token} {count : Nat}
    (run : ∀ operators, (flat operators).run tokens = flat (operators + count)) :
    ∀ token ∈ tokens, ¬ Closes token := by
  intro token within closes
  obtain ⟨front, back, rfl⟩ := List.append_of_mem within
  -- after a closer it does not matter what was before
  have same (operators : Nat) :
      (flat operators).run (front ++ token :: back) = start.run back := by
    rw [run_append, run_cons, after_of_closes closes]
  have none := (same 0).symm.trans (run 0)
  have one := (same 1).symm.trans (run 1)
  have both := congrArg Nesting.operators (none.symm.trans one)
  simp only [flat] at both
  omega

namespace Level

variable {first second : List (Located Token)} {count more : Nat}

theorem nil : Level [] 0 :=
  ⟨fun _ within => (nomatch within), fun _ => rfl, fun _ => trivial⟩

theorem append (left : Level first count) (right : Level second more) :
    Level (first ++ second) (count + more) where
  inside := by
    rw [values_append]
    exact List.forall_mem_append.mpr ⟨left.inside, right.inside⟩
  run operators := by
    rw [values_append, run_append, left.run, right.run, Nat.add_assoc]
  shallow operators := by
    rw [values_append]
    refine (left.shallow operators).append ?_
    rw [left.run]
    exact right.shallow _

/-- A token that is no operator, no parenthesis and no `not`. -/
theorem plain {token : Token} (span : Span) (inside : ¬ Closes token)
    (resets : ∀ n : Nesting, n.after token = { n with nots := 0 }) : Level [⟨token, span⟩] 0 where
  inside := List.forall_mem_singleton.mpr inside
  run operators := resets (flat operators)
  shallow operators := by
    refine ⟨?_, trivial⟩
    change ((flat operators).after token).depth + ((flat operators).after token).nots ≤ maxNesting
    rw [resets]
    exact Nat.zero_le _

theorem ident (name : String) (span : Span) : Level [⟨.ident name, span⟩] 0 :=
  plain span (by rintro (same | same) <;> cases same) fun _ => rfl

/-- An expression that is within the limits by itself. -/
theorem derived {expr : Expr} {used : List (Located Token)}
    (derived : Expr.Derived .disjunction expr used) (alone : start.check used = .ok ()) :
    Level used expr.operators := by
  have run (operators : Nat) :
      (flat operators).run (values used) = flat (operators + expr.operators) := by
    rw [run_derives derived.bare, Expr.operators_bare]
    rfl
  have inside := not_closes_of_run run
  have shallow := (passes_of_check ⟨Nat.zero_le _, Nat.zero_le _⟩ alone).shallow
  exact ⟨inside, run, fun operators => shallow.with_operators inside operators⟩

/-- The tokens hold as many operators as they leave behind. -/
theorem operatorsIn_eq {tokens : List (Located Token)} (level : Level tokens count) :
    operatorsIn tokens = count := by
  have counts {others : List (Located Token)} (inside : ∀ token ∈ values others, ¬ Closes token)
      (n : Nesting) : (n.run (values others)).operators = n.operators + operatorsIn others := by
    induction others generalizing n with
    | nil => rfl
    | cons token others ih =>
        rw [values_cons] at inside
        obtain ⟨first, rest⟩ := List.forall_mem_cons.mp inside
        rw [values_cons, run_cons, ih rest, operators_after first, operatorsIn_cons]
        omega
  have total := counts level.inside (Nesting.flat 0)
  rw [level.run] at total
  simp only [Nesting.flat] at total
  omega

end Level

end Nesting

/-- The tokens are an expression that is accepted where it stands by itself in an output region. -/
structure Expr.Accepted (value : Expr) (used : List (Located Token)) : Prop where
  derived : Expr.Derived .disjunction value used
  alone : ∀ first last : Span, Nesting.start.check
    (⟨.mark .outputOpen, first⟩ :: (used ++ [⟨.mark .outputClose, last⟩])) = .ok ()

namespace Arg

/-- The tokens are an argument whose expression is accepted by itself. -/
inductive Accepted : Arg → List (Located Token) → Prop
  | positional {value : Expr} {used : List (Located Token)} (accepted : value.Accepted used) :
      Accepted (.positional value) used
  | keyword (key : String) (place sign : Span) {value : Expr} {used : List (Located Token)}
      (accepted : value.Accepted used) :
      Accepted (.keyword key place value) (⟨.ident key, place⟩ :: ⟨.mark .assign, sign⟩ :: used)

/-- Such an argument, and the comma that may follow it. -/
inductive Admitted : Arg → List (Located Token) → Prop
  | alone {arg : Arg} {used : List (Located Token)} (accepted : arg.Accepted used) :
      Admitted arg used
  | comma {arg : Arg} {used : List (Located Token)} (accepted : arg.Accepted used) (sign : Span) :
      Admitted arg (used ++ [⟨.mark .comma, sign⟩])

variable {arg : Arg} {used : List (Located Token)}

theorem Accepted.derived (accepted : arg.Accepted used) : arg.Derived used := by
  cases accepted with
  | positional accepted => exact .positional accepted.derived
  | keyword key place sign accepted => exact .keyword key place sign accepted.derived

theorem Admitted.listed (admitted : arg.Admitted used) : arg.Listed used := by
  cases admitted with
  | alone accepted => exact .alone accepted.derived
  | comma accepted sign => exact .comma accepted.derived sign

theorem Accepted.level (accepted : arg.Accepted used) :
    Nesting.Level used arg.value.operators := by
  have value {value : Expr} {used : List (Located Token)} (accepted : value.Accepted used) :
      Nesting.Level used value.operators :=
    .derived accepted.derived
      ((Nesting.check_region used default default).symm.trans (accepted.alone default default))
  cases accepted with
  | positional accepted => exact value accepted
  | keyword key place sign accepted =>
      have sign : Nesting.Level [⟨.mark .assign, sign⟩] 0 :=
        .plain sign (by rintro (same | same) <;> cases same) fun _ => rfl
      have front := (Nesting.Level.ident key place).append (sign.append (value accepted))
      rwa [Nat.zero_add, Nat.zero_add] at front

theorem Admitted.level (admitted : arg.Admitted used) :
    Nesting.Level used arg.value.operators := by
  cases admitted with
  | alone accepted => exact accepted.level
  | comma accepted sign =>
      exact accepted.level.append
        (.plain sign (by rintro (same | same) <;> cases same) fun _ => rfl)

theorem level_parts {args : List Arg} (parts : Parts Admitted args used) :
    Nesting.Level used (Expr.listOperators (args.map Arg.value)) := by
  induction parts with
  | nil => exact .nil
  | cons head _ ih => exact head.level.append ih

end Arg

namespace Header

variable {args : List Arg} {used : List (Located Token)}

theorem listed_parts (parts : Parts Arg.Admitted args used) : Parts Arg.Listed args used := by
  induction parts with
  | nil => exact .nil
  | cons head _ ih => exact .cons head.listed ih

/-- The header of a tag whose arguments are each accepted by themselves is never too deep for their
nesting, but all of their operators are counted together: it passes just when there are no more of
them than one expression may have, and else the first operator beyond that is the error. -/
theorem check_tag (parts : Parts Arg.Admitted args used) (name : String) (place first last : Span)
    (after : List (Located Token)) :
    let header := ⟨.mark .tagOpen, first⟩ :: ⟨.ident name, place⟩ ::
      (used ++ [⟨.mark .tagClose, last⟩])
    let total := Expr.listOperators (args.map Arg.value)
    Derived (.tag name place args) (⟨.ident name, place⟩ :: used) ∧
    (total ≤ maxOperators →
      Nesting.start.check (header ++ after) = Nesting.start.check after) ∧
    (maxOperators < total → ∃ front operator back, header = front ++ operator :: back ∧
      operator.value.isOperator = true ∧ operatorsIn front = maxOperators ∧
      Nesting.start.check (header ++ after) = .error (.tooDeep maxOperators operator.span)) := by
  intro header total
  let front : List (Located Token) := ⟨.mark .tagOpen, first⟩ :: ⟨.ident name, place⟩ :: used
  have opener : Nesting.Level [⟨.mark .tagOpen, first⟩] 0 :=
    .plain first (by rintro (same | same) <;> cases same) fun _ => rfl
  have level : Nesting.Level front total := by
    have whole := opener.append ((Nesting.Level.ident name place).append (Arg.level_parts parts))
    rwa [Nat.zero_add, Nat.zero_add] at whole
  have split : header ++ after = front ++ (⟨.mark .tagClose, last⟩ :: after) := by
    simp [header, front]
  obtain ⟨passes, exceeds⟩ := Nesting.check_of_shallow level.inside (level.shallow 0)
    (⟨.mark .tagClose, last⟩ :: after)
  have count : (Nesting.flat 0).operators + operatorsIn front = total := by
    rw [level.operatorsIn_eq]
    exact Nat.zero_add total
  rw [count] at passes exceeds
  rw [split]
  refine ⟨.tag name place (listed_parts parts), fun few => ?_, fun many => ?_⟩
  · -- the closer starts the count anew
    exact (passes few).trans rfl
  · obtain ⟨before, operator, back, found, isOperator, full, failed⟩ :=
      exceeds (Nat.zero_le _) many
    refine ⟨before, operator, back ++ [⟨.mark .tagClose, last⟩], ?_, isOperator, ?_, failed⟩
    · have closed : header = front ++ [⟨.mark .tagClose, last⟩] := by simp [header, front]
      rw [closed, found, List.append_assoc, List.cons_append]
    · rw [← full]
      exact (Nat.zero_add _).symm

theorem parts_replicate {arg : Arg} (admitted : arg.Admitted used) (count : Nat) :
    Parts Arg.Admitted (List.replicate count arg) (List.replicate count used).flatten := by
  induction count with
  | zero => exact .nil
  | succ count ih => exact .cons admitted ih

/-- One operator in each of many arguments. -/
theorem check_tag_many :
    let arg : Arg := .positional (.attr (.var "a" default) "b" default)
    let own : List (Located Token) :=
      [⟨.ident "a", default⟩, ⟨.mark .dot, default⟩, ⟨.ident "b", default⟩]
    let args := List.replicate (maxOperators + 1) arg
    let used := (List.replicate (maxOperators + 1) own).flatten
    Parts Arg.Admitted args used ∧ maxOperators < Expr.listOperators (args.map Arg.value) ∧
      ∃ span, Nesting.start.check (⟨.mark .tagOpen, default⟩ :: ⟨.ident "t", default⟩ ::
        (used ++ [⟨.mark .tagClose, default⟩])) = .error (.tooDeep maxOperators span) := by
  intro arg own args used
  have derived : Expr.Derived .disjunction (.attr (.var "a" default) "b" default) own := by
    have head : Expr.Derived .accessed (.var "a" default) [⟨.ident "a", default⟩] :=
      .of_tighter rfl (.var "a" default)
    exact .of_tighter rfl (.of_tighter rfl (.of_tighter rfl (.of_tighter rfl (.of_tighter rfl
      (head.attr default "b" default)))))
  have admitted : arg.Admitted own := .alone (.positional ⟨derived, fun _ _ => rfl⟩)
  have parts := parts_replicate admitted (maxOperators + 1)
  have many : maxOperators < Expr.listOperators (args.map Arg.value) := by decide +kernel
  obtain ⟨-, -, exceeds⟩ := check_tag parts "t" default default default []
  obtain ⟨_, operator, _, -, -, -, failed⟩ := exceeds many
  rw [List.append_nil] at failed
  exact ⟨parts, many, operator.span, failed⟩

end Header

/-- The limit that was exceeded where a template is refused for its depth. -/
def Template.exceeded? : Except ParseError Template → Option Nat
  | .error (.tooDeep limit _) => some limit
  | _ => none

theorem Template.eq_error_of_exceeded? {result : Except ParseError Template} {limit : Nat}
    (exceeded : exceeded? result = some limit) : ∃ span, result = .error (.tooDeep limit span) := by
  unfold exceeded? at exceeded
  split at exceeded
  next span =>
    cases exceeded
    exact ⟨span, rfl⟩
  next => cases exceeded

/-- Two arguments that are accepted by themselves have too many operators together. -/
theorem Template.arguments_exceed_operators :
    ¬ ∀ (grammars : TagGrammars) (name : List Char) (args : List (List Char)),
      (∀ arg ∈ args, ∃ template,
        parse grammars (String.ofList ("\x7b\x7b ".toList ++ arg ++ " \x7d\x7d".toList)) =
          .ok template) →
      ∀ limit span, parse grammars (String.ofList ("\x7b% ".toList ++ name ++
        args.flatMap (' ' :: ·) ++ " %\x7d".toList)) ≠ .error (.tooDeep limit span) := by
  intro claimed
  let grammars : TagGrammars := [("t", ⟨"t", false⟩)]
  let arg : List Char := 'a' :: (List.replicate 129 ['.', 'b']).flatten
  have alone : (parse grammars (String.ofList ("\x7b\x7b ".toList ++ arg ++
      " \x7d\x7d".toList))).toOption.isSome = true := by
    rw [parse, Chunk.ofSource, tokens, String.toList_ofList]
    decide +kernel
  have together : exceeded? (parse grammars (String.ofList ("\x7b% ".toList ++ ['t'] ++
      [arg, arg].flatMap (' ' :: ·) ++ " %\x7d".toList))) = some maxOperators := by
    rw [parse, Chunk.ofSource, tokens, String.toList_ofList]
    decide +kernel
  have each : ∀ other ∈ [arg, arg], ∃ template,
      parse grammars (String.ofList ("\x7b\x7b ".toList ++ other ++ " \x7d\x7d".toList)) =
        .ok template := by
    obtain ⟨template, accepted⟩ := Option.isSome_iff_exists.mp alone
    intro other within
    obtain rfl : other = arg := by simpa using within
    exact ⟨template, eq_ok_iff_toOption.mpr accepted⟩
  obtain ⟨span, rejected⟩ := eq_error_of_exceeded? together
  exact claimed grammars ['t'] [arg, arg] each _ span rejected

end QueryTemplate
