import QueryTemplate.Proofs.Reading.Chunks
import QueryTemplate.Proofs.Reading.Nested
import QueryTemplate.Proofs.Template.Building

set_option autoImplicit false

/- What the limits that are checked on tokens mean for the expressions that are read from them. -/

namespace QueryTemplate

open Reader Grammar

namespace Nesting

variable {n : Nesting} {front back tokens : List Token}

/-- What has been seen after all of the tokens. -/
def run (n : Nesting) (tokens : List Token) : Nesting := tokens.foldl after n

structure Within (n : Nesting) : Prop where
  nesting : n.depth + n.nots ≤ maxNesting
  operators : n.operators ≤ maxOperators

/-- No limit is exceeded, at the start or after any of the tokens. -/
def Passes (n : Nesting) : List Token → Prop
  | [] => n.Within
  | token :: rest => n.Within ∧ (n.after token).Passes rest

theorem run_cons (n : Nesting) (token : Token) (rest : List Token) :
    n.run (token :: rest) = (n.after token).run rest := rfl

theorem run_append (n : Nesting) (front back : List Token) :
    n.run (front ++ back) = (n.run front).run back := List.foldl_append

theorem Passes.within (passes : n.Passes tokens) : n.Within := by
  cases tokens with
  | nil => exact passes
  | cons token rest => exact passes.1

theorem Passes.append (passes : n.Passes (front ++ back)) :
    n.Passes front ∧ (n.run front).Passes back := by
  induction front generalizing n with
  | nil => exact ⟨passes.within, passes⟩
  | cons token rest ih =>
      obtain ⟨within, passes⟩ := passes
      obtain ⟨first, second⟩ := ih passes
      exact ⟨⟨within, first⟩, second⟩

theorem Passes.last (passes : n.Passes tokens) : (n.run tokens).Within := by
  rw [← List.append_nil tokens] at passes
  exact passes.append.2

theorem passes_of_check {tokens : List (Located Token)} (within : n.Within)
    (checked : n.check tokens = .ok ()) : n.Passes (values tokens) := by
  induction tokens generalizing n with
  | nil => exact within
  | cons token rest ih =>
      simp only [check] at checked
      split at checked
      next => cases checked
      next shallow =>
        split at checked
        next => cases checked
        next few => exact ⟨within, ih ⟨Nat.le_of_not_lt shallow, Nat.le_of_not_lt few⟩ checked⟩

theorem run_literal (n : Nesting) (value : Literal) :
    n.run [value.token] = { n with nots := 0 } := by
  rcases value with _ | (_ | _) | _ | _ | _ <;> rfl

theorem run_op (n : Nesting) (op : BinaryOp) :
    n.after (.mark op.mark) = { n with operators := n.operators + 1 } := by
  cases op <;> rfl

/-- The arguments after the first one, where the run of each is known. -/
theorem run_others {args : List (List Token × Expr)}
    (each : ∀ arg ∈ args, ∀ n : Nesting,
      n.run arg.1 = { n with nots := 0, operators := n.operators + arg.2.operators })
    (n : Nesting) (fresh : n.nots = 0) :
    n.run ((args.map (·.1)).flatMap fun other => .mark .comma :: other) =
      { n with operators := n.operators + Expr.listOperators (args.map (·.2)) } := by
  induction args generalizing n with
  | nil => rfl
  | cons arg rest ih =>
      obtain ⟨head, tail⟩ := List.forall_mem_cons.mp each
      rw [List.map_cons, List.flatMap_cons, run_append, run_cons, head, ih tail _ rfl]
      simp [after, fresh, Expr.listOperators, Nat.add_assoc]

theorem run_separated {args : List (List Token × Expr)}
    (each : ∀ arg ∈ args, ∀ n : Nesting,
      n.run arg.1 = { n with nots := 0, operators := n.operators + arg.2.operators })
    (n : Nesting) (fresh : n.nots = 0) :
    n.run (separated (args.map (·.1))) =
      { n with operators := n.operators + Expr.listOperators (args.map (·.2)) } := by
  cases args with
  | nil => rfl
  | cons arg rest =>
      obtain ⟨head, tail⟩ := List.forall_mem_cons.mp each
      rw [List.map_cons, separated, run_append, head, run_others tail _ rfl]
      simp [fresh, Expr.listOperators, Nat.add_assoc]

theorem run_arguments {args : List (List Token × Expr)} {suffix : List Token}
    (each : ∀ arg ∈ args, ∀ n : Nesting,
      n.run arg.1 = { n with nots := 0, operators := n.operators + arg.2.operators })
    (follows : Arguments (args.map (·.1)) suffix) (n : Nesting) (fresh : n.nots = 0) :
    n.run suffix =
      { n with operators := n.operators + Expr.listOperators (args.map (·.2)) } := by
  generalize items : args.map (·.1) = tokens at follows
  cases follows with
  | absent =>
      rw [List.map_eq_nil_iff.mp items]
      rfl
  | enclosed =>
      rw [← items, List.cons_append, run_cons, run_append, run_separated each _ rfl]
      simp [run, after, fresh]
  | trailing present =>
      rw [← items, List.cons_append, run_cons, run_append, run_separated each _ rfl]
      simp [run, after, fresh]

/-- A whole expression takes back the parentheses that it opens. -/
theorem run_derives {level : Precedence} {tree : Expr} (derived : Derives level tokens tree)
    (n : Nesting) :
    n.run tokens = { n with nots := 0, operators := n.operators + tree.operators } := by
  induction derived generalizing n with
  | literal value => exact run_literal n value
  | var name => rfl
  | parens inner ih =>
      rw [List.cons_append, run_cons, run_append, ih]
      simp [run, after]
  | attr derived name ih =>
      rw [run_append, ih]
      rfl
  | filter derived name each follows ih others =>
      rw [run_append, ih, run_cons, run_cons, run_arguments others follows _ rfl]
      simp [after, Expr.operators, Nat.add_assoc]
  | negate derived ih =>
      rw [run_cons, ih]
      rfl
  | binary op first second ih others =>
      rw [run_append, ih, run_cons, run_op, others, Expr.operators]
      simp only [Nat.add_assoc]
  | of_tighter next derived ih => exact ih n

/-- Each argument is counted inside as much nesting as there is before the first one. -/
theorem passes_others {args : List (List Token × Expr)}
    (each : ∀ arg ∈ args, Derives .disjunction arg.1 arg.2)
    (passes : n.Passes ((args.map (·.1)).flatMap fun other => .mark .comma :: other)) :
    ∀ arg ∈ args, ∃ m : Nesting, m.depth = n.depth ∧ m.nots = 0 ∧ m.Passes arg.1 := by
  induction args generalizing n with
  | nil => exact fun _ within => nomatch within
  | cons arg rest ih =>
      obtain ⟨head, tail⟩ := List.forall_mem_cons.mp each
      rw [List.map_cons, List.flatMap_cons] at passes
      obtain ⟨first, others⟩ := passes.append
      intro other within
      rcases List.mem_cons.mp within with rfl | within
      · exact ⟨n.after (.mark .comma), rfl, rfl, first.2⟩
      · rw [run_cons, run_derives head] at others
        exact ih tail others other within

theorem passes_separated {args : List (List Token × Expr)}
    (each : ∀ arg ∈ args, Derives .disjunction arg.1 arg.2) (fresh : n.nots = 0)
    (passes : n.Passes (separated (args.map (·.1)))) :
    ∀ arg ∈ args, ∃ m : Nesting, m.depth = n.depth ∧ m.nots = 0 ∧ m.Passes arg.1 := by
  cases args with
  | nil => exact fun _ within => nomatch within
  | cons arg rest =>
      obtain ⟨head, tail⟩ := List.forall_mem_cons.mp each
      rw [List.map_cons, separated] at passes
      obtain ⟨first, others⟩ := passes.append
      intro other within
      rcases List.mem_cons.mp within with rfl | within
      · exact ⟨n, rfl, fresh, first⟩
      · rw [run_derives head] at others
        exact passes_others tail others other within

theorem passes_arguments {args : List (List Token × Expr)} {suffix : List Token}
    (each : ∀ arg ∈ args, Derives .disjunction arg.1 arg.2)
    (follows : Arguments (args.map (·.1)) suffix) (fresh : n.nots = 0) (passes : n.Passes suffix) :
    ∀ arg ∈ args, ∃ m : Nesting, m.depth = n.depth + 1 ∧ m.nots = 0 ∧ m.Passes arg.1 := by
  generalize items : args.map (·.1) = tokens at follows
  have opened : (n.after (.mark .parenOpen)).depth = n.depth + 1 := by
    simp only [after, fresh]
  rw [← opened]
  cases follows with
  | absent =>
      rw [List.map_eq_nil_iff.mp items]
      exact fun _ within => nomatch within
  | enclosed =>
      rw [← items] at passes
      exact passes_separated each rfl passes.2.append.1
  | trailing present =>
      rw [← items] at passes
      exact passes_separated each rfl passes.2.append.1

/-- What passes is nested within the limit. -/
theorem nested_derives {level : Precedence} {tree : Expr} (derived : Derives level tokens tree)
    (fresh : level.rank < Precedence.negation.rank → n.nots = 0) (passes : n.Passes tokens) :
    Expr.Nested level n.depth n.nots tree := by
  induction derived generalizing n with
  | literal value => exact .literal passes.within.nesting value default
  | var name => exact .var passes.within.nesting name default
  | parens inner ih =>
      exact .parens (ih (fun _ => rfl) passes.2.append.1)
  | attr derived name ih =>
      exact .attr (ih (fun loose => absurd loose (by decide)) passes.append.1) name default
  | filter derived name each follows ih others =>
      obtain ⟨front, back⟩ := passes.append
      refine .filter (ih (fun loose => absurd loose (by decide)) front) ?_ false name default default
      rw [run_derives derived] at back
      refine List.forall_mem_map.mpr fun arg within => ?_
      obtain ⟨m, depth, none, inside⟩ := passes_arguments each follows rfl back.2.2 arg within
      have nested := others arg within (fun _ => none) inside
      rwa [depth, none] at nested
  | negate derived ih =>
      exact .negate (ih (fun loose => absurd loose (by decide)) passes.2) default
  | binary op first second ih others =>
      have none : n.nots = 0 := fresh (by cases op <;> decide)
      obtain ⟨front, back⟩ := passes.append
      rw [run_derives first] at back
      have left := ih (fun _ => none) front
      have right := others (fun _ => by rw [run_op]) back.2
      rw [none] at left ⊢
      rw [run_op] at right
      exact .binary op left right default
  | @of_tighter loose tight tokens tree next derived ih =>
      have rank := Precedence.rank_tighter next
      exact .of_tighter next (ih (fun looser => fresh (by omega)) passes)

end Nesting

/-- The tokens hold these expressions and leave no word `not` behind, and when the limits are kept the
expressions are within them. -/
structure Limited (elements : List Element) (used : List (Located Token)) : Prop where
  run : ∃ count, ∀ n : Nesting, n.nots = 0 →
    n.run (values used) = { n with operators := n.operators + count }
  fits : ∀ n : Nesting, n.nots = 0 → n.Passes (values used) →
    ∀ expr, .expr expr ∈ elements → expr.Fits

namespace Limited

variable {first second elements : List Element} {front back used : List (Located Token)}

theorem nil : Limited [] [] := ⟨⟨0, fun _ _ => rfl⟩, fun _ _ _ _ within => nomatch within⟩

theorem append (left : Limited first front) (right : Limited second back) :
    Limited (first ++ second) (front ++ back) := by
  obtain ⟨before, ran⟩ := left.run
  obtain ⟨after, runs⟩ := right.run
  refine ⟨⟨before + after, fun n fresh => ?_⟩, fun n fresh passes expr within => ?_⟩
  · rw [values_append, Nesting.run_append, ran n fresh,
      runs { n with operators := n.operators + before } fresh, Nat.add_assoc]
  · rw [values_append] at passes
    obtain ⟨early, late⟩ := passes.append
    rw [ran n fresh] at late
    rcases List.mem_append.mp within with within | within
    · exact left.fits n fresh early expr within
    · exact right.fits { n with operators := n.operators + before } fresh late expr within

/-- A token that is no operator, no parenthesis and no `not`. -/
theorem plain {token : Token} (resets : ∀ n : Nesting, n.after token = { n with nots := 0 })
    (span : Span) : Limited [] [⟨token, span⟩] := by
  refine ⟨⟨0, fun n fresh => ?_⟩, fun _ _ _ _ within => nomatch within⟩
  rw [values_cons, values_nil, Nesting.run_cons, resets]
  cases n
  cases fresh
  rfl

theorem derived {expr : Expr} (derived : Expr.Derived .disjunction expr used) :
    Limited expr.elements used := by
  have ran (n : Nesting) := Nesting.run_derives derived.bare n
  refine ⟨⟨expr.bare.operators, fun n fresh => ?_⟩, fun n fresh passes sub within => ?_⟩
  · rw [ran, ← fresh]
  · have few := passes.last.operators
    rw [ran, Expr.operators_bare] at few
    have nested := Nesting.nested_derives derived.bare (fun _ => fresh) passes
    have whole : expr.Fits := ⟨⟨_, _, _, nested.of_bare rfl⟩, by simp only at few; omega⟩
    exact whole.of_mem within

theorem cons {token : Token} (resets : ∀ n : Nesting, n.after token = { n with nots := 0 })
    (span : Span) (rest : Limited elements used) : Limited elements (⟨token, span⟩ :: used) :=
  (plain resets span).append rest

end Limited

theorem Arg.Derived.limited {arg : Arg} {used : List (Located Token)} (derived : arg.Derived used) :
    Limited arg.value.elements used := by
  cases derived with
  | positional derived => exact .derived derived
  | keyword _ place sign derived =>
      exact .cons (fun _ => rfl) place (.cons (fun _ => rfl) sign (.derived derived))

theorem Arg.Listed.limited {arg : Arg} {used : List (Located Token)} (listed : arg.Listed used) :
    Limited arg.value.elements used := by
  cases listed with
  | alone derived => exact derived.limited
  | comma derived sign =>
      have last : Limited [] [⟨.mark .comma, sign⟩] := .plain (fun _ => rfl) sign
      have whole := derived.limited.append last
      rwa [List.append_nil] at whole

namespace Header

theorem limited_parts {args : List Arg} {used : List (Located Token)}
    (parts : Parts Arg.Listed args used) : Limited (args.flatMap (·.value.elements)) used := by
  induction parts with
  | nil => exact .nil
  | cons head _ ih => exact head.limited.append ih

theorem Derived.limited {header : Header} {used : List (Located Token)}
    (derived : header.Derived used) : Limited header.elements used := by
  cases derived with
  | branch first derived => exact .cons (fun _ => rfl) first (.derived derived)
  | elif first derived => exact .cons (fun _ => rfl) first (.derived derived)
  | otherwise place => exact .plain (fun _ => rfl) place
  | endBranch place => exact .plain (fun _ => rfl) place
  | loop first _ place sign derived =>
      refine .cons (fun _ => rfl) first (.cons (fun _ => rfl) place ?_)
      exact .cons (fun _ => rfl) sign (.derived derived)
  | endLoop place => exact .plain (fun _ => rfl) place
  | assign first _ place sign derived =>
      refine .cons (fun _ => rfl) first (.cons (fun _ => rfl) place ?_)
      exact .cons (fun _ => rfl) sign (.derived derived)
  | tag _ place parts => exact .cons (fun _ => rfl) place (limited_parts parts)

end Header

namespace Chunk

/-- The count starts anew after these tokens, and when the limits are kept in them, the expressions
of the chunk are within the limits. -/
structure Restarts (chunk : Chunk) (used : List (Located Token)) : Prop where
  run : Nesting.start.run (values used) = .start
  fits : Nesting.start.Passes (values used) → ∀ expr, .expr expr ∈ chunk.elements → expr.Fits

theorem restarts_region {elements : List Element} {chunk : Chunk} {used : List (Located Token)}
    (inner : Limited elements used) (own : chunk.elements = elements) {opener closer : Mark}
    (opens : Nesting.start.after (.mark opener) = .start)
    (closes : ∀ n : Nesting, n.after (.mark closer) = .start) (first last : Span) :
    chunk.Restarts (⟨.mark opener, first⟩ :: (used ++ [⟨.mark closer, last⟩])) where
  run := by
    rw [values_cons, values_append, Nesting.run_cons, Nesting.run_append]
    exact closes _
  fits passes expr within := by
    rw [values_cons, values_append] at passes
    have rest := passes.2
    rw [opens] at rest
    exact inner.fits .start rfl rest.append.1 expr (own ▸ within)

theorem Derived.restarts {chunk : Chunk} {used : List (Located Token)}
    (derived : chunk.Derived used) : chunk.Restarts used := by
  cases derived with
  | text => exact ⟨rfl, fun _ _ within => nomatch within⟩
  | output first last derived => exact restarts_region (.derived derived) rfl rfl (fun _ => rfl) _ _
  | header first last derived => exact restarts_region derived.limited rfl rfl (fun _ => rfl) _ _

theorem fits_parts {chunks : List Chunk} {used : List (Located Token)}
    (parts : Parts Derived chunks used) (passes : Nesting.start.Passes (values used)) :
    ∀ expr, .expr expr ∈ listElements chunks → expr.Fits := by
  induction parts with
  | nil => exact fun _ within => nomatch within
  | cons head _ ih =>
      rw [values_append] at passes
      obtain ⟨early, late⟩ := passes.append
      rw [head.restarts.run] at late
      intro expr within
      rcases List.mem_append.mp within with within | within
      · exact head.restarts.fits early expr within
      · exact ih late expr within

/-- All expressions of a source that is read are within the limits. -/
theorem fits_ofSource {source : String} {chunks : List Chunk} (read : ofSource source = .ok chunks) :
    ∀ expr, .expr expr ∈ listElements chunks → expr.Fits := by
  obtain ⟨tokens, -, checked, found⟩ := ofSource_eq_ok.mp read
  exact fits_parts (parts_ofTokens found) (Nesting.passes_of_check ⟨by decide, by decide⟩ checked)

end Chunk

theorem Template.fits_of_parse {grammars : TagGrammars} {source : String} {template : Template}
    (parsed : parse grammars source = .ok template) {expr : Expr}
    (within : .expr expr ∈ template.elements) : expr.Fits := by
  obtain ⟨chunks, read, built⟩ := built_of_parse parsed
  exact Chunk.fits_ofSource read expr (built.walk.exprs expr within)

/-- Where no negation applies to a filter that takes arguments, the expressions of a template are as
shallow as the limits say. Elsewhere the words `not` before the head of the filter are not counted
inside its arguments, and an expression may hold as many as every depth of nesting allows. -/
theorem Template.exprs_shallow {grammars : TagGrammars} {source : String} {template : Template}
    (parsed : parse grammars source = .ok template) {expr : Expr}
    (within : .expr expr ∈ template.elements) :
    (expr.NotsUnargued →
      expr.nots ≤ maxNesting ∧ expr.height ≤ maxNesting + maxOperators + 1) ∧
    expr.nots ≤ maxNesting * (maxNesting + 1) / 2 ∧
      expr.height ≤ maxNesting * (maxNesting + 1) / 2 + maxOperators + 1 := by
  obtain ⟨⟨level, depth, nots, nested⟩, few⟩ := fits_of_parse parsed within
  have tall := expr.height_le
  constructor
  · intro unargued
    have bound := (nested.nots_le unargued).1
    omega
  · have bound := nested.nots_le_triangle
    have shallow : depth ≤ maxNesting := Nat.le_trans (Nat.le_add_right _ _) nested.fits
    have grows := Expr.triangle_add (maxNesting - depth) depth
    rw [Nat.sub_add_cancel shallow] at grows
    have all : Expr.triangle maxNesting = maxNesting * (maxNesting + 1) / 2 := by decide
    omega

/-- As many words `not` as are allowed. -/
theorem Template.exprs_shallow_full :
    let source := String.ofList ("\x7b\x7b ".toList ++
      (List.replicate maxNesting "not ".toList).flatten ++ "x | f \x7d\x7d".toList)
    ∃ template expr, parse [] source = .ok template ∧ .expr expr ∈ template.elements ∧
      expr.NotsUnargued ∧ expr.nots = maxNesting ∧
      expr.height ≤ maxNesting + maxOperators + 1 := by
  intro source
  have holds : (parse [] source).toOption.any (fun template => template.elements.any fun
      | .expr expr => decide (expr.NotsUnargued ∧ expr.nots = maxNesting)
      | .node _ => false) = true := by
    rw [parse, Chunk.ofSource, tokens, String.toList_ofList]
    decide +kernel
  obtain ⟨template, parsed, holds⟩ := (Option.any_eq_true ..).mp holds
  obtain ⟨element, within, holds⟩ := List.any_eq_true.mp holds
  cases element with
  | node _ => cases holds
  | expr expr =>
      obtain ⟨unargued, full⟩ := of_decide_eq_true holds
      have parsed := eq_ok_iff_toOption.mpr parsed
      exact ⟨template, expr, parsed, within, unargued, full,
        ((exprs_shallow parsed within).1 unargued).2⟩

/-- The `not` in the argument is not counted with those before the head of the filter. -/
theorem Template.exprs_exceed_nesting :
    ¬ ∀ (grammars : TagGrammars) (source : String) (template : Template),
      parse grammars source = .ok template → ∀ expr, .expr expr ∈ template.elements →
        expr.nots ≤ maxNesting ∧ expr.height ≤ maxNesting + maxOperators + 1 := by
  intro claimed
  let source := String.ofList ("\x7b\x7b ".toList ++
    (List.replicate maxNesting "not ".toList).flatten ++ "x | f(not x) \x7d\x7d".toList)
  have holds : (parse [] source).toOption.any (fun template => template.elements.any fun
      | .expr expr => decide (maxNesting < expr.nots)
      | .node _ => false) = true := by
    rw [parse, Chunk.ofSource, tokens, String.toList_ofList]
    decide +kernel
  obtain ⟨template, parsed, holds⟩ := (Option.any_eq_true ..).mp holds
  obtain ⟨element, within, holds⟩ := List.any_eq_true.mp holds
  cases element with
  | node _ => cases holds
  | expr expr =>
      have deep := of_decide_eq_true holds
      have parsed := eq_ok_iff_toOption.mpr parsed
      exact absurd (claimed [] source template parsed expr within).1 (Nat.not_le_of_lt deep)

end QueryTemplate
