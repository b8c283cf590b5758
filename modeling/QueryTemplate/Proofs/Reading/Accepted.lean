import QueryTemplate.Expr.Reader
import QueryTemplate.Proofs.Reading.Grammar
import QueryTemplate.Proofs.Reading.Takes

set_option autoImplicit false

/- What the reader of expressions accepts is derived by the grammar, with the tree that was read,
places included. There is one lemma for each level, and each holds for any reader of what stands in
parentheses. -/

namespace QueryTemplate.Expr

open Reader Grammar

/-- The tokens are an expression of a level, and this is its tree: its names stand where their tokens
do, and it reaches from its first token to its last, parentheses around it aside. -/
inductive Derived : Precedence → Expr → List (Located Token) → Prop
  | literal (value : Literal) (span : Span) :
      Derived .atom (.literal value span) [⟨value.token, span⟩]
  | var (name : String) (span : Span) : Derived .atom (.var name span) [⟨.ident name, span⟩]
  | parens {expr : Expr} {used : List (Located Token)} (first last : Span)
      (inner : Derived .disjunction expr used) :
      Derived .atom expr (⟨.mark .parenOpen, first⟩ :: used ++ [⟨.mark .parenClose, last⟩])
  | attr {target : Expr} {used : List (Located Token)} (derived : Derived .accessed target used)
      (sign : Span) (name : String) (place : Span) :
      Derived .accessed (.attr target name (target.span.through place))
        (used ++ [⟨.mark .dot, sign⟩, ⟨.ident name, place⟩])
  | filter {target : Expr} {used : List (Located Token)} (derived : Derived .filtered target used)
      (sign : Span) (name : String) (place : Span) {args : List (Expr × List (Located Token))}
      (each : ∀ arg ∈ args, Derived .disjunction arg.1 arg.2) {suffix : List (Located Token)}
      (follows : Arguments (args.map fun arg => values arg.2) (values suffix))
      (inside : (args.flatMap (·.2)).Sublist suffix.dropLast) :
      Derived .filtered
        (.filter false target name place (args.map (·.1))
          (target.span.through (suffix.getLastD ⟨.ident name, place⟩).span))
        (used ++ ⟨.mark .pipe, sign⟩ :: ⟨.ident name, place⟩ :: suffix)
  | negate {operand : Expr} {used : List (Located Token)} (first : Span)
      (derived : Derived .negation operand used) :
      Derived .negation (.negate operand (first.through operand.span))
        (⟨.mark .notWord, first⟩ :: used)
  | binary (op : BinaryOp) {left right : Expr} {before after : List (Located Token)} (sign : Span)
      (first : Derived op.leftLevel left before) (second : Derived op.rightLevel right after) :
      Derived op.level (join op left right) (before ++ ⟨.mark op.mark, sign⟩ :: after)
  | of_tighter {loose tight : Precedence} {expr : Expr} {used : List (Located Token)}
      (next : loose.tighter? = some tight) (derived : Derived tight expr used) :
      Derived loose expr used

/-- The tokens of an argument are among those after the name of the filter. -/
theorem sublist_of_argument {args : List (Expr × List (Located Token))}
    {suffix : List (Located Token)} (inside : (args.flatMap (·.2)).Sublist suffix.dropLast)
    {arg : Expr × List (Located Token)} (member : arg ∈ args) : arg.2.Sublist suffix := by
  rw [List.flatMap_def] at inside
  have own := List.sublist_flatten_of_mem (List.mem_map_of_mem (f := Prod.snd) member)
  exact own.trans (inside.trans (List.dropLast_sublist suffix))

/-- Without their places the tokens derive the tree without its places. -/
theorem Derived.bare {level : Precedence} {expr : Expr} {used : List (Located Token)}
    (derived : Derived level expr used) : Derives level (values used) expr.bare := by
  induction derived with
  | literal value => exact .literal value
  | var name => exact .var name
  | parens _ _ _ ih => simpa using Derives.parens ih
  | attr _ _ name _ ih =>
      rw [values_append]
      exact .attr ih name
  | @filter _ _ _ _ name _ args _ suffix follows _ ih others =>
      have parts : ∀ arg ∈ args.map fun arg => (values arg.2, arg.1.bare),
          Derives .disjunction arg.1 arg.2 := List.forall_mem_map.mpr others
      have spelled : Arguments ((args.map fun arg => (values arg.2, arg.1.bare)).map (·.1))
          (values suffix) := by
        rw [List.map_map]
        exact follows
      have whole := ih.filter name parts spelled
      rw [values_append, Expr.bare, listBare_eq_map, List.map_map]
      rw [List.map_map] at whole
      exact whole
  | negate _ _ ih => exact .negate ih
  | binary op _ _ _ ih others =>
      rw [values_append]
      exact .binary op ih others
  | of_tighter next _ ih => exact .of_tighter next ih

abbrev Accepts {α : Type} (reader : Reader α) (post : α → List (Located Token) → Prop) : Prop :=
  Takes (fun _ => True) reader post

theorem literalOf?_eq_some {token : Token} {value : Literal} :
    literalOf? token = some value ↔ token = value.token := by
  constructor
  · intro found
    unfold literalOf? at found
    split at found <;> cases found <;> rfl
  · rintro rfl
    rcases value with _ | (_ | _) | _ | _ | _ <;> rfl

theorem accepts_literalReader : Accepts literalReader (Derived .atom) := by
  refine (Takes.accept literalOf?).bind fun literal used taken => Takes.pure ?_
  obtain ⟨token, rfl, -, selected, place⟩ := taken
  have spelled := literalOf?_eq_some.mp selected
  have token_eq : token = ⟨literal.value.token, literal.span⟩ := by rw [← spelled, ← place]
  rw [List.append_nil, token_eq]
  exact .literal literal.value literal.span

theorem accepts_ident :
    Accepts ident fun name used => used = [⟨.ident name.value, name.span⟩] := by
  refine (Takes.accept _).mono fun name used taken => ?_
  obtain ⟨token, rfl, -, selected, place⟩ := taken
  split at selected
  next word spelled =>
    cases selected
    rw [← place, ← spelled]
  next => cases selected

theorem accepts_varReader : Accepts varReader (Derived .atom) := by
  refine accepts_ident.bind fun name used taken => Takes.pure ?_
  rw [List.append_nil, taken]
  exact .var name.value name.span

variable {inner : Reader Expr}

theorem accepts_parens (each : Accepts inner (Derived .disjunction)) :
    Accepts (parens inner) (Derived .atom) := by
  refine (Takes.mark .parenOpen).bind fun _ front first => ?_
  refine each.bind fun expr used derived => ?_
  refine (Takes.mark .parenClose).bind fun _ back last => Takes.pure ?_
  subst first last
  exact .parens _ _ derived

theorem accepts_atom (each : Accepts inner (Derived .disjunction)) :
    Accepts (atom inner) (Derived .atom) := by
  apply Takes.choice
  intro reader within
  simp only [List.mem_cons, List.not_mem_nil, or_false] at within
  rcases within with rfl | rfl | rfl
  · exact accepts_literalReader
  · exact accepts_varReader
  · exact accepts_parens each

theorem accepts_access :
    Accepts access fun name used => ∃ sign,
      used = [⟨.mark .dot, sign⟩, ⟨.ident name.value, name.span⟩] := by
  refine (Takes.mark .dot).bind fun sign front first => accepts_ident.mono fun name used taken => ?_
  exact ⟨sign, by rw [first, taken, List.singleton_append]⟩

theorem accepts_accessed (each : Accepts inner (Derived .disjunction)) :
    Accepts (accessed inner) (Derived .accessed) := by
  refine (accepts_atom each).bind fun head front derived => ?_
  refine (Takes.many accepts_access).bind fun names others parts => Takes.pure ?_
  rw [List.append_nil]
  refine parts.foldl (fun target name before used first taken => ?_) (.of_tighter rfl derived)
  obtain ⟨sign, rfl⟩ := taken
  exact .attr first sign name.value name.span

/-- The tokens are arguments one after the other, each one derived with its tree. -/
def DerivedArgs (spelled : List (List Token) → List Token → Prop) (exprs : List Expr)
    (used : List (Located Token)) : Prop :=
  ∃ args : List (Expr × List (Located Token)), (∀ arg ∈ args, Derived .disjunction arg.1 arg.2) ∧
    args.map (·.1) = exprs ∧ spelled (args.map fun arg => values arg.2) (values used) ∧
    (args.flatMap (·.2)).Sublist used

/-- An argument with the comma before it. -/
theorem accepts_nextArg (each : Accepts inner (Derived .disjunction)) :
    Accepts (do let _ ← mark .comma; inner) fun expr used =>
      ∃ sign tokens, used = ⟨.mark .comma, sign⟩ :: tokens ∧ Derived .disjunction expr tokens := by
  refine (Takes.mark .comma).bind fun sign front first => each.mono fun expr used derived => ?_
  exact ⟨sign, used, by rw [first, List.singleton_append], derived⟩

theorem derivedArgs_parts {exprs : List Expr} {used : List (Located Token)}
    (parts : Parts (fun expr used => ∃ sign tokens, used = ⟨.mark .comma, sign⟩ :: tokens ∧
      Derived .disjunction expr tokens) exprs used) :
    DerivedArgs (fun items tokens => tokens = items.flatMap fun item => .mark .comma :: item)
      exprs used := by
  induction parts with
  | nil => exact ⟨[], by simp, rfl, rfl, .slnil⟩
  | @cons expr front exprs others head _ ih =>
      obtain ⟨sign, tokens, rfl, derived⟩ := head
      obtain ⟨args, each, trees, rest, inside⟩ := ih
      refine ⟨(expr, tokens) :: args, List.forall_mem_cons.mpr ⟨derived, each⟩, ?_, ?_, ?_⟩
      · rw [List.map_cons, trees]
      · rw [values_append, values_cons, rest]
        rfl
      · exact ((List.Sublist.refl tokens).append inside).cons _

theorem accepts_commaList (each : Accepts inner (Derived .disjunction)) :
    Accepts (commaList inner) (DerivedArgs fun items tokens =>
      tokens = separated items ∨ items ≠ [] ∧ tokens = separated items ++ [.mark .comma]) := by
  refine (Takes.optional each).bind fun head front first => ?_
  cases head with
  | none =>
      subst first
      exact Takes.pure ⟨[], by simp, rfl, Or.inl rfl, .slnil⟩
  | some expr =>
      refine (Takes.many (accepts_nextArg each)).bind fun exprs others parts => ?_
      refine (Takes.optional (Takes.mark .comma)).bind fun comma back last => Takes.pure ?_
      obtain ⟨args, derived, trees, rest, inside⟩ := derivedArgs_parts parts
      refine ⟨(expr, front) :: args, List.forall_mem_cons.mpr ⟨first, derived⟩, ?_, ?_, ?_⟩
      · rw [List.map_cons, trees]
      · cases comma with
        | none =>
            subst last
            exact Or.inl (by simp [separated, rest])
        | some span =>
            subst last
            exact Or.inr ⟨List.cons_ne_nil _ _, by simp [separated, rest]⟩
      · exact (List.Sublist.refl front).append (inside.trans (List.sublist_append_left _ _))

theorem accepts_filterArgs (each : Accepts inner (Derived .disjunction)) :
    Accepts (filterArgs inner) fun read used => ∃ tokens,
      used = tokens ++ [⟨.mark .parenClose, read.2⟩] ∧
        ∃ args : List (Expr × List (Located Token)),
          (∀ arg ∈ args, Derived .disjunction arg.1 arg.2) ∧ args.map (·.1) = read.1 ∧
          Arguments (args.map fun arg => values arg.2) (values used) ∧
          (args.flatMap (·.2)).Sublist tokens := by
  refine (Takes.mark .parenOpen).bind fun _ front first => ?_
  refine (accepts_commaList each).bind fun exprs used listed => ?_
  refine (Takes.mark .parenClose).bind fun _ back last => Takes.pure ?_
  obtain ⟨args, derived, trees, spelled, inside⟩ := listed
  subst first last
  refine ⟨_ :: used, rfl, args, derived, trees, ?_, inside.cons _⟩
  rcases spelled with spelled | ⟨present, spelled⟩
  · simpa [spelled] using Arguments.enclosed (args.map fun arg => values arg.2)
  · simpa [spelled] using Arguments.trailing present

theorem accepts_filterSuffix (each : Accepts inner (Derived .disjunction)) :
    Accepts (filterSuffix inner) fun suffix used =>
      ∃ sign tail, used = ⟨.mark .pipe, sign⟩ :: ⟨.ident suffix.name.value, suffix.name.span⟩ :: tail ∧
        suffix.last = (tail.getLastD ⟨.ident suffix.name.value, suffix.name.span⟩).span ∧
        ∃ args : List (Expr × List (Located Token)),
          (∀ arg ∈ args, Derived .disjunction arg.1 arg.2) ∧ args.map (·.1) = suffix.args ∧
          Arguments (args.map fun arg => values arg.2) (values tail) ∧
          (args.flatMap (·.2)).Sublist tail.dropLast := by
  refine (Takes.mark .pipe).bind fun sign front first => ?_
  refine accepts_ident.bind fun name word named => ?_
  refine (Takes.optional (accepts_filterArgs each)).bind fun args tail listed => ?_
  subst first named
  cases args with
  | none =>
      subst listed
      exact Takes.pure ⟨sign, [], rfl, rfl, [], by simp, rfl, .absent, .slnil⟩
  | some read =>
      obtain ⟨tokens, rfl, args, derived, trees, follows, inside⟩ := listed
      refine Takes.pure ⟨sign, _, by simp, ?_, args, derived, trees, follows, ?_⟩
      · rw [List.getLastD_concat]
      · rwa [List.dropLast_concat]

theorem accepts_filtered (each : Accepts inner (Derived .disjunction)) :
    Accepts (filtered inner) (Derived .filtered) := by
  refine (accepts_accessed each).bind fun head front derived => ?_
  refine (Takes.many (accepts_filterSuffix each)).bind fun suffixes others parts => Takes.pure ?_
  rw [List.append_nil]
  refine parts.foldl (fun target suffix before used first taken => ?_) (.of_tighter rfl derived)
  obtain ⟨sign, tail, rfl, last, args, derived, trees, follows, inside⟩ := taken
  rw [applyFilter, last, ← trees]
  exact .filter first sign suffix.name.value suffix.name.span derived follows inside

theorem derived_negates {nots : List Span} {others used : List (Located Token)} {operand : Expr}
    (parts : Parts (fun span used => used = [⟨.mark .notWord, span⟩]) nots others)
    (derived : Derived .negation operand used) :
    Derived .negation
      (nots.foldr (fun span expr => .negate expr (span.through expr.span)) operand)
      (others ++ used) := by
  induction parts with
  | nil => exact derived
  | cons head _ ih =>
      subst head
      exact .negate _ ih

theorem accepts_negated (each : Accepts inner (Derived .disjunction)) :
    Accepts (negated inner) (Derived .negation) := by
  refine (Takes.many (Takes.mark .notWord)).bind fun nots others parts => ?_
  refine (accepts_filtered each).bind fun operand used derived => Takes.pure ?_
  rw [List.append_nil]
  exact derived_negates parts (.of_tighter rfl derived)

theorem accepts_comparisonOp :
    Accepts comparisonOp fun op used => (∃ sign, used = [⟨.mark op.mark, sign⟩]) ∧
      op.level = .comparison ∧ op.leftLevel = .negation ∧ op.rightLevel = .negation := by
  have marks (op : BinaryOp)
      (compares : op.level = .comparison ∧ op.leftLevel = .negation ∧ op.rightLevel = .negation) :
      Accepts (marked op.mark op) fun read used => (∃ sign, used = [⟨.mark read.mark, sign⟩]) ∧
        read.level = .comparison ∧ read.leftLevel = .negation ∧ read.rightLevel = .negation := by
    refine (Takes.mark op.mark).bind fun sign used taken => Takes.pure ⟨⟨sign, ?_⟩, compares⟩
    rw [List.append_nil, taken]
  apply Takes.choice
  intro reader within
  simp only [List.mem_cons, List.not_mem_nil, or_false] at within
  rcases within with rfl | rfl | rfl | rfl | rfl | rfl
  · exact marks .eq ⟨rfl, rfl, rfl⟩
  · exact marks .notEq ⟨rfl, rfl, rfl⟩
  · exact marks .lessEq ⟨rfl, rfl, rfl⟩
  · exact marks .greaterEq ⟨rfl, rfl, rfl⟩
  · exact marks .less ⟨rfl, rfl, rfl⟩
  · exact marks .greater ⟨rfl, rfl, rfl⟩

theorem accepts_comparison (each : Accepts inner (Derived .disjunction)) :
    Accepts (comparison inner) (Derived .comparison) := by
  refine (accepts_negated each).bind fun left front first => ?_
  have operand : Accepts (do
      let op ← comparisonOp
      let right ← negated inner
      return (op, right)) fun read used =>
        ∃ sign tokens, used = ⟨.mark read.1.mark, sign⟩ :: tokens ∧
          Derived .negation read.2 tokens ∧
          read.1.level = .comparison ∧ read.1.leftLevel = .negation ∧
          read.1.rightLevel = .negation := by
    refine accepts_comparisonOp.bind fun op word taken => ?_
    refine (accepts_negated each).bind fun right used derived => Takes.pure ?_
    obtain ⟨⟨sign, rfl⟩, levels⟩ := taken
    exact ⟨sign, used, by rw [List.append_nil, List.singleton_append], derived, levels⟩
  refine (Takes.optional operand).bind fun read back taken => ?_
  cases read with
  | none =>
      subst taken
      refine Takes.pure ?_
      rw [List.append_nil, List.append_nil]
      exact .of_tighter rfl first
  | some read =>
      obtain ⟨op, right⟩ := read
      obtain ⟨sign, tokens, rfl, second, level, leftLevel, rightLevel⟩ := taken
      refine Takes.pure ?_
      rw [List.append_nil, ← level]
      exact .binary op sign (leftLevel ▸ first) (rightLevel ▸ second)

/-- A chain of operands that an operator joins from the left. -/
theorem accepts_chain {operand : Reader Expr} (op : BinaryOp) (leftmost : op.leftLevel = op.level)
    (next : op.level.tighter? = some op.rightLevel)
    (each : Accepts operand (Derived op.rightLevel)) :
    Accepts (chain op.mark op operand) (Derived op.level) := by
  refine each.bind fun head front derived => ?_
  have another : Accepts (do let _ ← mark op.mark; operand) fun expr used =>
      ∃ sign tokens, used = ⟨.mark op.mark, sign⟩ :: tokens ∧ Derived op.rightLevel expr tokens := by
    refine (Takes.mark op.mark).bind fun sign word first => each.mono fun expr used derived => ?_
    exact ⟨sign, used, by rw [first, List.singleton_append], derived⟩
  refine (Takes.many another).bind fun exprs others parts => Takes.pure ?_
  rw [List.append_nil]
  refine parts.foldl (fun left right before used first taken => ?_) (.of_tighter next derived)
  obtain ⟨sign, tokens, rfl, second⟩ := taken
  exact .binary op sign (leftmost ▸ first) second

theorem accepts_disjunction (each : Accepts inner (Derived .disjunction)) :
    Accepts (disjunction inner) (Derived .disjunction) := by
  have conjunction : Accepts (chain .andWord .and (comparison inner)) (Derived .conjunction) :=
    accepts_chain .and rfl rfl (accepts_comparison each)
  exact accepts_chain .or rfl rfl conjunction

theorem accepts_readerWithin (depth : Nat) :
    Accepts (readerWithin depth) (Derived .disjunction) := by
  induction depth with
  | zero => exact Takes.fail
  | succ depth ih => exact accepts_disjunction ih

theorem accepts_reader : Accepts reader (Derived .disjunction) :=
  fun tokens => accepts_readerWithin (tokens.length + 1) tokens

end QueryTemplate.Expr
