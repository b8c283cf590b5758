import QueryTemplate.Source
import QueryTemplate.Template.Element
import QueryTemplate.Token.Basic

set_option autoImplicit false

/- The grammar of expressions as a relation between tokens and trees, and how a tree is written. The
levels are, from loosest to tightest, `or`, `and`, one comparison, `not`, filters, attributes and
atoms; `or`, `and`, filters and attributes associate to the left. -/

namespace QueryTemplate

inductive Precedence
  | disjunction
  | conjunction
  | comparison
  | negation
  | filtered
  | accessed
  | atom
deriving DecidableEq, Repr

namespace Precedence

/-- Tighter levels have larger ranks. -/
def rank : Precedence → Nat
  | disjunction => 0
  | conjunction => 1
  | comparison => 2
  | negation => 3
  | filtered => 4
  | accessed => 5
  | atom => 6

/-- The level whose expressions are, as they stand, expressions of this one. -/
def tighter? : Precedence → Option Precedence
  | disjunction => some conjunction
  | conjunction => some comparison
  | comparison => some negation
  | negation => some filtered
  | filtered => some accessed
  | accessed => some atom
  | atom => none

theorem rank_le_atom (level : Precedence) : level.rank ≤ atom.rank := by
  cases level <;> decide

theorem rank_injective {level other : Precedence} (same : level.rank = other.rank) :
    level = other := by
  cases level <;> cases other <;> first | rfl | cases same

theorem rank_tighter {loose tight : Precedence} (next : loose.tighter? = some tight) :
    tight.rank = loose.rank + 1 := by
  cases loose <;> cases next <;> rfl

end Precedence

namespace BinaryOp

def level : BinaryOp → Precedence
  | or => .disjunction
  | and => .conjunction
  | _ => .comparison

def leftLevel : BinaryOp → Precedence
  | or => .disjunction
  | and => .conjunction
  | _ => .negation

def rightLevel : BinaryOp → Precedence
  | or => .conjunction
  | and => .comparison
  | _ => .negation

def mark : BinaryOp → Mark
  | eq => .eq
  | notEq => .notEq
  | less => .less
  | lessEq => .lessEq
  | greater => .greater
  | greaterEq => .greaterEq
  | and => .andWord
  | or => .orWord

end BinaryOp

def Literal.token : Literal → Token
  | null => .mark .nullWord
  | bool true => .mark .trueWord
  | bool false => .mark .falseWord
  | int value => .int value
  | float value => .float value
  | string value => .string value

mutual

/-- An expression with every place forgotten. -/
def Expr.bare : Expr → Expr
  | .literal value _ => .literal value default
  | .var name _ => .var name default
  | .attr target name _ => .attr target.bare name default
  | .filter awaited target name _ args _ =>
    .filter awaited target.bare name default (Expr.listBare args) default
  | .negate operand _ => .negate operand.bare default
  | .binary op left right _ => .binary op left.bare right.bare default

def Expr.listBare : List Expr → List Expr
  | [] => []
  | expr :: exprs => expr.bare :: Expr.listBare exprs

end

theorem Expr.listBare_eq_map (exprs : List Expr) : listBare exprs = exprs.map bare := by
  induction exprs with
  | nil => rfl
  | cons expr exprs ih => rw [listBare, ih, List.map_cons]

namespace Grammar

/-- Tokens with their places forgotten. -/
def values (tokens : List (Located Token)) : List Token := tokens.map (·.value)

@[simp] theorem values_nil : values [] = [] := rfl

@[simp] theorem values_cons (token : Located Token) (tokens : List (Located Token)) :
    values (token :: tokens) = token.value :: values tokens := rfl

@[simp] theorem values_append (first second : List (Located Token)) :
    values (first ++ second) = values first ++ values second := List.map_append

@[simp] theorem length_values (tokens : List (Located Token)) :
    (values tokens).length = tokens.length := List.length_map _

theorem values_eq_cons {tokens : List (Located Token)} {token : Token} {others : List Token}
    (same : values tokens = token :: others) :
    ∃ span later, tokens = ⟨token, span⟩ :: later ∧ values later = others := by
  obtain ⟨⟨_, span⟩, later, rfl, rfl, rest⟩ := List.map_eq_cons_iff.mp same
  exact ⟨span, later, rfl, rest⟩

theorem values_eq_append {tokens : List (Located Token)} {first second : List Token}
    (same : values tokens = first ++ second) :
    ∃ front back, tokens = front ++ back ∧ values front = first ∧ values back = second :=
  List.map_eq_append_iff.mp same

/-- Items with commas between them. -/
def separated : List (List Token) → List Token
  | [] => []
  | item :: items => item ++ items.flatMap fun other => .mark .comma :: other

/-- What follows the name of a filter: nothing, or its arguments in parentheses, where a comma may
follow the last one. -/
inductive Arguments : List (List Token) → List Token → Prop
  | absent : Arguments [] []
  | enclosed (items : List (List Token)) :
      Arguments items (.mark .parenOpen :: separated items ++ [.mark .parenClose])
  | trailing {items : List (List Token)} (present : items ≠ []) :
      Arguments items (.mark .parenOpen :: separated items ++ [.mark .comma, .mark .parenClose])

theorem length_le_separated {item : List Token} {items : List (List Token)}
    (within : item ∈ items) : item.length ≤ (separated items).length := by
  cases items with
  | nil => cases within
  | cons first others =>
      rw [separated, List.length_append]
      rcases List.mem_cons.mp within with rfl | within
      · exact Nat.le_add_right ..
      · have part : (.mark .comma :: item) ∈ others.map fun other => .mark .comma :: other :=
          List.mem_map_of_mem within
        have shorter := (List.sublist_flatten_of_mem part).length_le
        rw [List.length_cons] at shorter
        rw [List.flatMap_def]
        omega

theorem Arguments.length_le {items : List (List Token)} {suffix : List Token}
    (follows : Arguments items suffix) {item : List Token} (within : item ∈ items) :
    item.length ≤ suffix.length := by
  cases follows with
  | absent => cases within
  | enclosed =>
      have shorter := length_le_separated within
      simp only [List.length_append, List.length_cons]
      omega
  | trailing =>
      have shorter := length_le_separated within
      simp only [List.length_append, List.length_cons]
      omega

/-- Tokens are an expression of a level, and this is its tree. -/
inductive Derives : Precedence → List Token → Expr → Prop
  | literal (value : Literal) : Derives .atom [value.token] (.literal value default)
  | var (name : String) : Derives .atom [.ident name] (.var name default)
  | parens {tokens : List Token} {tree : Expr} (inner : Derives .disjunction tokens tree) :
      Derives .atom (.mark .parenOpen :: tokens ++ [.mark .parenClose]) tree
  | attr {tokens : List Token} {target : Expr} (derived : Derives .accessed tokens target)
      (name : String) :
      Derives .accessed (tokens ++ [.mark .dot, .ident name]) (.attr target name default)
  | filter {tokens suffix : List Token} {target : Expr} (derived : Derives .filtered tokens target)
      (name : String) {args : List (List Token × Expr)}
      (each : ∀ arg ∈ args, Derives .disjunction arg.1 arg.2)
      (follows : Arguments (args.map (·.1)) suffix) :
      Derives .filtered (tokens ++ .mark .pipe :: .ident name :: suffix)
        (.filter false target name default (args.map (·.2)) default)
  | negate {tokens : List Token} {operand : Expr} (derived : Derives .negation tokens operand) :
      Derives .negation (.mark .notWord :: tokens) (.negate operand default)
  | binary (op : BinaryOp) {before after : List Token} {left right : Expr}
      (first : Derives op.leftLevel before left) (second : Derives op.rightLevel after right) :
      Derives op.level (before ++ .mark op.mark :: after) (.binary op left right default)
  | of_tighter {loose tight : Precedence} {tokens : List Token} {tree : Expr}
      (next : loose.tighter? = some tight) (derived : Derives tight tokens tree) :
      Derives loose tokens tree

/-- An expression of a level is one of every looser level. -/
theorem Derives.loosen {tight loose : Precedence} {tokens : List Token} {tree : Expr}
    (derived : Derives tight tokens tree) (looser : loose.rank ≤ tight.rank) :
    Derives loose tokens tree := by
  induction gap : tight.rank - loose.rank generalizing loose with
  | zero =>
      have same : tight = loose := Precedence.rank_injective (by omega)
      exact same ▸ derived
  | succ gap ih =>
      cases next : loose.tighter? with
      | none =>
          cases loose <;> cases next
          cases tight <;> cases gap
      | some tighter =>
          have rank := Precedence.rank_tighter next
          exact .of_tighter next (ih (by omega) (by omega))

end Grammar

namespace Expr

/-- Puts parentheses around what is looser than the level wanted. -/
def enclosed (own wanted : Precedence) (tokens : List Token) : List Token :=
  if wanted.rank ≤ own.rank then tokens
  else .mark .parenOpen :: tokens ++ [.mark .parenClose]

/-- What is written after the name of a filter. -/
def argumentTokens (args : List (List Token)) : List Token :=
  if args.isEmpty then [] else .mark .parenOpen :: Grammar.separated args ++ [.mark .parenClose]

mutual

/-- The tokens of an expression where one of a level is wanted. -/
def written (wanted : Precedence) : Expr → List Token
  | .literal value _ => [value.token]
  | .var name _ => [.ident name]
  | .attr target name _ =>
    enclosed .accessed wanted (target.written .accessed ++ [.mark .dot, .ident name])
  | .filter _ target name _ args _ =>
    enclosed .filtered wanted
      (target.written .filtered ++ .mark .pipe :: .ident name :: argumentTokens (listWritten args))
  | .negate operand _ =>
    enclosed .negation wanted (.mark .notWord :: operand.written .negation)
  | .binary op left right _ =>
    enclosed op.level wanted
      (left.written op.leftLevel ++ .mark op.mark :: right.written op.rightLevel)

def listWritten : List Expr → List (List Token)
  | [] => []
  | expr :: exprs => expr.written .disjunction :: listWritten exprs

end

theorem listWritten_eq_map (exprs : List Expr) :
    listWritten exprs = exprs.map (written .disjunction) := by
  induction exprs with
  | nil => rfl
  | cons expr exprs ih => rw [listWritten, ih, List.map_cons]

theorem derives_enclosed {own : Precedence} {tokens : List Token} {tree : Expr}
    (derived : Grammar.Derives own tokens tree) (wanted : Precedence) :
    Grammar.Derives wanted (enclosed own wanted tokens) tree := by
  unfold enclosed
  split
  next tight => exact derived.loosen tight
  next => exact (Grammar.Derives.parens (derived.loosen (Nat.zero_le _))).loosen wanted.rank_le_atom

theorem arguments_argumentTokens (items : List (List Token)) :
    Grammar.Arguments items (argumentTokens items) := by
  cases items with
  | nil => exact .absent
  | cons item items => exact .enclosed _

/-- No filter in the expression is awaited. -/
def Unawaited (expr : Expr) : Prop := ∀ element ∈ expr.elements, element.kind ≠ .awaitedFilter

mutual

/-- What is written of a tree is derived with that tree. -/
theorem derives_written (expr : Expr) (unawaited : expr.Unawaited) (wanted : Precedence) :
    Grammar.Derives wanted (expr.written wanted) expr.bare := by
  match expr with
  | .literal value _ => exact (Grammar.Derives.literal value).loosen wanted.rank_le_atom
  | .var name _ => exact (Grammar.Derives.var name).loosen wanted.rank_le_atom
  | .attr target name _ =>
      have inner := derives_written target
        (fun element within => unawaited element (List.mem_cons_of_mem _ within)) .accessed
      exact derives_enclosed (inner.attr name) wanted
  | .filter true target name _ args _ => exact absurd rfl (unawaited _ List.mem_cons_self)
  | .filter false target name _ args _ =>
      have inner := derives_written target (fun element within =>
        unawaited element (List.mem_cons_of_mem _ (List.mem_append_left _ within))) .filtered
      have each := listDerives_written args fun element within =>
        unawaited element (List.mem_cons_of_mem _ (List.mem_append_right _ within))
      have parts : ∀ arg ∈ args.map fun expr => (expr.written .disjunction, expr.bare),
          Grammar.Derives .disjunction arg.1 arg.2 := List.forall_mem_map.mpr each
      have whole := inner.filter name parts (arguments_argumentTokens _)
      rw [List.map_map, List.map_map] at whole
      refine derives_enclosed ?_ wanted
      rw [bare, listBare_eq_map, listWritten_eq_map]
      exact whole
  | .negate operand _ =>
      have inner := derives_written operand
        (fun element within => unawaited element (List.mem_cons_of_mem _ within)) .negation
      exact derives_enclosed inner.negate wanted
  | .binary op left right _ =>
      have first := derives_written left (fun element within =>
        unawaited element (List.mem_cons_of_mem _ (List.mem_append_left _ within))) op.leftLevel
      have second := derives_written right (fun element within =>
        unawaited element (List.mem_cons_of_mem _ (List.mem_append_right _ within))) op.rightLevel
      exact derives_enclosed (.binary op first second) wanted

theorem listDerives_written (exprs : List Expr)
    (unawaited : ∀ element ∈ listElements exprs, element.kind ≠ .awaitedFilter) :
    ∀ expr ∈ exprs, Grammar.Derives .disjunction (expr.written .disjunction) expr.bare := by
  match exprs with
  | [] => exact fun _ within => nomatch within
  | expr :: exprs =>
      refine List.forall_mem_cons.mpr ⟨?_, ?_⟩
      · exact derives_written expr
          (fun element within => unawaited element (List.mem_append_left _ within)) .disjunction
      · exact listDerives_written exprs
          fun element within => unawaited element (List.mem_append_right _ within)

end

end Expr

end QueryTemplate
