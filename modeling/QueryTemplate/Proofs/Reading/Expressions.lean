import QueryTemplate.Expr.Reader
import QueryTemplate.Program.Generate
import QueryTemplate.Proofs.Code.Layout
import QueryTemplate.Proofs.Reading.Yields
import QueryTemplate.Template.Element
import QueryTemplate.Token.Lexer

set_option autoImplicit false

/- Expressions that are read: their code is no longer than the tokens they are read from, and their
integer literals are those of tokens. -/

namespace QueryTemplate

/-- Integers are of 64 bits. -/
def Literal.InRange : Literal → Prop
  | .int value => -(twoPow 63 : Int) ≤ value ∧ value < (twoPow 63 : Int)
  | _ => True

def Token.InRange : Token → Prop
  | .int value => -(twoPow 63 : Int) ≤ value ∧ value < (twoPow 63 : Int)
  | _ => True

def Located.TokenInRange (token : Located Token) : Prop := token.value.InRange

open Reader (Yields Sums)

namespace Expr

/-- All literals of an expression are in range, and its code has at most so many instructions. -/
structure Covered (expr : Expr) (count : Nat) : Prop where
  size : (expr.code 0).length ≤ count
  literals : ∀ value span, .expr (.literal value span) ∈ expr.elements → value.InRange

structure ListCovered (exprs : List Expr) (count : Nat) : Prop where
  size : (Expr.listCode 0 exprs).length ≤ count
  literals : ∀ value span, .expr (.literal value span) ∈ Expr.listElements exprs → value.InRange

variable {count others : Nat}

theorem Covered.mono {expr : Expr} (covered : expr.Covered count) (more : count ≤ others) :
    expr.Covered others := ⟨Nat.le_trans covered.size more, covered.literals⟩

theorem covered_literal {value : Literal} (inRange : value.InRange) (span : Span) :
    (literal value span).Covered 1 := by
  refine ⟨Nat.le_refl 1, fun other place within => ?_⟩
  cases List.mem_singleton.mp within
  exact inRange

theorem covered_var (name : String) (span : Span) : (var name span).Covered 1 := by
  refine ⟨Nat.le_refl 1, fun other place within => ?_⟩
  cases List.mem_singleton.mp within

theorem covered_attr {target : Expr} (inner : target.Covered count) (name : String) (span : Span) :
    (attr target name span).Covered (count + 1) := by
  refine ⟨?_, fun value place within => ?_⟩
  · have size := inner.size
    simp only [code, List.length_append, List.length_singleton]
    omega
  · rcases List.mem_cons.mp within with same | within
    · cases same
    · exact inner.literals value place within

theorem covered_negate {operand : Expr} (inner : operand.Covered count) (span : Span) :
    (negate operand span).Covered (count + 1) := by
  refine ⟨?_, fun value place within => ?_⟩
  · have size := inner.size
    simp only [code, List.length_append, List.length_singleton]
    omega
  · rcases List.mem_cons.mp within with same | within
    · cases same
    · exact inner.literals value place within

theorem covered_filter {target : Expr} {args : List Expr} (inner : target.Covered count)
    (list : ListCovered args others) (awaited : Bool) (name : String) (nameSpan span : Span) :
    (filter awaited target name nameSpan args span).Covered (count + others + 1) := by
  refine ⟨?_, fun value place within => ?_⟩
  · have size := inner.size
    have rest := list.size
    simp only [code, List.length_append, List.length_singleton, length_listCode args (0 + _)]
    omega
  · rcases List.mem_cons.mp within with same | within
    · cases same
    · rcases List.mem_append.mp within with within | within
      · exact inner.literals value place within
      · exact list.literals value place within

theorem length_code_binary (op : BinaryOp) (left right : Expr) (span : Span) :
    ((binary op left right span).code 0).length =
      (left.code 0).length + (right.code 0).length + 1 := by
  cases op <;>
    simp only [code, List.length_append, List.length_cons, List.length_nil,
      right.length_code (0 + _ + 1), right.length_code (0 + _)] <;>
    omega

theorem covered_join {left right : Expr} (first : left.Covered count)
    (second : right.Covered others) (op : BinaryOp) :
    (join op left right).Covered (count + others + 1) := by
  refine ⟨?_, fun value place within => ?_⟩
  · have size := first.size
    have rest := second.size
    rw [join, length_code_binary]
    omega
  · rcases List.mem_cons.mp within with same | within
    · cases same
    · rcases List.mem_append.mp within with within | within
      · exact first.literals value place within
      · exact second.literals value place within

theorem listCovered_nil : ListCovered [] 0 := ⟨Nat.le_refl 0, fun _ _ within => nomatch within⟩

theorem listCovered_cons {expr : Expr} {exprs : List Expr} (head : expr.Covered count)
    (tail : ListCovered exprs others) : ListCovered (expr :: exprs) (count + others) := by
  refine ⟨?_, fun value place within => ?_⟩
  · have size := head.size
    have rest := tail.size
    simp only [listCode, List.length_append, length_listCode exprs (0 + _)]
    omega
  · rcases List.mem_append.mp within with within | within
    · exact head.literals value place within
    · exact tail.literals value place within

theorem ListCovered.mono {exprs : List Expr} (covered : ListCovered exprs count)
    (more : count ≤ others) : ListCovered exprs others :=
  ⟨Nat.le_trans covered.size more, covered.literals⟩

theorem listCovered_sums {exprs : List Expr} (each : Sums Covered exprs count) :
    ListCovered exprs count := by
  induction each with
  | nil => exact listCovered_nil
  | cons head _ ih => exact listCovered_cons head ih

theorem inRange_literalOf? {token : Token} {value : Literal} (found : literalOf? token = some value)
    (inRange : token.InRange) : value.InRange := by
  unfold literalOf? at found
  split at found <;> cases found
  · exact inRange
  all_goals trivial

theorem yields_literalReader : Yields Located.TokenInRange literalReader Covered := by
  refine (Yields.accept literalOf?).bind fun token count taken => Yields.pure ?_
  obtain ⟨rfl, source, inRange, selected, _⟩ := taken
  exact covered_literal (inRange_literalOf? selected inRange) token.span

theorem yields_ident :
    Yields Located.TokenInRange Reader.ident fun _ count => count = 1 :=
  (Yields.accept _).mono fun _ _ taken => taken.1

theorem yields_varReader : Yields Located.TokenInRange varReader Covered := by
  refine yields_ident.bind fun name count taken => Yields.pure ?_
  subst taken
  exact covered_var name.value name.span

variable {inner : Reader Expr}

theorem yields_parens (each : Yields Located.TokenInRange inner Covered) :
    Yields Located.TokenInRange (parens inner) Covered := by
  apply (Yields.mark .parenOpen).bind
  intro _ first _
  apply each.bind
  intro expr count covered
  refine (Yields.mark .parenClose).bind fun _ last _ => Yields.pure ?_
  exact covered.mono (by omega)

theorem yields_atom (each : Yields Located.TokenInRange inner Covered) :
    Yields Located.TokenInRange (atom inner) Covered := by
  apply Yields.choice
  intro reader within
  simp only [List.mem_cons, List.not_mem_nil, or_false] at within
  rcases within with rfl | rfl | rfl
  · exact yields_literalReader
  · exact yields_varReader
  · exact yields_parens each

theorem yields_access : Yields Located.TokenInRange access fun _ count => 1 ≤ count := by
  apply (Yields.mark .dot).bind
  intro _ first taken
  exact yields_ident.mono fun _ count _ => by omega

theorem covered_accesses {names : List (Located String)}
    (each : Sums (fun _ count => 1 ≤ count) names others) {head : Expr} (covered : head.Covered count) :
    (names.foldl (fun target name => attr target name.value (target.span.through name.span))
      head).Covered (count + others) := by
  induction each generalizing head count with
  | nil => exact covered
  | cons taken _ ih =>
      apply (ih (covered_attr covered _ _)).mono
      omega

theorem yields_accessed (each : Yields Located.TokenInRange inner Covered) :
    Yields Located.TokenInRange (accessed inner) Covered := by
  apply (yields_atom each).bind
  intro head count covered
  refine (Yields.many yields_access).bind fun names others taken => Yields.pure ?_
  exact covered_accesses taken covered

theorem yields_commaList (each : Yields Located.TokenInRange inner Covered) :
    Yields Located.TokenInRange (commaList inner) ListCovered := by
  apply (Yields.optional each).bind
  intro first count covered
  cases first with
  | none =>
      exact Yields.pure (listCovered_nil.mono (Nat.zero_le _))
  | some first =>
      have next : Yields Located.TokenInRange (do
          let _ ← Reader.mark .comma
          inner) Covered := by
        apply (Yields.mark .comma).bind
        intro _ _ _
        exact each.mono fun _ _ covered => covered.mono (by omega)
      apply (Yields.many next).bind
      intro rest others sums
      refine (Yields.optional (Yields.mark .comma)).bind fun _ last _ => Yields.pure ?_
      exact (listCovered_cons covered (listCovered_sums sums)).mono (by omega)

theorem yields_filterArgs (each : Yields Located.TokenInRange inner Covered) :
    Yields Located.TokenInRange (filterArgs inner) fun read count => ListCovered read.1 count := by
  apply (Yields.mark .parenOpen).bind
  intro _ first _
  apply (yields_commaList each).bind
  intro args count covered
  refine (Yields.mark .parenClose).bind fun _ last _ => Yields.pure ?_
  exact covered.mono (by omega)

theorem yields_filterSuffix (each : Yields Located.TokenInRange inner Covered) :
    Yields Located.TokenInRange (filterSuffix inner)
      fun suffix count => ∃ others, others + 1 ≤ count ∧ ListCovered suffix.args others := by
  apply (Yields.mark .pipe).bind
  intro _ first taken
  apply yields_ident.bind
  intro name second _
  apply (Yields.optional (yields_filterArgs each)).bind
  intro args count covered
  cases args with
  | none => exact Yields.pure ⟨0, by omega, listCovered_nil⟩
  | some args => exact Yields.pure ⟨count, by omega, covered⟩

theorem covered_filters {suffixes : List FilterSuffix}
    (each : Sums (fun suffix count => ∃ others, others + 1 ≤ count ∧ ListCovered suffix.args others)
      suffixes others)
    {head : Expr} (covered : head.Covered count) :
    (suffixes.foldl applyFilter head).Covered (count + others) := by
  induction each generalizing head count with
  | nil => exact covered
  | cons taken _ ih =>
      obtain ⟨args, fewer, list⟩ := taken
      apply (ih (covered_filter covered list false _ _ _)).mono
      omega

theorem yields_filtered (each : Yields Located.TokenInRange inner Covered) :
    Yields Located.TokenInRange (filtered inner) Covered := by
  apply (yields_accessed each).bind
  intro head count covered
  refine (Yields.many (yields_filterSuffix each)).bind fun suffixes others sums => Yields.pure ?_
  exact covered_filters sums covered

theorem covered_negates {nots : List Span} (each : Sums (fun _ count => count = 1) nots others)
    {operand : Expr} (covered : operand.Covered count) :
    (nots.foldr (fun span expr => .negate expr (span.through expr.span)) operand).Covered
      (others + count) := by
  induction each with
  | nil => exact covered.mono (by omega)
  | cons taken _ ih =>
      apply (covered_negate ih _).mono
      omega

theorem yields_negated (each : Yields Located.TokenInRange inner Covered) :
    Yields Located.TokenInRange (negated inner) Covered := by
  apply (Yields.many (Yields.mark .notWord)).bind
  intro nots others sums
  refine (yields_filtered each).bind fun operand count covered => Yields.pure ?_
  exact covered_negates sums covered

theorem yields_marked (wanted : Mark) (op : BinaryOp) :
    Yields Located.TokenInRange (marked wanted op) fun _ count => count = 1 :=
  (Yields.mark wanted).bind fun _ _ taken => Yields.pure taken

theorem yields_comparisonOp :
    Yields Located.TokenInRange comparisonOp fun _ count => count = 1 := by
  apply Yields.choice
  intro reader within
  simp only [List.mem_cons, List.not_mem_nil, or_false] at within
  rcases within with rfl | rfl | rfl | rfl | rfl | rfl <;> exact yields_marked _ _

theorem yields_comparison (each : Yields Located.TokenInRange inner Covered) :
    Yields Located.TokenInRange (comparison inner) Covered := by
  have right : Yields Located.TokenInRange (do
      let op ← comparisonOp
      let right ← negated inner
      return (op, right)) fun read count => ∃ others, others + 1 = count ∧ read.2.Covered others := by
    apply yields_comparisonOp.bind
    intro op first taken
    refine (yields_negated each).bind fun right count covered => Yields.pure ?_
    exact ⟨count, by omega, covered⟩
  apply (yields_negated each).bind
  intro left count covered
  apply (Yields.optional right).bind
  intro read others taken
  cases read with
  | none => exact Yields.pure (covered.mono (by omega))
  | some read =>
      obtain ⟨fewer, rfl, second⟩ := taken
      exact Yields.pure (covered_join covered second read.1)

theorem covered_joins {rest : List Expr} (op : BinaryOp)
    (each : Sums (fun expr count => ∃ others, others + 1 = count ∧ expr.Covered others) rest others)
    {first : Expr} (covered : first.Covered count) :
    (rest.foldl (join op) first).Covered (count + others) := by
  induction each generalizing first count with
  | nil => exact covered
  | cons taken _ ih =>
      obtain ⟨fewer, rfl, second⟩ := taken
      apply (ih (covered_join covered second op)).mono
      omega

theorem yields_chain (word : Mark) (op : BinaryOp) {operand : Reader Expr}
    (each : Yields Located.TokenInRange operand Covered) :
    Yields Located.TokenInRange (chain word op operand) Covered := by
  have next : Yields Located.TokenInRange (do
      let _ ← Reader.mark word
      operand) fun expr count => ∃ others, others + 1 = count ∧ expr.Covered others := by
    apply (Yields.mark word).bind
    intro _ first taken
    exact each.mono fun expr count covered => ⟨count, by omega, covered⟩
  apply each.bind
  intro first count covered
  refine (Yields.many next).bind fun rest others sums => Yields.pure ?_
  exact covered_joins op sums covered

theorem yields_readerWithin (depth : Nat) :
    Yields Located.TokenInRange (readerWithin depth) Covered := by
  induction depth with
  | zero => exact Yields.fail
  | succ depth ih => exact yields_chain _ _ (yields_chain _ _ (yields_comparison ih))

theorem yields_reader : Yields Located.TokenInRange reader Covered :=
  fun tokens => yields_readerWithin (tokens.length + 1) tokens

end Expr

end QueryTemplate
