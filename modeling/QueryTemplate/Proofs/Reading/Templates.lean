import QueryTemplate.Proofs.Reading.Expressions
import QueryTemplate.Proofs.Template.Readings

set_option autoImplicit false

/- Templates that are read: their code is no longer than the tokens they are read from, and their
integer literals are those of tokens. -/

namespace QueryTemplate

open Reader (Yields Sums)

variable {count others total : Nat}

/-- The literals of a list of elements are in range. -/
def LiteralsInRange (elements : List Element) : Prop :=
  ∀ value span, .expr (.literal value span) ∈ elements → value.InRange

theorem LiteralsInRange.append {first second : List Element} (front : LiteralsInRange first)
    (back : LiteralsInRange second) : LiteralsInRange (first ++ second) := by
  intro value span within
  rcases List.mem_append.mp within with within | within
  · exact front value span within
  · exact back value span within

theorem LiteralsInRange.cons {node : Node} {elements : List Element}
    (inner : LiteralsInRange elements) : LiteralsInRange (.node node :: elements) := by
  intro value span within
  rcases List.mem_cons.mp within with same | within
  · cases same
  · exact inner value span within

theorem literalsInRange_nil : LiteralsInRange [] := fun _ _ within => nomatch within

structure Arg.ListCovered (args : List Arg) (count : Nat) : Prop where
  size : (Expr.listCode 0 (Arg.pushed args)).length ≤ count
  literals : LiteralsInRange (args.flatMap (·.value.elements))

structure Node.Covered (node : Node) (count : Nat) : Prop where
  size : node.size ≤ count
  literals : LiteralsInRange node.elements

structure Node.ListCovered (nodes : List Node) (count : Nat) : Prop where
  size : Node.listSize nodes ≤ count
  literals : LiteralsInRange (Node.listElements nodes)

structure Node.ArmsCovered (arms : List (Expr × List Node)) (count : Nat) : Prop where
  size : Node.armsSize arms ≤ count
  literals : LiteralsInRange (Node.armElements arms)

theorem Node.listCovered_nil : Node.ListCovered [] count := ⟨Nat.zero_le _, literalsInRange_nil⟩

theorem Node.noneCovered (nodes : List Node) (absent : none = some nodes) :
    Node.ListCovered nodes 0 := by
  cases absent

theorem Node.listCovered_cons {node : Node} {nodes : List Node} (head : node.Covered count)
    (tail : Node.ListCovered nodes others) (fit : count + others ≤ total) :
    Node.ListCovered (node :: nodes) total := by
  refine ⟨?_, head.literals.append tail.literals⟩
  have first := head.size
  have rest := tail.size
  rw [Node.listSize]
  omega

theorem Node.armsCovered_nil : Node.ArmsCovered [] count := ⟨Nat.zero_le _, literalsInRange_nil⟩

theorem Node.armsCovered_cons {condition : Expr} {body : List Node}
    {arms : List (Expr × List Node)} {inside more : Nat} (tested : condition.Covered count)
    (taken : Node.ListCovered body inside) (rest : Node.ArmsCovered arms more)
    (fit : count + 2 + inside + more ≤ total) :
    Node.ArmsCovered ((condition, body) :: arms) total := by
  refine ⟨?_, (LiteralsInRange.append tested.literals taken.literals).append rest.literals⟩
  have first := tested.size
  have second := taken.size
  have third := rest.size
  rw [Node.armsSize]
  omega

theorem Node.covered_text (content : String) (span : Span) : (Node.text content span).Covered 1 := by
  refine ⟨?_, literalsInRange_nil.cons⟩
  rw [Node.size]
  split <;> omega

theorem Node.covered_output {expr : Expr} (inner : expr.Covered count) (span : Span)
    (fit : count + 1 ≤ total) : (Node.output expr span).Covered total := by
  refine ⟨?_, LiteralsInRange.cons inner.literals⟩
  have size := inner.size
  rw [Node.size]
  omega

theorem Node.covered_assign {value : Expr} (inner : value.Covered count) (var : String)
    (varSpan span : Span) (fit : count + 1 ≤ total) :
    (Node.assign var varSpan value span).Covered total := by
  refine ⟨?_, LiteralsInRange.cons inner.literals⟩
  have size := inner.size
  rw [Node.size]
  omega

theorem Node.covered_loop {iterable : Expr} {body : List Node} (inner : iterable.Covered count)
    (list : Node.ListCovered body others) (var : String) (varSpan span : Span)
    (fit : count + 3 + others ≤ total) :
    (Node.loop var varSpan iterable body span).Covered total := by
  refine ⟨?_, (LiteralsInRange.append inner.literals list.literals).cons⟩
  have size := inner.size
  have rest := list.size
  rw [Node.size]
  omega

theorem Node.covered_branch {arms : List (Expr × List Node)} {otherwise : Option (List Node)}
    (tested : Node.ArmsCovered arms count)
    (last : ∀ nodes, otherwise = some nodes → Node.ListCovered nodes others) (span : Span)
    (fit : count + others ≤ total) : (Node.branch arms otherwise span).Covered total := by
  have size := tested.size
  cases otherwise with
  | none =>
      refine ⟨?_, tested.literals.cons⟩
      rw [Node.size]
      omega
  | some nodes =>
      have rest := last nodes rfl
      refine ⟨?_, (tested.literals.append rest.literals).cons⟩
      have more := rest.size
      rw [Node.size]
      omega

theorem Node.covered_tag {args : List Arg} {body : Option (List Node)}
    (operands : Arg.ListCovered args count)
    (inner : ∀ nodes, body = some nodes → Node.ListCovered nodes others) (name : String)
    (nameSpan span : Span) (fit : count + 2 + others ≤ total) :
    (Node.tag name nameSpan args body span).Covered total := by
  have size := operands.size
  cases body with
  | none =>
      refine ⟨?_, operands.literals.cons⟩
      rw [Node.size]
      omega
  | some nodes =>
      have rest := inner nodes rfl
      refine ⟨?_, (operands.literals.append rest.literals).cons⟩
      have more := rest.size
      rw [Node.size]
      omega

theorem Expr.length_listCode_append (first second : List Expr) :
    (Expr.listCode 0 (first ++ second)).length =
      (Expr.listCode 0 first).length + (Expr.listCode 0 second).length := by
  rw [Expr.listCode_append, List.length_append, Expr.length_listCode second]

theorem Expr.length_listCode_cons (expr : Expr) (rest : List Expr) :
    (Expr.listCode 0 (expr :: rest)).length =
      (expr.code 0).length + (Expr.listCode 0 rest).length := by
  rw [Expr.listCode, List.length_append, Expr.length_listCode rest]

theorem Arg.length_pushed_cons (arg : Arg) (args : List Arg) :
    (Expr.listCode 0 (Arg.pushed (arg :: args))).length =
      (arg.value.code 0).length + (Expr.listCode 0 (Arg.pushed args)).length := by
  simp only [Arg.pushed, Expr.length_listCode_append]
  cases arg with
  | positional value =>
      simp only [Arg.positionals, Arg.keywords, List.filterMap_cons, Arg.positional?,
        Expr.length_listCode_cons, Arg.value]
      omega
  | keyword key keySpan value =>
      simp only [Arg.positionals, Arg.keywords, List.filterMap_cons, Arg.positional?, List.map_cons,
        Expr.length_listCode_cons, Arg.value]
      omega

theorem Arg.listCovered_sums {args : List Arg}
    (each : Sums (fun arg count => arg.value.Covered count) args count) :
    Arg.ListCovered args count := by
  induction each with
  | nil => exact ⟨Nat.le_refl 0, literalsInRange_nil⟩
  | cons head _ ih =>
      refine ⟨?_, LiteralsInRange.append head.literals ih.literals⟩
      have size := head.size
      have rest := ih.size
      rw [Arg.length_pushed_cons]
      omega

/-- What the nodes of a header add to a program fits the tokens of the header. -/
def Header.Covered (count : Nat) : Header → Prop
  | .branch condition => ∃ others, others + 2 ≤ count ∧ condition.Covered others
  | .elif condition => ∃ others, others + 2 ≤ count ∧ condition.Covered others
  | .loop _ _ iterable => ∃ others, others + 3 ≤ count ∧ iterable.Covered others
  | .assign _ _ value => ∃ others, others + 1 ≤ count ∧ value.Covered others
  | .tag _ _ args => ∃ others, others + 2 ≤ count ∧ Arg.ListCovered args others
  | _ => True

def Chunk.Covered : Chunk → Nat → Prop
  | .text _ _, count => 1 ≤ count
  | .output expr _, count => ∃ others, others + 1 ≤ count ∧ expr.Covered others
  | .header content _, count => content.Covered count

namespace Header

/-- The delimiters of a tag count as well. -/
def Inside (header : Header) (count : Nat) : Prop := header.Covered (count + 2)

theorem yields_keywordArg :
    Yields Located.TokenInRange keywordArg fun arg count => arg.value.Covered count := by
  apply Expr.yields_ident.bind
  intro key first _
  apply (Yields.mark .assign).bind
  intro _ second _
  refine Expr.yields_reader.bind fun value count covered => Yields.pure ?_
  exact Expr.Covered.mono covered (by omega)

theorem yields_positionalArg :
    Yields Located.TokenInRange positionalArg fun arg count => arg.value.Covered count :=
  Expr.yields_reader.bind fun _ _ covered => Yields.pure covered

theorem yields_arg :
    Yields Located.TokenInRange arg fun arg count => arg.value.Covered count := by
  apply (yields_keywordArg.or yields_positionalArg).bind
  intro value count covered
  refine (Yields.optional (Yields.mark .comma)).bind fun _ last _ => Yields.pure ?_
  exact Expr.Covered.mono covered (by omega)

theorem yields_branchHeader : Yields Located.TokenInRange branchHeader Inside := by
  apply (Yields.mark .ifWord).bind
  intro _ first _
  refine Expr.yields_reader.bind fun condition count covered => Yields.pure ?_
  exact ⟨count, by omega, covered⟩

theorem yields_elifHeader : Yields Located.TokenInRange elifHeader Inside := by
  apply (Yields.mark .elifWord).bind
  intro _ first _
  refine Expr.yields_reader.bind fun condition count covered => Yields.pure ?_
  exact ⟨count, by omega, covered⟩

theorem yields_wordHeader (word : Mark) {header : Header} (plain : ∀ count, header.Covered count) :
    Yields Located.TokenInRange (wordHeader word header) Inside :=
  (Yields.mark word).bind fun _ _ _ => Yields.pure (plain _)

theorem yields_loopHeader : Yields Located.TokenInRange loopHeader Inside := by
  apply (Yields.mark .forWord).bind
  intro _ first one
  apply Expr.yields_ident.bind
  intro var second _
  apply (Yields.mark .inWord).bind
  intro _ third _
  refine Expr.yields_reader.bind fun iterable count covered => Yields.pure ?_
  exact ⟨count, by omega, covered⟩

theorem yields_assignHeader : Yields Located.TokenInRange assignHeader Inside := by
  apply (Yields.mark .setWord).bind
  intro _ first _
  apply Expr.yields_ident.bind
  intro var second _
  apply (Yields.mark .assign).bind
  intro _ third _
  refine Expr.yields_reader.bind fun value count covered => Yields.pure ?_
  exact ⟨count, by omega, covered⟩

theorem yields_tagHeader : Yields Located.TokenInRange tagHeader Inside := by
  apply Expr.yields_ident.bind
  intro name first _
  refine (Yields.many yields_arg).bind fun args count sums => Yields.pure ?_
  exact ⟨count, by omega, Arg.listCovered_sums sums⟩

theorem yields_reader : Yields Located.TokenInRange reader Inside := by
  apply Yields.choice
  intro reader within
  simp only [List.mem_cons, List.not_mem_nil, or_false] at within
  rcases within with rfl | rfl | rfl | rfl | rfl | rfl | rfl | rfl
  · exact yields_branchHeader
  · exact yields_elifHeader
  · exact yields_wordHeader _ fun _ => trivial
  · exact yields_wordHeader _ fun _ => trivial
  · exact yields_loopHeader
  · exact yields_wordHeader _ fun _ => trivial
  · exact yields_assignHeader
  · exact yields_tagHeader

end Header

namespace Chunk

theorem yields_textReader : Yields Located.TokenInRange textReader Covered := by
  refine (Yields.accept _).bind fun content count taken => Yields.pure ?_
  rw [taken.1]
  exact Nat.le_refl 1

theorem yields_outputReader : Yields Located.TokenInRange outputReader Covered := by
  apply (Yields.mark .outputOpen).bind
  intro first opened one
  apply Expr.yields_reader.bind
  intro expr count covered
  refine (Yields.mark .outputClose).bind fun last closed _ => Yields.pure ?_
  exact ⟨count, by omega, covered⟩

theorem yields_tagReader : Yields Located.TokenInRange tagReader Covered := by
  apply (Yields.mark .tagOpen).bind
  intro first opened one
  apply Header.yields_reader.bind
  intro header count covered
  refine (Yields.mark .tagClose).bind fun last closed two => Yields.pure ?_
  subst one two
  rw [show 1 + (count + (1 + 0)) = count + 2 by omega]
  exact covered

theorem yields_reader : Yields Located.TokenInRange reader Covered := by
  apply Yields.choice
  intro reader within
  simp only [List.mem_cons, List.not_mem_nil, or_false] at within
  rcases within with rfl | rfl | rfl
  · exact yields_textReader
  · exact yields_outputReader
  · exact yields_tagReader

theorem yields_finish : Yields Located.TokenInRange finish fun _ count => count = 0 := by
  intro tokens value rest _ found
  unfold finish at found
  split at found
  · cases found
    exact ⟨[], rfl, rfl⟩
  · cases found

theorem yields_listReader : Yields Located.TokenInRange listReader (Sums Covered) := by
  apply (Yields.many yields_reader).bind
  intro chunks count sums
  refine yields_finish.bind fun _ last ended => Yields.pure ?_
  subst ended
  exact sums

end Chunk

def Stop.Covered : Stop → Nat → Prop
  | .elif condition, count => ∃ others, others + 2 ≤ count ∧ condition.Covered others
  | _, _ => True

/-- The nodes of a run, its stop and the chunks left share the tokens of the chunks. -/
def Run.Covered {chunks : List Chunk} (total : Nat) : Run chunks → Prop
  | .ended nodes => Node.ListCovered nodes total
  | .stopped nodes stop _ rest _ =>
    ∃ inside closing after, inside + closing + after ≤ total ∧ Node.ListCovered nodes inside ∧
      stop.Covered closing ∧ Sums Chunk.Covered rest after

theorem Run.covered_cons {chunks rest : List Chunk} {node : Node}
    {shorter : rest.length < chunks.length} {run : Run rest} (head : node.Covered count)
    (tail : run.Covered others) (fit : count + others ≤ total) :
    (Run.cons node shorter run).Covered total := by
  cases run with
  | ended nodes => exact Node.listCovered_cons head tail fit
  | stopped nodes stop span after below =>
      obtain ⟨inside, closing, left, fewer, list, stopped, sums⟩ := tail
      exact ⟨count + inside, closing, left, by omega,
        Node.listCovered_cons head list (Nat.le_refl _), stopped, sums⟩

/-- A body takes no more than the chunks it is given. -/
def BodyCovers (body : BodyReader) : Prop :=
  ∀ opener chunks total run, Sums Chunk.Covered chunks total → body opener chunks = .ok run →
    run.Covered total

variable {grammars : TagGrammars} {body : BodyReader}

theorem Chunk.covered_stop {chunk : Chunk} {stop : Stop} (covered : chunk.Covered count)
    (stops : chunk.stop? grammars = some stop) : stop.Covered count := by
  cases stop with
  | elif condition =>
      obtain ⟨span, rfl⟩ := Chunk.eq_of_stop?_elif stops
      exact covered
  | _ => trivial

theorem readsArms_covered (covers : BodyCovers body) {opener : Span} {condition : Expr}
    {chunks : List Chunk} {block : Arms chunks} (tested : condition.Covered count)
    (sums : Sums Chunk.Covered chunks total) (read : ReadsArms body opener condition chunks block) :
    ∃ inside last after, inside + last + after ≤ count + 2 + total ∧
      Node.ArmsCovered block.arms inside ∧
      (∀ nodes, block.otherwise = some nodes → Node.ListCovered nodes last) ∧
      Sums Chunk.Covered block.rest after := by
  induction read generalizing count total with
  | last found =>
      obtain ⟨inside, closing, after, fit, list, _, left⟩ := covers _ _ _ _ sums found
      refine ⟨count + 2 + inside, 0, after, by omega, ?_, Node.noneCovered, left⟩
      exact Node.armsCovered_cons tested list (@Node.armsCovered_nil 0) (by omega)
  | otherwise found final =>
      obtain ⟨inside, _, after, fit, list, _, left⟩ := covers _ _ _ _ sums found
      obtain ⟨otherwise, _, ending, bound, covered, _, sums⟩ := covers _ _ _ _ left final
      refine ⟨count + 2 + inside, otherwise, ending, by omega, ?_, ?_, sums⟩
      · exact Node.armsCovered_cons tested list (@Node.armsCovered_nil 0) (by omega)
      · rintro _ ⟨⟩
        exact covered
  | elif found _ ih =>
      obtain ⟨inside, closing, after, fit, list, ⟨others, fewer, elif⟩, left⟩ :=
        covers _ _ _ _ sums found
      obtain ⟨arms, last, ending, bound, covered, otherwise, final⟩ := ih elif left
      refine ⟨count + 2 + inside + arms, last, ending, by omega, ?_, otherwise, final⟩
      exact Node.armsCovered_cons tested list covered (Nat.le_refl _)

/-- A node takes its share of the tokens, and leaves the others to the chunks after it. -/
theorem readsNode_covered (covers : BodyCovers body) {chunk : Chunk} {rest after : List Chunk}
    {node : Node} (covered : chunk.Covered count) (sums : Sums Chunk.Covered rest others)
    (read : ReadsNode grammars body chunk rest node after) :
    ∃ inside left, inside + left ≤ count + others ∧ node.Covered inside ∧
      Sums Chunk.Covered after left := by
  cases read with
  | text content span =>
      have one : 1 ≤ count := covered
      exact ⟨1, others, Nat.add_le_add_right one others, Node.covered_text content span, sums⟩
  | output expr span =>
      obtain ⟨_, fit, inner⟩ := covered
      exact ⟨count, others, Nat.le_refl _, Node.covered_output inner span fit, sums⟩
  | assign var varSpan value span =>
      obtain ⟨_, fit, inner⟩ := covered
      exact ⟨count, others, Nat.le_refl _, Node.covered_assign inner var varSpan span fit, sums⟩
  | branch arms =>
      obtain ⟨_, fit, inner⟩ := covered
      obtain ⟨inside, last, left, bound, arms, otherwise, sums⟩ :=
        readsArms_covered covers inner sums arms
      exact ⟨inside + last, left, by omega,
        Node.covered_branch arms otherwise _ (Nat.le_refl _), sums⟩
  | loop var varSpan iterable found =>
      obtain ⟨own, fit, inner⟩ := covered
      obtain ⟨inside, _, left, bound, list, _, sums⟩ := covers _ _ _ _ sums found
      exact ⟨own + 3 + inside, left, by omega,
        Node.covered_loop inner list var varSpan _ (Nat.le_refl _), sums⟩
  | inline _ _ _ nameSpan args span =>
      obtain ⟨_, fit, inner⟩ := covered
      exact ⟨count, others, Nat.le_refl _,
        Node.covered_tag inner Node.noneCovered _ nameSpan span fit, sums⟩
  | block _ _ _ nameSpan args found =>
      obtain ⟨own, fit, inner⟩ := covered
      obtain ⟨inside, _, left, bound, list, _, sums⟩ := covers _ _ _ _ sums found
      refine ⟨own + 2 + inside, left, by omega, ?_, sums⟩
      exact Node.covered_tag inner (fun _ same => by cases same; exact list) _ nameSpan _
        (Nat.le_refl _)

theorem readsNodes_covered (covers : BodyCovers body) {chunks : List Chunk} {run : Run chunks}
    (sums : Sums Chunk.Covered chunks total) (read : ReadsNodes grammars body chunks run) :
    run.Covered total := by
  induction read generalizing total with
  | ended => exact Node.listCovered_nil
  | stopped stops rest =>
      cases sums with
      | @cons _ first _ others head tail =>
          exact ⟨0, first, others, by omega, Node.listCovered_nil, Chunk.covered_stop head stops,
            tail⟩
  | cons head _ shorter ih =>
      cases sums with
      | cons own tail =>
          obtain ⟨inside, left, fit, covered, sums⟩ := readsNode_covered covers own tail head
          exact Run.covered_cons covered (ih sums) fit

end QueryTemplate
