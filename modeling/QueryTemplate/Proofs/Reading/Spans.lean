import Mathlib.Data.List.Flatten
import QueryTemplate.Proofs.Lexing.Pieces
import QueryTemplate.Proofs.Reading.Chunks
import QueryTemplate.Proofs.Template.Walks

set_option autoImplicit false

/- The spans of what is read. Every span reaches from one token to the same or a later one, and the
spans of parts are those of stretches of tokens one after the other. As the tokens of a source lie
in order, the parts lie in order inside of what they are parts of. -/

namespace QueryTemplate

open Reader

def Span.Before (first second : Span) : Prop := first.stop ≤ second.start

/-- The tokens are not empty, and each of them ends before the next one begins. -/
structure InOrder (used : List (Located Token)) : Prop where
  filled : ∀ token ∈ used, token.span.start < token.span.stop
  apart : used.Pairwise fun first second => first.span.Before second.span

namespace InOrder

variable {used more : List (Located Token)} {first last : Located Token}

theorem sublist (ordered : InOrder used) (part : more.Sublist used) : InOrder more where
  filled token within := ordered.filled token (part.subset within)
  apart := ordered.apart.sublist part

/-- The tokens of a source are in order. -/
theorem of_tokens {source : String} {found : List (Located Token)}
    (read : tokens source = .ok found) : InOrder found where
  filled _ within := start_lt_stop read within
  apart := by
    obtain ⟨_, -, -, rfl⟩ := Lexer.scanSource_accounted read
    exact Lexer.Stretch.pairwise_tokens _ _

theorem start_le (ordered : InOrder used) (begins : used.head? = some first)
    {token : Located Token} (within : token ∈ used) : first.span.start ≤ token.span.start := by
  obtain ⟨rest, rfl⟩ := List.head?_eq_some_iff.mp begins
  rcases List.mem_cons.mp within with rfl | later
  · exact Nat.le_refl _
  · have apart := (List.pairwise_cons.mp ordered.apart).1 token later
    exact Nat.le_trans (Nat.le_of_lt (ordered.filled first List.mem_cons_self)) apart

theorem le_stop (ordered : InOrder used) (ends : used.getLast? = some last)
    {token : Located Token} (within : token ∈ used) : token.span.stop ≤ last.span.stop := by
  obtain ⟨front, rfl⟩ := List.getLast?_eq_some_iff.mp ends
  rcases List.mem_append.mp within with early | here
  · have apart := (List.pairwise_append.mp ordered.apart).2.2 token early last
      (List.mem_singleton_self _)
    have filled := ordered.filled last (List.mem_append_right _ (List.mem_singleton_self _))
    exact Nat.le_trans apart (Nat.le_of_lt filled)
  · exact Nat.le_of_eq (congrArg (·.span.stop) (List.mem_singleton.mp here))

end InOrder

/-- The inner span is not empty and lies inside of the outer one. -/
structure Span.Within (inner outer : Span) : Prop where
  start : outer.start ≤ inner.start
  filled : inner.start < inner.stop
  stop : inner.stop ≤ outer.stop

/-- The places lie inside of the span, one after the other. -/
structure Span.Holds (span : Span) (places : List Span) : Prop where
  filled : span.start < span.stop
  within : ∀ place ∈ places, place.Within span
  apart : places.Pairwise Span.Before

/-- The spans lie inside of another, and none of them begins before the one in front of it. -/
structure Span.Descends (span : Span) (spans : List Span) : Prop where
  within : ∀ inner ∈ spans, inner.Within span
  sorted : spans.Pairwise fun first second => first.start ≤ second.start

namespace Span

variable {span : Span} {spans : List Span}

theorem Within.refl (filled : span.start < span.stop) : span.Within span :=
  ⟨Nat.le_refl _, filled, Nat.le_refl _⟩

theorem Within.trans {inner middle : Span} (first : inner.Within middle)
    (second : middle.Within span) : inner.Within span :=
  ⟨Nat.le_trans second.start first.start, first.filled, Nat.le_trans first.stop second.stop⟩

theorem Descends.cons (filled : span.start < span.stop) (descends : span.Descends spans) :
    span.Descends (span :: spans) where
  within := List.forall_mem_cons.mpr ⟨.refl filled, descends.within⟩
  sorted := List.pairwise_cons.mpr
    ⟨fun inner within => (descends.within inner within).start, descends.sorted⟩

variable {α : Type} {items : List α} {own : α → Span} {inner : α → List Span}

/-- Where the items lie apart, what is inside of each begins before what is inside of the next. -/
theorem sorted_flatMap (apart : (items.map own).Pairwise Before)
    (each : ∀ item ∈ items, (own item).Descends (inner item)) :
    (items.flatMap inner).Pairwise fun first second => first.start ≤ second.start := by
  refine List.pairwise_flatMap.mpr ⟨fun item member => (each item member).sorted, ?_⟩
  refine (List.pairwise_map.mp apart).imp_of_mem fun here there before first early second late => ?_
  have below := (each _ here).within first early
  have above := (each _ there).within second late
  have filled := below.filled
  have stop := below.stop
  have start := above.start
  rw [Before] at before
  omega

theorem descends_flatMap (apart : (items.map own).Pairwise Before)
    (within : ∀ item ∈ items, (own item).Within span)
    (each : ∀ item ∈ items, (own item).Descends (inner item)) :
    span.Descends (items.flatMap inner) where
  within place member := by
    obtain ⟨item, listed, inside⟩ := List.mem_flatMap.mp member
    exact ((each item listed).within place inside).trans (within item listed)
  sorted := sorted_flatMap apart each

end Span

/-- The span reaches from the first to the last of the tokens. -/
structure Span.Covers (run : List (Located Token)) (span : Span) : Prop where
  start : ∃ first, run.head? = some first ∧ span.start = first.span.start
  stop : ∃ last, run.getLast? = some last ∧ span.stop = last.span.stop

/-- The spans reach over stretches of the tokens, one after the other. -/
inductive Laid : List Span → List (Located Token) → Prop
  | nil (used : List (Located Token)) : Laid [] used
  | cons {span : Span} {spans : List Span} {run front back : List (Located Token)}
      (covers : span.Covers run) (part : run.Sublist front) (rest : Laid spans back) :
      Laid (span :: spans) (front ++ back)

namespace Span.Covers

variable {run more : List (Located Token)} {first second : Span}

theorem token (token : Located Token) : token.span.Covers [token] :=
  ⟨⟨token, rfl, rfl⟩, token, rfl, rfl⟩

theorem extend (covers : first.Covers run) {last : Located Token}
    (ends : more.getLast? = some last) {stop : Nat} (same : stop = last.span.stop) :
    (Span.mk first.start stop).Covers (run ++ more) := by
  obtain ⟨token, begins, start⟩ := covers.start
  refine ⟨⟨token, ?_, start⟩, last, ?_, same⟩
  · rw [List.head?_append, begins, Option.some_or]
  · rw [List.getLast?_append, ends, Option.some_or]

theorem through (covers : first.Covers run) (others : second.Covers more) :
    (first.through second).Covers (run ++ more) := by
  obtain ⟨last, ends, stop⟩ := others.stop
  exact covers.extend ends stop

theorem filled (covers : first.Covers run) (ordered : InOrder run) : first.start < first.stop := by
  obtain ⟨token, begins, start⟩ := covers.start
  obtain ⟨last, ends, stop⟩ := covers.stop
  have within := List.mem_of_mem_head? begins
  have wide := ordered.filled token within
  have below := ordered.le_stop ends within
  omega

/-- What reaches over some of the tokens lies inside of what reaches over all. -/
theorem within (covers : first.Covers run) (ordered : InOrder run) (others : second.Covers more)
    (part : more.Sublist run) : second.Within first := by
  obtain ⟨token, begins, start⟩ := covers.start
  obtain ⟨last, ends, stop⟩ := covers.stop
  obtain ⟨inner, begins', start'⟩ := others.start
  obtain ⟨outer, ends', stop'⟩ := others.stop
  have below := ordered.start_le begins (part.subset (List.mem_of_mem_head? begins'))
  have above := ordered.le_stop ends (part.subset (List.mem_of_mem_getLast? ends'))
  exact ⟨by omega, others.filled (ordered.sublist part), by omega⟩

end Span.Covers

namespace Laid

variable {spans others : List Span} {used more : List (Located Token)}

theorem one {span : Span} {run : List (Located Token)} (covers : span.Covers run)
    (part : run.Sublist used) : Laid [span] used := by
  have single := cons covers part (nil [])
  rwa [List.append_nil] at single

theorem name (name : String) (place : Span) : Laid [place] [⟨.ident name, place⟩] :=
  one (.token _) (.refl _)

theorem mono (laid : Laid spans used) (part : used.Sublist more) : Laid spans more := by
  induction laid generalizing more with
  | nil => exact nil more
  | cons covers inner _ ih =>
      obtain ⟨front, back, rfl, first, second⟩ := List.append_sublist_iff.mp part
      exact cons covers (inner.trans first) (ih second)

theorem append (laid : Laid spans used) (later : Laid others more) :
    Laid (spans ++ others) (used ++ more) := by
  induction laid with
  | nil => exact later.mono (List.sublist_append_right _ _)
  | cons covers inner _ ih =>
      rw [List.append_assoc]
      exact cons covers inner ih

theorem skip (laid : Laid spans used) (token : Located Token) : Laid spans (token :: used) :=
  laid.mono (List.sublist_cons_self _ _)

/-- What holds of every item with its own tokens holds of all of them. -/
theorem map {α : Type} {items : List (α × List (Located Token))} {span : α → Span}
    (each : ∀ item ∈ items, ∃ run, run.Sublist item.2 ∧ (span item.1).Covers run) :
    Laid ((items.map (·.1)).map span) (items.flatMap (·.2)) := by
  induction items with
  | nil => exact nil []
  | cons item items ih =>
      obtain ⟨⟨run, part, covers⟩, others⟩ := List.forall_mem_cons.mp each
      exact cons covers part (ih others)

theorem of_parts {α : Type} {post : α → List (Located Token) → Prop} (spans : α → List Span)
    (each : ∀ item used, post item used → Laid (spans item) used) {items : List α}
    (parts : Parts post items used) : Laid (items.flatMap spans) used := by
  induction parts with
  | nil => exact nil []
  | cons head _ ih => exact (each _ _ head).append ih

/-- Every span of these has its tokens among those. -/
theorem exists_covers (laid : Laid spans used) {span : Span} (within : span ∈ spans) :
    ∃ run, run.Sublist used ∧ span.Covers run := by
  induction laid with
  | nil => cases within
  | @cons _ _ run _ _ covers part _ ih =>
      rcases List.mem_cons.mp within with rfl | within
      · exact ⟨run, part.trans (List.sublist_append_left _ _), covers⟩
      · obtain ⟨run, part, covers⟩ := ih within
        exact ⟨run, part.trans (List.sublist_append_right _ _), covers⟩

theorem apart (laid : Laid spans used) (ordered : InOrder used) : spans.Pairwise Span.Before := by
  induction laid with
  | nil => exact .nil
  | cons covers part rest ih =>
      obtain ⟨-, -, across⟩ := List.pairwise_append.mp ordered.apart
      refine List.pairwise_cons.mpr ⟨fun span within => ?_,
        ih (ordered.sublist (List.sublist_append_right _ _))⟩
      obtain ⟨last, ends, stop⟩ := covers.stop
      obtain ⟨run, inside, covers'⟩ := rest.exists_covers within
      obtain ⟨first, begins, start⟩ := covers'.start
      have before := across last (part.subset (List.mem_of_mem_getLast? ends)) first
        (inside.subset (List.mem_of_mem_head? begins))
      rw [Span.Before, stop, start]
      exact before

theorem holds (laid : Laid spans used) {span : Span} (covers : span.Covers used)
    (ordered : InOrder used) : span.Holds spans where
  filled := covers.filled ordered
  within place member := by
    obtain ⟨run, part, covers'⟩ := laid.exists_covers member
    exact covers.within ordered covers' part
  apart := laid.apart ordered

end Laid

/-- The places of what an expression is made of: its operands or arguments, and the name of a
filter. -/
def Expr.places : Expr → List Span
  | .attr target _ _ => [target.span]
  | .filter _ target _ nameSpan args _ => target.span :: nameSpan :: args.map (·.span)
  | .negate operand _ => [operand.span]
  | .binary _ left right _ => [left.span, right.span]
  | _ => []

def Arg.places : Arg → List Span
  | .positional value => [value.span]
  | .keyword _ keySpan value => [keySpan, value.span]

/-- The places of the names and expressions in a header. -/
def Header.places : Header → List Span
  | .branch condition => [condition.span]
  | .elif condition => [condition.span]
  | .loop _ varSpan iterable => [varSpan, iterable.span]
  | .assign _ varSpan value => [varSpan, value.span]
  | .tag _ nameSpan args => nameSpan :: args.flatMap Arg.places
  | _ => []

def Chunk.places : Chunk → List Span
  | .text _ _ => []
  | .output expr _ => [expr.span]
  | .header content _ => content.places

/-- The expression reaches over some of the tokens, and along these lies what it is made of. -/
def Expr.LaidAlong (used : List (Located Token)) (expr : Expr) : Prop :=
  ∃ run, run.Sublist used ∧ expr.span.Covers run ∧ Laid expr.places run

/-- So it is with all expressions in it. -/
def Expr.LaidOut (used : List (Located Token)) (expr : Expr) : Prop :=
  ∀ sub, .expr sub ∈ expr.elements → sub.LaidAlong used

namespace Expr

variable {used more : List (Located Token)} {expr : Expr}

theorem LaidOut.mono (laid : expr.LaidOut used) (part : used.Sublist more) : expr.LaidOut more := by
  intro sub within
  obtain ⟨run, inner, along⟩ := laid sub within
  exact ⟨run, inner.trans part, along⟩

theorem LaidOut.skip (laid : expr.LaidOut used) (token : Located Token) :
    expr.LaidOut (token :: used) := laid.mono (List.sublist_cons_self _ _)

theorem LaidOut.self (laid : expr.LaidOut used) : expr.LaidAlong used :=
  laid expr expr.mem_elements_self

theorem LaidOut.covers (laid : expr.LaidOut used) :
    ∃ run, run.Sublist used ∧ expr.span.Covers run := by
  obtain ⟨run, part, covers, -⟩ := laid.self
  exact ⟨run, part, covers⟩

theorem LaidOut.place (laid : expr.LaidOut used) : Laid [expr.span] used := by
  obtain ⟨run, part, covers⟩ := laid.covers
  exact .one covers part

theorem laidOut_of_parts (own : expr.LaidAlong used) (each : ∀ part ∈ expr.parts, part.LaidOut used) :
    expr.LaidOut used := by
  intro sub within
  rcases mem_elements.mp within with same | ⟨part, member, inner⟩
  · obtain rfl := Element.expr.inj same
    exact own
  · exact each part member sub inner

theorem Derived.laid {level : Precedence} (derived : Derived level expr used) :
    expr.LaidOut used := by
  induction derived with
  | literal =>
      exact laidOut_of_parts ⟨_, .refl _, .token _, .nil _⟩ (List.forall_mem_nil _)
  | var => exact laidOut_of_parts ⟨_, .refl _, .token _, .nil _⟩ (List.forall_mem_nil _)
  | parens _ _ _ ih => exact ih.mono ((List.sublist_append_left _ _).cons _)
  | attr _ sign name place ih =>
      obtain ⟨run, part, covers⟩ := ih.covers
      have last : [⟨.mark .dot, sign⟩, ⟨.ident name, place⟩].getLast? =
        some (⟨.ident name, place⟩ : Located Token) := rfl
      refine laidOut_of_parts ⟨_, part.append (.refl _), covers.extend last rfl,
        .one covers (List.sublist_append_left _ _)⟩ ?_
      exact List.forall_mem_singleton.mpr (ih.mono (List.sublist_append_left _ _))
  | @filter _ _ _ sign name place args _ suffix _ inside ih others =>
      obtain ⟨run, part, covers⟩ := ih.covers
      have last : (⟨.mark .pipe, sign⟩ :: ⟨.ident name, place⟩ :: suffix).getLast? =
          some (suffix.getLastD (⟨.ident name, place⟩ : Located Token)) := by
        rw [List.getLast?_cons_cons, List.getLast?_cons, List.getLastD_eq_getLast?]
      have along : Laid ((args.map (·.1)).map (·.span)) suffix :=
        (Laid.map fun arg member => (others arg member).covers).mono
          (inside.trans (List.dropLast_sublist suffix))
      refine laidOut_of_parts ⟨_, part.append (.refl _), covers.extend last rfl, ?_⟩ ?_
      · exact (Laid.one covers (.refl run)).append (((Laid.name name place).append along).skip _)
      · refine List.forall_mem_cons.mpr ⟨ih.mono (List.sublist_append_left _ _), ?_⟩
        refine List.forall_mem_map.mpr fun arg member => (others arg member).mono ?_
        have own := sublist_of_argument inside member
        exact (own.cons _).trans ((List.sublist_cons_self _ _).trans (List.sublist_append_right _ _))
  | negate first _ ih =>
      obtain ⟨run, part, covers⟩ := ih.covers
      refine laidOut_of_parts ⟨_, part.cons_cons _, (Span.Covers.token _).through covers,
        (Laid.one covers (.refl run)).skip _⟩ ?_
      exact List.forall_mem_singleton.mpr (ih.skip _)
  | binary op sign _ _ ih others =>
      obtain ⟨run, part, covers⟩ := ih.covers
      obtain ⟨run', part', covers'⟩ := others.covers
      refine laidOut_of_parts ⟨run ++ run', part.append (part'.cons _), covers.through covers', ?_⟩ ?_
      · exact (Laid.one covers (.refl run)).append (.one covers' (.refl run'))
      · refine List.forall_mem_cons.mpr ⟨ih.mono (List.sublist_append_left _ _), ?_⟩
        refine List.forall_mem_singleton.mpr (others.mono ?_)
        exact (List.sublist_cons_self _ _).trans (List.sublist_append_right _ _)
  | of_tighter _ _ ih => exact ih

end Expr

theorem Arg.Listed.laid {arg : Arg} {used : List (Located Token)} (listed : arg.Listed used) :
    Laid arg.places used := by
  have alone {used : List (Located Token)} (derived : arg.Derived used) : Laid arg.places used := by
    cases derived with
    | positional derived => exact derived.laid.place
    | keyword key place _ derived =>
        exact (Laid.name key place).append (derived.laid.place.skip _)
  cases listed with
  | alone derived => exact alone derived
  | comma derived _ => exact (alone derived).mono (List.sublist_append_left _ _)

theorem Header.Derived.laid {header : Header} {used : List (Located Token)}
    (derived : header.Derived used) : Laid header.places used := by
  cases derived with
  | branch _ derived => exact derived.laid.place.skip _
  | elif _ derived => exact derived.laid.place.skip _
  | otherwise => exact .nil _
  | endBranch => exact .nil _
  | loop _ var place _ derived =>
      exact ((Laid.name var place).append (derived.laid.place.skip _)).skip _
  | endLoop => exact .nil _
  | assign _ var place _ derived =>
      exact ((Laid.name var place).append (derived.laid.place.skip _)).skip _
  | tag name place parts =>
      exact (Laid.name name place).append
        (.of_parts Arg.places (fun _ _ listed => Arg.Listed.laid listed) parts)

/-- A chunk reaches over its tokens, and along these lie the names and expressions in it. -/
theorem Chunk.Derived.laid {chunk : Chunk} {used : List (Located Token)}
    (derived : chunk.Derived used) : chunk.span.Covers used ∧ Laid chunk.places used := by
  cases derived with
  | text => exact ⟨.token _, .nil _⟩
  | @output first last _ used derived =>
      have inside : used.Sublist (used ++ [⟨.mark .outputClose, last⟩]) :=
        List.sublist_append_left _ _
      exact ⟨(Span.Covers.token _).extend List.getLast?_concat rfl,
        derived.laid.place.mono (inside.cons _)⟩
  | @header first last _ used derived =>
      have inside : used.Sublist (used ++ [⟨.mark .tagClose, last⟩]) :=
        List.sublist_append_left _ _
      exact ⟨(Span.Covers.token _).extend List.getLast?_concat rfl,
        derived.laid.mono (inside.cons _)⟩

theorem Expr.spans_parts (expr : Expr) : (expr.parts.map (·.span)).Sublist expr.places := by
  cases expr with
  | filter => exact (List.sublist_cons_self _ _).cons_cons _
  | _ => exact .refl _

/-- On the way through an expression whose parts lie in order no span begins before the last one. -/
theorem Expr.descends (expr : Expr)
    (holds : ∀ sub, .expr sub ∈ expr.elements → sub.span.Holds sub.places) :
    expr.span.Descends (expr.elements.map (·.span)) := by
  induction expr using induct_parts with
  | step expr ih =>
      have own := holds expr expr.mem_elements_self
      have inner : expr.span.Descends (expr.parts.flatMap fun part => part.elements.map (·.span)) := by
        refine Span.descends_flatMap (own.apart.sublist expr.spans_parts) ?_ ?_
        · intro part member
          exact own.within _ (expr.spans_parts.subset (List.mem_map_of_mem member))
        · intro part member
          exact ih part member fun sub within =>
            holds sub (mem_elements.mpr (Or.inr ⟨part, member, within⟩))
      rw [elements_eq, List.map_cons, List.map_flatMap]
      exact inner.cons own.filled

theorem Arg.spans_values (args : List Arg) :
    (args.map (·.value.span)).Sublist (args.flatMap Arg.places) := by
  rw [List.map_eq_flatMap]
  refine List.Sublist.flatMap_right args fun arg _ => ?_
  cases arg with
  | positional => exact .refl _
  | keyword => exact List.sublist_cons_self _ _

theorem Chunk.spans_exprs (chunk : Chunk) :
    (chunk.exprs.map (·.span)).Sublist chunk.places := by
  cases chunk with
  | text => exact .slnil
  | output => exact .refl _
  | header content _ =>
      cases content with
      | loop => exact List.sublist_cons_self _ _
      | assign => exact List.sublist_cons_self _ _
      | tag _ _ args =>
          change ((args.map (·.value)).map (·.span)).Sublist _
          rw [List.map_map]
          exact (Arg.spans_values args).cons _
      | _ => exact .refl _

/-- What a chunk is made of lies in order inside of it, and so it is with its expressions. -/
structure Chunk.Placed (chunk : Chunk) : Prop where
  holds : chunk.span.Holds chunk.places
  exprs : ∀ sub, .expr sub ∈ chunk.elements → sub.span.Holds sub.places

theorem Chunk.Derived.placed {chunk : Chunk} {used : List (Located Token)}
    (derived : chunk.Derived used) (ordered : InOrder used) : chunk.Placed := by
  obtain ⟨covers, places⟩ := derived.laid
  refine ⟨places.holds covers ordered, fun sub within => ?_⟩
  rw [Chunk.elements_eq_flatMap] at within
  obtain ⟨expr, member, inner⟩ := List.mem_flatMap.mp within
  obtain ⟨own, part, derived⟩ := derived.exprs expr member
  obtain ⟨run, part', covers, along⟩ := derived.laid sub inner
  exact along.holds covers (ordered.sublist (part'.trans part))

theorem Chunk.Placed.descends {chunk : Chunk} (placed : chunk.Placed) :
    chunk.span.Descends chunk.spans := by
  have sub (expr : Expr) (member : expr ∈ chunk.exprs) :
      ∀ element ∈ expr.elements, element ∈ chunk.elements := by
    intro element within
    rw [Chunk.elements_eq_flatMap]
    exact List.mem_flatMap.mpr ⟨expr, member, within⟩
  have inner : chunk.span.Descends
      (chunk.exprs.flatMap fun expr => expr.elements.map (·.span)) := by
    refine Span.descends_flatMap (placed.holds.apart.sublist chunk.spans_exprs) ?_ ?_
    · intro expr member
      exact placed.holds.within _ (chunk.spans_exprs.subset (List.mem_map_of_mem member))
    · intro expr member
      exact expr.descends fun part within => placed.exprs part (sub expr member _ within)
  rw [Chunk.spans, elements_eq_flatMap, List.map_flatMap]
  exact inner.cons placed.holds.filled

/-- Chunks that are derived from tokens in order lie in order themselves. -/
theorem Chunk.sorted_spans {chunks : List Chunk} {used : List (Located Token)}
    (parts : Parts Derived chunks used) (ordered : InOrder used) :
    (chunks.flatMap Chunk.spans).Pairwise fun first second => first.start ≤ second.start := by
  have laid : Laid (chunks.flatMap fun chunk => [chunk.span]) used :=
    .of_parts _ (fun _ _ derived => .one derived.laid.1 (.refl _)) parts
  rw [← List.map_eq_flatMap] at laid
  refine Span.sorted_flatMap (laid.apart ordered) fun chunk member => ?_
  obtain ⟨own, part, derived⟩ := parts.exists_of_mem member
  exact (derived.placed (ordered.sublist part)).descends

end QueryTemplate
