import Mathlib.Data.List.Induction
import QueryTemplate.Proofs.Compilation.Extending
import QueryTemplate.Proofs.Reading.Names
import QueryTemplate.Proofs.Reading.Regions
import QueryTemplate.Proofs.Reading.Viable

set_option autoImplicit false

/- Names that extensions can be loaded under. A tag of such a name is called by its name, whatever
other tags there are, if its grammar carries that name, and a filter is applied by its name; and
every name in a template is one that the language does not claim. -/

namespace QueryTemplate

open Lexer Grammar Reader

theorem checkName_eq_ok {kind : ExtensionKind} {name : String} :
    checkName kind name = .ok () ↔
      IsName name ∧ name ≠ "loop" ∧ (kind = .tag → ¬ "end".toList <+: name.toList) := by
  have reserved : reservedWords.contains name = true ↔
      name ∈ Mark.words.map (·.1) ∨ name = "loop" := by
    rw [List.contains_iff_mem, reservedWords_eq, List.mem_append, List.mem_singleton]
  unfold checkName IsName
  cases isIdentifier name with
  | false => simp
  | true =>
      rw [if_pos rfl]
      split
      next taken =>
        rw [Bool.or_eq_true, Bool.and_eq_true, beq_iff_eq, List.isPrefixOf_iff_prefix,
          reserved] at taken
        simp only [reduceCtorEq, false_iff]
        rintro ⟨⟨-, free⟩, other, apart⟩
        rcases taken with (claimed | rfl) | ⟨tag, looks⟩
        · exact free claimed
        · exact other rfl
        · exact apart tag looks
      next allowed =>
        rw [Bool.or_eq_true, Bool.and_eq_true, beq_iff_eq, List.isPrefixOf_iff_prefix,
          reserved, not_or, not_or, not_and] at allowed
        obtain ⟨⟨free, other⟩, apart⟩ := allowed
        exact iff_of_true rfl ⟨⟨rfl, free⟩, other, apart⟩

/-- The closer of a tag is a name too: the words that begin like a closer are those that close the
blocks of the language. -/
theorem IsName.endName {name : String} (named : IsName name) :
    IsName (TagGrammar.endName name) := by
  obtain ⟨identifier, free⟩ := named
  have letters : (TagGrammar.endName name).toList = 'e' :: 'n' :: 'd' :: name.toList := by
    rw [TagGrammar.endName, String.toList_append]
    rfl
  constructor
  · obtain ⟨first, rest, spelled, starts, all⟩ := isIdentifier_eq_true.mp identifier
    refine isIdentifier_eq_true.mpr ⟨'e', 'n' :: 'd' :: name.toList, letters, by decide, ?_⟩
    have going : Token.isWordRest first = true := by
      simp only [Token.isWordStart, Token.isWordRest, Bool.or_eq_true, beq_iff_eq,
        Char.isAlphanum] at starts ⊢
      tauto
    rw [spelled]
    exact List.forall_mem_cons.mpr ⟨by decide, List.forall_mem_cons.mpr ⟨by decide,
      List.forall_mem_cons.mpr ⟨going, all⟩⟩⟩
  · intro within
    have closed : ∀ word ∈ Mark.words.map (·.1), "end".toList.isPrefixOf word.toList = true →
        String.ofList (word.toList.drop 3) ∈ Mark.words.map (·.1) := by decide
    have base := closed _ within (by rw [letters]; rfl)
    rw [letters, List.drop_succ_cons, List.drop_succ_cons, List.drop_succ_cons, List.drop_zero,
      String.ofList_toList] at base
    exact free base

/-- A tag without arguments, in a region of its own. -/
def tagText (name : String) : String := "\x7b% " ++ name ++ " %\x7d"

/-- A call of a tag, with its closer if it is a block tag. -/
def TagGrammar.callText (grammar : TagGrammar) : String :=
  tagText grammar.name ++ if grammar.block then tagText grammar.endTag else ""

/-- A filter applied to a variable. -/
def filterText (name : String) : String := "\x7b\x7b x | " ++ name ++ " \x7d\x7d"

theorem wordEnds_space (rest : List Char) : Token.WordEnds (' ' :: rest) := by
  intro c first
  cases first
  decide

/-- A tag alone in a region is read as its name. -/
theorem sourceReads_tagText {name : String} (named : IsName name) {rest : List Char}
    {later : List Token} (after : SourceReads rest later) :
    SourceReads ((tagText name).toList ++ rest)
      (.mark .tagOpen :: .ident name :: .mark .tagClose :: later) := by
  have closes : RegionReads .tag ('%' :: '}' :: rest) [.mark .tagClose] rest :=
    RegionReads.closer rfl rfl rfl rfl
  have spaced : RegionReads .tag (' ' :: '%' :: '}' :: rest) [.mark .tagClose] rest :=
    closes.gap rfl
  have reads : RegionReads .tag (' ' :: (name.toList ++ ' ' :: '%' :: '}' :: rest))
      [.ident name, .mark .tagClose] rest := (spaced.name named (wordEnds_space _)).gap rfl
  have letters : (tagText name).toList ++ rest =
      Mark.tagOpen.spelling ++ ' ' :: (name.toList ++ ' ' :: '%' :: '}' :: rest) := by
    simp [tagText, Mark.spelling]
  rw [letters]
  exact SourceReads.code .tag rfl reads after

theorem sourceReads_filterText {name : String} (named : IsName name) :
    SourceReads (filterText name).toList
      [.mark .outputOpen, .ident "x", .mark .pipe, .ident name, .mark .outputClose] := by
  have closes : RegionReads .output ['}', '}'] [.mark .outputClose] [] :=
    RegionReads.closer rfl rfl rfl rfl
  have spaced : RegionReads .output [' ', '}', '}'] [.mark .outputClose] [] := closes.gap rfl
  have applied : RegionReads .output (' ' :: (name.toList ++ [' ', '}', '}']))
      [.ident name, .mark .outputClose] [] := (spaced.name named (wordEnds_space _)).gap rfl
  have piped : RegionReads .output (' ' :: '|' :: ' ' :: (name.toList ++ [' ', '}', '}']))
      [.mark .pipe, .ident name, .mark .outputClose] [] :=
    (applied.token rfl rfl (by decide)).gap rfl
  have reads : RegionReads .output
      (' ' :: 'x' :: ' ' :: '|' :: ' ' :: (name.toList ++ [' ', '}', '}']))
      [.ident "x", .mark .pipe, .ident name, .mark .outputClose] [] :=
    (piped.token rfl rfl (by decide)).gap rfl
  have letters : (filterText name).toList = Mark.outputOpen.spelling ++
      ' ' :: 'x' :: ' ' :: '|' :: ' ' :: (name.toList ++ [' ', '}', '}']) := by
    simp [filterText, Mark.spelling]
  rw [letters]
  exact SourceReads.code .output rfl reads .nil

/-- A tag alone in a region is read as its header. -/
theorem result_reader_tag (name : String) (first nameSpan last : Span)
    (rest : List (Located Token)) :
    (Chunk.reader (⟨.mark .tagOpen, first⟩ :: ⟨.ident name, nameSpan⟩ ::
        ⟨.mark .tagClose, last⟩ :: rest)).result =
      some (.header (.tag name nameSpan []) (first.through last), rest) := by
  have noArg : (Header.arg (⟨.mark .tagClose, last⟩ :: rest)).result = none :=
    Header.result_arg_of_close rfl
  have header : (Header.tagHeader (⟨.ident name, nameSpan⟩ :: ⟨.mark .tagClose, last⟩ ::
      rest)).result = some (.tag name nameSpan [], ⟨.mark .tagClose, last⟩ :: rest) := by
    have named : (ident (⟨.ident name, nameSpan⟩ :: ⟨.mark .tagClose, last⟩ :: rest)).result =
        some (⟨name, nameSpan⟩, ⟨.mark .tagClose, last⟩ :: rest) := rfl
    exact (result_bind_of_some named _).trans (result_bind_of_some (result_many_of_none noArg) _)
  have chosen : (Header.reader (⟨.ident name, nameSpan⟩ :: ⟨.mark .tagClose, last⟩ ::
      rest)).result = some (.tag name nameSpan [], ⟨.mark .tagClose, last⟩ :: rest) := by
    have fails (wanted : Mark) (next : Span → Reader Header) :
        ((mark wanted >>= next) (⟨.ident name, nameSpan⟩ :: ⟨.mark .tagClose, last⟩ ::
          rest)).result = none := result_bind_of_none (result_mark_of_ne (by simp)) _
    simp only [Header.reader, choice, result_or, Header.branchHeader, Header.elifHeader,
      Header.wordHeader, Header.loopHeader, Header.assignHeader, fails, header, Option.none_or]
  have read : (Chunk.tagReader (⟨.mark .tagOpen, first⟩ :: ⟨.ident name, nameSpan⟩ ::
      ⟨.mark .tagClose, last⟩ :: rest)).result =
        some (.header (.tag name nameSpan []) (first.through last), rest) :=
    (result_bind_of_some (result_mark ..) _).trans
      ((result_bind_of_some chosen _).trans (result_bind_of_some (result_mark ..) _))
  have text : (Chunk.textReader (⟨.mark .tagOpen, first⟩ :: ⟨.ident name, nameSpan⟩ ::
      ⟨.mark .tagClose, last⟩ :: rest)).result = none := rfl
  have output : (Chunk.outputReader (⟨.mark .tagOpen, first⟩ :: ⟨.ident name, nameSpan⟩ ::
      ⟨.mark .tagClose, last⟩ :: rest)).result = none :=
    result_bind_of_none (result_mark_of_ne (by simp)) _
  simp only [Chunk.reader, choice, result_or, text, output, read, Option.none_or]

/-- The chunk is the header of a tag without arguments. -/
def Chunk.Calls (name : String) (chunk : Chunk) : Prop :=
  ∃ nameSpan span, chunk = .header (.tag name nameSpan []) span

/-- The tokens of tags, each in a region of its own. -/
def tagTokens (names : List String) : List Token :=
  names.flatMap fun name => [Token.mark .tagOpen, Token.ident name, Token.mark .tagClose]

theorem sourceReads_tags {names : List String} (named : ∀ name ∈ names, IsName name) :
    SourceReads (names.flatMap fun name => (tagText name).toList) (tagTokens names) := by
  induction names with
  | nil => exact .nil
  | cons name names ih =>
      obtain ⟨head, tail⟩ := List.forall_mem_cons.mp named
      exact sourceReads_tagText head (ih tail)

/-- Tags one after the other are read as one header each, which nests nothing. -/
theorem read_tagTokens (names : List String) :
    ∀ found, values found = tagTokens names → Nesting.start.check found = .ok () ∧
      ∃ chunks, (many Chunk.reader found).result = some (chunks, []) ∧
        List.Forall₂ Chunk.Calls names chunks := by
  induction names with
  | nil =>
      intro found same
      obtain rfl := List.map_eq_nil_iff.mp same
      exact ⟨rfl, [], result_many_of_none rfl, .nil⟩
  | cons name names ih =>
      intro found same
      obtain ⟨first, inside, rfl, opened⟩ := values_eq_cons same
      obtain ⟨nameSpan, closed, rfl, named⟩ := values_eq_cons opened
      obtain ⟨last, others, rfl, later⟩ := values_eq_cons named
      obtain ⟨checked, chunks, read, calls⟩ := ih others later
      have head := result_reader_tag name first nameSpan last others
      refine ⟨checked, _, result_many_of_some head ?_ read, .cons ⟨_, _, rfl⟩ calls⟩
      simp only [List.length_cons]
      omega

theorem ofSource_tags {names : List String} (named : ∀ name ∈ names, IsName name)
    {source : String} (spelled : source.toList = names.flatMap fun name => (tagText name).toList) :
    ∃ chunks, Chunk.ofSource source = .ok chunks ∧ List.Forall₂ Chunk.Calls names chunks := by
  obtain ⟨found, scanned, same⟩ := sourceReads_tags named 0
  rw [← spelled] at scanned
  obtain ⟨checked, chunks, read, calls⟩ := read_tagTokens names found same
  have listed : (Chunk.listReader found).result = some (chunks, []) := result_bind_of_some read _
  refine ⟨chunks, ?_, calls⟩
  simp only [Chunk.ofSource, tokens, scanned, bind, Except.bind, checked]
  exact Chunk.ofTokens_eq_ok.mpr ⟨[], listed⟩

/-- The tag is called, and nothing else: the call is read as one node, which has a body just when the
tag is a block tag. -/
def TagGrammar.CalledIn (grammar : TagGrammar) (grammars : TagGrammars) : Prop :=
  ∃ nameSpan span, Template.parse grammars grammar.callText =
    .ok [.tag grammar.name nameSpan [] (if grammar.block then some [] else none) span]

theorem calledIn_of_isName {grammars : TagGrammars} (registered : grammars.Named)
    {grammar : TagGrammar} (found : Table.get? grammars grammar.name = some grammar)
    (named : IsName grammar.name) (free : grammars.closesBlock grammar.name = false) :
    grammar.CalledIn grammars := by
  unfold TagGrammar.CalledIn TagGrammar.callText Template.parse
  cases block : grammar.block with
  | false =>
      have each : ∀ name ∈ [grammar.name], IsName name := by simpa using named
      have spelled : (tagText grammar.name ++ "").toList =
          [grammar.name].flatMap fun name => (tagText name).toList := by simp
      obtain ⟨chunks, read, calls⟩ := ofSource_tags each spelled
      obtain _ | ⟨⟨nameSpan, span, rfl⟩, _ | _⟩ := calls
      refine ⟨nameSpan, span, ?_⟩
      simp only [Bool.false_eq_true, ↓reduceIte, bind, Except.bind, read]
      refine Template.ofChunks_of_flat registered rfl ?_ (Nat.zero_le _)
      exact AllRegistered.cons.mpr ⟨⟨free, grammar, found, block⟩, AllRegistered.nil⟩
  | true =>
      have each : ∀ name ∈ [grammar.name, grammar.endTag], IsName name := by
        simpa using ⟨named, named.endName⟩
      have spelled : (tagText grammar.name ++ tagText grammar.endTag).toList =
          [grammar.name, grammar.endTag].flatMap fun name => (tagText name).toList := by simp
      obtain ⟨chunks, read, calls⟩ := ofSource_tags each spelled
      obtain _ | ⟨⟨nameSpan, span, rfl⟩, _ | ⟨⟨place, closing, rfl⟩, _ | _⟩⟩ := calls
      refine ⟨nameSpan, span, ?_⟩
      simp only [↓reduceIte, bind, Except.bind, read]
      have closes : grammars.closesBlock grammar.endTag = true := by
        rw [TagGrammar.endTag, TagGrammars.closesBlock_endName, found]
        exact block
      have stops : (Chunk.header (.tag grammar.endTag place []) closing).stop? grammars =
          some (.endTag grammar.endTag) := by simp only [Chunk.stop?, closes, ↓reduceIte]
      have shallow : Node.listDepth [.tag grammar.name nameSpan [] (some []) span] ≤ maxNesting :=
        Nat.le_of_ble_eq_true rfl
      refine Template.ofChunks_of_flat registered ?_ ?_ shallow
      · exact congrArg₂ List.cons rfl (congrArg₂ List.cons (Chunk.forget_chunk stops).symm rfl)
      · exact AllRegistered.cons.mpr ⟨⟨free, grammar, found, block⟩, AllRegistered.nil⟩

/-- A tag without a grammar cannot be called. -/
theorem unknown_of_absent {grammars : TagGrammars} {name : String} (named : IsName name)
    (free : grammars.closesBlock name = false) (absent : Table.get? grammars name = none) :
    ∃ nameSpan, Template.parse grammars (tagText name) = .error (.unknownTag name nameSpan) := by
  have each : ∀ other ∈ [name], IsName other := by simpa using named
  have spelled : (tagText name).toList = [name].flatMap fun name => (tagText name).toList := by
    simp
  obtain ⟨chunks, read, calls⟩ := ofSource_tags each spelled
  obtain _ | ⟨⟨nameSpan, span, rfl⟩, _ | _⟩ := calls
  refine ⟨nameSpan, ?_⟩
  simp only [Template.parse, Template.ofChunks, readNodes, read, free, absent, bind, Except.bind,
    Bool.false_eq_true, ↓reduceIte]

/-- The filter is applied to the variable, and nothing else: that is the one output. -/
def FilterApplied (name : String) (grammars : TagGrammars) : Prop :=
  ∃ expr span, Template.parse grammars (filterText name) = .ok [.output expr span] ∧
    expr.bare = .filter false (.var "x" default) name default [] default

theorem filterApplied_of_isName {name : String} (named : IsName name) (grammars : TagGrammars) :
    FilterApplied name grammars := by
  obtain ⟨found, scanned, same⟩ := sourceReads_filterText named 0
  obtain ⟨first, others, rfl, opened⟩ := values_eq_cons same
  have shape : values others = [.ident "x", .mark .pipe, .ident name] ++ [.mark .outputClose] :=
    opened
  obtain ⟨used, closing, rfl, spelled, closed⟩ := values_eq_append shape
  obtain ⟨last, nothing, rfl, ended⟩ := values_eq_cons closed
  obtain rfl := List.map_eq_nil_iff.mp ended
  have inside : ∀ token ∈ used, token.value ≠ .mark .outputClose := by
    intro token within closes
    have listed : token.value ∈ values used := List.mem_map_of_mem within
    rw [spelled, closes] at listed
    simp at listed
  have shallow : Nesting.start.check used = .ok () := by
    obtain ⟨_, front, rfl, more⟩ := values_eq_cons spelled
    obtain ⟨_, middle, rfl, rest⟩ := values_eq_cons more
    obtain ⟨_, back, rfl, done⟩ := values_eq_cons rest
    obtain rfl := List.map_eq_nil_iff.mp done
    rfl
  have derived : Derives .disjunction (values used)
      (.filter false (.var "x" default) name default [] default) := by
    have target : Derives .filtered [.ident "x"] (.var "x" default) :=
      (Derives.var "x").loosen (by decide)
    have none : ∀ arg ∈ ([] : List (List Token × Expr)), Derives .disjunction arg.1 arg.2 :=
      fun _ within => nomatch within
    rw [spelled]
    exact (target.filter name none .absent).loosen (by decide)
  obtain ⟨expr, tree, read⟩ := Chunk.reader_of_derives derived last
  refine ⟨expr, first.through last, ?_, tree⟩
  have checked := (Nesting.check_region used first last).trans shallow
  have chunks : Chunk.ofTokens (filterText name).utf8ByteSize (⟨.mark .outputOpen, first⟩ ::
      (used ++ [⟨.mark .outputClose, last⟩])) = .ok [.output expr (first.through last)] :=
    Chunk.ofTokens_eq_ok.mpr
      ⟨[], (Chunk.result_listReader_output inside).mpr ⟨expr, read, rfl, rfl⟩⟩
  simp only [Template.parse, Chunk.ofSource, tokens, scanned, bind, Except.bind, checked, chunks]
  simp only [Template.ofChunks, readNodes, Run.cons, Except.map]

namespace Environments

variable {extensions : List Extension} {envs : Environments}

theorem exists_grammar (loads : ofExtensions extensions = .ok envs) {name : String}
    {grammar : TagGrammar} {observer : Observer}
    (listed : .tagBuilder name grammar observer ∈ extensions) :
    ∃ known, Table.get? envs.compileTime.tags grammar.name = some known := by
  obtain ⟨-, rfl⟩ := ofExtensions_eq_ok.mp loads
  have entry : (grammar.name, grammar) ∈ extensions.filterMap Extension.grammar? :=
    List.mem_filterMap.mpr ⟨_, listed, rfl⟩
  exact Table.exists_get?_ofList entry

/-- No two extensions announce a tag of one name, so where grammars carry the names of their
extensions the grammar that is registered is the one announced. -/
theorem grammar_eq (loads : ofExtensions extensions = .ok envs)
    (own : ∀ extension ∈ extensions, extension.OwnName) {name : String}
    {grammar known : TagGrammar} {observer : Observer}
    (listed : .tagBuilder name grammar observer ∈ extensions)
    (found : Table.get? envs.compileTime.tags name = some known) : known = grammar := by
  obtain ⟨rfl, announced, other, listed', -⟩ := grammars_ofExtensions loads found
  obtain rfl : known.name = announced := own _ listed'
  have distinct := (ofExtensions_eq_ok.mp loads).1.distinct
  cases List.inj_on_of_nodup_map distinct listed listed' rfl
  rfl

/-- How far the names that extensions can be loaded under can be used. A tag of such a name is never
taken for a closer, whatever tags are registered, and is called by its name wherever a grammar of
that name is registered, as it is when the tag is announced with a grammar of its own name. A tag
without such a grammar is unknown under its name, see `unusable_without_grammar`. A filter of such a
name is applied by it. Conversely the tags and filters of a template are named by identifiers that
are no words of the language. -/
theorem names_usable (loads : ofExtensions extensions = .ok envs) :
    (∀ extension ∈ extensions, extension.kind = .tag →
      (∀ grammars : TagGrammars, grammars.closesBlock extension.name = false) ∧
      ∀ grammars : TagGrammars, grammars.Named → ∀ grammar,
        Table.get? grammars extension.name = some grammar →
          grammar.name = extension.name ∧ grammar.CalledIn grammars) ∧
    (∀ name grammar observer, .tagBuilder name grammar observer ∈ extensions →
      grammar.name = name → ∃ known, Table.get? envs.compileTime.tags name = some known ∧
        known.name = name ∧ known.CalledIn envs.compileTime.tags ∧
        ((∀ other ∈ extensions, other.OwnName) → known = grammar)) ∧
    (∀ extension ∈ extensions, extension.kind = .filter →
      ∀ grammars, FilterApplied extension.name grammars) ∧
    ∀ source template, Template.parse envs.compileTime.tags source = .ok template →
      ∀ symbol ∈ Template.symbols template,
        isIdentifier symbol.name = true ∧ symbol.name ∉ Mark.words.map (·.1) := by
  have allowed := (ofExtensions_eq_ok.mp loads).1.named
  have registered := named_ofExtensions loads
  have calls : ∀ extension ∈ extensions, extension.kind = .tag →
      (∀ grammars : TagGrammars, grammars.closesBlock extension.name = false) ∧
      ∀ grammars : TagGrammars, grammars.Named → ∀ grammar,
        Table.get? grammars extension.name = some grammar →
          grammar.name = extension.name ∧ grammar.CalledIn grammars := by
    intro extension listed tag
    obtain ⟨named, -, apart⟩ := checkName_eq_ok.mp (allowed extension listed)
    have free (grammars : TagGrammars) : grammars.closesBlock extension.name = false :=
      TagGrammars.closesBlock_eq_false (apart tag)
    refine ⟨free, fun grammars registered grammar found => ?_⟩
    have same := registered _ grammar found
    rw [← same] at found named
    exact ⟨same, calledIn_of_isName registered found named (same ▸ free grammars)⟩
  refine ⟨calls, ?_, ?_, fun source template parsed => Template.isName_symbols parsed⟩
  · rintro name grammar observer listed rfl
    obtain ⟨known, found⟩ := exists_grammar loads listed
    obtain ⟨same, called⟩ := (calls _ listed rfl).2 _ registered known found
    exact ⟨known, found, same, called, fun own => grammar_eq loads own listed found⟩
  · intro extension listed _ grammars
    obtain ⟨named, -⟩ := checkName_eq_ok.mp (allowed extension listed)
    exact filterApplied_of_isName named grammars

/-- Names that begin like words of the language and like closers. -/
theorem names_usable_iffy :
    let extensions : List Extension :=
      [.tagBuilder "iffy" ⟨"iffy", true⟩ .idle, .filterBuilder "endless" false .idle]
    ∃ envs, ofExtensions extensions = .ok envs ∧
      (∃ nameSpan span,
        Template.parse envs.compileTime.tags "{% iffy %}{% endiffy %}" =
          .ok [.tag "iffy" nameSpan [] (some []) span]) ∧
      ∃ expr span,
        Template.parse envs.compileTime.tags "{{ x | endless }}" =
          .ok [.output expr span] ∧
        expr.bare = .filter false (.var "x" default) "endless" default [] default := by
  intro extensions
  have loadable : Extension.Loadable extensions := by
    constructor
    · simp only [extensions, List.forall_mem_cons]
      exact ⟨rfl, rfl, fun _ within => nomatch within⟩
    · decide
  have loads := ofExtensions_eq_ok.mpr ⟨loadable, rfl⟩
  have own : ∀ extension ∈ extensions, extension.OwnName := by
    simp [extensions, Extension.OwnName]
  obtain ⟨-, tags, filters, -⟩ := names_usable loads
  obtain ⟨known, -, -, called, same⟩ :=
    tags "iffy" ⟨"iffy", true⟩ .idle List.mem_cons_self rfl
  obtain rfl := same own
  exact ⟨_, loads, called,
    filters _ (List.mem_cons_of_mem _ List.mem_cons_self) rfl _⟩

/-- Loading checks the name of an extension and nothing else, so a tag that only has a runner, or one
whose grammar carries another name, is loaded under a name by which no template can call it. -/
theorem unusable_without_grammar :
    let misnamed : List Extension := [.tagBuilder "cache" ⟨"memo", false⟩ .idle]
    let onlyRun : List Extension := [.tagRunner "cache" fun _ => .ok []]
    ∀ extensions ∈ [misnamed, onlyRun], ∃ envs, ofExtensions extensions = .ok envs ∧
      ∃ nameSpan, Template.parse envs.compileTime.tags "{% cache %}" =
        .error (.unknownTag "cache" nameSpan) := by
  intro misnamed onlyRun
  have named : IsName "cache" := ⟨by decide, by decide⟩
  have spelled : "{% cache %}" = tagText "cache" := by decide
  simp only [List.forall_mem_cons, spelled]
  refine ⟨⟨_, rfl, ?_⟩, ⟨_, rfl, ?_⟩, fun _ within => nomatch within⟩
  · exact unknown_of_absent named rfl rfl
  · exact unknown_of_absent named rfl rfl

end Environments

end QueryTemplate
