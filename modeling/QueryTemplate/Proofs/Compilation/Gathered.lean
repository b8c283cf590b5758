import QueryTemplate.Proofs.Compilation.Assembly
import QueryTemplate.Proofs.Compilation.Listed
import QueryTemplate.Proofs.Reading.Openers
import QueryTemplate.Proofs.Template.Addresses

set_option autoImplicit false

/- The metadata of the built-in extensions. It gathers from the whole tree, wherever an element
stands and whether or not it is ever executed: the paths that are required, the codes that tags
raise, and the requests. -/

namespace QueryTemplate

/-- A variable, or attributes taken from one by one, and the names along the way. -/
inductive Expr.Chain : Expr → List String → Prop
  | var (name : String) (span : Span) : Chain (.var name span) [name]
  | attr {target : Expr} {names : List String} (chain : Chain target names) (name : String)
      (span : Span) : Chain (.attr target name span) (names ++ [name])

theorem intercalate_concat (separator : String) {parts : List String} (present : parts ≠ [])
    (last : String) :
    separator.intercalate (parts ++ [last]) = separator.intercalate parts ++ separator ++ last := by
  induction parts with
  | nil => contradiction
  | cons first rest ih =>
      cases rest with
      | nil => simp [String.intercalate_cons_cons, String.intercalate_singleton]
      | cons second rest =>
          rw [List.cons_append, List.cons_append, String.intercalate_cons_cons, ← List.cons_append,
            ih (List.cons_ne_nil _ _), String.intercalate_cons_cons]
          simp only [String.append_assoc]

namespace Expr

theorem Chain.present {expr : Expr} {names : List String} (chain : Chain expr names) :
    names ≠ [] := by
  cases chain with
  | var => exact List.cons_ne_nil _ _
  | attr => exact List.append_ne_nil_of_right_ne_nil _ (List.cons_ne_nil _ _)

theorem path?_eq_some {expr : Expr} {path : String} :
    expr.path? = some path ↔ ∃ names, expr.Chain names ∧ path = ".".intercalate names := by
  constructor
  · intro found
    induction expr using induct_parts generalizing path with
    | step expr ih =>
        cases expr with
        | var name span =>
            rw [← Option.some.inj found]
            exact ⟨[name], .var name span, String.intercalate_singleton.symm⟩
        | attr target name span =>
            obtain ⟨before, reached, rfl⟩ := Option.map_eq_some_iff.mp found
            obtain ⟨names, chain, rfl⟩ := ih target (List.mem_singleton_self _) reached
            exact ⟨_, .attr chain name span, (intercalate_concat "." chain.present name).symm⟩
        | _ => cases found
  · rintro ⟨names, chain, rfl⟩
    induction chain with
    | var name span => exact congrArg some String.intercalate_singleton.symm
    | attr chain name span ih =>
        rw [path?, ih, Option.map_some, intercalate_concat "." chain.present]

end Expr

/-- The entry of an observer that collects from tags, if each of them adds what it gives. -/
theorem Observer.entry?_gathering {α : Type} {visit : List α → Element → List α}
    {gives : Element → Option α}
    (adds : ∀ found element, visit found element = found ++ (gives element).toList)
    (tags : ∀ element item, gives element = some item → element.kind = .tag)
    (key : String) (toJson : α → Json) (elements : List Element) :
    entry? ⟨.all, .collecting visit key toJson⟩ elements =
      let items := elements.filterMap gives
      if items = [] then none else some (key, .array (items.map toJson)) := by
  have gathered : (elements.filter fun element => element.kind == .tag).foldl visit [] =
      elements.filterMap gives := by
    rw [funext₂ adds, List.foldl_append_eq_append, List.nil_append, ← List.flatMap_def,
      ← List.filterMap_eq_flatMap_toList, List.filterMap_filter]
    refine List.filterMap_congr fun element _ => ?_
    cases given : gives element with
    | none => exact ite_self _
    | some item => rw [if_pos (beq_iff_eq.mpr (tags element item given))]
  rw [entry?_collecting]
  simp only [gathered, List.isEmpty_iff]

namespace Catalog

/-- The code that a tag raises, if it spells it out. -/
def Raise.given? : Element → Option Code
  | .node (.tag tag _ args _ span) =>
    if tag = name then (Arg.spelled? args).map fun code => ⟨code, span.start⟩ else none
  | _ => none

/-- What a tag declares of its request. -/
def Request.given? : Element → Option Declaration
  | .node (.tag tag _ args _ _) => if tag = name then some (.ofArgs args) else none
  | _ => none

theorem Raise.visit_eq (found : List Code) (element : Element) :
    visit found element = found ++ (given? element).toList := by
  cases element with
  | expr => exact (List.append_nil found).symm
  | node value =>
      cases value with
      | tag tag _ args _ span =>
          by_cases own : tag = name
          · simp only [visit, given?, own, ↓reduceIte, Arg.spelled?]
            cases args.findSome? Arg.positional? with
            | none => exact (List.append_nil found).symm
            | some first =>
                cases first with
                | literal value place =>
                    cases value with
                    | string code => rfl
                    | _ => exact (List.append_nil found).symm
                | _ => exact (List.append_nil found).symm
          · simp [visit, given?, own]
      | _ => exact (List.append_nil found).symm

theorem Request.visit_eq (found : List Declaration) (element : Element) :
    visit found element = found ++ (given? element).toList := by
  cases element with
  | expr => exact (List.append_nil found).symm
  | node value =>
      cases value with
      | tag tag _ args _ span => by_cases own : tag = name <;> simp [visit, given?, own]
      | _ => exact (List.append_nil found).symm

theorem Raise.kind_of_given {element : Element} {code : Code} (gives : given? element = some code) :
    element.kind = .tag := by
  unfold given? at gives
  split at gives
  · rfl
  · cases gives

theorem Request.kind_of_given {element : Element} {declaration : Declaration}
    (gives : given? element = some declaration) : element.kind = .tag := by
  unfold given? at gives
  split at gives
  · rfl
  · cases gives

theorem Raise.entry?_eq (elements : List Element) :
    Observer.entry? ⟨.all, hooks⟩ elements =
      let codes := elements.filterMap given?
      if codes = [] then none else some (metadataKey, .array (codes.map Code.toJson)) :=
  Observer.entry?_gathering visit_eq (fun _ _ => kind_of_given) _ _ elements

theorem Request.entry?_eq (elements : List Element) :
    Observer.entry? ⟨.all, hooks⟩ elements =
      let declarations := elements.filterMap given?
      if declarations = [] then none
      else some (metadataKey, .array (declarations.map Declaration.toJson)) :=
  Observer.entry?_gathering visit_eq (fun _ _ => kind_of_given) _ _ elements

namespace Required

/-- The path that a filter requires, if it is applied to a path. -/
def given? : Element → Option String
  | .expr (.filter _ target filter _ _ _) => if filter = name then target.path? else none
  | _ => none

theorem given?_eq_some {element : Element} {path : String} :
    given? element = some path ↔ ∃ awaited target nameSpan args span names,
      element = .expr (.filter awaited target name nameSpan args span) ∧ target.Chain names ∧
        path = ".".intercalate names := by
  constructor
  · intro gives
    unfold given? at gives
    split at gives
    next awaited target filter nameSpan args span =>
      split at gives
      next own =>
        obtain ⟨names, chain, spelled⟩ := Expr.path?_eq_some.mp gives
        exact ⟨awaited, target, nameSpan, args, span, names, own ▸ rfl, chain, spelled⟩
      next => cases gives
    next => cases gives
  · rintro ⟨awaited, target, nameSpan, args, span, names, rfl, chain, spelled⟩
    rw [given?, if_pos rfl]
    exact Expr.path?_eq_some.mpr ⟨names, chain, spelled⟩

theorem visit_of_given {element : Element} {path : String} (gives : given? element = some path)
    (found : Table Unit) : visit found element = found.insert path () := by
  obtain ⟨_, _, _, _, _, _, rfl, -, -⟩ := given?_eq_some.mp gives
  rw [given?, if_pos rfl] at gives
  simp only [visit, ↓reduceIte, gives]

theorem visit_of_silent {element : Element} (silent : given? element = none)
    (found : Table Unit) : visit found element = found := by
  unfold visit
  split
  · split
    next own =>
      rw [given?, if_pos own] at silent
      rw [silent]
    next => rfl
  · rfl

/-- Only filters give a path. -/
theorem interested_of_given {element : Element} {path : String}
    (gives : given? element = some path) : hooks.interestedIn element.kind = true := by
  obtain ⟨awaited, _, _, _, _, _, rfl, -, -⟩ := given?_eq_some.mp gives
  cases awaited <;> rfl

theorem sorted_foldl_visit {found : Table Unit} (sorted : found.Sorted) (elements : List Element) :
    Table.Sorted (elements.foldl visit found) := by
  induction elements generalizing found with
  | nil => exact sorted
  | cons element rest ih =>
      refine ih ?_
      cases gives : given? element with
      | none => rwa [visit_of_silent gives]
      | some path =>
          rw [visit_of_given gives]
          exact Table.sorted_insert sorted path ()

theorem mem_foldl_visit {found : Table Unit} {elements : List Element} {path : String} :
    path ∈ Table.keys (elements.foldl visit found) ↔
      path ∈ found.keys ∨ ∃ element ∈ elements, given? element = some path := by
  induction elements generalizing found with
  | nil => simp
  | cons element rest ih =>
      rw [List.foldl_cons, ih]
      simp only [List.mem_cons, exists_eq_or_imp]
      cases gives : given? element with
      | none => simp [visit_of_silent gives]
      | some other =>
          rw [visit_of_given gives, Table.keys_insert, Option.some.injEq, eq_comm, or_assoc,
            or_left_comm]

/-- The observer provides the paths in order, each of them once. -/
theorem entry?_eq (elements : List Element) :
    ∃ paths : List String, paths.Pairwise (· < ·) ∧
      (∀ path, path ∈ paths ↔ ∃ element ∈ elements, given? element = some path) ∧
      Observer.entry? ⟨.all, hooks⟩ elements =
        if paths = [] then none else some (metadataKey, .strings paths) := by
  have empty : Table.Sorted ([] : Table Unit) := .nil
  refine ⟨Table.keys ((elements.filter fun element => hooks.interestedIn element.kind).foldl
    visit []), sorted_foldl_visit empty _, fun path => ?_, ?_⟩
  · rw [mem_foldl_visit, Table.keys_nil]
    simp only [List.not_mem_nil, false_or, List.mem_filter]
    constructor
    · rintro ⟨element, ⟨listed, -⟩, gives⟩
      exact ⟨element, listed, gives⟩
    · rintro ⟨element, listed, gives⟩
      exact ⟨element, ⟨listed, interested_of_given gives⟩, gives⟩
  · generalize folded :
      (elements.filter fun element => hooks.interestedIn element.kind).foldl visit [] = found
    have provided : Observer.entry? ⟨.all, hooks⟩ elements =
        if found.isEmpty then none else some (metadataKey, .strings found.keys) := by
      rw [← folded]
      rfl
    rw [provided]
    cases found <;> rfl

end Required

end Catalog

namespace Environments

variable {envs : Environments} {template : Template}

/-- The built-in observers watch, each provides its own key. -/
theorem watches_of_provider (loads : ofExtensions catalog = .ok envs) {key : String}
    {observer : Observer} (provider : Table.get? Catalog.providers key = some observer) :
    (∃ name, ⟨name, observer⟩ ∈ envs.watchers) ∧
      ∀ elements other value, observer.entry? elements = some (other, value) → other = key := by
  obtain ⟨-, rfl⟩ := ofExtensions_eq_ok.mp loads
  have watchers : (assembled catalog).watchers =
      [⟨Catalog.Request.name, ⟨.all, Catalog.Request.hooks⟩⟩,
        ⟨Catalog.Raise.name, ⟨.all, Catalog.Raise.hooks⟩⟩,
        ⟨Catalog.Required.name, ⟨.all, Catalog.Required.hooks⟩⟩] := rfl
  obtain ⟨before, after, whole, -⟩ := List.lookup_eq_some_iff.mp provider
  have listed : (key, observer) ∈ Catalog.providers := by
    rw [whole]
    exact List.mem_append_right _ List.mem_cons_self
  simp only [Catalog.providers, List.mem_cons, List.not_mem_nil, or_false] at listed
  rw [watchers]
  rcases listed with same | same | same <;> cases same
  · exact ⟨⟨_, List.mem_cons_self⟩, fun _ _ _ => Observer.key_of_collecting⟩
  · exact ⟨⟨_, List.mem_cons_of_mem _ List.mem_cons_self⟩, fun _ _ _ => Observer.key_of_collecting⟩
  · exact ⟨⟨_, List.mem_cons_of_mem _ (List.mem_cons_of_mem _ List.mem_cons_self)⟩,
      fun _ _ _ => Catalog.Required.key_of_entry?⟩

/-- Under the key of a built-in observer the metadata has what the observer provides. -/
theorem get?_metadata_of_provider (loads : ofExtensions catalog = .ok envs) {key : String}
    {observer : Observer} (provider : Table.get? Catalog.providers key = some observer) :
    Table.get? (envs.metadata template) key =
      (observer.entry? template.elements).map Prod.snd := by
  obtain ⟨⟨name, watches⟩, own⟩ := watches_of_provider loads provider
  refine get?_metadata_of_sole watches (fun other within value given => ?_)
    (own (Template.elements template))
  obtain ⟨extension, listed, observed⟩ := observers_ofExtensions loads other within
  have known := Observer.provider_of_catalog listed observed given
  rw [provider] at known
  exact (Option.some.inj known).symm

/-- Other keys have no entry. -/
theorem get?_metadata_of_other (loads : ofExtensions catalog = .ok envs) {key : String}
    (other : key ∉ Table.keys Catalog.providers) :
    Table.get? (envs.metadata template) key = none := by
  rw [Option.eq_none_iff_forall_ne_some]
  intro value found
  obtain ⟨watcher, watches, provides⟩ := provided_of_get?_metadata found
  obtain ⟨extension, listed, observed⟩ := observers_ofExtensions loads watcher watches
  have provider := Observer.provider_of_catalog listed observed provides
  obtain ⟨before, after, whole, -⟩ := List.lookup_eq_some_iff.mp provider
  exact other (List.mem_map.mpr ⟨_, whole ▸ List.mem_append_right _ List.mem_cons_self, rfl⟩)

/-- The paths that are given are those of the chains to which `required` is applied. -/
theorem required_given_iff {path : String} :
    (∃ element ∈ Template.elements template, Catalog.Required.given? element = some path) ↔
      ∃ address awaited target nameSpan args span names,
        template.at? address = some (.expr (.filter awaited target "required" nameSpan args span)) ∧
          Expr.Chain target names ∧ path = ".".intercalate names := by
  constructor
  · rintro ⟨element, listed, gives⟩
    obtain ⟨address, there⟩ := Template.mem_elements_iff.mp listed
    obtain ⟨awaited, target, nameSpan, args, span, names, rfl, chain, spelled⟩ :=
      Catalog.Required.given?_eq_some.mp gives
    exact ⟨address, awaited, target, nameSpan, args, span, names, there, chain, spelled⟩
  · rintro ⟨address, awaited, target, nameSpan, args, span, names, there, chain, spelled⟩
    exact ⟨_, Template.mem_elements_iff.mpr ⟨address, there⟩,
      Catalog.Required.given?_eq_some.mpr
        ⟨awaited, target, nameSpan, args, span, names, rfl, chain, spelled⟩⟩

/-- A code that is given has the place of its tag. -/
theorem tagBegins_of_given {tags : TagGrammars} {source : String}
    (parsed : Template.parse tags source = .ok template) {code : Catalog.Raise.Code}
    (within : code ∈ (Template.elements template).filterMap Catalog.Raise.given?) :
    TagBegins source "error" code.offset := by
  obtain ⟨element, listed, gives⟩ := List.mem_filterMap.mp within
  obtain ⟨nameSpan, args, body, span, rfl, -, start⟩ :=
    Catalog.Raise.mem_visit.mp (by rw [Catalog.Raise.visit_eq, gives]; exact List.mem_cons_self)
  rw [← start]
  exact Template.tagBegins_of_mem parsed listed

/-- The metadata of a source that compiles with the built-in extensions. It has the paths to which
`required` is applied, in order and each once; the codes that `error` tags spell out, with the places
of these tags; and the requests, one for each `req` tag. These stand anywhere in the tree, and are
listed in the order of the tree. There is no entry for an empty list, and none under another key. -/
theorem gathers_metadata (loads : ofExtensions catalog = .ok envs) {source : String}
    {compiled : Compiled} (compiles : envs.compile source = .ok compiled) :
    ∃ template, Template.parse envs.compileTime.tags source = .ok template ∧
      (∃ paths : List String, paths.Pairwise (· < ·) ∧
        (∀ path, path ∈ paths ↔ ∃ address awaited target nameSpan args span names,
          template.at? address = some (.expr (.filter awaited target "required" nameSpan args span)) ∧
            target.Chain names ∧ path = ".".intercalate names) ∧
        Table.get? compiled.metadata "parameters.required" =
          if paths = [] then none else some (.strings paths)) ∧
      (∃ codes, template.Gathers Catalog.Raise.given? codes ∧
        (∀ code ∈ codes, TagBegins source "error" code.offset) ∧
        Table.get? compiled.metadata "error.codes" =
          if codes = [] then none else some (.array (codes.map Catalog.Raise.Code.toJson))) ∧
      (∃ declarations, template.Gathers Catalog.Request.given? declarations ∧
        Table.get? compiled.metadata "builder.requests" =
          if declarations = [] then none
          else some (.array (declarations.map Catalog.Request.Declaration.toJson))) ∧
      ∀ key ∉ ["parameters.required", "error.codes", "builder.requests"],
        Table.get? compiled.metadata key = none := by
  obtain ⟨_, analyzed, -⟩ := compile_eq_ok compiles
  obtain ⟨template, parsed, -⟩ := analyze_eq_ok analyzed
  have whole := metadata_compile parsed compiles
  obtain ⟨paths, ascending, required, provided⟩ := Catalog.Required.entry?_eq template.elements
  have raised := Catalog.Raise.entry?_eq template.elements
  have requested := Catalog.Request.entry?_eq template.elements
  rw [whole]
  refine ⟨template, parsed,
    ⟨paths, ascending, fun path => (required path).trans required_given_iff, ?_⟩,
    ⟨_, template.gathers Catalog.Raise.given?, fun code => tagBegins_of_given parsed, ?_⟩,
    ⟨_, template.gathers Catalog.Request.given?, ?_⟩, fun key other => ?_⟩
  · have own : Table.get? Catalog.providers "parameters.required" =
        some ⟨.all, Catalog.Required.hooks⟩ := rfl
    rw [get?_metadata_of_provider loads own, provided]
    split <;> rfl
  · have own : Table.get? Catalog.providers "error.codes" =
        some ⟨.all, Catalog.Raise.hooks⟩ := rfl
    rw [get?_metadata_of_provider loads own, raised]
    dsimp only
    split <;> rfl
  · have own : Table.get? Catalog.providers "builder.requests" =
        some ⟨.all, Catalog.Request.hooks⟩ := rfl
    rw [get?_metadata_of_provider loads own, requested]
    dsimp only
    split <;> rfl
  · have listed : ∀ key ∈ Table.keys Catalog.providers,
        key ∈ ["parameters.required", "error.codes", "builder.requests"] := by decide
    exact get?_metadata_of_other loads fun within => other (listed key within)

/-- A code in a branch that is never taken, a path in an argument of a filter and one that a loop goes
through, a code and a request in the body of the loop. What comes from a filter is no path, and a
variable spells out no code. -/
theorem gathers_metadata_nested :
    let source := "\x7b% if false %\x7d\x7b% error 'E1' %\x7d\x7b% endif %\x7d" ++
      "\x7b\x7b x | upper(z.b | required) \x7d\x7d\x7b% for i in y | required %\x7d" ++
      "\x7b% req i, main=true %\x7d\x7b% error 'E2' %\x7d\x7b% error i %\x7d" ++
      "\x7b\x7b (a | upper).b | required \x7d\x7d\x7b% endreq %\x7d\x7b% endfor %\x7d"
    let texts := [("builder.requests", "[\x7b\"main\":true,\"name\":null\x7d]"),
      ("error.codes", "[\x7b\"code\":\"E1\",\"offset\":14\x7d," ++
        "\x7b\"code\":\"E2\",\"offset\":121\x7d]"),
      ("parameters.required", "[\"y\",\"z.b\"]")]
    ∃ envs compiled, ofExtensions catalog = .ok envs ∧ envs.compile source = .ok compiled ∧
      compiled.metadata.map (fun entry => (entry.1, entry.2.text)) = texts ∧
      (∃ paths : List String, paths.Pairwise (· < ·) ∧
        Table.get? compiled.metadata "parameters.required" = some (.strings paths)) ∧
      ∃ codes : List Catalog.Raise.Code, (∀ code ∈ codes, TagBegins source "error" code.offset) ∧
        Table.get? compiled.metadata "error.codes" =
          some (.array (codes.map Catalog.Raise.Code.toJson)) := by
  intro source texts
  have listed : (ofExtensions catalog).toOption.any (fun envs =>
      (envs.compile source).toOption.any fun compiled =>
        compiled.metadata.map (fun entry => (entry.1, entry.2.text)) == texts &&
          (Table.get? compiled.metadata "parameters.required").isSome &&
          (Table.get? compiled.metadata "error.codes").isSome) = true := by decide +kernel
  obtain ⟨envs, loads, listed⟩ := exists_ok_of_any listed
  obtain ⟨compiled, compiles, listed⟩ := exists_ok_of_any listed
  simp only [Bool.and_eq_true, beq_iff_eq] at listed
  obtain ⟨⟨written, required⟩, raised⟩ := listed
  obtain ⟨template, -, ⟨paths, ascending, -, provided⟩, ⟨codes, -, begins, given⟩, -⟩ :=
    gathers_metadata loads compiles
  refine ⟨envs, compiled, loads, compiles, written, ⟨paths, ascending, ?_⟩, codes, begins, ?_⟩
  · rw [provided] at required ⊢
    split at required
    next => cases required
    next present => exact if_neg present
  · rw [given] at raised ⊢
    split at raised
    next => cases raised
    next present => exact if_neg present

end Environments

end QueryTemplate
