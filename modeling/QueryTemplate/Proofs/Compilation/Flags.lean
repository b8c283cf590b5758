import QueryTemplate.Proofs.Compilation.Gathered
import QueryTemplate.Proofs.Compilation.Safety
import QueryTemplate.Proofs.Execution.Handed

set_option autoImplicit false

/- The flag `main` of a request, as the metadata records it and as the runner of the tag sees it.
The metadata goes by the first argument of that name, the runner by the last. -/

namespace QueryTemplate

/-- What a boolean literal says. -/
def Expr.flag? : Expr → Option Bool
  | .literal (.bool value) _ => some value
  | _ => none

/-- All values are boolean literals, and these are their meanings. -/
def Flags (values : List Expr) (flags : List Bool) : Prop :=
  values.map Expr.flag? = flags.map some

instance (values : List Expr) (flags : List Bool) : Decidable (Flags values flags) :=
  inferInstanceAs (Decidable (_ = _))

theorem Flags.literals {values : List Expr} {flags : List Bool} (spelled : Flags values flags) :
    ∃ items : List (Bool × Span),
      values = items.map (fun item => .literal (.bool item.1) item.2) ∧
        flags = items.map Prod.fst := by
  induction values generalizing flags with
  | nil =>
      obtain rfl := List.map_eq_nil_iff.mp spelled.symm
      exact ⟨[], rfl, rfl⟩
  | cons value rest ih =>
      obtain ⟨flag, others, rfl, first, later⟩ := List.map_eq_cons_iff.mp spelled.symm
      obtain ⟨items, rfl, rfl⟩ := ih later.symm
      unfold Expr.flag? at first
      split at first
      next span =>
        obtain rfl := Option.some.inj first
        exact ⟨(flag, span) :: items, rfl, rfl⟩
      next => cases first

theorem Catalog.Request.main_ofArgs {args : List Arg} {mains : List Bool}
    (flags : Flags (args.filterMap (Arg.keyword? "main")) mains) :
    (Declaration.ofArgs args).main = mains.head?.getD false := by
  obtain ⟨items, values, rfl⟩ := flags.literals
  have first : args.findSome? (Arg.keyword? "main") =
      (items.map fun item => Expr.literal (.bool item.1) item.2).head? := by
    rw [← List.head?_filterMap, values]
  simp only [Declaration.ofArgs, first]
  cases items <;> rfl

theorem Catalog.Request.given?_eq (element : Element) :
    given? element = element.called?.bind fun called =>
      if called.1 = name then some (.ofArgs called.2) else none := by
  cases element with
  | expr => rfl
  | node value => cases value <;> rfl

/-- The requests of a template, with the addresses at which its program calls them. -/
def Template.requests (template : Template) : List TagCall :=
  template.tagCalls.filter fun call => call.name = Catalog.Request.name

/-- What the tags of a template declare, in the order of their calls. -/
theorem Template.given_requests (template : Template) :
    template.elements.filterMap Catalog.Request.given? =
      template.requests.map fun request => .ofArgs request.args := by
  rw [funext Catalog.Request.given?_eq, ← List.filterMap_filterMap, ← called_tagCalls,
    List.filterMap_map, requests, ← List.filterMap_eq_map, List.filterMap_filter]
  simp

namespace Environments

variable {extensions : List Extension} {envs : Environments} {template : Template}

/-- The metadata records each request if the extension that gathers them does so alone. -/
theorem get?_requests (loads : ofExtensions extensions = .ok envs)
    (gathers : Catalog.Request.builder ∈ extensions)
    (alone : ∀ extension ∈ extensions, ∀ elements value,
      extension.entry? elements = some ("builder.requests", value) →
        extension = Catalog.Request.builder) :
    Table.get? (envs.metadata template) "builder.requests" =
      if template.requests = [] then none
      else some (.array (template.requests.map fun request =>
        (Catalog.Request.Declaration.ofArgs request.args).toJson)) := by
  have watches : ⟨Catalog.Request.name, ⟨.all, Catalog.Request.hooks⟩⟩ ∈ envs.watchers := by
    obtain ⟨-, rfl⟩ := ofExtensions_eq_ok.mp loads
    exact List.mem_filterMap.mpr ⟨_, gathers, rfl⟩
  rw [get?_metadata_of_sole watches, Catalog.Request.entry?_eq, template.given_requests]
  · simp only [List.map_eq_nil_iff, List.map_map]
    split <;> rfl
  · intro other within value given
    obtain ⟨extension, listed, observed⟩ := observers_ofExtensions loads other within
    have own := alone extension listed template.elements value (by
      rw [Extension.entry?, observed]
      exact given)
    subst own
    exact (Option.some.inj observed).symm
  · exact fun _ _ => Observer.key_of_collecting

end Environments

theorem Arg.filterMap_keyword_revise (r : Revision) (args : List Arg) (key : String) :
    (args.map (·.revise r)).filterMap (keyword? key) =
      (args.filterMap (keyword? key)).map (Expr.revise r) := by
  rw [List.filterMap_map, List.map_filterMap]
  refine List.filterMap_congr fun arg _ => ?_
  cases arg with
  | positional value => rfl
  | keyword other span value =>
      by_cases own : other = key <;> simp [Arg.revise, keyword?, own]

/-- If all `main` arguments of a tag are boolean literals, then its runner sees the last of them
whenever the tag is called. -/
theorem Template.seen_main {template : Template} {names : List String} {setting : Setting}
    (compiled : setting.program = program (template.revise (Revision.reading names)))
    {call : TagCall} (listed : call ∈ template.tagCalls) {mains : List Bool}
    (flags : Flags (call.args.filterMap (Arg.keyword? "main")) mains) {steps : Nat}
    {machine : Machine} (reached : Machine.start.advance setting steps = .ok machine)
    (stands : machine.pc = call.address) {context : TagContext}
    (handed : machine.handed? setting = some context) :
    (Table.get? context.kwargs "main").any Json.isTruthy = mains.getLast?.getD false := by
  obtain ⟨items, values, rfl⟩ := flags.literals
  have revised : call.revise (Revision.reading names) ∈
      tagCalls (template.revise (Revision.reading names)) := by
    rw [tagCalls_revise]
    exact List.mem_map_of_mem listed
  -- booleans are read back from code as they are
  have same : (call.revise (Revision.reading names)).args.filterMap (Arg.keyword? "main") =
      items.map fun item => .literal (.bool item.1) item.2 := by
    refine (Arg.filterMap_keyword_revise _ _ _).trans ?_
    rw [values, List.map_map]
    rfl
  have literals : ∀ value ∈ (call.revise (Revision.reading names)).args.filterMap
      (Arg.keyword? "main"), value.constant?.isSome := by
    rw [same, List.forall_mem_map]
    exact fun _ _ => rfl
  have constants : (items.map fun item => Expr.literal (.bool item.1) item.2).filterMap
      Expr.constant? = items.map fun item => .bool item.1 := by
    rw [List.filterMap_map]
    exact congrFun List.filterMap_eq_map items
  rw [handed_keyword compiled revised literals reached stands handed, same, constants,
    List.getLast?_map, List.getLast?_map]
  cases items.getLast? <;> rfl

/-- The instructions that call `req` tags are those of the requests of the template. -/
theorem Template.fetch_request {template : Template} (r : Revision) {address argc : Nat}
    {kwargs : List String} {hasBody : Bool} :
    (program (template.revise r))[address]? = some (.callTag "req" argc kwargs hasBody) ↔
      ∃ request ∈ template.requests, request.address = address ∧
        request.instr = .callTag "req" argc kwargs hasBody := by
  have calls : (Instr.callTag "req" argc kwargs hasBody).callsTag = true := rfl
  refine (and_iff_left calls).symm.trans (fetch_tagCall.trans ?_)
  rw [tagCalls_revise, requests]
  constructor
  · rintro ⟨_, within, stands, fetched⟩
    obtain ⟨call, listed, rfl⟩ := List.mem_map.mp within
    rw [TagCall.instr_revise] at fetched
    have named : call.name = "req" := (Instr.callTag.inj fetched).1
    exact ⟨call, List.mem_filter.mpr ⟨listed, decide_eq_true named⟩, stands, fetched⟩
  · rintro ⟨call, listed, stands, fetched⟩
    refine ⟨_, List.mem_map_of_mem (List.mem_of_mem_filter listed), stands, ?_⟩
    rw [TagCall.instr_revise, fetched]

namespace Environments

variable {extensions : List Extension} {envs : Environments}

/-- Of the built-in extensions only one provides the entry of requests. -/
theorem builder_of_entry? {extension : Extension} (listed : extension ∈ catalog)
    (elements : List Element) (value : Json)
    (provides : extension.entry? elements = some ("builder.requests", value)) :
    extension = Catalog.Request.builder := by
  simp only [catalog, List.mem_cons, List.not_mem_nil, or_false] at listed
  rcases listed with rfl | rfl | rfl | rfl | rfl | rfl | rfl | rfl | rfl | rfl
  case inr.inr.inl =>
    exact absurd (Observer.key_of_collecting provides) (by decide)
  case inr.inr.inr.inr.inr.inr.inr.inr.inl =>
    exact absurd (Catalog.Required.key_of_entry? provides) (by decide)
  case inl => rfl
  all_goals cases provides

/-- The flag `main` of the requests of a source. The metadata has an entry for each of them, in the
order of the tree, and the program one instruction that calls it. If all its `main` arguments are
boolean literals, then the entry has the first of them, and the runner sees the last whenever the
request is called. So the two agree just when the first of these arguments says the same as the last,
as it does when there is at most one. -/
theorem main_first_and_last (loads : ofExtensions extensions = .ok envs)
    (gathers : Catalog.Request.builder ∈ extensions)
    (alone : ∀ extension ∈ extensions, ∀ elements value,
      extension.entry? elements = some ("builder.requests", value) →
        extension = Catalog.Request.builder)
    {source : String} {compiled : Compiled} (short : source.length < 2 ^ 64)
    (compiles : envs.compile source = .ok compiled) :
    ∃ template program, Template.parse envs.compileTime.tags source = .ok template ∧
      Program.decode compiled.code = .ok program ∧
      Table.get? compiled.metadata "builder.requests" =
        (if template.requests = [] then none
        else some (.array (template.requests.map fun request =>
          (Catalog.Request.Declaration.ofArgs request.args).toJson))) ∧
      (∀ address argc kwargs hasBody,
        program[address]? = some (.callTag "req" argc kwargs hasBody) ↔
          ∃ request ∈ template.requests, request.address = address ∧
            request.instr = .callTag "req" argc kwargs hasBody) ∧
      ∀ request ∈ template.requests, ∀ mains : List Bool,
        Flags (request.args.filterMap (Arg.keyword? "main")) mains →
          (Catalog.Request.Declaration.ofArgs request.args).main = mains.head?.getD false ∧
          ∀ strict members steps machine context,
            let setting : Setting := ⟨program, envs.runtime, strict, members⟩
            Machine.start.advance setting steps = .ok machine → machine.pc = request.address →
            machine.handed? setting = some context →
              (∃ rest : Machine,
                machine.step? setting = some (rest.answer setting "req" context)) ∧
              (Table.get? context.kwargs "main").any Json.isTruthy = mains.getLast?.getD false := by
  obtain ⟨template, parsed, decoded, -⟩ := decode_compile short compiles
  refine ⟨template, _, parsed, decoded, ?_, fun _ _ _ _ => Template.fetch_request _,
    fun request listed mains flags => ⟨Catalog.Request.main_ofArgs flags, ?_⟩⟩
  · rw [metadata_compile parsed compiles]
    exact get?_requests loads gathers alone
  · intro strict members steps machine context setting reached stands handed
    obtain ⟨call, named⟩ := List.mem_filter.mp listed
    have own : request.instr = Arg.call "req" request.args request.hasBody := by
      rw [TagCall.instr, of_decide_eq_true named]
      rfl
    have fetched := (Template.fetch_request (Revision.reading envs.asyncFilters)).mpr
      ⟨request, listed, stands.symm, own⟩
    exact ⟨Machine.step?_of_handed fetched handed,
      Template.seen_main rfl call flags reached stands handed⟩

/-- A request in a loop with three `main` arguments between others, seen as it is recorded, before
one that has none. -/
theorem main_first_and_last_mixed :
    let source := "\x7b% for i in ids %\x7d\x7b% req main=true i main=false limit=i main=true %\x7dx" ++
      "\x7b% endreq %\x7d\x7b% endfor %\x7d\x7b% req 'b' %\x7dy\x7b% endreq %\x7d"
    let members := [("ids", Json.array [.string "a"])]
    ∃ envs compiled program machine context, ofExtensions catalog = .ok envs ∧
      envs.compile source = .ok compiled ∧ Program.decode compiled.code = .ok program ∧
      compiled.metadata.map (fun entry => (entry.1, entry.2.text)) = [("builder.requests",
        "[\x7b\"main\":true,\"name\":null\x7d,\x7b\"main\":false,\"name\":\"b\"\x7d]")] ∧
      Machine.start.advance ⟨program, envs.runtime, true, members⟩ 10 = .ok machine ∧
      machine.handed? ⟨program, envs.runtime, true, members⟩ = some context ∧
      (Table.get? context.kwargs "main").any Json.isTruthy = true := by
  intro source members
  have runs : (ofExtensions catalog).toOption.any (fun envs =>
      (envs.compile source).toOption.any fun compiled =>
        compiled.metadata.map (fun entry => (entry.1, entry.2.text)) == [("builder.requests",
          "[\x7b\"main\":true,\"name\":null\x7d,\x7b\"main\":false,\"name\":\"b\"\x7d]")] &&
        (Template.parse envs.compileTime.tags source).toOption.any fun tree =>
          let program := Template.program (tree.revise (Revision.reading envs.asyncFilters))
          (Machine.start.advance ⟨program, envs.runtime, true, members⟩ 10).toOption.any
            fun machine =>
              (machine.handed? ⟨program, envs.runtime, true, members⟩).isSome &&
                tree.requests.head?.any fun request =>
                  request.address == machine.pc &&
                    decide (Flags (request.args.filterMap (Arg.keyword? "main"))
                      [true, false, true])) = true := by
    decide +kernel
  obtain ⟨envs, loads, runs⟩ := exists_ok_of_any runs
  obtain ⟨compiled, compiles, runs⟩ := exists_ok_of_any runs
  obtain ⟨recorded, runs⟩ := Bool.and_eq_true_iff.mp runs
  obtain ⟨tree, parsed, runs⟩ := exists_ok_of_any runs
  obtain ⟨machine, reached, runs⟩ := exists_ok_of_any runs
  obtain ⟨calls, runs⟩ := Bool.and_eq_true_iff.mp runs
  obtain ⟨context, handed⟩ := Option.isSome_iff_exists.mp calls
  obtain ⟨request, first, runs⟩ := (Option.any_eq_true ..).mp runs
  obtain ⟨stands, flags⟩ := Bool.and_eq_true_iff.mp runs
  have short : source.length < 2 ^ 64 := by decide +kernel
  obtain ⟨template, program, read, decoded, -, -, agrees⟩ :=
    main_first_and_last loads List.mem_cons_self (fun _ => builder_of_entry?) short compiles
  obtain ⟨_, parsed', written, -⟩ := decode_compile short compiles
  cases parsed.symm.trans read
  cases parsed.symm.trans parsed'
  cases written.symm.trans decoded
  obtain ⟨-, sees⟩ := agrees request (List.mem_of_mem_head? first) _ (of_decide_eq_true flags)
  obtain ⟨-, seen⟩ := sees true members 10 machine context reached (beq_iff_eq.mp stands).symm handed
  exact ⟨envs, compiled, _, machine, context, loads, compiles, decoded, beq_iff_eq.mp recorded,
    reached, handed, seen⟩

/-- The second request is recorded as the marked one, but what its runner sees does not mark it, and
the first is exported. -/
theorem main_recorded_but_unseen :
    let source := "\x7b% req 'a' %\x7dx\x7b% endreq %\x7d\x7b% req 'b' main=true main=false %\x7dy" ++
      "\x7b% endreq %\x7d"
    ∃ envs compiled program machine context, ofExtensions catalog = .ok envs ∧
      envs.compile source = .ok compiled ∧ Program.decode compiled.code = .ok program ∧
      compiled.metadata.map (fun entry => (entry.1, entry.2.text)) = [("builder.requests",
        "[\x7b\"main\":false,\"name\":\"a\"\x7d,\x7b\"main\":true,\"name\":\"b\"\x7d]")] ∧
      Machine.start.advance ⟨program, envs.runtime, true, []⟩ 9 = .ok machine ∧
      machine.handed? ⟨program, envs.runtime, true, []⟩ = some context ∧
      context.args.map Json.text = ["\"b\""] ∧
      (Table.get? context.kwargs "main").any Json.isTruthy = false ∧
      (Machine.runProgram envs.runtime true 20 program (.object [])).exportedName? = some "a" := by
  intro source
  have runs : (ofExtensions catalog).toOption.any (fun envs =>
      (envs.compile source).toOption.any fun compiled =>
        compiled.metadata.map (fun entry => (entry.1, entry.2.text)) == [("builder.requests",
          "[\x7b\"main\":false,\"name\":\"a\"\x7d,\x7b\"main\":true,\"name\":\"b\"\x7d]")] &&
        (Template.parse envs.compileTime.tags source).toOption.any fun tree =>
          let program := Template.program (tree.revise (Revision.reading envs.asyncFilters))
          (Machine.runProgram envs.runtime true 20 program (.object [])).exportedName? == some "a" &&
            (Machine.start.advance ⟨program, envs.runtime, true, []⟩ 9).toOption.any fun machine =>
              (machine.handed? ⟨program, envs.runtime, true, []⟩).any fun context =>
                context.args.map Json.text == ["\"b\""] &&
                  !(Table.get? context.kwargs "main").any Json.isTruthy) = true := by
    decide +kernel
  obtain ⟨envs, loads, runs⟩ := exists_ok_of_any runs
  obtain ⟨compiled, compiles, runs⟩ := exists_ok_of_any runs
  obtain ⟨recorded, runs⟩ := Bool.and_eq_true_iff.mp runs
  obtain ⟨tree, parsed, runs⟩ := exists_ok_of_any runs
  obtain ⟨exports, runs⟩ := Bool.and_eq_true_iff.mp runs
  obtain ⟨machine, reached, runs⟩ := exists_ok_of_any runs
  obtain ⟨context, handed, runs⟩ := (Option.any_eq_true ..).mp runs
  obtain ⟨named, unseen⟩ := Bool.and_eq_true_iff.mp runs
  have short : source.length < 2 ^ 64 := by decide +kernel
  obtain ⟨_, read, decoded, -⟩ := decode_compile short compiles
  cases parsed.symm.trans read
  exact ⟨envs, compiled, _, machine, context, loads, compiles, decoded, beq_iff_eq.mp recorded,
    reached, handed, beq_iff_eq.mp named, Bool.not_eq_true' _ |>.mp unseen, beq_iff_eq.mp exports⟩

end Environments

end QueryTemplate
