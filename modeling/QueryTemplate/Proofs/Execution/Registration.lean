import QueryTemplate.Proofs.Compilation.Safety
import QueryTemplate.Proofs.Execution.Invalidation

set_option autoImplicit false

/- Where templates change by registration alone, the cache cannot be seen. What is in it, or can
still get there, is what the store holds, and that is the code of the source registered last. -/

namespace QueryTemplate

namespace Service

/-- The step is a registration, of a source whose length has 64 bits, or belongs to an execution
that loads from the store. -/
def Step.Regular : Step → Prop
  | save .. => False
  | invalidate _ => False
  | register _ source => source.length < 2 ^ 64
  | start .. => True
  | load _ reply => reply = .held
  | finish _ => True

end Service

namespace Environments

/-- The source that a step registers under a name, if it compiles. -/
def registered? (envs : Environments) (name : String) : Service.Step → Option String
  | .register other source =>
    if other = name ∧ (envs.compile source).toOption.isSome then some source else none
  | _ => none

/-- The source of the last registration under a name that succeeded. -/
def latest? (envs : Environments) (name : String) (steps : List Service.Step) : Option String :=
  (steps.filterMap (envs.registered? name)).getLast?

/-- What a machine that has never run returns for the template of a source, and `templateNotFound`
where there is none. The program that it runs is the one generated from the source just when each of
its floating-point numbers is read back from its own text. -/
inductive Serves (envs : Environments) (strict : Bool) (fuel : Nat) (name : String) (data : Json) :
    Option String → ExecuteResult → Prop
  | absent : Serves envs strict fuel name data none (.failed (.templateNotFound name))
  | present {source : String} {template : Template} {metadata : Metadata}
      {generated program : Program}
      (analyzed : envs.analyze source = .ok (template, metadata))
      (generates : generate template envs.runtime = .ok generated)
      (read : Program.decode generated.encode = .ok program)
      (exact : program = generated ↔
        ∀ x, .const (.number (.float x)) ∈ generated →
          (Number.float x).reread? = some (.float x)) :
      Serves envs strict fuel name data (some source)
        (Executor.run { runtime := envs.runtime, strict } fuel name data program)

/-- The code of a source that compiles. -/
def code? (envs : Environments) (source : String) : Option String :=
  (envs.compile source).toOption.map (·.code)

variable {envs : Environments} {name : String} {steps : List Service.Step}

@[simp] theorem latest?_singleton (envs : Environments) (name : String) (step : Service.Step) :
    envs.latest? name [step] = envs.registered? name step := by
  cases registers : envs.registered? name step <;> simp [latest?, registers]

theorem latest?_append (envs : Environments) (name : String) (first second : List Service.Step) :
    envs.latest? name (first ++ second) =
      (envs.latest? name second).or (envs.latest? name first) := by
  rw [latest?, List.filterMap_append, List.getLast?_append]
  rfl

@[simp] theorem latest?_start (envs : Environments) (name other : String) (data : Json)
    (steps : List Service.Step) :
    envs.latest? name (.start other data :: steps) = envs.latest? name steps := rfl

theorem latest?_mem {source : String} (last : envs.latest? name steps = some source) :
    .register name source ∈ steps ∧ ∃ compiled, envs.compile source = .ok compiled := by
  obtain ⟨step, within, registers⟩ := List.mem_filterMap.mp (List.mem_of_getLast? last)
  unfold registered? at registers
  split at registers
  next other text =>
    split at registers
    next succeeds =>
      cases registers
      obtain ⟨rfl, compiles⟩ := succeeds
      obtain ⟨compiled, compiles⟩ := Option.isSome_iff_exists.mp compiles
      exact ⟨within, compiled, eq_ok_iff_toOption.mpr compiles⟩
    next => cases registers
  next => cases registers

end Environments

namespace Service

theorem step_register_of_error {service : Service} {name source : String} {error : CompileError}
    (fails : service.engine.envs.compile source = .error error) :
    service.step (.register name source) = service := by
  rw [step, Engine.register_of_error fails]

theorem step_register_of_ok {service : Service} {name source : String} {compiled : Compiled}
    (compiles : service.engine.envs.compile source = .ok compiled) :
    service.step (.register name source) =
      { service with engine := (service.engine.save name compiled).invalidate name } := by
  rw [step, Engine.register_of_ok compiles]

/-- The store answers for a name with the code of a source. -/
def Holds (service : Service) (name : String) (source? : Option String) : Prop :=
  service.engine.store.loader name = .ok (source?.bind service.engine.envs.code?)

theorem Holds.step {service : Service} {name : String} {source? : Option String}
    (holds : service.Holds name source?) {step : Step} (regular : step.Regular) :
    (service.step step).Holds name ((service.engine.envs.registered? name step).or source?) := by
  cases step with
  | save => cases regular
  | invalidate => cases regular
  | register other source =>
      cases compiled : service.engine.envs.compile source with
      | error error =>
          rw [step_register_of_error compiled]
          simpa [Environments.registered?, compiled, Except.toOption] using holds
      | ok result =>
          rw [step_register_of_ok compiled, Holds]
          by_cases same : name = other
          · subst same
            refine (Store.loader_save_self ..).trans ?_
            simp [Environments.registered?, Environments.code?, compiled, Except.toOption,
              Engine.save, Engine.invalidate]
          · refine (Store.loader_save_of_ne _ _ same).trans ?_
            have unrelated : service.engine.envs.registered? name (.register other source) = none :=
              if_neg fun both => same both.1.symm
            rw [unrelated]
            exact holds
  | finish id =>
      rw [Service.step]
      cases service.calls[id]? <;> exact holds
  | _ => exact holds

theorem Holds.run {service : Service} {name : String} {source? : Option String} {steps : List Step}
    (holds : service.Holds name source?) (regular : ∀ step ∈ steps, step.Regular) :
    (service.run steps).Holds name ((service.engine.envs.latest? name steps).or source?) := by
  induction steps using List.reverseRecOn with
  | nil => exact holds
  | append_singleton steps step ih =>
      have before := ih fun step within => regular step (List.mem_append_left _ within)
      have after := before.step (regular step (by simp))
      rw [(service.alike_run steps).envs] at after
      rw [run_append, Environments.latest?_append, Environments.latest?_singleton, Option.or_assoc]
      exact after

/-- The cache, and the answers that may still get into it, agree with the store. -/
structure Coherent (service : Service) : Prop where
  dated : service.Dated
  cached : ∀ name program, service.cache.find? name = some program →
    Loader.programOf name (service.engine.store.loader name) = .ok program
  answered : ∀ call ∈ service.calls, ∀ answer,
    call.phase = .answered (service.cache.generation call.name) answer →
      answer = service.engine.store.loader call.name

/-- No execution that was answered before is in the generation that a registration opens. -/
theorem Coherent.register {service : Service} (coherent : service.Coherent) (name : String)
    (compiled : Compiled) :
    ({ service with engine := (service.engine.save name compiled).invalidate name } :
      Service).Coherent where
  dated := coherent.dated.step (.invalidate name)
  cached := by
    intro other program found
    obtain ⟨different, before⟩ := ProgramCache.find?_invalidate found
    refine Eq.trans ?_ (coherent.cached other program before)
    exact congrArg _ (Store.loader_save_of_ne _ _ different)
  answered := by
    intro call within answer phase
    change call.phase = .answered ((service.cache.invalidate name).generation call.name) _ at phase
    by_cases same : call.name = name
    · have begun := coherent.dated call within _ (by rw [phase]; rfl)
      rw [← same, ProgramCache.generation_invalidate_self] at begun
      omega
    · rw [ProgramCache.generation_invalidate_of_ne _ same] at phase
      refine (coherent.answered call within answer phase).trans ?_
      exact (Store.loader_save_of_ne _ _ same).symm

/-- A program is taken in from an answer of the current generation. -/
theorem Coherent.step {service : Service} (coherent : service.Coherent) {step : Step}
    (regular : step.Regular) : (service.step step).Coherent := by
  by_cases registers : ∃ name source, step = .register name source
  · obtain ⟨name, source, rfl⟩ := registers
    cases compiled : service.engine.envs.compile source with
    | error error => rwa [step_register_of_error compiled]
    | ok result =>
        rw [step_register_of_ok compiled]
        exact coherent.register name result
  · have kept : (service.step step).engine.store = service.engine.store := by
      cases step with
      | save => cases regular
      | register name source => exact absurd ⟨name, source, rfl⟩ registers
      | finish id =>
          rw [Service.step]
          cases service.calls[id]? <;> rfl
      | _ => rfl
    refine ⟨coherent.dated.step step, ?_, ?_⟩
    · intro name program found
      rw [kept]
      rcases service.cache_step step with same | ⟨other, same⟩ |
        ⟨call, within, generation, code, accepted, phase, decoded, same⟩
      · exact coherent.cached name program (same ▸ found)
      · rw [same] at found
        exact coherent.cached name program (ProgramCache.find?_invalidate found).2
      · rw [same] at found
        rcases ProgramCache.find?_accept found with found | ⟨rfl, rfl, rfl⟩
        · exact coherent.cached name program found
        · rw [← coherent.answered call within _ phase]
          exact Loader.programOf_eq_ok.mpr ⟨code, rfl, decoded⟩
    · intro call within answer phase
      rw [kept]
      rcases answered_step within phase with old | ⟨id, reply, rfl, rfl⟩
      · have begun := coherent.dated call old _ (by rw [phase]; rfl)
        have current := Nat.le_antisymm begun (service.generation_le_step step call.name)
        exact coherent.answered call old answer (current ▸ phase)
      · rw [show reply = .held from regular]
        rfl

theorem Coherent.run {service : Service} (coherent : service.Coherent) {steps : List Step}
    (regular : ∀ step ∈ steps, step.Regular) : (service.run steps).Coherent := by
  induction steps generalizing service with
  | nil => exact coherent
  | cons step steps ih =>
      have first := coherent.step (regular step List.mem_cons_self)
      exact ih first fun step within => regular step (List.mem_cons_of_mem _ within)

end Service

namespace Environments

variable {envs : Environments} {source? : Option String}

/-- The answer of a store that holds the code of a source is served as that source. -/
theorem serves_runLoaded
    (compiles : ∀ source, source? = some source →
      source.length < 2 ^ 64 ∧ ∃ compiled, envs.compile source = .ok compiled)
    (strict : Bool) (fuel : Nat) (name : String) (data : Json) :
    envs.Serves strict fuel name data source?
      (Executor.runLoaded { runtime := envs.runtime, strict } fuel name data
        (.ok (source?.bind envs.code?))) := by
  cases source? with
  | none => exact .absent
  | some source =>
      obtain ⟨short, compiled, compiles⟩ := compiles source rfl
      obtain ⟨template, analyzed, generates, written⟩ := compile_eq_ok compiles
      obtain ⟨tree, -, decoded, -⟩ := decode_compile short compiles
      generalize Template.program (Template.revise _ tree) = program at decoded
      have code : envs.code? source = some compiled.code := by
        simp [code?, compiles, Except.toOption]
      rw [Option.bind_some, code, Executor.runLoaded, Loader.programOf, decoded]
      rw [written] at decoded
      refine .present analyzed generates decoded ?_
      rw [← decode_compiled analyzed short, decoded]
      exact ⟨fun same => same ▸ rfl, fun same => Except.ok.inj same⟩

end Environments

theorem Engine.build_eq_ok {extensions : List Extension} {strict : Bool} {engine : Engine}
    (built : build extensions strict = .ok engine) :
    engine = { envs := engine.envs, executor := { runtime := engine.envs.runtime, strict } } := by
  unfold build at built
  split at built <;> cases built
  rfl

namespace Service

variable {extensions : List Extension} {strict : Bool} {engine : Engine} {steps : List Step}

/-- An answer of the store at an instant is the code of the source registered last. -/
theorem serves_held (built : Engine.build extensions strict = .ok engine)
    (regular : ∀ step ∈ steps, step.Regular) (fuel : Nat) (name : String) (data : Json) :
    engine.envs.Serves strict fuel name data (engine.envs.latest? name steps)
      (engine.executor.runLoaded fuel name data
        (((⟨engine, []⟩ : Service).run steps).engine.store.loader name)) := by
  have initial : (⟨engine, []⟩ : Service).Holds name none := by
    rw [Engine.build_eq_ok built]
    rfl
  have holds := initial.run regular
  rw [Holds, ((⟨engine, []⟩ : Service).alike_run steps).envs, Option.or_none] at holds
  rw [holds, Engine.build_eq_ok built]
  refine Environments.serves_runLoaded (fun source last => ?_) ..
  obtain ⟨within, compiles⟩ := Environments.latest?_mem last
  exact ⟨regular _ within, compiles⟩

theorem coherent_run (built : Engine.build extensions strict = .ok engine)
    (regular : ∀ step ∈ steps, step.Regular) : ((⟨engine, []⟩ : Service).run steps).Coherent := by
  have initial : (⟨engine, []⟩ : Service).Coherent := by
    refine ⟨fun _ within => (nomatch within), ?_, fun _ within => (nomatch within)⟩
    intro name program found
    rw [Engine.build_eq_ok built] at found
    cases found
  exact initial.run regular

variable {before during : List Step} {name : String} {data : Json} {fuel : Nat}
  {result : ExecuteResult}

theorem serves_returned (built : Engine.build extensions strict = .ok engine)
    (regular : ∀ step ∈ before ++ during, step.Regular)
    (returned : (((⟨engine, []⟩ : Service).run before).run (.start name data :: during)).result?
      fuel ((⟨engine, []⟩ : Service).run before).calls.length = some result) :
    ∃ early late, during = early ++ late ∧
      engine.envs.Serves strict fuel name data (engine.envs.latest? name (before ++ early))
        result := by
  have regularBefore : ∀ step ∈ before, step.Regular :=
    fun step within => regular step (List.mem_append_left _ within)
  have same := ((⟨engine, []⟩ : Service).alike_run before).run
  rcases result_course _ name data during returned with ⟨program, found, rfl⟩ |
    ⟨reply, early, late, rfl, rfl⟩
  · have held := serves_held built regularBefore fuel name data
    have reads := (coherent_run built regularBefore).cached name program found
    rw [Executor.runLoaded, reads] at held
    rw [same]
    exact ⟨[], during, rfl, by rwa [List.append_nil]⟩
  · have loads : reply = .held :=
      regular _ (List.mem_append_right _ (List.mem_append_right _ List.mem_cons_self))
    have regularEarly : ∀ step ∈ before ++ .start name data :: early, step.Regular := by
      intro step within
      rcases List.mem_append.mp within with within | within
      · exact regularBefore step within
      · rcases List.mem_cons.mp within with rfl | within
        · trivial
        · exact regular step (List.mem_append_right _ (List.mem_append_left _ within))
    have held := serves_held built regularEarly fuel name data
    rw [Environments.latest?_append, Environments.latest?_start,
      ← Environments.latest?_append, run_append] at held
    refine ⟨early, _, rfl, ?_⟩
    rw [loads, Executor.runLoaded, same]
    exact held

theorem serves_undisturbed (built : Engine.build extensions strict = .ok engine)
    (regular : ∀ step ∈ before ++ during, step.Regular)
    (undisturbed : engine.envs.latest? name during = none)
    (returned : (((⟨engine, []⟩ : Service).run before).run (.start name data :: during)).result?
      fuel ((⟨engine, []⟩ : Service).run before).calls.length = some result) :
    engine.envs.Serves strict fuel name data (engine.envs.latest? name before) result := by
  obtain ⟨early, late, rfl, served⟩ := serves_returned built regular returned
  rw [Environments.latest?_append, Option.or_eq_none_iff] at undisturbed
  rwa [Environments.latest?_append, undisturbed.2, Option.none_or] at served

/-- An execution returns what a fresh machine returns for the source that was registered last under
its name at an instant of the execution. That is the source registered last before it where no
registration of the name falls into it, and so it is where nothing else happens between its steps. A
registration that fails changes nothing. -/
theorem execute_latest (built : Engine.build extensions strict = .ok engine)
    (before during : List Step) (regular : ∀ step ∈ before ++ during, step.Regular)
    (name : String) (data : Json) (fuel : Nat) :
    let service := (⟨engine, []⟩ : Service).run before
    let id := service.calls.length
    let returned := (service.run (.start name data :: during)).result? fuel id
    (∀ result, returned = some result →
      (∃ early late, during = early ++ late ∧
        engine.envs.Serves strict fuel name data (engine.envs.latest? name (before ++ early))
          result) ∧
      (engine.envs.latest? name during = none →
        engine.envs.Serves strict fuel name data (engine.envs.latest? name before) result)) ∧
    (∀ reply, .load id reply ∈ during → .finish id ∉ during → ∃ result, returned = some result) ∧
    engine.envs.Serves strict fuel name data (engine.envs.latest? name before)
      (service.engine.execute fuel name data).1 ∧
    ∀ other source error, engine.envs.compile source = .error error →
      service.step (.register other source) = service := by
  intro service id returned
  refine ⟨fun result given => ⟨serves_returned built regular given, fun undisturbed =>
    serves_undisturbed built regular undisturbed given⟩, ?_, ?_, ?_⟩
  · exact fun reply loads unfinished => returns_run service name data fuel loads unfinished
  · have alone := (service.run_execute name data fuel).1
    refine serves_undisturbed built (fun step within => ?_) rfl alone
    rcases List.mem_append.mp within with within | last
    · exact regular step (List.mem_append_left _ within)
    · rw [List.mem_singleton.mp last]
      rfl
  · intro other source error fails
    rw [← ((⟨engine, []⟩ : Service).alike_run before).envs] at fails
    exact step_register_of_error fails

/-- The first execution still holds the first source when the second one starts. -/
theorem execute_latest_overlapping :
    let engine : Engine := { envs := {}, executor := { runtime := {}, strict := false } }
    let before : List Step :=
      [.register "q" "SELECT 1", .start "q" (.object []), .load 0 .held, .register "q" "SELECT 2",
        .register "q" "\x7b\x7b"]
    let during : List Step := [.finish 0, .load 1 .held]
    let service := (⟨engine, []⟩ : Service).run before
    Engine.build [] false = .ok engine ∧ (∀ step ∈ before ++ during, step.Regular) ∧
      (∃ result, (service.run (.start "q" (.object []) :: during)).result? 2 1 = some result ∧
        engine.envs.Serves false 2 "q" (.object []) (some "SELECT 2") result) ∧
      engine.envs.Serves false 2 "q" (.object []) (some "SELECT 2")
        (service.engine.execute 2 "q" (.object [])).1 := by
  intro engine before during service
  have built : Engine.build [] false = .ok engine := rfl
  have regular : ∀ step ∈ before ++ during, step.Regular := by
    simp only [before, during, List.cons_append, List.nil_append, List.forall_mem_cons,
      List.not_mem_nil, false_implies, implies_true, and_true, Step.Regular, true_and]
    decide
  have latest : engine.envs.latest? "q" before = some "SELECT 2" := by decide +kernel
  obtain ⟨serves, returns, alone, -⟩ :=
    execute_latest built before during regular "q" (.object []) 2
  have placed : ((⟨engine, []⟩ : Service).run before).calls.length = 1 := by decide +kernel
  rw [latest] at alone
  rw [placed] at returns serves
  obtain ⟨result, returned⟩ := returns .held (by simp [during]) (by simp [during])
  have served := (serves result returned).2 rfl
  rw [latest] at served
  exact ⟨built, regular, ⟨result, returned, served⟩, alone⟩

end Service

/-- The number that a program binds, where that is all that it does. -/
def Program.boundFloat? : Program → Option Binary64
  | [.const (.number (.float x)), .emit, .deliver] => some x
  | _ => none

theorem Program.eq_of_boundFloat? {program : Program} {x : Binary64}
    (single : program.boundFloat? = some x) :
    program = [.const (.number (.float x)), .emit, .deliver] := by
  unfold boundFloat? at single
  split at single <;> cases single
  rfl

/-- A program that binds one number is read as a program that binds what the text of the number is
read as. -/
theorem Program.decode_float {x y : Binary64} (read : (Number.float x).reread? = some (.float y)) :
    decode (encode [.const (.number (.float x)), .emit, .deliver]) =
      .ok [.const (.number (.float y)), .emit, .deliver] := by
  have addressed : Addressed [.const (.number (.float x)), .emit, .deliver] :=
    ⟨by simp [Instr.Fits, Instr.counts], by simp [Instr.target?]⟩
  have constant : (Instr.const (.number (.float x))).reread? =
      some (.const (.number (.float y))) := by
    simp only [Instr.reread?, Json.ofText?_print, Json.document, Json.Document.toJson?, read,
      Option.map_some]
  exact decode_of_rereads addressed (.cons constant (.cons rfl (.cons rfl .nil)))

/-- The text of a number is read as its neighbour, and that is what an execution binds. -/
theorem Service.execute_drifts :
    let source := "\x7b\x7b 9.301078817733611 \x7d\x7d"
    let engine : Engine := { envs := {}, executor := { runtime := {}, strict := false } }
    let registered := (engine.register "q" source).2
    Engine.build [] false = .ok engine ∧
      engine.envs.latest? "q" [.register "q" source] = some source ∧
      ∃ template metadata generated, engine.envs.analyze source = .ok (template, metadata) ∧
        generate template engine.envs.runtime = .ok generated ∧
        (registered.execute 3 "q" (.object [])).1 ≠
          Executor.run { runtime := {}, strict := false } 3 "q" (.object []) generated := by
  intro source engine registered
  let x : Binary64 := ⟨false, 4621425659941969488, by decide⟩
  let neighbour : Binary64 := ⟨false, 4621425659941969489, by decide⟩
  let writes (y : Binary64) : Program := [.const (.number (.float y)), .emit, .deliver]
  have generatesOne : (engine.envs.analyze source).toOption.any (fun analysis =>
      (generate analysis.1 {}).toOption.any fun generated =>
        decide (Program.boundFloat? generated = some x)) = true := by decide +kernel
  obtain ⟨⟨template, metadata⟩, analyzed, single⟩ := (Option.any_eq_true ..).mp generatesOne
  obtain ⟨generated, generates, single⟩ := (Option.any_eq_true ..).mp single
  have analyzed := eq_ok_iff_toOption.mpr analyzed
  have generates : generate template {} = .ok (writes x) := by
    rw [eq_ok_iff_toOption, generates, Program.eq_of_boundFloat? (of_decide_eq_true single)]
  have compiles : engine.envs.compile source = .ok ⟨(writes x).encode, metadata⟩ := by
    rw [Environments.compile, analyzed]
    simp only [engine, generates]
  have drifts : (Number.float x).reread? = some (.float neighbour) := by decide +kernel
  have decoded : Program.decode (writes x).encode = .ok (writes neighbour) :=
    Program.decode_float drifts
  have executed : (registered.execute 3 "q" (.object [])).1 =
      Executor.run { runtime := {}, strict := false } 3 "q" (.object []) (writes neighbour) := by
    have saved : registered = (engine.save "q" ⟨(writes x).encode, metadata⟩).invalidate "q" :=
      Engine.register_of_ok compiles
    have absent : registered.executor.lookup "q" = .absent 1 := by
      rw [saved]
      rfl
    have held : registered.store.loader "q" = .ok (some (writes x).encode) := by
      rw [saved]
      exact Store.loader_save_self ..
    rw [Engine.execute, Executor.execute, absent, held]
    simp only [Executor.runLoaded, Loader.programOf, decoded]
    rw [saved]
    rfl
  refine ⟨rfl, ?_, template, metadata, writes x, analyzed, generates, ?_⟩
  · simp [Environments.latest?, Environments.registered?, compiles, Except.toOption]
  · rw [executed]
    intro same
    have delivers (y : Binary64) :
        Executor.run { runtime := {}, strict := false } 3 "q" (.object []) (writes y) =
          .delivered (Builder.empty.bind (.number (.float y))) := rfl
    rw [delivers, delivers] at same
    simp [Builder.bind, Builder.Raw.bind, Builder.Raw.addParameters, x, neighbour] at same

end QueryTemplate
