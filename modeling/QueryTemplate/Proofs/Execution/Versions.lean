import QueryTemplate.Proofs.Execution.Lineages

set_option autoImplicit false

/- Which version of a template executions return, where a registration saves the code and
invalidates the name in two steps. An execution that starts after another one has returned may
compute from an older version, but only while the registrations of all newer versions up to that of
the other one have yet to invalidate the name. -/

namespace QueryTemplate

namespace Service

/-- A source without tags, under no extensions, as the code of one piece of text. -/
theorem exists_compile_text (source : String)
    (compiles : (Environments.compile {} source).toOption.map (·.code) =
      some (Program.encode [.text source, .deliver])) :
    ∃ compiled, Environments.compile {} source = .ok compiled ∧
      Loader.programOf "q" (.ok (some compiled.code)) = .ok [.text source, .deliver] := by
  obtain ⟨compiled, given, code⟩ := Option.map_eq_some_iff.mp compiles
  refine ⟨compiled, eq_ok_iff_toOption.mpr given, ?_⟩
  have addressed : Program.Addressed [.text source, .deliver] :=
    ⟨by simp [Instr.Fits, Instr.counts], by simp [Instr.target?]⟩
  have decoded := (Program.decode_encode addressed).mpr fun value within => by simp at within
  rw [Loader.programOf, code, decoded]

/-- An execution whose answer holds a program puts it into the cache, in the generation in which it
asked. -/
theorem finish_of_ok {service : Service} {id : Nat} {call : Call} {generation : Nat}
    {answer : Except StoreError (Option String)} {program : Program}
    (found : service.calls[id]? = some call) (phase : call.phase = .answered generation answer)
    (reads : Loader.programOf call.name answer = .ok program) :
    service.step (.finish id) =
      { engine := { service.engine with
          executor := { service.engine.executor with
            cache := service.cache.accept call.name generation program } }
        calls := service.calls.set id { call with phase := .ended } } := by
  have settled : call.settle service.engine.executor = { service.engine.executor with
      cache := service.cache.accept call.name generation program } := by
    rw [Call.settle, phase]
    exact Executor.absorb_of_ok reads
  have ended : call.finish = { call with phase := .ended } := by rw [Call.finish, phase]
  rw [step, found]
  simp only [settled, ended]

theorem Lineage.finish_of_ok {service : Service} {lineage : Lineage} {name : String} {id : Nat}
    {call : Call} {generation : Nat} {answer : Except StoreError (Option String)}
    {program : Program} (found : service.calls[id]? = some call) (named : call.name = name)
    (phase : call.phase = .answered generation answer)
    (reads : Loader.programOf name answer = .ok program)
    (current : service.cache.generation name = generation) :
    lineage.step name service (.finish id) =
      { lineage with cached := (lineage.version? id).getD lineage.cached } := by
  subst named
  have keeps : call.keeps service.engine.executor = true := by
    rw [Call.keeps, phase]
    simpa [reads, Except.toOption, Service.cache] using current
  simp [Lineage.step, found, keeps]

/-- Two executions load the template on either side of the save of its second version, whose
registration has yet to invalidate the name. -/
def overlap (one two : Compiled) : List Step :=
  [.save "q" one, .invalidate "q", .start "q" (.object []), .load 0 .held, .save "q" two,
    .start "q" (.object []), .load 1 .held]

/-- The execution with the first version ends last, and its program stays in the cache. -/
theorem overlap_results {one two : Compiled}
    (readsOne : Loader.programOf "q" (.ok (some one.code)) = .ok [.text "SELECT 1", .deliver])
    (readsTwo : Loader.programOf "q" (.ok (some two.code)) = .ok [.text "SELECT 2", .deliver]) :
    let initial : Service := ⟨{ envs := {}, executor := { runtime := {}, strict := false } }, []⟩
    let lineage := Lineage.run "q" initial {}
    let steps := overlap one two ++ [.finish 1, .finish 0, .start "q" (.object [])]
    ((initial.run (overlap one two)).result? 2 1 =
        some (.delivered { statement := "SELECT 2".toList }) ∧
      (lineage (overlap one two)).version? 1 = some 2) ∧
    (initial.run steps).result? 2 2 = some (.delivered { statement := "SELECT 1".toList }) ∧
      (lineage steps).version? 2 = some 1 := by
  intro initial lineage steps
  let renewed : Engine := ((initial.engine.save "q" one).invalidate "q").save "q" two
  let cached (text : String) : Engine :=
    { renewed with
      executor := { renewed.executor with cache := ⟨[("q", [.text text, .deliver])], [("q", 1)]⟩ } }
  let waiting (code : String) : Call := ⟨"q", .object [], .answered 1 (.ok (some code))⟩
  let ended : Call := ⟨"q", .object [], .ended⟩
  have held : renewed.store.loader "q" = .ok (some two.code) := Store.loader_save_self ..
  have loaded : initial.run (overlap one two) = ⟨renewed, [waiting one.code,
      ⟨"q", .object [], .answered 1 (renewed.store.loader "q")⟩]⟩ := rfl
  rw [held] at loaded
  have second : (⟨renewed, [waiting one.code, waiting two.code]⟩ : Service).step (.finish 1) =
      ⟨cached "SELECT 2", [waiting one.code, ended]⟩ := by
    rw [finish_of_ok rfl rfl readsTwo]
    rfl
  have last : (⟨cached "SELECT 2", [waiting one.code, ended]⟩ : Service).step (.finish 0) =
      ⟨cached "SELECT 1", [ended, ended]⟩ := by
    rw [finish_of_ok rfl rfl readsOne]
    simp [cache, cached, ProgramCache.accept, ProgramCache.generation, Table.get?, Table.insert,
      ended, waiting]
  have traced : lineage (overlap one two) = ⟨2, 1, 0, [some 1, some 2]⟩ := rfl
  refine ⟨⟨?_, by rw [traced]; rfl⟩, ?_, ?_⟩
  · rw [loaded]
    change some (Executor.runLoaded ..) = _
    rw [Executor.runLoaded, readsTwo]
    rfl
  · rw [run_append, loaded, run_cons, run_cons, second, last]
    rfl
  · change Lineage.version? (Lineage.run ..) 2 = _
    rw [Lineage.run_append]
    change Lineage.version? (Lineage.run _ _ (lineage (overlap one two)) _) 2 = _
    have keepsSecond : Lineage.step "q" ⟨renewed, [waiting one.code, waiting two.code]⟩
        ⟨2, 1, 0, [some 1, some 2]⟩ (.finish 1) = ⟨2, 1, 2, [some 1, some 2]⟩ :=
      Lineage.finish_of_ok rfl rfl rfl readsTwo rfl
    have keepsFirst : Lineage.step "q" ⟨cached "SELECT 2", [waiting one.code, ended]⟩
        ⟨2, 1, 2, [some 1, some 2]⟩ (.finish 0) = ⟨2, 1, 1, [some 1, some 2]⟩ :=
      Lineage.finish_of_ok rfl rfl rfl readsOne rfl
    rw [traced, loaded, Lineage.run, keepsSecond, second, Lineage.run, keepsFirst, last]
    rfl

/-- An execution of the template has a result to return. -/
def Returns (service : Service) (name : String) (id : Nat) : Prop :=
  ∃ call, service.calls[id]? = some call ∧ call.name = name ∧
    ∃ fuel result, call.result? service.engine.executor fuel = some result

theorem exists_save_of_le {name : String} {steps : List Step} {version : Nat}
    (positive : 0 < version) (known : version ≤ (versions name steps).length) :
    ∃ early compiled late, steps = early ++ .save name compiled :: late ∧
      (versions name early).length + 1 = version := by
  induction steps using List.reverseRecOn with
  | nil =>
      simp only [versions, List.filterMap_nil, List.length_nil] at known
      omega
  | append_singleton steps step ih =>
      by_cases before : version ≤ (versions name steps).length
      · obtain ⟨early, compiled, late, rfl, number⟩ := ih before
        exact ⟨early, compiled, late ++ [step], by simp, number⟩
      · rw [versions_append, versions_singleton, List.length_append] at known
        cases saves : saved? name step with
        | none =>
            rw [saves] at known
            exact absurd known before
        | some code =>
            unfold saved? at saves
            split at saves
            next other compiled =>
              split at saves
              next same =>
                subst same
                refine ⟨steps, compiled, [], rfl, ?_⟩
                simp only [saved?, if_true, Option.toList_some, List.length_singleton] at known
                omega
              next => cases saves
            next => cases saves

/-- What an execution has returned was computed from a version that had been saved. -/
theorem Lineage.Tells.le_of_returns {name : String} {lineage : Lineage} {codes : List String}
    {service : Service} (tells : lineage.Tells name codes service) {id version : Nat}
    (returned : service.Returns name id) (origin : lineage.version? id = some version) :
    version ≤ codes.length := by
  obtain ⟨call, listed, named, fuel, result, given⟩ := returned
  have known := tells.result listed named given
  rw [origin] at known
  exact known.1

/-- A registration that has saved and then invalidated has renewed its version. -/
theorem Lineage.Tells.renewed_of_registered {name : String} {lineage : Lineage} {service : Service}
    (tells : lineage.Tells name [] service) {early late : List Step} {compiled : Compiled}
    (halved : ∀ step ∈ early ++ .save name compiled :: late, step.Halved)
    (within : .invalidate name ∈ late) :
    (versions name early).length + 1 ≤
      (lineage.run name service (early ++ .save name compiled :: late)).renewed := by
  obtain ⟨middle, last, rfl⟩ := List.append_of_mem within
  have arranged : early ++ .save name compiled :: (middle ++ .invalidate name :: last) =
      (early ++ .save name compiled :: middle) ++ .invalidate name :: last := by simp
  have renewed := tells.renewed_of_invalidate (arranged ▸ halved)
  rw [← arranged, versions_append, List.length_append, List.length_nil] at renewed
  have counted : 0 < (versions name (.save name compiled :: middle)).length := by
    simp [versions, saved?]
  omega

/-- An execution computes from a version of the template, or its load failed. Where the version is
older than that of an execution that returned before its start, the registrations of all versions
in between, up to that of the other execution, have yet to invalidate the name at the start. -/
theorem older_while_pending {extensions : List Extension} {strict : Bool} {engine : Engine}
    (built : Engine.build extensions strict = .ok engine) (before during : List Step)
    (halved : ∀ step ∈ before ++ during, step.Halved) (name : String) (data : Json) (fuel : Nat) :
    let initial : Service := ⟨engine, []⟩
    let lineage := Lineage.run name initial {}
    let id := (initial.run before).calls.length
    let steps := before ++ .start name data :: during
    ∀ result, (initial.run steps).result? fuel id = some result →
      ((lineage steps).version? id = none → ∃ error, result = .failed error) ∧
      ∀ version, (lineage steps).version? id = some version →
        result = engine.executor.runLoaded fuel name data
          (.ok (versionCode? (versions name steps) version)) ∧
        ∀ first other rest earlier, before = first ++ .finish other :: rest →
          (initial.run first).Returns name other → (lineage first).version? other = some earlier →
            ∀ missed, version < missed → missed ≤ earlier →
              ∃ early compiled late, before = early ++ .save name compiled :: late ∧
                (versions name early).length + 1 = missed ∧ .invalidate name ∉ late := by
  intro initial lineage id steps result returned
  have halvedBefore : ∀ step ∈ before, step.Halved :=
    fun step within => halved step (List.mem_append_left _ within)
  have halvedSince : ∀ step ∈ .start name data :: during, step.Halved := by
    intro step within
    rcases List.mem_cons.mp within with rfl | within
    · trivial
    · exact halved step (List.mem_append_right _ within)
  have tells : Lineage.Tells {} name [] initial := .initial built name
  have tellsBefore := tells.run halvedBefore
  have tellsSince := tellsBefore.run halvedSince
  have above := tellsBefore.above.run tellsBefore halvedSince
  have lineageSteps : lineage steps = (lineage before).run name (initial.run before)
      (.start name data :: during) := Lineage.run_append ..
  rw [List.nil_append, ← versions_append, ← run_append, ← lineageSteps] at tellsSince
  rw [← lineageSteps] at above
  obtain ⟨call, listed, course⟩ := (initial.run before).course_run name data during
  rw [← run_append] at listed
  change (initial.run steps).calls[id]? = some call at listed
  have named : call.name = name ∧ call.data = data := by cases course <;> exact ⟨rfl, rfl⟩
  rw [result?, listed] at returned
  have computed := tellsSince.result listed named.1 returned
  refine ⟨fun absent => by simpa only [absent] using computed, fun version given => ?_⟩
  simp only [given, named.2] at computed
  refine ⟨?_, fun first other rest earlier split finished origin missed older upto => ?_⟩
  · rw [computed.2, Executor.runLoaded, Executor.runLoaded, (initial.alike_run steps).run]
  · have halvedFirst : ∀ step ∈ first, step.Halved := fun step within =>
      halvedBefore step (split ▸ List.mem_append_left _ within)
    have known := (tells.run halvedFirst).le_of_returns finished origin
    have saved : missed ≤ (versions name before).length := by
      rw [split, versions_append, List.length_append]
      exact Nat.le_trans (Nat.le_trans upto known) (Nat.le_add_right ..)
    obtain ⟨early, compiled, late, parted, number⟩ :=
      exists_save_of_le (Nat.zero_lt_of_lt older) saved
    refine ⟨early, compiled, late, parted, number, fun within => ?_⟩
    -- The invalidation would have renewed the version, and no later execution is below that.
    have renewed := tells.renewed_of_registered (parted ▸ halvedBefore) within
    rw [← parted, number] at renewed
    have floor := above.calls id version (Nat.le_refl _) given
    change (lineage before).renewed ≤ _ at floor
    change _ ≤ (lineage before).renewed at renewed
    omega

/-- The first version is returned after the second one, whose registration is pending. -/
theorem older_while_pending_overlapping :
    let engine : Engine := { envs := {}, executor := { runtime := {}, strict := false } }
    let initial : Service := ⟨engine, []⟩
    let result := ExecuteResult.delivered { statement := "SELECT 1".toList }
    Engine.build [] false = .ok engine ∧
      ∃ one two, engine.envs.compile "SELECT 1" = .ok one ∧
        engine.envs.compile "SELECT 2" = .ok two ∧
        let before := overlap one two ++ [.finish 1, .finish 0]
        let steps := before ++ [.start "q" (.object [])]
        (∀ step ∈ before ++ [], step.Halved) ∧ (initial.run steps).result? 2 2 = some result ∧
          result = engine.executor.runLoaded 2 "q" (.object [])
            (.ok (versionCode? (versions "q" steps) 1)) ∧
          ∃ early compiled late, before = early ++ .save "q" compiled :: late ∧
            (versions "q" early).length + 1 = 2 ∧ .invalidate "q" ∉ late := by
  intro engine initial result
  obtain ⟨one, compilesOne, readsOne⟩ := exists_compile_text "SELECT 1" (by decide +kernel)
  obtain ⟨two, compilesTwo, readsTwo⟩ := exists_compile_text "SELECT 2" (by decide +kernel)
  refine ⟨rfl, one, two, compilesOne, compilesTwo, ?_⟩
  intro before steps
  obtain ⟨⟨returnedTwo, versionTwo⟩, returnedOne, versionOne⟩ := overlap_results readsOne readsTwo
  have halved : ∀ step ∈ before ++ [], step.Halved := by
    simp [before, overlap, Step.Halved]
  have built : Engine.build [] false = .ok engine := rfl
  obtain ⟨-, computed⟩ := older_while_pending built before [] halved "q" (.object []) 2 result
    returnedOne
  obtain ⟨computes, pending⟩ := computed 1 versionOne
  refine ⟨halved, returnedOne, computes, ?_⟩
  have returns : (initial.run (overlap one two)).Returns "q" 1 := ⟨_, rfl, rfl, 2, _, returnedTwo⟩
  exact pending (overlap one two) 1 [.finish 0] 2 rfl returns versionTwo 2 (by decide) (by decide)

/-- An execution that starts after the second version was returned computes from the first one. -/
theorem version_regresses :
    let engine : Engine := { envs := {}, executor := { runtime := {}, strict := false } }
    let initial : Service := ⟨engine, []⟩
    let lineage := Lineage.run "q" initial {}
    Engine.build [] false = .ok engine ∧
      ∃ one two, engine.envs.compile "SELECT 1" = .ok one ∧
        engine.envs.compile "SELECT 2" = .ok two ∧
        let steps := overlap one two ++ [.finish 1, .finish 0, .start "q" (.object [])]
        ((initial.run (overlap one two)).result? 2 1 =
            some (.delivered { statement := "SELECT 2".toList }) ∧
          (lineage (overlap one two)).version? 1 = some 2) ∧
        (initial.run steps).result? 2 2 =
            some (.delivered { statement := "SELECT 1".toList }) ∧
          (lineage steps).version? 2 = some 1 := by
  intro engine initial lineage
  obtain ⟨one, compilesOne, readsOne⟩ := exists_compile_text "SELECT 1" (by decide +kernel)
  obtain ⟨two, compilesTwo, readsTwo⟩ := exists_compile_text "SELECT 2" (by decide +kernel)
  exact ⟨rfl, one, two, compilesOne, compilesTwo, overlap_results readsOne readsTwo⟩

end Service

end QueryTemplate
