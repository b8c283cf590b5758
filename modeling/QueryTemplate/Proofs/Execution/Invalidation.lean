import QueryTemplate.Proofs.Compilation.RoundTrip
import QueryTemplate.Proofs.Execution.Interleaving

set_option autoImplicit false

/- No invalidation is lost. A program in the cache comes from code that the store held since the
last invalidation of its name, whatever loads were under way at the time. -/

namespace QueryTemplate

theorem Loader.programOf_eq_ok {name : String} {answer : Except StoreError (Option String)}
    {program : Program} :
    programOf name answer = .ok program ↔
      ∃ code, answer = .ok (some code) ∧ Program.decode code = .ok program := by
  rcases answer with error | (_ | code)
  · simp [programOf]
  · simp [programOf]
  · cases decoded : Program.decode code <;> simp [programOf, decoded]

/-- A loader that gives code gives what the store holds. -/
theorem Reply.held_of_answer {reply : Reply} {store : Store} {name code : String}
    (given : reply.answer store name = .ok (some code)) : store.loader name = .ok (some code) := by
  cases reply with
  | held => exact given
  | missing => cases given
  | failed error => cases given

namespace Executor

theorem absorb_of_error {executor : Executor} {name : String} {generation : Nat}
    {answer : Except StoreError (Option String)} {error : ExecuteError}
    (fails : Loader.programOf name answer = .error error) :
    executor.absorb name generation answer = executor := by
  rw [absorb, fails]

theorem absorb_of_ok {executor : Executor} {name : String} {generation : Nat}
    {answer : Except StoreError (Option String)} {program : Program}
    (reads : Loader.programOf name answer = .ok program) :
    executor.absorb name generation answer =
      { executor with cache := executor.cache.accept name generation program } := by
  rw [absorb, reads]

end Executor

/-- What a cache takes in was found in the generation that is current. -/
theorem ProgramCache.find?_accept {cache : ProgramCache} {name other : String} {generation : Nat}
    {program found : Program}
    (cached : (cache.accept name generation program).find? other = some found) :
    cache.find? other = some found ∨
      other = name ∧ generation = cache.generation name ∧ found = program := by
  by_cases same : other = name
  · subst same
    by_cases current : cache.generation other = generation
    · subst current
      rw [find?_accept_self] at cached
      exact Or.inr ⟨rfl, rfl, (Option.some.inj cached).symm⟩
    · rw [accept, if_neg current] at cached
      exact Or.inl cached
  · rw [find?_accept_of_ne _ _ _ same] at cached
    exact Or.inl cached

theorem ProgramCache.generation_le_invalidate (cache : ProgramCache) (name other : String) :
    cache.generation other ≤ (cache.invalidate name).generation other := by
  by_cases same : other = name
  · subst same
    rw [generation_invalidate_self]
    exact Nat.le_succ _
  · exact Nat.le_of_eq (generation_invalidate_of_ne _ same).symm

theorem ProgramCache.find?_invalidate {cache : ProgramCache} {name other : String}
    {program : Program} (cached : (cache.invalidate name).find? other = some program) :
    other ≠ name ∧ cache.find? other = some program := by
  have different : other ≠ name := by
    rintro rfl
    rw [find?_invalidate_self] at cached
    cases cached
  rw [find?_invalidate_of_ne _ different] at cached
  exact ⟨different, cached⟩

namespace Service

/-- An execution after a step is one from before, has just been started, or was answered or ended by
the step. -/
theorem mem_calls_step {service : Service} {step : Step} {call : Call}
    (within : call ∈ (service.step step).calls) :
    call ∈ service.calls ∨
      (∃ name data, step = .start name data ∧
        call = ⟨name, data, .looked (service.engine.executor.lookup name)⟩) ∨
      (∃ id reply, step = .load id reply ∧
        ∃ old ∈ service.calls, call = old.load service.engine.store reply) ∨
      ∃ id, step = .finish id ∧ ∃ old ∈ service.calls, call = old.finish := by
  cases step with
  | start name data =>
      rcases List.mem_append.mp within with within | last
      · exact Or.inl within
      · exact Or.inr (Or.inl ⟨name, data, rfl, List.mem_singleton.mp last⟩)
  | load id reply =>
      obtain ⟨place, found⟩ := List.getElem?_of_mem within
      rw [Service.step, List.getElem?_modify] at found
      obtain ⟨old, listed, same⟩ := Option.map_eq_some_iff.mp found
      have member := List.mem_of_getElem? listed
      split at same
      · exact Or.inr (Or.inr (Or.inl ⟨id, reply, rfl, old, member, same.symm⟩))
      · exact Or.inl (same ▸ member)
  | finish id =>
      rw [Service.step] at within
      split at within
      next old found =>
        rcases List.mem_or_eq_of_mem_set within with within | same
        · exact Or.inl within
        · exact Or.inr (Or.inr (Or.inr ⟨id, rfl, old, List.mem_of_getElem? found, same⟩))
      next => exact Or.inl within
  | _ => exact Or.inl within

/-- An execution that has an answer had it before the step, or the step gave it. -/
theorem answered_step {service : Service} {step : Step} {call : Call} {generation : Nat}
    {answer : Except StoreError (Option String)} (within : call ∈ (service.step step).calls)
    (phase : call.phase = .answered generation answer) :
    call ∈ service.calls ∨
      ∃ id reply, step = .load id reply ∧ answer = reply.answer service.engine.store call.name := by
  rcases mem_calls_step within with old | ⟨name, data, -, rfl⟩ |
    ⟨id, reply, given, old, listed, rfl⟩ | ⟨id, -, old, listed, rfl⟩
  · exact Or.inl old
  · cases phase
  · obtain ⟨name, data, stage⟩ := old
    rcases stage with (_ | asked) | _ | _
    · cases phase
    · exact Or.inr ⟨id, reply, given, (Call.Phase.answered.inj phase).2.symm⟩
    · exact Or.inl listed
    · cases phase
  · obtain ⟨name, data, stage⟩ := old
    rcases stage with (_ | asked) | _ | _ <;> cases phase

/-- A step leaves the cache alone, invalidates a name, or takes in the program of an answer. -/
theorem cache_step (service : Service) (step : Step) :
    (service.step step).cache = service.cache ∨
      (∃ name, (service.step step).cache = service.cache.invalidate name) ∨
      ∃ call ∈ service.calls, ∃ generation code program,
        call.phase = .answered generation (.ok (some code)) ∧
        Program.decode code = .ok program ∧
        (service.step step).cache = service.cache.accept call.name generation program := by
  cases step with
  | invalidate name => exact Or.inr (Or.inl ⟨name, rfl⟩)
  | register name source =>
      cases compiled : service.engine.envs.compile source with
      | error error =>
          exact Or.inl (congrArg (·.executor.cache) (Engine.register_of_error compiled))
      | ok result =>
          exact Or.inr (Or.inl ⟨name, congrArg (·.executor.cache) (Engine.register_of_ok compiled)⟩)
  | finish id =>
      cases found : service.calls[id]? with
      | none => exact Or.inl (by rw [Service.step, found])
      | some call =>
          have settled : (service.step (.finish id)).cache =
              (call.settle service.engine.executor).cache := by
            rw [Service.step, found]
            rfl
          rw [settled, Call.settle]
          split
          next generation answer phase =>
            cases reads : Loader.programOf call.name answer with
            | error error => exact Or.inl (by rw [Executor.absorb_of_error reads]; rfl)
            | ok program =>
                obtain ⟨code, rfl, decoded⟩ := Loader.programOf_eq_ok.mp reads
                refine Or.inr (Or.inr ⟨call, List.mem_of_getElem? found, generation, code, program,
                  phase, decoded, ?_⟩)
                rw [Executor.absorb_of_ok reads]
                rfl
          next => exact Or.inl rfl
  | _ => exact Or.inl rfl

theorem generation_le_step (service : Service) (step : Step) (name : String) :
    service.cache.generation name ≤ (service.step step).cache.generation name := by
  rcases service.cache_step step with same | ⟨other, same⟩ |
    ⟨call, -, generation, -, program, -, -, same⟩
  · exact Nat.le_of_eq (by rw [same])
  · rw [same]
    exact ProgramCache.generation_le_invalidate ..
  · exact Nat.le_of_eq (by rw [same, ProgramCache.generation_accept])

theorem generation?_load (store : Store) (reply : Reply) (call : Call) :
    (call.load store reply).phase.generation? = call.phase.generation? := by
  obtain ⟨name, data, phase⟩ := call
  rcases phase with (_ | _) | _ | _ <;> rfl

theorem generation?_finish {call : Call} {generation : Nat}
    (dated : call.finish.phase.generation? = some generation) :
    call.phase.generation? = some generation := by
  obtain ⟨name, data, phase⟩ := call
  rcases phase with (_ | _) | _ | _ <;> first | exact dated | cases dated

/-- No execution is in a generation that is yet to come. -/
def Dated (service : Service) : Prop :=
  ∀ call ∈ service.calls, ∀ generation, call.phase.generation? = some generation →
    generation ≤ service.cache.generation call.name

theorem Dated.step {service : Service} (dated : service.Dated) (step : Step) :
    (service.step step).Dated := by
  intro call within generation begun
  refine Nat.le_trans ?_ (service.generation_le_step step call.name)
  rcases mem_calls_step within with old | ⟨name, data, -, rfl⟩ | ⟨id, reply, -, old, listed, rfl⟩ |
    ⟨id, -, old, listed, rfl⟩
  · exact dated call old generation begun
  · simp only [Executor.lookup, ProgramCache.lookup] at begun
    split at begun
    · cases begun
    · cases begun
      exact Nat.le_refl _
  · have named : (old.load service.engine.store reply).name = old.name := by
      unfold Call.load
      split <;> rfl
    rw [generation?_load] at begun
    rw [named]
    exact dated old listed generation begun
  · have named : old.finish.name = old.name := by
      unfold Call.finish
      split <;> rfl
    rw [named]
    exact dated old listed generation (generation?_finish begun)

theorem Dated.run {service : Service} (dated : service.Dated) (steps : List Step) :
    (service.run steps).Dated := by
  induction steps generalizing service with
  | nil => exact dated
  | cons step steps ih => exact ih (dated.step step)

/-- Of a name nothing is in the cache, and nothing can still get there, but what comes from code
that was seen: older answers belong to generations that are over. -/
structure Renewed (service : Service) (name : String) (floor : Nat) (seen : String → Prop) :
    Prop where
  reached : floor ≤ service.cache.generation name
  cached : ∀ program, service.cache.find? name = some program →
    ∃ code, seen code ∧ Program.decode code = .ok program
  answered : ∀ call ∈ service.calls, call.name = name → ∀ generation code,
    call.phase = .answered generation (.ok (some code)) → floor ≤ generation → seen code

theorem Dated.renewed {service : Service} (dated : service.Dated) (name : String)
    (seen : String → Prop) :
    (service.step (.invalidate name)).Renewed name (service.cache.generation name + 1) seen where
  reached := by
    change _ ≤ (service.cache.invalidate name).generation name
    exact Nat.le_of_eq (ProgramCache.generation_invalidate_self ..).symm
  cached := fun program found => absurd rfl (ProgramCache.find?_invalidate found).1
  answered := by
    rintro call within rfl generation code phase later
    have old := dated call within generation (by rw [phase]; rfl)
    omega

theorem Renewed.step {service : Service} {name : String} {floor : Nat} {seen : String → Prop}
    (renewed : service.Renewed name floor seen)
    (held : ∀ code, service.engine.store.loader name = .ok (some code) → seen code) (step : Step) :
    (service.step step).Renewed name floor seen where
  reached := Nat.le_trans renewed.reached (service.generation_le_step step name)
  cached := by
    intro program found
    rcases service.cache_step step with same | ⟨other, same⟩ |
      ⟨call, within, generation, code, accepted, phase, decoded, same⟩
    · exact renewed.cached program (same ▸ found)
    · rw [same] at found
      exact renewed.cached program (ProgramCache.find?_invalidate found).2
    · rw [same] at found
      rcases ProgramCache.find?_accept found with found | ⟨rfl, rfl, rfl⟩
      · exact renewed.cached program found
      · exact ⟨code, renewed.answered call within rfl _ code phase renewed.reached, decoded⟩
  answered := by
    rintro call within rfl generation code phase later
    rcases answered_step within phase with old | ⟨id, reply, -, answer⟩
    · exact renewed.answered call old rfl generation code phase later
    · exact held code (Reply.held_of_answer answer.symm)

/-- The store holds code of a template at an instant of a run. -/
def HeldDuring (service : Service) (steps : List Step) (name code : String) : Prop :=
  ∃ early late, steps = early ++ late ∧
    (service.run early).engine.store.loader name = .ok (some code)

theorem Renewed.run {service : Service} {name : String} {floor : Nat} {steps : List Step}
    (renewed : service.Renewed name floor (service.HeldDuring steps name)) (early late : List Step)
    (split : steps = early ++ late) :
    (service.run early).Renewed name floor (service.HeldDuring steps name) := by
  induction early using List.reverseRecOn generalizing late with
  | nil => exact renewed
  | append_singleton early step ih =>
      rw [List.append_assoc] at split
      have before := ih _ split
      rw [run_append]
      exact before.step (fun code holds => ⟨early, _, split, holds⟩) step

/-- The cache is as it was, and so is every other execution, when an execution ends whose load
failed or gave code that cannot be read. -/
theorem finish_of_error {service : Service} {id : Nat} {call : Call} {generation : Nat}
    {answer : Except StoreError (Option String)} {error : ExecuteError}
    (found : service.calls[id]? = some call) (phase : call.phase = .answered generation answer)
    (fails : Loader.programOf call.name answer = .error error) :
    (service.step (.finish id)).engine = service.engine ∧
      ∀ other, other ≠ id → (service.step (.finish id)).calls[other]? = service.calls[other]? := by
  rw [step, found]
  constructor
  · have settled : call.settle service.engine.executor = service.engine.executor := by
      rw [Call.settle, phase]
      exact Executor.absorb_of_error fails
    simp only [settled]
  · exact fun other different => List.getElem?_set_ne different.symm

/-- What is returned since an invalidation comes from code held since, or from a load without a
program. -/
theorem result_since_invalidate (engine : Engine) (before between during : List Step)
    (name : String) (data : Json) {fuel : Nat} {result : ExecuteResult} :
    let renewed := ((⟨engine, []⟩ : Service).run before).step (.invalidate name)
    let since := between ++ .start name data :: during
    let id := (renewed.run between).calls.length
    (renewed.run since).result? fuel id = some result →
      (∃ code program, renewed.HeldDuring since name code ∧ Program.decode code = .ok program ∧
        result = engine.executor.run fuel name data program) ∨
      ∃ early reply late error, since = early ++ .load id reply :: late ∧
        Loader.programOf name (reply.answer (renewed.run early).engine.store name) = .error error ∧
        result = .failed error := by
  intro renewed since id returned
  have fresh : (⟨engine, []⟩ : Service).Dated := fun _ within => nomatch within
  have clean := (fresh.run before).renewed name (renewed.HeldDuring since name)
  have started := clean.run between _ rfl
  have alike : renewed.engine.executor.run = engine.executor.run :=
    ((⟨engine, []⟩ : Service).alike_run before).run
  have same : (renewed.run between).engine.executor.run = engine.executor.run :=
    (renewed.alike_run between).run.trans alike
  rw [run_append] at returned
  rcases result_course _ name data during returned with ⟨program, found, rfl⟩ |
    ⟨reply, early, late, rfl, rfl⟩
  · obtain ⟨code, seen, decoded⟩ := started.cached program found
    exact Or.inl ⟨code, program, seen, decoded, by rw [same]⟩
  · have split : since = (between ++ .start name data :: early) ++ .load id reply :: late := by
      rw [List.append_assoc, List.cons_append]
    rw [← run_append, Executor.runLoaded, same]
    cases reads : Loader.programOf name (reply.answer
        (renewed.run (between ++ .start name data :: early)).engine.store name) with
    | error error => exact Or.inr ⟨_, reply, late, error, split, reads, rfl⟩
    | ok program =>
        obtain ⟨code, answer, decoded⟩ := Loader.programOf_eq_ok.mp reads
        exact Or.inl ⟨code, program, ⟨_, _, split, Reply.held_of_answer answer⟩, decoded, rfl⟩

/-- An execution that starts after an invalidation runs a program that is read from code which the
store held at an instant since, unless its own load gives none, and it returns once its load has
come. A load that gives no program changes nothing but the execution that asked for it. -/
theorem execute_since_invalidate (engine : Engine) (before between during : List Step)
    (name : String) (data : Json) (fuel : Nat) :
    let renewed := ((⟨engine, []⟩ : Service).run before).step (.invalidate name)
    let since := between ++ .start name data :: during
    let id := (renewed.run between).calls.length
    (∀ result, (renewed.run since).result? fuel id = some result →
      (∃ code program, renewed.HeldDuring since name code ∧ Program.decode code = .ok program ∧
        result = engine.executor.run fuel name data program) ∨
      ∃ early reply late error, since = early ++ .load id reply :: late ∧
        Loader.programOf name (reply.answer (renewed.run early).engine.store name) = .error error ∧
        result = .failed error) ∧
    (∀ reply, .load id reply ∈ during → .finish id ∉ during →
      ∃ result, (renewed.run since).result? fuel id = some result) ∧
    ∀ (service : Service) (id : Nat) (call : Call) (generation : Nat)
      (answer : Except StoreError (Option String)) (error : ExecuteError),
      service.calls[id]? = some call → call.phase = .answered generation answer →
        Loader.programOf call.name answer = .error error →
          (service.step (.finish id)).engine = service.engine ∧
            ∀ other, other ≠ id →
              (service.step (.finish id)).calls[other]? = service.calls[other]? := by
  intro renewed since id
  refine ⟨fun result => result_since_invalidate engine before between during name data,
    fun reply loads unfinished => ?_, fun _ _ _ _ _ _ => finish_of_error⟩
  rw [run_append]
  exact (renewed.run between).returns_run name data fuel loads unfinished

/-- The first execution loads a template that is then replaced, and ends after the invalidation; the
second runs what replaced it. A load from a store that is offline changes nothing. -/
theorem execute_since_invalidate_overlapping :
    let engine : Engine := ⟨{}, [], { runtime := {}, strict := false }⟩
    let first : Program := [.text "SELECT 1", .deliver]
    let second : Program := [.text "SELECT 2", .deliver]
    let before : List Step :=
      [.save "q" ⟨first.encode, []⟩, .start "q" (.object []), .load 0 .held,
        .save "q" ⟨second.encode, []⟩]
    let renewed := ((⟨engine, []⟩ : Service).run before).step (.invalidate "q")
    let since : List Step := [.finish 0, .start "q" (.object []), .load 1 .held]
    let result := ExecuteResult.delivered { statement := "SELECT 2".toList }
    let offline := (⟨engine, []⟩ : Service).run
      [.start "q" (.object []), .load 0 (.failed (.unavailable "offline"))]
    ((renewed.run since).result? 2 1 = some result ∧
      ∃ code program, renewed.HeldDuring since "q" code ∧ Program.decode code = .ok program ∧
        result = engine.executor.run 2 "q" (.object []) program) ∧
    (offline.step (.finish 0)).engine = offline.engine ∧
      ∀ other, other ≠ 0 → (offline.step (.finish 0)).calls[other]? = offline.calls[other]? := by
  intro engine first second before renewed since result offline
  have told := execute_since_invalidate engine before [.finish 0] [.load 1 .held] "q" (.object []) 2
  have asked : offline.calls[0]? = some ⟨"q", .object [],
      .answered 0 (.error (.unavailable "offline"))⟩ := rfl
  refine ⟨?_, told.2.2 offline 0 _ 0 _ (.store (.unavailable "offline")) asked rfl rfl⟩
  have decoded (text : String) :
      Program.decode (Program.encode [.text text, .deliver]) = .ok [.text text, .deliver] := by
    have addressed : Program.Addressed [.text text, .deliver] :=
      ⟨by simp [Instr.Fits, Instr.counts], by simp [Instr.target?]⟩
    exact (Program.decode_encode addressed).mpr fun value within => by simp at within
  have ended : renewed.step (.finish 0) = ⟨renewed.engine, [⟨"q", .object [], .ended⟩]⟩ := by
    have called : renewed.calls[0]? =
        some ⟨"q", .object [], .answered 0 (.ok (some first.encode))⟩ := rfl
    have reads : Loader.programOf "q" (.ok (some first.encode)) = .ok first := by
      rw [Loader.programOf, decoded]
    have settled : renewed.engine.executor.absorb "q" 0 (.ok (some first.encode)) =
        renewed.engine.executor := Executor.absorb_of_ok reads
    rw [step, called]
    simp only [Call.settle, settled]
    rfl
  have executed : (renewed.engine.execute 2 "q" (.object [])).1 = result := by
    have absent : renewed.engine.executor.lookup "q" = .absent 1 := rfl
    have held : renewed.engine.store.loader "q" = .ok (some second.encode) :=
      Store.loader_save_self ..
    rw [Engine.execute, Executor.execute, absent, held]
    simp only [Executor.runLoaded, Loader.programOf, decoded, second]
    rfl
  have returned : (renewed.run since).result? 2 1 = some result := by
    rw [run_cons, ended, ← executed]
    exact (run_execute ⟨renewed.engine, [⟨"q", .object [], .ended⟩]⟩ "q" (.object []) 2).1
  refine ⟨returned, ?_⟩
  rcases told.1 result returned with runs | ⟨early, reply, late, error, -, -, failed⟩
  · exact runs
  · exact absurd failed (by simp [result])

end Service

end QueryTemplate
