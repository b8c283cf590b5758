import Mathlib.Data.List.Induction
import QueryTemplate.Engine

set_option autoImplicit false

/- Executions that overlap. Each one looks its program up, has it loaded where it is absent, and
finishes; between these steps templates are saved, invalidated and registered, and any number of
other executions take theirs. The order of the steps in a list is their order in time, and the
instants of a run are the prefixes of its list. -/

namespace QueryTemplate

/-- How a loader answers a request: with what the store holds at that instant, without a template,
or with an error. -/
inductive Reply
  | held
  | missing
  | failed (error : StoreError)

def Reply.answer (reply : Reply) (store : Store) (name : String) :
    Except StoreError (Option String) :=
  match reply with
  | held => store.loader name
  | missing => .ok none
  | failed error => .error error

/-- How far an execution has come. -/
inductive Call.Phase
  | looked (lookup : Lookup)
  /-- The loader was asked in a generation, and this was its answer. -/
  | answered (generation : Nat) (answer : Except StoreError (Option String))
  | ended

namespace Call.Phase

/-- The generation in which the execution found no program in the cache. -/
def generation? : Call.Phase → Option Nat
  | looked (.absent generation) => some generation
  | answered generation _ => some generation
  | _ => none

end Call.Phase

structure Call where
  name : String
  data : Json
  phase : Call.Phase

namespace Call

/-- The loader answers an execution that found no program. -/
def load (store : Store) (reply : Reply) (call : Call) : Call :=
  match call.phase with
  | .looked (.absent generation) =>
    { call with phase := .answered generation (reply.answer store call.name) }
  | _ => call

/-- An execution that has a program, or that failed to load one, ends. -/
def finish (call : Call) : Call :=
  match call.phase with
  | .looked (.absent _) => call
  | _ => { call with phase := .ended }

/-- What the end of an execution does to the executor. -/
def settle (executor : Executor) (call : Call) : Executor :=
  match call.phase with
  | .answered generation answer => executor.absorb call.name generation answer
  | _ => executor

/-- What an execution returns when it ends now. -/
def result? (executor : Executor) (fuel : Nat) (call : Call) : Option ExecuteResult :=
  match call.phase with
  | .looked (.cached program) => some (executor.run fuel call.name call.data program)
  | .answered _ answer => some (executor.runLoaded fuel call.name call.data answer)
  | _ => none

end Call

/-- An engine with all executions that were started, in the order in which they were. -/
structure Service : Type 1 where
  engine : Engine
  calls : List Call := []

namespace Service

inductive Step
  | save (name : String) (compiled : Compiled)
  | invalidate (name : String)
  | register (name source : String)
  | start (name : String) (data : Json)
  | load (id : Nat) (reply : Reply)
  | finish (id : Nat)

def step (service : Service) : Step → Service
  | .save name compiled => { service with engine := service.engine.save name compiled }
  | .invalidate name => { service with engine := service.engine.invalidate name }
  | .register name source => { service with engine := (service.engine.register name source).2 }
  | .start name data =>
    { service with
      calls := service.calls ++ [⟨name, data, .looked (service.engine.executor.lookup name)⟩] }
  | .load id reply =>
    { service with calls := service.calls.modify id (·.load service.engine.store reply) }
  | .finish id =>
    match service.calls[id]? with
    | some call =>
      { engine := { service.engine with executor := call.settle service.engine.executor }
        calls := service.calls.set id call.finish }
    | none => service

def run (service : Service) (steps : List Step) : Service := steps.foldl step service

/-- The programs that the executor keeps. -/
def cache (service : Service) : ProgramCache := service.engine.executor.cache

/-- What an execution returns when it ends now. -/
def result? (service : Service) (fuel id : Nat) : Option ExecuteResult := do
  let call ← service.calls[id]?
  call.result? service.engine.executor fuel

variable (service : Service)

@[simp] theorem run_nil : service.run [] = service := rfl

@[simp] theorem run_cons (step : Step) (steps : List Step) :
    service.run (step :: steps) = (service.step step).run steps := rfl

@[simp] theorem run_append (first second : List Step) :
    service.run (first ++ second) = (service.run first).run second := List.foldl_append ..

end Service

theorem Executor.run_absorb (executor : Executor) (name : String) (generation : Nat)
    (answer : Except StoreError (Option String)) :
    (executor.absorb name generation answer).run = executor.run := by
  unfold Executor.absorb
  split <;> rfl

theorem Call.run_settle (executor : Executor) (call : Call) :
    (call.settle executor).run = executor.run := by
  unfold settle
  split
  · exact executor.run_absorb ..
  · rfl

namespace Engine

theorem register_of_error {engine : Engine} {name source : String} {error : CompileError}
    (fails : engine.envs.compile source = .error error) :
    (engine.register name source).2 = engine := by
  simp [register, compile, fails]

theorem register_of_ok {engine : Engine} {name source : String} {compiled : Compiled}
    (compiles : engine.envs.compile source = .ok compiled) :
    (engine.register name source).2 = (engine.save name compiled).invalidate name := by
  simp [register, compile, compiles]

/-- What an engine keeps whatever happens to it: its extensions, and how its executor runs. -/
structure Alike (engine other : Engine) : Prop where
  envs : engine.envs = other.envs
  run : engine.executor.run = other.executor.run

theorem alike_register (engine : Engine) (name source : String) :
    (engine.register name source).2.Alike engine := by
  cases compiled : engine.envs.compile source with
  | error error =>
      rw [register_of_error compiled]
      exact ⟨rfl, rfl⟩
  | ok result =>
      rw [register_of_ok compiled]
      exact ⟨rfl, rfl⟩

end Engine

namespace Service

theorem alike_step (service : Service) (step : Step) :
    (service.step step).engine.Alike service.engine := by
  cases step with
  | register name source => exact service.engine.alike_register name source
  | finish id =>
      rw [Service.step]
      cases service.calls[id]? with
      | none => exact ⟨rfl, rfl⟩
      | some call => exact ⟨rfl, call.run_settle _⟩
  | _ => exact ⟨rfl, rfl⟩

theorem alike_run (service : Service) (steps : List Step) :
    (service.run steps).engine.Alike service.engine := by
  induction steps generalizing service with
  | nil => exact ⟨rfl, rfl⟩
  | cons step steps ih =>
      have first := service.alike_step step
      have rest := ih (service.step step)
      exact ⟨rest.envs.trans first.envs, rest.run.trans first.run⟩

/-- Where an execution stands after some steps that follow its start: it has still what it found in
the cache at the start, or what the loader answered at an instant since. -/
inductive Course (started : Service) (name : String) (data : Json) (lookup : Lookup) (id : Nat)
    (steps : List Step) : Call → Prop
  | looked
      (pending : ∀ generation, lookup = .absent generation → ∀ reply, .load id reply ∉ steps) :
      Course started name data lookup id steps ⟨name, data, .looked lookup⟩
  | answered {generation : Nat} {reply : Reply} {early late : List Step}
      (absent : lookup = .absent generation) (split : steps = early ++ .load id reply :: late) :
      Course started name data lookup id steps
        ⟨name, data, .answered generation (reply.answer (started.run early).engine.store name)⟩
  | ended (done : .finish id ∈ steps) :
      Course started name data lookup id steps ⟨name, data, .ended⟩

variable {started : Service} {name : String} {data : Json} {lookup : Lookup} {id : Nat}
  {steps : List Step} {call : Call}

theorem Course.later (course : Course started name data lookup id steps call) {step : Step}
    (other : ∀ reply, step ≠ .load id reply) :
    Course started name data lookup id (steps ++ [step]) call := by
  cases course with
  | looked pending =>
      refine .looked fun generation absent reply within => ?_
      rcases List.mem_append.mp within with within | last
      · exact pending generation absent reply within
      · exact other reply (List.mem_singleton.mp last).symm
  | answered absent split =>
      exact .answered absent (by rw [split, List.append_assoc, List.cons_append])
  | ended done => exact .ended (List.mem_append_left _ done)

theorem Course.load (course : Course started name data lookup id steps call) (reply : Reply) :
    Course started name data lookup id (steps ++ [.load id reply])
      (call.load (started.run steps).engine.store reply) := by
  cases course with
  | looked pending =>
      cases lookup with
      | cached program => exact .looked fun _ absent => nomatch absent
      | absent generation => exact .answered rfl rfl
  | answered absent split =>
      exact .answered absent (by rw [split, List.append_assoc, List.cons_append])
  | ended done => exact .ended (List.mem_append_left _ done)

theorem Course.finish (course : Course started name data lookup id steps call) :
    Course started name data lookup id (steps ++ [.finish id]) call.finish := by
  have done : .finish id ∈ steps ++ [.finish id] := List.mem_append_right _ List.mem_cons_self
  cases course with
  | looked pending =>
      cases lookup with
      | cached program => exact .ended done
      | absent generation => exact (Course.looked pending).later fun _ => nofun
  | answered => exact .ended done
  | ended => exact .ended done

/-- One step, and the execution is where its course says. -/
theorem course_step (course : Course started name data lookup id steps call)
    (found : (started.run steps).calls[id]? = some call) (step : Step) :
    ∃ after, ((started.run steps).step step).calls[id]? = some after ∧
      Course started name data lookup id (steps ++ [step]) after := by
  generalize reached : started.run steps = service at found
  cases step with
  | start other given =>
      refine ⟨call, ?_, course.later fun _ => nofun⟩
      exact (List.getElem?_append_left (List.getElem?_eq_some_iff.mp found).1).trans found
  | load other reply =>
      by_cases own : other = id
      · subst own
        refine ⟨call.load service.engine.store reply, ?_, reached ▸ course.load reply⟩
        simp [Service.step, found]
      · refine ⟨call, ?_, course.later fun _ same => own (Step.load.inj same).1⟩
        simp [Service.step, found, own]
  | finish other =>
      by_cases own : other = id
      · subst own
        refine ⟨call.finish, ?_, course.finish⟩
        simp only [Service.step, found]
        exact List.getElem?_set_self (List.getElem?_eq_some_iff.mp found).1
      · refine ⟨call, ?_, course.later fun _ => nofun⟩
        rw [Service.step]
        cases service.calls[other]? with
        | none => exact found
        | some ending => exact (List.getElem?_set_ne own).trans found
  | _ => exact ⟨call, found, course.later fun _ => nofun⟩

/-- An execution that starts keeps its place, and its course is as told. -/
theorem course_run (service : Service) (name : String) (data : Json) (steps : List Step) :
    ∃ call, (service.run (.start name data :: steps)).calls[service.calls.length]? = some call ∧
      Course (service.step (.start name data)) name data (service.engine.executor.lookup name)
        service.calls.length steps call := by
  induction steps using List.reverseRecOn with
  | nil => exact ⟨_, List.getElem?_concat_length, .looked fun _ _ _ => nofun⟩
  | append_singleton steps step ih =>
      obtain ⟨call, found, course⟩ := ih
      obtain ⟨after, next, onward⟩ := course_step course found step
      exact ⟨after, by rw [← List.cons_append, run_append]; exact next, onward⟩

theorem lookup_eq_cached {service : Service} {name : String} {program : Program} :
    service.engine.executor.lookup name = .cached program ↔
      service.cache.find? name = some program := by
  change service.cache.lookup name = _ ↔ _
  unfold ProgramCache.lookup
  cases service.cache.find? name <;> simp

/-- An execution that is loaded and has not ended has a result to return. -/
theorem returns_run (service : Service) (name : String) (data : Json) (fuel : Nat)
    {steps : List Step} {reply : Reply} (loads : .load service.calls.length reply ∈ steps)
    (unfinished : .finish service.calls.length ∉ steps) :
    ∃ result, (service.run (.start name data :: steps)).result? fuel service.calls.length =
      some result := by
  obtain ⟨call, found, course⟩ := course_run service name data steps
  rw [result?, found, Option.bind_eq_bind, Option.bind_some]
  cases course with
  | looked pending =>
      cases looked : service.engine.executor.lookup name with
      | cached program => exact ⟨_, rfl⟩
      | absent generation => exact absurd loads (pending generation looked reply)
  | answered => exact ⟨_, rfl⟩
  | ended done => exact absurd done unfinished

/-- What an execution returns: the result of the program that it found in the cache at its start,
or of the answer of the loader at an instant since. -/
theorem result_course (service : Service) (name : String) (data : Json) (steps : List Step)
    {fuel : Nat} {result : ExecuteResult}
    (returned : (service.run (.start name data :: steps)).result? fuel service.calls.length =
      some result) :
    (∃ program, service.cache.find? name = some program ∧
      result = service.engine.executor.run fuel name data program) ∨
    ∃ reply early late, steps = early ++ .load service.calls.length reply :: late ∧
      result = service.engine.executor.runLoaded fuel name data
        (reply.answer (service.run (.start name data :: early)).engine.store name) := by
  obtain ⟨call, found, course⟩ := course_run service name data steps
  have same := (service.alike_run (.start name data :: steps)).run
  rw [result?, found, Option.bind_eq_bind, Option.bind_some] at returned
  cases course with
  | looked =>
      cases looked : service.engine.executor.lookup name with
      | absent generation => simp [Call.result?, looked] at returned
      | cached program =>
          simp only [Call.result?, looked, Option.some.injEq, same] at returned
          exact Or.inl ⟨program, lookup_eq_cached.mp looked, returned.symm⟩
  | ended => cases returned
  | answered absent split =>
      simp only [Call.result?, Option.some.injEq, Executor.runLoaded, same] at returned
      exact Or.inr ⟨_, _, _, split, returned.symm⟩

/-- An execution with nothing between its steps is the execution of an engine. -/
theorem run_execute (service : Service) (name : String) (data : Json) (fuel : Nat) :
    let id := service.calls.length
    let ready := service.run [.start name data, .load id .held]
    ready.result? fuel id = some (service.engine.execute fuel name data).1 ∧
      (ready.step (.finish id)).engine = (service.engine.execute fuel name data).2 := by
  intro id ready
  have same : ready.engine = service.engine := rfl
  have asked : ready.calls[id]? = some (Call.load service.engine.store .held
      ⟨name, data, .looked (service.engine.executor.lookup name)⟩) := by
    simp [ready, id, step]
  clear_value ready
  cases looked : service.engine.executor.lookup name with
  | cached program =>
      rw [looked] at asked
      constructor
      · rw [result?, asked, same]
        simp [Call.load, Call.result?, Engine.execute, Executor.execute, looked]
      · simp [step, asked, same, Call.load, Call.settle, Engine.execute, Executor.execute, looked]
  | absent generation =>
      rw [looked] at asked
      constructor
      · rw [result?, asked, same]
        simp [Call.load, Reply.answer, Call.result?, Engine.execute, Executor.execute, looked]
      · simp [step, asked, same, Call.load, Reply.answer, Call.settle, Engine.execute,
          Executor.execute, looked]

end Service

end QueryTemplate
