import QueryTemplate.Proofs.Execution.Registration

set_option autoImplicit false

/- Which version of a template the cache and the executions have their programs from, where a
registration saves the code and invalidates the name in two steps. Versions are numbered by the
order of the saves. -/

namespace QueryTemplate

namespace Call

/-- The execution found no program and waits for the loader. -/
def asks (call : Call) : Bool :=
  match call.phase with
  | .looked (.absent _) => true
  | _ => false

/-- The end of the execution puts its program into the cache. -/
def keeps (executor : Executor) (call : Call) : Bool :=
  match call.phase with
  | .answered generation answer =>
    executor.cache.generation call.name == generation &&
      (Loader.programOf call.name answer).toOption.isSome
  | _ => false

theorem load_of_asks {call : Call} (asks : call.asks = true) (store : Store) (reply : Reply) :
    ∃ generation, call.phase = .looked (.absent generation) ∧
      call.load store reply =
        { call with phase := .answered generation (reply.answer store call.name) } := by
  unfold Call.asks at asks
  split at asks
  next generation waits => exact ⟨generation, waits, by rw [load, waits]⟩
  next => cases asks

theorem load_of_not_asks {call : Call} (settled : call.asks = false) (store : Store)
    (reply : Reply) : call.load store reply = call := by
  unfold Call.asks at settled
  split at settled
  next => cases settled
  next other =>
    unfold load
    split
    next generation waits => exact absurd waits (other generation)
    next => rfl

end Call

namespace Service

/-- The step is no whole registration: those save and invalidate in two steps. -/
def Step.Halved : Step → Prop
  | register .. => False
  | _ => True

/-- The code that a step saves under a name. -/
def saved? (name : String) : Step → Option String
  | .save other compiled => if other = name then some compiled.code else none
  | _ => none

/-- The versions of a template, in the order of the saves. -/
def versions (name : String) (steps : List Step) : List String := steps.filterMap (saved? name)

/-- The code of a version. They count from 1, and version 0 is that there is no template. -/
def versionCode? (codes : List String) : Nat → Option String
  | 0 => none
  | number + 1 => codes[number]?

theorem versions_append (name : String) (first second : List Step) :
    versions name (first ++ second) = versions name first ++ versions name second :=
  List.filterMap_append ..

theorem versions_singleton (name : String) (step : Step) :
    versions name [step] = (saved? name step).toList := by
  cases saves : saved? name step <;> simp [versions, saves]

theorem versionCode?_append {codes : List String} {version : Nat} (known : version ≤ codes.length)
    (more : List String) : versionCode? (codes ++ more) version = versionCode? codes version := by
  cases version with
  | zero => rfl
  | succ number => exact List.getElem?_append_left known

theorem versionCode?_length (codes : List String) :
    versionCode? codes codes.length = codes.getLast? := by
  rw [List.getLast?_eq_getElem?]
  cases codes with
  | nil => rfl
  | cons code codes => rfl

/-- What the cache and the executions have their programs of one template from. -/
structure Lineage where
  /-- How many versions were saved. -/
  saved : Nat := 0
  /-- How many of them were saved before the last invalidation. -/
  renewed : Nat := 0
  /-- The version of the program in the cache, where there is one. -/
  cached : Nat := 0
  /-- The versions that the executions compute from, where they have one. -/
  calls : List (Option Nat) := []
deriving DecidableEq, Repr

namespace Lineage

/-- The version that an execution computes from. -/
def version? (lineage : Lineage) (id : Nat) : Option Nat := lineage.calls[id]?.join

/-- The version that a loader reads. -/
def loaded? (lineage : Lineage) : Reply → Option Nat
  | .held => some lineage.saved
  | _ => none

def step (name : String) (service : Service) (lineage : Lineage) : Step → Lineage
  | .save other _ =>
    if other = name then { lineage with saved := lineage.saved + 1 } else lineage
  | .invalidate other =>
    if other = name then { lineage with renewed := lineage.saved } else lineage
  | .start _ _ =>
    let found? := if service.cache.contains name then some lineage.cached else none
    { lineage with calls := lineage.calls ++ [found?] }
  | .load id reply =>
    if service.calls[id]?.any Call.asks then
      { lineage with calls := lineage.calls.set id (lineage.loaded? reply) }
    else lineage
  | .finish id =>
    if service.calls[id]?.any fun call =>
        call.name == name && call.keeps service.engine.executor then
      { lineage with cached := (lineage.version? id).getD lineage.cached }
    else lineage
  | .register .. => lineage

def run (name : String) (service : Service) (lineage : Lineage) : List Step → Lineage
  | [] => lineage
  | step :: rest => (lineage.step name service step).run name (service.step step) rest

theorem run_append (name : String) (service : Service) (lineage : Lineage)
    (first second : List Step) :
    lineage.run name service (first ++ second) =
      (lineage.run name service first).run name (service.run first) second := by
  induction first generalizing service lineage with
  | nil => rfl
  | cons step rest ih => exact ih _ _

/-- The version is there, and a program is read from its code. -/
structure Origin (name : String) (codes : List String) (version : Nat) (program : Program) :
    Prop where
  known : version ≤ codes.length
  read : Loader.programOf name (.ok (versionCode? codes version)) = .ok program

/-- The answer of a loader is the code of a version, and as new as the last invalidation where it
came in the current generation; without a version it holds no program. -/
def Answers (lineage : Lineage) (name : String) (codes : List String) (current : Prop)
    (answer : Except StoreError (Option String)) : Option Nat → Prop
  | some version => version ≤ codes.length ∧ answer = .ok (versionCode? codes version) ∧
      (current → lineage.renewed ≤ version)
  | none => ∃ error, Loader.programOf name answer = .error error

/-- An execution has its program, or the answer of its loader, from the version. -/
def Supplies (lineage : Lineage) (codes : List String) (current : Nat) (version? : Option Nat)
    (call : Call) : Prop :=
  match call.phase with
  | .looked (.cached program) =>
    ∃ version, version? = some version ∧ Origin call.name codes version program
  | .answered generation answer =>
    lineage.Answers call.name codes (generation = current) answer version?
  | _ => True

/-- A lineage is that of a service whose store was given some versions of the template. -/
structure Tells (lineage : Lineage) (name : String) (codes : List String) (service : Service) :
    Prop where
  dated : service.Dated
  held : service.engine.store.loader name = .ok codes.getLast?
  saved : lineage.saved = codes.length
  renewed : lineage.renewed ≤ lineage.saved
  cached : ∀ program, service.cache.find? name = some program →
    lineage.renewed ≤ lineage.cached ∧ Origin name codes lineage.cached program
  placed : lineage.calls.length = service.calls.length
  called : ∀ (id : Nat) (call : Call), service.calls[id]? = some call → call.name = name →
    lineage.Supplies codes (service.cache.generation name) (lineage.version? id) call

variable {lineage : Lineage} {name : String} {codes : List String} {service : Service}

theorem Origin.save {version : Nat} {program : Program}
    (origin : Origin name codes version program) (code : String) :
    Origin name (codes ++ [code]) version program where
  known := by
    rw [List.length_append]
    exact Nat.le_add_right_of_le origin.known
  read := by
    rw [versionCode?_append origin.known]
    exact origin.read

theorem Supplies.save {current : Nat} {version? : Option Nat} {call : Call}
    (supplies : lineage.Supplies codes current version? call) (code : String) :
    ({ lineage with saved := lineage.saved + 1 } : Lineage).Supplies (codes ++ [code]) current
      version? call := by
  unfold Supplies at supplies ⊢
  split at supplies
  · obtain ⟨version, given, origin⟩ := supplies
    exact ⟨version, given, origin.save code⟩
  · cases version? with
    | none => exact supplies
    | some version =>
        obtain ⟨known, answer, newer⟩ := supplies
        refine ⟨?_, ?_, newer⟩
        · rw [List.length_append]
          exact Nat.le_add_right_of_le known
        · rw [versionCode?_append known]
          exact answer
  · trivial

theorem Tells.save (tells : lineage.Tells name codes service) (other : String)
    (compiled : Compiled) :
    (lineage.step name service (.save other compiled)).Tells name
      (codes ++ (saved? name (.save other compiled)).toList)
      (service.step (.save other compiled)) := by
  by_cases same : other = name
  · subst same
    simp only [Lineage.step, saved?, if_true, Option.toList_some]
    exact {
      dated := tells.dated.step (.save other compiled)
      held := by
        rw [List.getLast?_concat]
        exact Store.loader_save_self ..
      saved := by simp [tells.saved]
      renewed := Nat.le_succ_of_le tells.renewed
      cached := fun program found =>
        ⟨(tells.cached program found).1, (tells.cached program found).2.save _⟩
      placed := tells.placed
      called := fun id call found named => (tells.called id call found named).save _ }
  · simp only [Lineage.step, saved?, if_neg same, Option.toList_none, List.append_nil]
    exact { tells with
      dated := tells.dated.step (.save other compiled)
      held := (Store.loader_save_of_ne _ _ (Ne.symm same)).trans tells.held }

/-- What was answered before belongs to a generation that is over. -/
theorem Supplies.invalidate {current : Nat} {version? : Option Nat} {call : Call}
    (dated : ∀ generation, call.phase.generation? = some generation → generation ≤ current)
    (supplies : lineage.Supplies codes current version? call) :
    ({ lineage with renewed := lineage.saved } : Lineage).Supplies codes (current + 1)
      version? call := by
  unfold Supplies at supplies ⊢
  split at supplies
  · obtain ⟨version, given, origin⟩ := supplies
    exact ⟨version, given, origin⟩
  next generation answer phase =>
    cases version? with
    | none => exact supplies
    | some version =>
        refine ⟨supplies.1, supplies.2.1, fun same => ?_⟩
        have dates := dated generation (by rw [phase]; rfl)
        omega
  · trivial

theorem Tells.invalidate (tells : lineage.Tells name codes service) (other : String) :
    (lineage.step name service (.invalidate other)).Tells name codes
      (service.step (.invalidate other)) := by
  by_cases same : other = name
  · subst same
    simp only [Lineage.step, if_true]
    exact { tells with
      dated := tells.dated.step (.invalidate other)
      renewed := Nat.le_refl _
      cached := fun program found => absurd rfl (ProgramCache.find?_invalidate found).1
      called := by
        intro id call found named
        have supplies := tells.called id call found named
        have dated := tells.dated call (List.mem_of_getElem? found)
        rw [named] at dated
        change Supplies _ _ ((service.cache.invalidate other).generation other) _ _
        rw [ProgramCache.generation_invalidate_self]
        exact supplies.invalidate dated }
  · simp only [Lineage.step, if_neg same]
    exact { tells with
      dated := tells.dated.step (.invalidate other)
      cached := fun program found => tells.cached program (ProgramCache.find?_invalidate found).2
      called := by
        intro id call found named
        change Supplies _ _ ((service.cache.invalidate other).generation name) _ _
        rw [ProgramCache.generation_invalidate_of_ne _ (Ne.symm same)]
        exact tells.called id call found named }

theorem Tells.start (tells : lineage.Tells name codes service) (other : String) (data : Json) :
    (lineage.step name service (.start other data)).Tells name codes
      (service.step (.start other data)) := by
  refine { tells with
    dated := tells.dated.step (.start other data)
    placed := by simp [Lineage.step, Service.step, tells.placed]
    called := ?_ }
  intro id call found named
  rw [Service.step] at found
  by_cases old : id < service.calls.length
  · rw [List.getElem?_append_left old] at found
    have kept : (lineage.step name service (.start other data)).version? id =
        lineage.version? id := by
      simp [Lineage.step, version?, List.getElem?_append_left (tells.placed ▸ old)]
    rw [kept]
    exact tells.called id call found named
  · rw [List.getElem?_append_right (by omega)] at found
    obtain ⟨rfl, rfl⟩ : id = service.calls.length ∧ call =
        ⟨other, data, .looked (service.engine.executor.lookup other)⟩ := by
      have bound := (List.getElem?_eq_some_iff.mp found).1
      simp only [List.length_singleton] at bound
      have placed : id = service.calls.length := by omega
      subst placed
      simpa [eq_comm] using found
    cases named
    unfold Supplies
    cases looked : service.engine.executor.lookup other with
    | absent generation => trivial
    | cached program =>
        have hit := lookup_eq_cached.mp looked
        have contains : service.cache.contains other = true := by
          rw [ProgramCache.contains, hit]
          rfl
        refine ⟨lineage.cached, ?_, (tells.cached program hit).2⟩
        simp [Lineage.step, version?, contains, ← tells.placed]

/-- The answer of a loader that reads the store is the newest version. -/
theorem Tells.answers (tells : lineage.Tells name codes service) (current : Prop)
    (reply : Reply) :
    lineage.Answers name codes current (reply.answer service.engine.store name)
      (lineage.loaded? reply) := by
  cases reply with
  | missing => exact ⟨_, rfl⟩
  | failed error => exact ⟨_, rfl⟩
  | held =>
      refine ⟨Nat.le_of_eq tells.saved, ?_, fun _ => tells.renewed⟩
      rw [tells.saved, versionCode?_length]
      exact tells.held

theorem Tells.load (tells : lineage.Tells name codes service) (id : Nat) (reply : Reply) :
    (lineage.step name service (.load id reply)).Tells name codes
      (service.step (.load id reply)) := by
  by_cases waits : service.calls[id]?.any Call.asks = true
  · obtain ⟨asking, listed, asks⟩ := (Option.any_eq_true ..).mp waits
    obtain ⟨generation, -, answered⟩ := Call.load_of_asks asks service.engine.store reply
    have within : id < lineage.calls.length := by
      rw [tells.placed]
      exact (List.getElem?_eq_some_iff.mp listed).1
    simp only [Lineage.step, waits, if_true]
    refine { tells with
      dated := tells.dated.step (.load id reply)
      placed := by simp [Service.step, tells.placed]
      called := ?_ }
    intro other call found named
    by_cases own : other = id
    · subst own
      simp only [Service.step, List.getElem?_modify_eq, listed, Option.map_eq_map, Option.map_some,
        Option.some.injEq, answered] at found
      subst found
      cases named
      have version : ({ lineage with calls := lineage.calls.set other (lineage.loaded? reply) } :
          Lineage).version? other = lineage.loaded? reply := by
        simp [version?, List.getElem?_set_self within]
      rw [version]
      exact tells.answers _ reply
    · have version : ({ lineage with calls := lineage.calls.set id (lineage.loaded? reply) } :
          Lineage).version? other = lineage.version? other := by
        simp [version?, List.getElem?_set_ne (Ne.symm own)]
      rw [version]
      refine tells.called other call ?_ named
      simpa [Service.step, Ne.symm own] using found
  · have settled : service.step (.load id reply) = service := by
      have same : service.calls.modify id (·.load service.engine.store reply) = service.calls := by
        refine List.ext_getElem? fun place => ?_
        rw [List.getElem?_modify]
        split
        next own =>
          subst own
          cases found : service.calls[id]? with
          | none => rfl
          | some call =>
              have done : call.asks = false := by simpa [found] using waits
              simp [Call.load_of_not_asks done]
        next => simp
      rw [Service.step, same]
    rw [settled]
    simpa only [Lineage.step, if_neg waits] using tells

/-- An execution that ends puts its program into the cache, or leaves the name as it was. -/
theorem cache_finish {id : Nat} {call : Call} (listed : service.calls[id]? = some call) :
    (call.name = name ∧ call.keeps service.engine.executor = true ∧
      ∃ answer program, call.phase = .answered (service.cache.generation name) answer ∧
        Loader.programOf name answer = .ok program ∧
        (service.step (.finish id)).cache.find? name = some program) ∨
    ((call.name == name && call.keeps service.engine.executor) = false ∧
      (service.step (.finish id)).cache.find? name = service.cache.find? name) := by
  have settled : (service.step (.finish id)).cache =
      (call.settle service.engine.executor).cache := by
    rw [Service.step, listed]
    rfl
  rw [settled, Call.settle]
  split
  next generation answer phase =>
    cases reads : Loader.programOf call.name answer with
    | error error =>
        rw [Executor.absorb_of_error reads]
        exact Or.inr ⟨by simp [Call.keeps, phase, reads, Except.toOption], rfl⟩
    | ok program =>
        rw [Executor.absorb_of_ok reads]
        have keeps : call.keeps service.engine.executor =
            (service.cache.generation call.name == generation) := by
          simp [Call.keeps, phase, reads, Except.toOption, Service.cache]
        by_cases same : call.name = name
        · by_cases current : service.cache.generation call.name = generation
          · subst current same
            refine Or.inl ⟨rfl, by simp [keeps], answer, program, phase, reads, ?_⟩
            exact ProgramCache.find?_accept_self ..
          · refine Or.inr ⟨by simp [keeps, current], ?_⟩
            change (service.cache.accept ..).find? name = _
            rw [ProgramCache.accept, if_neg current]
        · refine Or.inr ⟨by simp [same], ?_⟩
          exact ProgramCache.find?_accept_of_ne _ _ _ (Ne.symm same)
  next other =>
    refine Or.inr ⟨?_, rfl⟩
    have drops : call.keeps service.engine.executor = false := by
      unfold Call.keeps
      split
      next generation answer phase => exact absurd phase (other generation answer)
      next => rfl
    rw [drops, Bool.and_false]

theorem Supplies.finish {current : Nat} {version? : Option Nat} {call : Call}
    (supplies : lineage.Supplies codes current version? call) :
    lineage.Supplies codes current version? call.finish := by
  obtain ⟨name, data, phase⟩ := call
  rcases phase with (_ | _) | _ | _
  · trivial
  · exact supplies
  · trivial
  · trivial

/-- The end of an execution changes nothing but the program in the cache. -/
theorem Tells.end (tells : lineage.Tells name codes service) {id : Nat} {call : Call}
    (listed : service.calls[id]? = some call) (version : Nat)
    (cached : ∀ program, (service.step (.finish id)).cache.find? name = some program →
      lineage.renewed ≤ version ∧ Origin name codes version program) :
    ({ lineage with cached := version } : Lineage).Tells name codes
      (service.step (.finish id)) := by
  have generation : (service.step (.finish id)).cache.generation name =
      service.cache.generation name := by
    simp only [Service.step, listed]
    change (call.settle service.engine.executor).cache.generation name = _
    unfold Call.settle Executor.absorb
    repeat' split
    · rfl
    · exact ProgramCache.generation_accept ..
    · rfl
  refine ⟨tells.dated.step _, ?_, tells.saved, tells.renewed, cached, ?_, ?_⟩
  · rw [Service.step, listed]
    exact tells.held
  · simp [Service.step, listed, tells.placed]
  · intro other after found named
    rw [generation]
    simp only [Service.step, listed] at found
    by_cases own : id = other
    · subst own
      rw [List.getElem?_set_self (List.getElem?_eq_some_iff.mp listed).1] at found
      cases found
      have same : call.finish.name = call.name := by
        unfold Call.finish
        split <;> rfl
      exact (tells.called id call listed (same.symm.trans named)).finish
    · rw [List.getElem?_set_ne own] at found
      exact tells.called other after found named

theorem Tells.finish (tells : lineage.Tells name codes service) (id : Nat) :
    (lineage.step name service (.finish id)).Tells name codes (service.step (.finish id)) := by
  cases listed : service.calls[id]? with
  | none =>
      have unchanged : service.step (.finish id) = service := by rw [Service.step, listed]
      rw [unchanged]
      simpa [Lineage.step, listed] using tells
  | some call =>
      rcases cache_finish listed with ⟨named, keeps, answer, program, phase, reads, found⟩ |
        ⟨drops, found⟩
      · have supplies := tells.called id call listed named
        simp only [Supplies, phase, named] at supplies
        cases given : lineage.version? id with
        | none =>
            rw [given] at supplies
            obtain ⟨error, fails⟩ := supplies
            rw [reads] at fails
            cases fails
        | some version =>
            rw [given] at supplies
            obtain ⟨known, rfl, newer⟩ := supplies
            simp only [Lineage.step, listed, named, keeps, given, Option.any_some, beq_self_eq_true,
              Bool.and_self, if_true, Option.getD_some]
            refine tells.end listed version fun other hit => ?_
            rw [found] at hit
            cases hit
            exact ⟨newer trivial, known, reads⟩
      · simp only [Lineage.step, listed, drops, Option.any_some, Bool.false_eq_true, if_false]
        refine tells.end listed lineage.cached ?_
        rw [found]
        exact tells.cached

theorem Tells.step (tells : lineage.Tells name codes service) {step : Step}
    (halved : step.Halved) :
    (lineage.step name service step).Tells name (codes ++ (saved? name step).toList)
      (service.step step) := by
  cases step with
  | save other compiled => exact tells.save other compiled
  | register => exact halved.elim
  | invalidate other => simpa [saved?] using tells.invalidate other
  | start other data => simpa [saved?] using tells.start other data
  | load id reply => simpa [saved?] using tells.load id reply
  | finish id => simpa [saved?] using tells.finish id

theorem Tells.run (tells : lineage.Tells name codes service) {steps : List Step}
    (halved : ∀ step ∈ steps, step.Halved) :
    (lineage.run name service steps).Tells name (codes ++ versions name steps)
      (service.run steps) := by
  induction steps generalizing lineage codes service with
  | nil => simpa [versions, Lineage.run] using tells
  | cons step rest ih =>
      have after := tells.step (halved step List.mem_cons_self)
      have all := ih after fun step within => halved step (List.mem_cons_of_mem _ within)
      rwa [List.append_assoc, ← versions_singleton, ← versions_append] at all

theorem Tells.initial {extensions : List Extension} {strict : Bool} {engine : Engine}
    (built : Engine.build extensions strict = .ok engine) (name : String) :
    ({} : Lineage).Tells name [] ⟨engine, []⟩ := by
  rw [Engine.build_eq_ok built]
  exact {
    dated := fun _ within => nomatch within
    held := rfl
    saved := rfl
    renewed := Nat.le_refl _
    cached := fun _ found => nomatch found
    placed := rfl
    called := fun _ _ found => nomatch found }

/-- No execution from a place on computes from a version below the floor. -/
structure Above (lineage : Lineage) (floor first : Nat) : Prop where
  renewed : floor ≤ lineage.renewed
  calls : ∀ id version, first ≤ id → lineage.version? id = some version → floor ≤ version

theorem Above.step {floor first : Nat} (above : lineage.Above floor first)
    (tells : lineage.Tells name codes service) (step : Step) :
    (lineage.step name service step).Above floor first := by
  cases step with
  | save other compiled =>
      rw [Lineage.step]
      split <;> exact ⟨above.renewed, above.calls⟩
  | invalidate other =>
      rw [Lineage.step]
      split
      · exact ⟨Nat.le_trans above.renewed tells.renewed, above.calls⟩
      · exact above
  | register => exact above
  | finish id =>
      rw [Lineage.step]
      split <;> exact ⟨above.renewed, above.calls⟩
  | start other data =>
      refine ⟨above.renewed, fun id version later given => ?_⟩
      simp only [Lineage.step, version?] at given
      by_cases old : id < lineage.calls.length
      · rw [List.getElem?_append_left old] at given
        exact above.calls id version later given
      · rw [List.getElem?_append_right (by omega), List.getElem?_singleton] at given
        split at given
        · split at given
          next contains =>
            cases given
            obtain ⟨program, found⟩ := Option.isSome_iff_exists.mp contains
            exact Nat.le_trans above.renewed (tells.cached program found).1
          next => cases given
        · cases given
  | load id reply =>
      rw [Lineage.step]
      split
      · refine ⟨above.renewed, fun other version later given => ?_⟩
        by_cases own : other = id
        · subst own
          rw [version?, List.getElem?_set] at given
          simp only [if_true] at given
          split at given
          · cases reply with
            | held =>
                cases given
                exact Nat.le_trans above.renewed tells.renewed
            | missing => cases given
            | failed error => cases given
          · cases given
        · rw [version?, List.getElem?_set_ne (Ne.symm own)] at given
          exact above.calls other version later given
      · exact above

theorem Above.run {floor first : Nat} (above : lineage.Above floor first)
    (tells : lineage.Tells name codes service) {steps : List Step}
    (halved : ∀ step ∈ steps, step.Halved) :
    (lineage.run name service steps).Above floor first := by
  induction steps generalizing lineage codes service with
  | nil => exact above
  | cons step rest ih =>
      exact ih (above.step tells step) (tells.step (halved step List.mem_cons_self))
        fun step within => halved step (List.mem_cons_of_mem _ within)

/-- The executions that are yet to start will compute from versions no older than the last
invalidation. -/
theorem Tells.above (tells : lineage.Tells name codes service) :
    lineage.Above lineage.renewed service.calls.length where
  renewed := Nat.le_refl _
  calls := by
    intro id version later given
    rw [version?, List.getElem?_eq_none (by rw [tells.placed]; exact later)] at given
    cases given

/-- An invalidation renews all versions that were saved before it. -/
theorem Tells.renewed_of_invalidate (tells : lineage.Tells name codes service)
    {early late : List Step} (halved : ∀ step ∈ early ++ .invalidate name :: late, step.Halved) :
    codes.length + (versions name early).length ≤
      (lineage.run name service (early ++ .invalidate name :: late)).renewed := by
  have first := tells.run fun step within => halved step (List.mem_append_left _ within)
  have renewed := first.step (show Step.Halved (.invalidate name) from trivial)
  have halvedLate : ∀ step ∈ late, step.Halved := fun step within =>
    halved step (List.mem_append_right _ (List.mem_cons_of_mem _ within))
  have rest := renewed.above.run renewed halvedLate
  rw [run_append]
  refine Nat.le_trans (Nat.le_of_eq ?_) rest.renewed
  simp [Lineage.step, first.saved]

/-- What an execution returns it computes from its version, or its load failed. -/
theorem Tells.result (tells : lineage.Tells name codes service) {id fuel : Nat} {call : Call}
    {result : ExecuteResult} (listed : service.calls[id]? = some call) (named : call.name = name)
    (returned : call.result? service.engine.executor fuel = some result) :
    match lineage.version? id with
    | some version => version ≤ codes.length ∧
        result = service.engine.executor.runLoaded fuel name call.data
          (.ok (versionCode? codes version))
    | none => ∃ error, result = .failed error := by
  have supplies := tells.called id call listed named
  unfold Supplies at supplies
  unfold Call.result? at returned
  split at supplies
  next program phase =>
    rw [phase] at returned
    cases returned
    obtain ⟨version, given, known, read⟩ := supplies
    rw [named] at read
    simp only [given, Executor.runLoaded, read, named]
    exact ⟨known, trivial⟩
  next generation answer phase =>
    rw [phase] at returned
    cases returned
    rw [named] at supplies ⊢
    cases given : lineage.version? id with
    | some version =>
        rw [given] at supplies
        obtain ⟨known, rfl, -⟩ := supplies
        exact ⟨known, rfl⟩
    | none =>
        rw [given] at supplies
        obtain ⟨error, fails⟩ := supplies
        exact ⟨error, by rw [Executor.runLoaded, fails]⟩
  next cached answered =>
    split at returned
    next program phase => exact absurd phase (cached program)
    next generation answer phase => exact absurd phase (answered generation answer)
    next => cases returned

end Lineage

end Service

end QueryTemplate
