import QueryTemplate.Proofs.Compilation.Loading
import QueryTemplate.Proofs.Execution.History

set_option autoImplicit false

/- The requests that an execution completes, as the states tell in which they are called: with their
names, their `main` arguments, and their bodies as they are at that moment. Of all of them one is
exported. -/

namespace QueryTemplate

/-- A request as it is called. -/
structure Request where
  name : String
  main : Bool
  body : Builder

namespace Request

/-- The builder of a request: its trimmed body under its name. -/
def builder (request : Request) : Builder :=
  { request.body.trim with name := some request.name }

/-- Of requests in the order of their completion, the last that is marked with `main`, or else the
first. -/
def chosen? (requests : List Request) : Option Request :=
  (requests.filter (·.main)).getLast?.or requests.head?

theorem chosen?_eq_none {requests : List Request} : chosen? requests = none ↔ requests = [] := by
  cases requests with
  | nil => simp [chosen?]
  | cons first rest => simp [chosen?]

/-- One more request is chosen if it is marked or the first. -/
theorem chosen?_concat (requests : List Request) (request : Request) :
    chosen? (requests ++ [request]) =
      if request.main || (chosen? requests).isNone then some request else chosen? requests := by
  unfold chosen?
  cases marked : request.main with
  | true => simp [List.filter_append, marked]
  | false =>
      have same : (requests ++ [request]).filter (·.main) = requests.filter (·.main) := by
        simp [List.filter_append, marked]
      rw [same, List.head?_append, List.head?_singleton]
      cases (requests.filter (·.main)).getLast? <;> cases requests.head? <;> rfl

end Request

namespace Machine

/-- The body that a tag is called with, empty if it has none. -/
def bodyOf (machine : Machine) : (hasBody : Bool) → Builder
  | true => machine.captures.head?.getD .empty
  | false => .empty

/-- The request that the next step is to complete, if it calls one. -/
def request? (setting : Setting) (machine : Machine) : Option Request :=
  match setting.program[machine.pc]? with
  | some (.callTag tag argc kwargs hasBody) =>
    let values := (machine.stack.take kwargs.length).reverse.map Slot.toJson
    let args := ((machine.stack.drop kwargs.length).take argc).reverse.map Slot.toJson
    match args with
    | .string name :: _ =>
      if tag = Catalog.Request.name then
        some {
          name
          main := (Table.get? (Table.ofList (kwargs.zip values)) "main").any Json.isTruthy
          body := machine.bodyOf hasBody }
      else none
    | _ => none
  | _ => none

variable {setting : Setting} {machine next : Machine} {name : String} {argc : Nat}
  {kwargs : List String} {hasBody : Bool}

theorem TakesBody.bodyOf {body : Option Builder} {rest : Machine}
    (takes : machine.TakesBody hasBody body rest) :
    rest.exported = machine.exported ∧ body.getD .empty = machine.bodyOf hasBody := by
  cases takes with
  | none => exact ⟨rfl, rfl⟩
  | captured innermost =>
      refine ⟨rfl, ?_⟩
      simp only [Machine.bodyOf, innermost]
      rfl

end Machine

/-- All tags are built-in ones. -/
def RuntimeEnvironment.BuiltIn (env : RuntimeEnvironment) : Prop :=
  ∀ name run, Table.get? env.tags name = some run → .tagRunner name run ∈ catalog

/-- What a request that succeeds was called with, and its effects. -/
theorem Catalog.Request.run_eq_ok {context : TagContext} {effects : List TagEffect}
    (ran : run context = .ok effects) :
    ∃ requested args, context.args = .string requested :: args ∧
      let builder : Builder := { (context.body.getD .empty).trim with name := some requested }
      let marked := (Table.get? context.kwargs "main").any Json.isTruthy
      effects = .setBuilder requested builder ::
        if marked || !context.hasExported then [.deliver builder] else [] := by
  unfold run at ran
  split at ran
  next requested args called =>
    refine ⟨requested, args, called, ?_⟩
    split at ran
    next => cases ran
    next =>
      dsimp only at ran ⊢
      split at ran
      next exports =>
        cases ran
        rw [if_pos exports]
      next silent =>
        cases ran
        rw [if_neg silent]
  next => cases ran

theorem Catalog.Raise.run_ne_ok {context : TagContext} {effects : List TagEffect} :
    run context ≠ .ok effects := by
  intro ran
  unfold run at ran
  split at ran <;> cases ran

namespace Machine

variable {setting : Setting} {machine next : Machine} {tag : String} {argc : Nat}
  {kwargs : List String} {hasBody : Bool}

/-- A call of a built-in tag that succeeds completes a request. The request is exported if it is
marked, or if nothing has been exported before. -/
theorem request_of_step (builtIn : setting.runtime.BuiltIn)
    (fetched : setting.program[machine.pc]? = some (.callTag tag argc kwargs hasBody))
    (stepped : machine.step? setting = some (.ok next)) :
    tag = Catalog.Request.name ∧ ∃ request, machine.request? setting = some request ∧
      next.exported =
        if request.main || machine.exported.isNone then some request.builder
        else machine.exported := by
  cases succeeds_of_fetched fetched stepped with
  | @callTag _ _ _ _ _ rest run effects hands found ran =>
  obtain ⟨body, takes, rfl⟩ := takesBody_of_hand hands
  obtain ⟨kept, captured⟩ := takes.bodyOf
  rcases tagRunner_mem_catalog.mp (builtIn tag run found) with ⟨rfl, rfl⟩ | ⟨rfl, rfl⟩
  · obtain ⟨requested, others, called, rfl⟩ := Catalog.Request.run_eq_ok ran
    refine ⟨rfl, ⟨requested,
      (Table.get? (Table.ofList (kwargs.zip (machine.operands kwargs.length))) "main").any
        Json.isTruthy, machine.bodyOf hasBody⟩, ?_, ?_⟩
    · have pushed : ((machine.stack.drop kwargs.length).take argc).reverse.map Slot.toJson =
          .string requested :: others := called
      simp only [request?, fetched, pushed, ↓reduceIte]
      rfl
    · have body : body.getD .empty = machine.bodyOf hasBody := captured
      have earlier : rest.exported = machine.exported := kept
      have exports (mark : Bool) (builder : Builder) :
          ((if mark then [.deliver builder] else []).foldl perform
              (rest.perform (.setBuilder requested builder))).exported =
            if mark then some builder else machine.exported := by
        cases mark with
        | true => rfl
        | false =>
            have same := builders_assign rest requested (.builder builder)
            exact (congrArg (·.2.2) same).trans earlier
      simp only [List.foldl_cons, context, body, earlier, Option.not_isSome]
      exact exports _ _
  · exact absurd ran Catalog.Raise.run_ne_ok

/-- The requests that the steps from some states complete. -/
def requests (setting : Setting) (past : List Machine) : List Request :=
  past.filterMap (·.request? setting)

/-- All output of the steps from some states. -/
def written (setting : Setting) (past : List Machine) : Builder := past.foldl (write setting) .empty

theorem requests_concat (setting : Setting) (past : List Machine) (machine : Machine) :
    requests setting (past ++ [machine]) =
      requests setting past ++ (machine.request? setting).toList := by
  unfold requests
  rw [List.filterMap_append, List.filterMap_cons, List.filterMap_nil]
  cases machine.request? setting <;> rfl

theorem written_concat (setting : Setting) (past : List Machine) (machine : Machine) :
    written setting (past ++ [machine]) = machine.write setting (written setting past) := by
  unfold written
  rw [List.foldl_append]
  rfl

/-- Before the last instruction the builder that is exported, if there is one, is that of the chosen
request. While there is no request, all output has gone into the main builder. -/
structure Undelivered (setting : Setting) (past : List Machine) (machine : Machine) : Prop where
  exported : machine.exported =
    (Request.chosen? (requests setting past)).map Request.builder
  main : requests setting past = [] → machine.captures = [] →
    machine.main = written setting past

theorem undelivered_start (setting : Setting) : Undelivered setting [] start where
  exported := rfl
  main _ _ := rfl

variable {past : List Machine} {instr : Instr}

theorem Undelivered.callTag (undelivered : Undelivered setting past machine)
    (builtIn : setting.runtime.BuiltIn)
    (fetched : setting.program[machine.pc]? = some (.callTag tag argc kwargs hasBody))
    (stepped : machine.step? setting = some (.ok next)) :
    Undelivered setting (past ++ [machine]) next := by
  obtain ⟨-, request, called, exports⟩ := request_of_step builtIn fetched stepped
  have more : requests setting (past ++ [machine]) = requests setting past ++ [request] := by
    rw [requests_concat, called]
    rfl
  constructor
  · rw [more, Request.chosen?_concat, exports, undelivered.exported]
    cases Request.chosen? (requests setting past) with
    | none => simp
    | some chosen => cases marked : request.main <;> simp
  · intro none
    rw [more] at none
    exact absurd none (List.append_ne_nil_of_right_ne_nil _ (List.cons_ne_nil _ _))

theorem request?_eq_none (fetched : setting.program[machine.pc]? = some instr)
    (plain : ∀ name argc kwargs hasBody, instr ≠ .callTag name argc kwargs hasBody) :
    machine.request? setting = none := by
  unfold request?
  split
  next calls => exact absurd (Option.some.inj (fetched.symm.trans calls)) (plain _ _ _ _)
  next => rfl

theorem Undelivered.plain (undelivered : Undelivered setting past machine)
    (fetched : setting.program[machine.pc]? = some instr)
    (plain : ∀ name argc kwargs hasBody, instr ≠ .callTag name argc kwargs hasBody)
    (open_ : instr ≠ .deliver) (stepped : machine.step? setting = some (.ok next)) :
    Undelivered setting (past ++ [machine]) next := by
  obtain ⟨exports, writes⟩ := output_of_step fetched plain open_ stepped
  have same : requests setting (past ++ [machine]) = requests setting past := by
    rw [requests_concat, request?_eq_none fetched plain]
    exact List.append_nil _
  constructor
  · rw [exports, same, undelivered.exported]
  · intro none closed
    rw [same] at none
    obtain ⟨closed, main⟩ := writes closed
    rw [main, undelivered.main none closed, written_concat]

theorem Undelivered.step (undelivered : Undelivered setting past machine)
    (builtIn : setting.runtime.BuiltIn) (fetched : setting.program[machine.pc]? = some instr)
    (open_ : instr ≠ .deliver) (stepped : machine.step? setting = some (.ok next)) :
    Undelivered setting (past ++ [machine]) next := by
  cases instr with
  | callTag tag argc kwargs hasBody => exact undelivered.callTag builtIn fetched stepped
  | _ => exact undelivered.plain fetched (fun _ _ _ _ => nofun) open_ stepped

end Machine

end QueryTemplate
