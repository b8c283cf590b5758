import QueryTemplate.Compilation.Basic
import QueryTemplate.Proofs.Code.Contents
import QueryTemplate.Proofs.Meaning
import QueryTemplate.Proofs.Template.Revision

set_option autoImplicit false

/- Templates whose tags and filters an environment serves: evaluating one never asks for a tag or a
filter that is missing, and never gets a result that is not there yet. -/

namespace QueryTemplate

/-- The failures that a template or its data can bring about. -/
def RuntimeError.Permitted (strict : Bool) : RuntimeError → Prop
  | undefinedVariable _ => strict = true
  | notIterable _ => True
  | extension _ => True
  | _ => False

/-- An evaluation that fails in permitted ways only. -/
def Guarded {α : Type} (strict : Bool) (result : Except RuntimeError α) : Prop :=
  ∀ error, result = .error error → error.Permitted strict

namespace Guarded

variable {α β : Type} {strict : Bool}

theorem ok (value : α) : Guarded strict (.ok value) := fun _ failed => nomatch failed

theorem failure {error : RuntimeError} (permitted : error.Permitted strict) :
    Guarded strict (.error error : Except RuntimeError α) := by
  rintro _ ⟨⟩
  exact permitted

theorem bind {result : Except RuntimeError α} {next : α → Except RuntimeError β}
    (first : Guarded strict result) (rest : ∀ value, Guarded strict (next value)) :
    Guarded strict (result >>= next) := by
  cases result with
  | error error => exact failure (first error rfl)
  | ok value => exact rest value

end Guarded

namespace RuntimeEnvironment

variable (env : RuntimeEnvironment)

/-- The filter is there, and applied with `await` if it has to be. -/
def ServesFilter (awaited : Bool) (name : String) : Prop :=
  ∃ filter, Table.get? env.filters name = some filter ∧ (filter.isAsync → awaited = true)

end RuntimeEnvironment

mutual

def Expr.Served (env : RuntimeEnvironment) : Expr → Prop
  | .literal _ _ => True
  | .var _ _ => True
  | .attr target _ _ => target.Served env
  | .filter awaited target name _ args _ =>
    target.Served env ∧ env.ServesFilter awaited name ∧ Expr.ListServed env args
  | .negate operand _ => operand.Served env
  | .binary _ left right _ => left.Served env ∧ right.Served env

def Expr.ListServed (env : RuntimeEnvironment) : List Expr → Prop
  | [] => True
  | expr :: rest => expr.Served env ∧ Expr.ListServed env rest

end

mutual

def Node.Served (env : RuntimeEnvironment) : Node → Prop
  | .text _ _ => True
  | .output expr _ => expr.Served env
  | .branch arms none _ => Node.ArmsServed env arms
  | .branch arms (some otherwise) _ => Node.ArmsServed env arms ∧ Node.ListServed env otherwise
  | .loop _ _ iterable body _ => iterable.Served env ∧ Node.ListServed env body
  | .assign _ _ value _ => value.Served env
  | .tag name _ args none _ => env.hasTag name ∧ ∀ arg ∈ args, arg.value.Served env
  | .tag name _ args (some body) _ =>
    env.hasTag name ∧ (∀ arg ∈ args, arg.value.Served env) ∧ Node.ListServed env body

def Node.ArmsServed (env : RuntimeEnvironment) : List (Expr × List Node) → Prop
  | [] => True
  | (condition, body) :: rest =>
    condition.Served env ∧ Node.ListServed env body ∧ Node.ArmsServed env rest

def Node.ListServed (env : RuntimeEnvironment) : List Node → Prop
  | [] => True
  | node :: rest => node.Served env ∧ Node.ListServed env rest

end

/-- Every asynchronous filter of an environment is marked. -/
def Revision.AwaitsAll (r : Revision) (env : RuntimeEnvironment) : Prop :=
  ∀ awaited name filter, Table.get? env.filters name = some filter → filter.isAsync →
    r.awaited awaited name = true

/-- The environment has all tags and filters that are named. -/
def RuntimeEnvironment.ResolvesAll (env : RuntimeEnvironment) (symbols : List Symbol) : Prop :=
  ∀ symbol ∈ symbols, env.resolves symbol

namespace RuntimeEnvironment.ResolvesAll

variable {env : RuntimeEnvironment}

@[simp] theorem append (first second : List Symbol) :
    env.ResolvesAll (first ++ second) ↔ env.ResolvesAll first ∧ env.ResolvesAll second :=
  List.forall_mem_append

@[simp] theorem cons (symbol : Symbol) (symbols : List Symbol) :
    env.ResolvesAll (symbol :: symbols) ↔ env.resolves symbol ∧ env.ResolvesAll symbols :=
  List.forall_mem_cons

end RuntimeEnvironment.ResolvesAll

section Symbols

variable {env : RuntimeEnvironment} {r : Revision}

theorem Revision.AwaitsAll.servesFilter (awaits : r.AwaitsAll env) (awaited : Bool) {name : String}
    (present : env.hasFilter name) : env.ServesFilter (r.awaited awaited name) name := by
  obtain ⟨filter, found⟩ := Option.isSome_iff_exists.mp present
  exact ⟨filter, found, awaits awaited name filter found⟩

mutual

theorem Expr.served_revise (awaits : r.AwaitsAll env) (expr : Expr)
    (resolved : env.ResolvesAll expr.symbols) : (expr.revise r).Served env := by
  match expr with
  | .literal _ _ => exact trivial
  | .var _ _ => exact trivial
  | .attr target _ _ => exact Expr.served_revise awaits target resolved
  | .filter awaited target name _ args _ =>
      simp only [Expr.symbols, RuntimeEnvironment.ResolvesAll.append,
        RuntimeEnvironment.ResolvesAll.cons] at resolved
      obtain ⟨first, present, rest⟩ := resolved
      exact ⟨Expr.served_revise awaits target first, awaits.servesFilter awaited present,
        Expr.listServed_revise awaits args rest⟩
  | .negate operand _ => exact Expr.served_revise awaits operand resolved
  | .binary _ left right _ =>
      rw [Expr.symbols, RuntimeEnvironment.ResolvesAll.append] at resolved
      exact ⟨Expr.served_revise awaits left resolved.1, Expr.served_revise awaits right resolved.2⟩

theorem Expr.listServed_revise (awaits : r.AwaitsAll env) (exprs : List Expr)
    (resolved : env.ResolvesAll (Expr.listSymbols exprs)) :
    Expr.ListServed env (Expr.listRevise r exprs) := by
  match exprs with
  | [] => exact trivial
  | expr :: rest =>
      rw [Expr.listSymbols, RuntimeEnvironment.ResolvesAll.append] at resolved
      exact ⟨Expr.served_revise awaits expr resolved.1,
        Expr.listServed_revise awaits rest resolved.2⟩

end

theorem Arg.served_revise (awaits : r.AwaitsAll env) (args : List Arg)
    (resolved : env.ResolvesAll (args.flatMap (·.value.symbols))) :
    ∀ arg ∈ args.map (·.revise r), arg.value.Served env := by
  intro arg within
  obtain ⟨original, listed, rfl⟩ := List.mem_map.mp within
  have each : env.ResolvesAll original.value.symbols :=
    fun symbol named => resolved symbol (List.mem_flatMap.mpr ⟨original, listed, named⟩)
  cases original <;> exact Expr.served_revise awaits _ each

mutual

theorem Node.served_revise (awaits : r.AwaitsAll env) (node : Node)
    (resolved : env.ResolvesAll node.symbols) : (node.revise r).Served env := by
  match node with
  | .text _ _ => exact trivial
  | .output expr _ => exact Expr.served_revise awaits expr resolved
  | .branch arms none _ => exact Node.armsServed_revise awaits arms resolved
  | .branch arms (some otherwise) _ =>
      rw [Node.symbols, RuntimeEnvironment.ResolvesAll.append] at resolved
      exact ⟨Node.armsServed_revise awaits arms resolved.1,
        Node.listServed_revise awaits otherwise resolved.2⟩
  | .loop _ _ iterable body _ =>
      rw [Node.symbols, RuntimeEnvironment.ResolvesAll.append] at resolved
      exact ⟨Expr.served_revise awaits iterable resolved.1,
        Node.listServed_revise awaits body resolved.2⟩
  | .assign _ _ value _ => exact Expr.served_revise awaits value resolved
  | .tag _ _ args none _ =>
      rw [Node.symbols, RuntimeEnvironment.ResolvesAll.cons] at resolved
      exact ⟨resolved.1, Arg.served_revise awaits args resolved.2⟩
  | .tag _ _ args (some body) _ =>
      rw [Node.symbols, RuntimeEnvironment.ResolvesAll.append,
        RuntimeEnvironment.ResolvesAll.cons] at resolved
      obtain ⟨⟨present, values⟩, inner⟩ := resolved
      exact ⟨present, Arg.served_revise awaits args values,
        Node.listServed_revise awaits body inner⟩

theorem Node.armsServed_revise (awaits : r.AwaitsAll env) (arms : List (Expr × List Node))
    (resolved : env.ResolvesAll (Node.armSymbols arms)) :
    Node.ArmsServed env (Node.armsRevise r arms) := by
  match arms with
  | [] => exact trivial
  | (condition, body) :: rest =>
      simp only [Node.armSymbols, RuntimeEnvironment.ResolvesAll.append] at resolved
      obtain ⟨⟨first, inner⟩, others⟩ := resolved
      exact ⟨Expr.served_revise awaits condition first, Node.listServed_revise awaits body inner,
        Node.armsServed_revise awaits rest others⟩

theorem Node.listServed_revise (awaits : r.AwaitsAll env) (nodes : List Node)
    (resolved : env.ResolvesAll (Node.listSymbols nodes)) :
    Node.ListServed env (Node.listRevise r nodes) := by
  match nodes with
  | [] => exact trivial
  | node :: rest =>
      rw [Node.listSymbols, RuntimeEnvironment.ResolvesAll.append] at resolved
      exact ⟨Node.served_revise awaits node resolved.1,
        Node.listServed_revise awaits rest resolved.2⟩

end

end Symbols

variable (around : Surroundings)

theorem Surroundings.guarded_load (frames : List Frame) (name : String) :
    Guarded around.strict (around.load frames name) := by
  unfold load
  split
  next => exact Guarded.ok _
  next =>
    split
    next strict => exact Guarded.failure strict
    next => exact Guarded.ok _

variable {around}

theorem Surroundings.guarded_applyFilter {awaited : Bool} {name : String}
    (serves : around.runtime.ServesFilter awaited name) (target : Json) (args : List Json) :
    Guarded around.strict (around.applyFilter awaited name target args) := by
  obtain ⟨filter, found, awaits⟩ := serves
  simp only [applyFilter, found]
  split
  next unawaited =>
    rw [Bool.and_eq_true, Bool.not_eq_true'] at unawaited
    rw [awaits unawaited.1] at unawaited
    cases unawaited.2
  next =>
    split
    · exact Guarded.failure trivial
    · exact Guarded.ok _

mutual

theorem Expr.guarded_eval (expr : Expr) (served : expr.Served around.runtime)
    (frames : List Frame) : Guarded around.strict (expr.eval around frames) := by
  match expr with
  | .literal _ _ => exact Guarded.ok _
  | .var name _ => exact around.guarded_load frames name
  | .attr target _ _ =>
      exact (Expr.guarded_eval target served frames).bind fun _ => Guarded.ok _
  | .filter _ target name _ args _ =>
      obtain ⟨first, serves, rest⟩ := served
      apply (Expr.guarded_eval target first frames).bind
      intro value
      apply (Expr.guarded_listEval args rest frames).bind
      intro values
      exact Surroundings.guarded_applyFilter serves _ _
  | .negate operand _ =>
      exact (Expr.guarded_eval operand served frames).bind fun _ => Guarded.ok _
  | .binary op left right _ =>
      have first := Expr.guarded_eval left served.1 frames
      have second := Expr.guarded_eval right served.2 frames
      cases op
      case and =>
        apply first.bind
        intro value
        split
        · exact second
        · exact Guarded.ok _
      case or =>
        apply first.bind
        intro value
        split
        · exact Guarded.ok _
        · exact second
      all_goals exact first.bind fun _ => second.bind fun _ => Guarded.ok _

theorem Expr.guarded_listEval (exprs : List Expr) (served : Expr.ListServed around.runtime exprs)
    (frames : List Frame) : Guarded around.strict (Expr.listEval around frames exprs) := by
  match exprs with
  | [] => exact Guarded.ok _
  | expr :: rest =>
      apply (Expr.guarded_eval expr served.1 frames).bind
      intro value
      exact (Expr.guarded_listEval rest served.2 frames).bind fun _ => Guarded.ok _

end

theorem Expr.listServed_of_forall {env : RuntimeEnvironment} {exprs : List Expr}
    (served : ∀ expr ∈ exprs, expr.Served env) : Expr.ListServed env exprs := by
  induction exprs with
  | nil => exact trivial
  | cons expr rest ih =>
      obtain ⟨head, tail⟩ := List.forall_mem_cons.mp served
      exact ⟨head, ih tail⟩

/-- The positional arguments, and the keyword arguments, are among those that are pushed. -/
theorem Arg.listServed_of_pushed {env : RuntimeEnvironment} {args : List Arg}
    (served : ∀ arg ∈ args, arg.value.Served env) {exprs : List Expr}
    (among : ∀ expr ∈ exprs, expr ∈ Arg.pushed args) : Expr.ListServed env exprs := by
  apply Expr.listServed_of_forall
  intro expr within
  obtain ⟨arg, listed, rfl⟩ := Arg.mem_pushed.mp (among expr within)
  exact served arg listed

theorem Arg.listServed_positionals {env : RuntimeEnvironment} {args : List Arg}
    (served : ∀ arg ∈ args, arg.value.Served env) : Expr.ListServed env (Arg.positionals args) :=
  Arg.listServed_of_pushed served fun _ within => List.mem_append_left _ within

theorem Arg.listServed_keywords {env : RuntimeEnvironment} {args : List Arg}
    (served : ∀ arg ∈ args, arg.value.Served env) :
    Expr.ListServed env ((Arg.keywords args).map (·.2)) :=
  Arg.listServed_of_pushed served fun _ within => List.mem_append_right _ within

theorem Scene.guarded_callTag {name : String} (present : around.runtime.hasTag name)
    (scene : Scene) (args : List Slot) (keys : List String) (values : List Slot)
    (body : Option Builder) :
    Guarded around.strict (scene.callTag around name args keys values body) := by
  obtain ⟨run, found⟩ := Option.isSome_iff_exists.mp present
  simp only [callTag, found]
  split
  · exact Guarded.failure trivial
  · exact Guarded.ok _

theorem Scene.guarded_iterate {var : String} {length : Nat}
    {body : Scene → Except RuntimeError Scene} (each : ∀ scene, Guarded around.strict (body scene))
    (items : List Json) (index : Nat) (scene : Scene) :
    Guarded around.strict (Scene.iterate var length body index items scene) := by
  induction items generalizing index scene with
  | nil => exact Guarded.ok _
  | cons item items ih => exact (each _).bind fun _ => ih _ _

mutual

theorem Node.guarded_exec (node : Node) (served : node.Served around.runtime) (scene : Scene) :
    Guarded around.strict (node.exec around scene) := by
  match node with
  | .text _ _ => exact Guarded.ok _
  | .output expr _ =>
      exact (Expr.guarded_eval expr served _).bind fun _ => Guarded.ok _
  | .branch arms none _ =>
      exact (Node.guarded_armsExec arms served scene).bind fun _ => Guarded.ok _
  | .branch arms (some otherwise) _ =>
      apply (Node.guarded_armsExec arms served.1 scene).bind
      intro taken
      cases taken with
      | some taken => exact Guarded.ok _
      | none => exact Node.guarded_listExec otherwise served.2 scene
  | .loop var _ iterable body _ =>
      apply (Expr.guarded_eval iterable served.1 _).bind
      intro value
      split
      · exact Guarded.failure trivial
      · refine Guarded.bind ?_ fun _ => Guarded.ok _
        exact Scene.guarded_iterate (fun inner => Node.guarded_listExec body served.2 inner) _ _ _
  | .assign _ _ value _ =>
      exact (Expr.guarded_eval value served _).bind fun _ => Guarded.ok _
  | .tag name _ args none _ =>
      obtain ⟨present, values⟩ := served
      apply (Expr.guarded_listEval _ (Arg.listServed_positionals values) _).bind
      intro _
      apply (Expr.guarded_listEval _ (Arg.listServed_keywords values) _).bind
      intro _
      exact Scene.guarded_callTag present _ _ _ _ _
  | .tag name _ args (some body) _ =>
      obtain ⟨present, values, inner⟩ := served
      apply (Node.guarded_listExec body inner _).bind
      intro _
      apply (Expr.guarded_listEval _ (Arg.listServed_positionals values) _).bind
      intro _
      apply (Expr.guarded_listEval _ (Arg.listServed_keywords values) _).bind
      intro _
      exact Scene.guarded_callTag present _ _ _ _ _

theorem Node.guarded_armsExec (arms : List (Expr × List Node))
    (served : Node.ArmsServed around.runtime arms) (scene : Scene) :
    Guarded around.strict (Node.armsExec around scene arms) := by
  match arms with
  | [] => exact Guarded.ok _
  | (condition, body) :: rest =>
      obtain ⟨first, inner, others⟩ := served
      apply (Expr.guarded_eval condition first _).bind
      intro value
      split
      · exact (Node.guarded_listExec body inner scene).bind fun _ => Guarded.ok _
      · exact Node.guarded_armsExec rest others scene

theorem Node.guarded_listExec (nodes : List Node) (served : Node.ListServed around.runtime nodes)
    (scene : Scene) : Guarded around.strict (Node.listExec around scene nodes) := by
  match nodes with
  | [] => exact Guarded.ok _
  | node :: rest =>
      apply (Node.guarded_exec node served.1 scene).bind
      intro next
      exact Node.guarded_listExec rest served.2 next

end

end QueryTemplate
