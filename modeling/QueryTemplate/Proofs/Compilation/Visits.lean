import QueryTemplate.Proofs.Compilation.Metadata
import QueryTemplate.Proofs.Template.Addresses

set_option autoImplicit false

/- The visits that sessions get. The tree is walked from the top, and every element is shown to each
session that is to see it before the walk goes on. Whatever the sessions do, and whatever they
share, the visits are the same, and the state of a session depends on its own visits only. -/

namespace QueryTemplate

universe u

section Walk

variable {World : Type u} (visit : World → Element → World)

mutual

/-- Visits an expression, and then what it is made of. -/
def Expr.walk (world : World) : Expr → World
  | .literal value span => visit world (.expr (.literal value span))
  | .var name span => visit world (.expr (.var name span))
  | .attr target name span => target.walk (visit world (.expr (.attr target name span)))
  | .filter awaited target name nameSpan args span =>
    let world := visit world (.expr (.filter awaited target name nameSpan args span))
    Expr.listWalk (target.walk world) args
  | .negate operand span => operand.walk (visit world (.expr (.negate operand span)))
  | .binary op left right span =>
    right.walk (left.walk (visit world (.expr (.binary op left right span))))

def Expr.listWalk (world : World) : List Expr → World
  | [] => world
  | expr :: rest => Expr.listWalk (expr.walk world) rest

end

mutual

/-- Visits a node, and then what it is made of. -/
def Node.walk (world : World) : Node → World
  | .text content span => visit world (.node (.text content span))
  | .output expr span => expr.walk visit (visit world (.node (.output expr span)))
  | .branch arms none span => Node.armsWalk (visit world (.node (.branch arms none span))) arms
  | .branch arms (some otherwise) span =>
    let world := visit world (.node (.branch arms (some otherwise) span))
    Node.listWalk (Node.armsWalk world arms) otherwise
  | .loop var varSpan iterable body span =>
    let world := visit world (.node (.loop var varSpan iterable body span))
    Node.listWalk (iterable.walk visit world) body
  | .assign var varSpan value span =>
    value.walk visit (visit world (.node (.assign var varSpan value span)))
  | .tag name nameSpan args none span =>
    let world := visit world (.node (.tag name nameSpan args none span))
    args.foldl (fun world arg => arg.value.walk visit world) world
  | .tag name nameSpan args (some body) span =>
    let world := visit world (.node (.tag name nameSpan args (some body) span))
    Node.listWalk (args.foldl (fun world arg => arg.value.walk visit world) world) body

def Node.armsWalk (world : World) : List (Expr × List Node) → World
  | [] => world
  | (condition, body) :: rest =>
    Node.armsWalk (Node.listWalk (condition.walk visit world) body) rest

def Node.listWalk (world : World) : List Node → World
  | [] => world
  | node :: rest => Node.listWalk (node.walk world) rest

end

def Template.walk (world : World) (template : Template) : World :=
  Node.listWalk visit world template

mutual

theorem Expr.walk_eq (world : World) (expr : Expr) :
    expr.walk visit world = expr.elements.foldl visit world := by
  match expr with
  | .literal _ _ => rfl
  | .var _ _ => rfl
  | .attr target _ _ => rw [walk, walk_eq, elements, List.foldl_cons]
  | .filter _ target _ _ args _ =>
      rw [walk, listWalk_eq, walk_eq, elements, List.cons_append, List.foldl_cons,
        List.foldl_append]
  | .negate operand _ => rw [walk, walk_eq, elements, List.foldl_cons]
  | .binary _ left right _ =>
      rw [walk, walk_eq, walk_eq, elements, List.cons_append, List.foldl_cons, List.foldl_append]

theorem Expr.listWalk_eq (world : World) (exprs : List Expr) :
    listWalk visit world exprs = (listElements exprs).foldl visit world := by
  match exprs with
  | [] => rfl
  | expr :: rest => rw [listWalk, listWalk_eq, walk_eq, listElements, List.foldl_append]

end

theorem Arg.walk_eq (world : World) (args : List Arg) :
    args.foldl (fun world arg => arg.value.walk visit world) world =
      (args.flatMap (·.value.elements)).foldl visit world := by
  rw [List.foldl_flatMap]
  simp only [Expr.walk_eq]

mutual

theorem Node.walk_eq (world : World) (node : Node) :
    node.walk visit world = node.elements.foldl visit world := by
  match node with
  | .text _ _ => rfl
  | .output _ _ => rw [walk, Expr.walk_eq, elements, List.foldl_cons]
  | .branch arms none _ => rw [walk, armsWalk_eq, elements, List.foldl_cons]
  | .branch arms (some otherwise) _ =>
      rw [walk, listWalk_eq, armsWalk_eq, elements, List.cons_append, List.foldl_cons,
        List.foldl_append]
  | .loop _ _ iterable body _ =>
      rw [walk, listWalk_eq, Expr.walk_eq, elements, List.cons_append, List.foldl_cons,
        List.foldl_append]
  | .assign _ _ value _ => rw [walk, Expr.walk_eq, elements, List.foldl_cons]
  | .tag _ _ args none _ => rw [walk, Arg.walk_eq, elements, List.foldl_cons]
  | .tag _ _ args (some body) _ =>
      rw [walk, listWalk_eq, Arg.walk_eq, elements, List.cons_append, List.foldl_cons,
        List.foldl_append]

theorem Node.armsWalk_eq (world : World) (arms : List (Expr × List Node)) :
    armsWalk visit world arms = (armElements arms).foldl visit world := by
  match arms with
  | [] => rfl
  | (condition, body) :: rest =>
      rw [armsWalk, armsWalk_eq, listWalk_eq, Expr.walk_eq, armElements, List.foldl_append,
        List.foldl_append]

theorem Node.listWalk_eq (world : World) (nodes : List Node) :
    listWalk visit world nodes = (listElements nodes).foldl visit world := by
  match nodes with
  | [] => rfl
  | node :: rest => rw [listWalk, listWalk_eq, walk_eq, listElements, List.foldl_append]

end

/-- A walk visits the elements of the template one by one. -/
theorem Template.walk_eq (world : World) (template : Template) :
    template.walk visit world = template.elements.foldl visit world :=
  Node.listWalk_eq visit world template

end Walk

/-- One element shown to one session: where it stands in the tree, and which session it is. -/
structure Turn where
  address : List Nat
  element : Element
  session : Nat

/-- Turns go by elements, and for one element by sessions. -/
def Turn.Before (first second : Turn) : Prop :=
  first.address < second.address ∨
    first.address = second.address ∧ first.session < second.session

namespace Session

theorem sees_iff {session : Session} {element : Element} :
    session.sees element ↔
      session.capabilities.astVisit ∧ session.hooks.interestedIn element.kind := by
  rw [sees, Bool.and_eq_true]

/-- Shows an element to the sessions that are to see it, each of which acts on the world. -/
def present {World : Type u} (act : Nat → World → Element → World) (sessions : List Session)
    (world : World) (element : Element) : World :=
  sessions.zipIdx.foldl
    (fun world item => if item.1.sees element then act item.2 world element else world) world

/-- What a session does by itself: it changes its own state. -/
def actAlone (index : Nat) (sessions : List Session) (element : Element) : List Session :=
  sessions.modify index (·.visit element)

/-- The turns at an element that stands at an address. -/
def turnsAt (sessions : List Session) (item : List Nat × Element) : List Turn :=
  (sessions.zipIdx.filter fun listed => listed.1.sees item.2).map fun listed =>
    ⟨item.1, item.2, listed.2⟩

section Turns

variable {sessions : List Session}

theorem mem_turnsAt {item : List Nat × Element} {turn : Turn} :
    turn ∈ turnsAt sessions item ↔ turn.address = item.1 ∧ turn.element = item.2 ∧
      ∃ session, sessions[turn.session]? = some session ∧ session.sees turn.element := by
  obtain ⟨address, element, index⟩ := turn
  simp only [turnsAt, List.mem_map, List.mem_filter, Prod.exists, List.mem_zipIdx_iff_getElem?,
    Turn.mk.injEq]
  constructor
  · rintro ⟨session, _, ⟨listed, seen⟩, rfl, rfl, rfl⟩
    exact ⟨rfl, rfl, session, listed, seen⟩
  · rintro ⟨rfl, rfl, session, listed, seen⟩
    exact ⟨session, index, ⟨listed, seen⟩, rfl, rfl, rfl⟩

theorem turnsAt_ascend (sessions : List Session) (item : List Nat × Element) :
    (turnsAt sessions item).Pairwise Turn.Before := by
  refine List.pairwise_map.mpr ?_
  exact ((pairwise_zipIdx sessions).filter _).imp fun before => Or.inr ⟨rfl, before⟩

theorem present_eq {World : Type u} (act : Nat → World → Element → World)
    (sessions : List Session) (world : World) (item : List Nat × Element) :
    present act sessions world item.2 =
      (turnsAt sessions item).foldl (fun world turn => act turn.session world turn.element)
        world := by
  rw [present, turnsAt, List.foldl_map, List.foldl_filter]

/-- The item of a list with a given index, by the index alone. -/
theorem filter_zipIdx {α : Type u} (items : List α) (index offset : Nat) :
    (items.zipIdx offset).filter (·.2 == offset + index) =
      (items[index]?.map fun item => (item, offset + index)).toList := by
  induction items generalizing index offset with
  | nil => rfl
  | cons item rest ih =>
      rw [List.zipIdx_cons]
      cases index with
      | zero =>
          have later : (rest.zipIdx (offset + 1)).filter (·.2 == offset + 0) = [] := by
            refine List.filter_eq_nil_iff.mpr fun listed within => ?_
            have after := List.le_snd_of_mem_zipIdx within
            rw [beq_iff_eq]
            omega
          rw [List.filter_cons_of_pos (by simp), later]
          rfl
      | succ index =>
          have place : offset + (index + 1) = offset + 1 + index := by omega
          rw [List.filter_cons_of_neg (by simp), place, ih]
          rfl

/-- A session has one turn at an element that it is to see, and none at another. -/
theorem turnsAt_filter {index : Nat} {session : Session} (listed : sessions[index]? = some session)
    (item : List Nat × Element) :
    ((turnsAt sessions item).filter (·.session == index)).map (·.element) =
      [item.2].filter session.sees := by
  have own := filter_zipIdx sessions index 0
  rw [Nat.zero_add, listed, Option.map_some, Option.toList_some] at own
  have same : (turnsAt sessions item).filter (·.session == index) =
      ((sessions.zipIdx.filter (·.2 == index)).filter fun listed => listed.1.sees item.2).map
        fun listed => ⟨item.1, item.2, listed.2⟩ := by
    rw [turnsAt, List.filter_map, List.filter_filter, List.filter_filter]
    simp only [Function.comp_def, Bool.and_comm]
  rw [same, own]
  by_cases seen : session.sees item.2 <;> simp [seen]

/-- The turns at all elements, in the order of the addresses. -/
def turns (sessions : List Session) (addresses : List (List Nat)) (elements : List Element) :
    List Turn :=
  (addresses.zip elements).flatMap (turnsAt sessions)

variable {addresses : List (List Nat)} {elements : List Element}

theorem mem_turns {at? : List Nat → Option Element} (enumerates : Enumerates at? addresses elements)
    {turn : Turn} :
    turn ∈ turns sessions addresses elements ↔ at? turn.address = some turn.element ∧
      ∃ session, sessions[turn.session]? = some session ∧ session.sees turn.element := by
  rw [turns, List.mem_flatMap]
  constructor
  · rintro ⟨item, listed, within⟩
    obtain ⟨address, element, seen⟩ := mem_turnsAt.mp within
    refine ⟨enumerates.mem_zip.mp ?_, seen⟩
    rw [address, element]
    exact listed
  · rintro ⟨there, seen⟩
    exact ⟨(turn.address, turn.element), enumerates.mem_zip.mpr there,
      mem_turnsAt.mpr ⟨rfl, rfl, seen⟩⟩

theorem turns_ascend (same : addresses.length = elements.length)
    (ascending : addresses.Pairwise (· < ·)) (sessions : List Session) :
    (turns sessions addresses elements).Pairwise Turn.Before := by
  refine List.pairwise_flatMap.mpr ⟨fun item _ => turnsAt_ascend sessions item, ?_⟩
  have front : ((addresses.zip elements).map Prod.fst).Pairwise (· < ·) := by
    rw [List.map_fst_zip (Nat.le_of_eq same)]
    exact ascending
  refine (List.pairwise_map.mp front).imp fun before turn within other within' => Or.inl ?_
  rw [(mem_turnsAt.mp within).1, (mem_turnsAt.mp within').1]
  exact before

theorem foldl_present {World : Type u} (act : Nat → World → Element → World)
    (same : addresses.length = elements.length) (world : World) :
    elements.foldl (present act sessions) world =
      (turns sessions addresses elements).foldl
        (fun world turn => act turn.session world turn.element) world := by
  rw [turns, List.foldl_flatMap]
  simp only [← present_eq]
  rw [← List.foldl_map (f := Prod.snd), List.map_snd_zip (Nat.le_of_eq same.symm)]

/-- A session has its turns at the elements that it is to see. -/
theorem turns_filter (same : addresses.length = elements.length) {index : Nat} {session : Session}
    (listed : sessions[index]? = some session) :
    ((turns sessions addresses elements).filter (·.session == index)).map (·.element) =
      elements.filter session.sees := by
  rw [turns, List.filter_flatMap, List.map_flatMap]
  simp only [turnsAt_filter listed]
  rw [← List.flatMap_map (f := Prod.snd) (g := fun element => [element].filter session.sees),
    List.map_snd_zip (Nat.le_of_eq same.symm), ← List.filter_flatMap, List.flatMap_singleton']

/-- Turns of other sessions do not matter to a session. -/
theorem getElem?_foldl_actAlone (turns : List Turn) (sessions : List Session) (index : Nat) :
    (turns.foldl (fun sessions turn => actAlone turn.session sessions turn.element)
        sessions)[index]? =
      sessions[index]?.map fun session =>
        ((turns.filter (·.session == index)).map (·.element)).foldl visit session := by
  induction turns generalizing sessions with
  | nil => simp
  | cons turn rest ih =>
      rw [List.foldl_cons, ih, actAlone, List.getElem?_modify]
      by_cases own : turn.session = index
      · simp [own, Function.comp_def]
      · simp [own]

end Turns

/-- The visits of a walk are those that the capabilities and the interests of the sessions ask for:
each in its turn, whatever is done at the turns. The sessions end as if each had been alone. -/
theorem walk_exact (template : Template) (sessions : List Session) :
    ∃ turns : List Turn, turns.Pairwise Turn.Before ∧
      (∀ turn, turn ∈ turns ↔ template.at? turn.address = some turn.element ∧
        ∃ session, sessions[turn.session]? = some session ∧ session.capabilities.astVisit ∧
          session.hooks.interestedIn turn.element.kind) ∧
      (∀ (World : Type u) (act : Nat → World → Element → World) (world : World),
        template.walk (present act sessions) world =
          turns.foldl (fun world turn => act turn.session world turn.element) world) ∧
      walk template.elements sessions = template.walk (present actAlone sessions) sessions ∧
      ∀ index session, sessions[index]? = some session →
        (walk template.elements sessions)[index]? =
          some { session with
            state := ((turns.filter (·.session == index)).map (·.element)).foldl
              session.hooks.visit session.state } ∧
        (turns.filter (·.session == index)).map (·.element) =
          template.elements.filter session.sees := by
  obtain ⟨addresses, enumerates⟩ := template.enumerates
  have same : addresses.length = template.elements.length := by
    rw [← List.length_map (f := template.at?), enumerates.found, List.length_map]
  have alone (index : Nat) (session : Session) (listed : sessions[index]? = some session) :
      (walk template.elements sessions)[index]? =
        some { session with
          state := (template.elements.filter session.sees).foldl
            session.hooks.visit session.state } := by
    rw [walk_eq_map, List.getElem?_map, listed, Option.map_some, foldl_visit]
  refine ⟨turns sessions addresses template.elements,
    turns_ascend same enumerates.ascending sessions, fun turn => ?_, fun World act world => ?_, ?_,
    fun index session listed => ?_⟩
  · rw [mem_turns enumerates]
    simp only [sees_iff]
  · rw [Template.walk_eq, foldl_present act same]
  · refine List.ext_getElem? fun index => ?_
    rw [Template.walk_eq, foldl_present actAlone same, getElem?_foldl_actAlone]
    cases listed : sessions[index]? with
    | none => rw [walk_eq_map, List.getElem?_map, listed, Option.map_none, Option.map_none]
    | some session =>
        rw [alone index session listed, Option.map_some, turns_filter same listed, foldl_visit,
          List.filter_filter]
        simp only [Bool.and_self]
  · rw [turns_filter same listed]
    exact ⟨alone index session listed, rfl⟩

/-- Two sessions that count, and between them one that cannot see the tree. -/
theorem walk_exact_interleaved :
    let counting (capabilities : Capabilities) (interestedIn : ElementKind → Bool) : Watcher :=
      ⟨"counting", capabilities, ⟨Nat, 0, interestedIn, fun count _ => count + 1,
        fun count => some ("count", .nat count)⟩⟩
    let sessions := [counting .all fun _ => true, counting ⟨false, true⟩ fun _ => true,
      counting .all (· == .text)].map start
    let order : List (Nat × ElementKind) := [(0, .text), (2, .text), (0, .output), (0, .filter),
      (0, .var), (0, .text), (2, .text)]
    ∃ template, Template.parse [] "a\x7b\x7b x | upper \x7d\x7db" = .ok template ∧
      (∃ turns : List Turn, turns.Pairwise Turn.Before ∧
        turns.map (fun turn => (turn.session, turn.element.kind)) = order) ∧
      ∃ session, (walk template.elements sessions)[2]? = some session ∧
        session.contribution? = some ("count", .nat 2) := by
  intro counting sessions order
  have noted : (Template.parse [] "a\x7b\x7b x | upper \x7d\x7db").toOption.any (fun template =>
      template.walk (present (fun index notes element => notes ++ [(index, element.kind)]) sessions)
          [] == order) = true := by decide +kernel
  obtain ⟨template, parsed, noted⟩ := exists_ok_of_any noted
  obtain ⟨turns, ascending, -, walked, -, ended⟩ := walk_exact template sessions
  have taken : turns.map (fun turn => (turn.session, turn.element.kind)) = order := by
    have written := walked _ (fun index notes element => notes ++ [(index, element.kind)]) []
    rw [beq_iff_eq.mp noted, List.foldl_append_eq_append, List.nil_append, ← List.flatMap_def,
      ← List.map_eq_flatMap] at written
    exact written.symm
  have own : ((turns.filter (·.session == 2)).map (·.element)).map Element.kind =
      [.text, .text] := by
    have kept := congrArg (fun noted => (noted.filter (·.1 == 2)).map Prod.snd) taken
    rw [List.filter_map, List.map_map] at kept
    rw [List.map_map]
    exact kept
  obtain ⟨last, -⟩ := ended 2 _ rfl
  refine ⟨template, parsed, ⟨turns, ascending, taken⟩, _, last, ?_⟩
  have counted (elements : List Element) :
      (elements.map Element.kind).foldl (fun count _ => count + 1) 0 =
        elements.foldl (fun count _ => count + 1) 0 := List.foldl_map
  specialize counted ((turns.filter (·.session == 2)).map (·.element))
  rw [own] at counted
  exact congrArg (fun count : Nat => some ("count", Json.nat count)) counted.symm

end Session

end QueryTemplate
