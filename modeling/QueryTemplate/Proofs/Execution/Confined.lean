import QueryTemplate.Proofs.Execution.Authored
import QueryTemplate.Proofs.Meaning

set_option autoImplicit false

/- What nodes do to variables is confined to the innermost frame: the frames below it are as they
were, and there are as many of them. -/

namespace QueryTemplate

/-- Only the innermost frame may have changed. -/
structure Scene.Confined (scene next : Scene) : Prop where
  outer : next.frames.tail = scene.frames.tail
  depth : next.frames.length = scene.frames.length

namespace Scene.Confined

variable {scene next last : Scene}

protected theorem refl (scene : Scene) : scene.Confined scene := ⟨rfl, rfl⟩

/-- What lies below the innermost frame is the same. -/
theorem shape (within : scene.Confined next) {frame : Frame} {outer : List Frame}
    (framed : scene.frames = frame :: outer) : ∃ other, next.frames = other :: outer := by
  have depth := within.depth
  have same := within.outer
  rw [framed] at depth same
  cases frames : next.frames with
  | nil =>
      rw [frames] at depth
      cases depth
  | cons other rest =>
      rw [frames] at same
      exact ⟨other, congrArg (other :: ·) same⟩

theorem trans (first : scene.Confined next) (second : next.Confined last) : scene.Confined last :=
  ⟨second.outer.trans first.outer, second.depth.trans first.depth⟩

theorem assign (scene : Scene) (name : String) (slot : Slot) :
    scene.Confined (scene.assign name slot) := by
  unfold Scene.assign
  split
  next => exact .refl scene
  next frame frames shape => exact ⟨by rw [shape]; rfl, by rw [shape]; rfl⟩

theorem perform (scene : Scene) (effect : TagEffect) : scene.Confined (scene.perform effect) := by
  cases effect with
  | setVariable name value => exact assign scene name _
  | setBuilder name builder => exact assign scene name _
  | write output => exact ⟨rfl, rfl⟩
  | deliver builder => exact ⟨rfl, rfl⟩

theorem performAll (scene : Scene) (effects : List TagEffect) :
    scene.Confined (effects.foldl Scene.perform scene) := by
  induction effects generalizing scene with
  | nil => exact .refl scene
  | cons effect effects ih => exact (perform scene effect).trans (ih _)

theorem emit (scene : Scene) (slot : Slot) : scene.Confined (scene.emit slot) := by
  cases slot <;> exact ⟨rfl, rfl⟩

theorem bindItem (scene : Scene) (var : String) (item : Json) (index length : Nat) :
    scene.Confined (scene.bindItem var item index length) :=
  (assign scene var _).trans (assign _ "loop" _)

/-- A loop has a frame of its own. -/
theorem closeLoop (inner : scene.openLoop.Confined next) : scene.Confined next.closeLoop :=
  ⟨congrArg List.tail inner.outer, congrArg List.length inner.outer⟩

end Scene.Confined

section

variable (around : Surroundings)

theorem Scene.confined_callTag (scene : Scene) (name : String) (args : List Slot)
    (keys : List String) (values : List Slot) (body : Option Builder) :
    Gives scene.Confined (scene.callTag around name args keys values body) := by
  unfold Scene.callTag
  split
  · exact .error _
  · dsimp only
    split
    · exact .error _
    · exact .ok (.performAll scene _)

theorem Scene.confined_iterate {var : String} {length : Nat}
    {body : Scene → Except RuntimeError Scene} (each : ∀ scene, Gives scene.Confined (body scene))
    (items : List Json) (index : Nat) (scene : Scene) :
    Gives scene.Confined (Scene.iterate var length body index items scene) := by
  induction items generalizing index scene with
  | nil => exact .ok (.refl scene)
  | cons item items ih =>
      refine (each _).bind fun next turned => ?_
      exact fun last iterated =>
        (Confined.bindItem scene var item index length).trans (turned.trans (ih _ _ last iterated))

mutual

theorem Node.confined_exec (node : Node) (scene : Scene) :
    Gives scene.Confined (node.exec around scene) := by
  match node with
  | .text _ _ => exact .ok ⟨rfl, rfl⟩
  | .output expr _ =>
      exact .of_bind fun value => .ok (.emit scene value)
  | .branch arms none _ =>
      refine (Node.confined_armsExec arms scene).bind fun taken within => ?_
      cases taken with
      | none => exact .ok (.refl scene)
      | some next => exact .ok (within next rfl)
  | .branch arms (some otherwise) _ =>
      refine (Node.confined_armsExec arms scene).bind fun taken within => ?_
      cases taken with
      | none => exact Node.confined_listExec otherwise scene
      | some next => exact .ok (within next rfl)
  | .loop var _ iterable body _ =>
      refine .of_bind fun value => ?_
      split
      · exact .error _
      · have each := fun inner => Node.confined_listExec body inner
        exact (Scene.confined_iterate each _ _ _).bind fun next inner => .ok inner.closeLoop
  | .assign var _ value _ =>
      exact .of_bind fun slot => .ok (.assign scene var slot)
  | .tag name _ args none _ =>
      refine .of_bind fun positional => ?_
      refine .of_bind fun values => ?_
      exact Scene.confined_callTag around scene _ _ _ _ _
  | .tag name _ args (some body) _ =>
      refine (Node.confined_listExec body _).bind fun inner within => ?_
      refine .of_bind fun positional => ?_
      refine .of_bind fun values => ?_
      intro next called
      have outside := Scene.confined_callTag around _ _ _ _ _ _ next called
      exact ⟨outside.outer.trans within.outer, outside.depth.trans within.depth⟩

theorem Node.confined_armsExec (arms : List (Expr × List Node)) (scene : Scene) :
    Gives (fun taken => ∀ next, taken = some next → scene.Confined next)
      (Node.armsExec around scene arms) := by
  match arms with
  | [] => exact .ok fun _ taken => nomatch taken
  | (condition, body) :: rest =>
      refine .of_bind fun value => ?_
      split
      · refine (Node.confined_listExec body scene).bind fun next within => .ok ?_
        rintro _ ⟨⟩
        exact within
      · exact Node.confined_armsExec rest scene

theorem Node.confined_listExec (nodes : List Node) (scene : Scene) :
    Gives scene.Confined (Node.listExec around scene nodes) := by
  match nodes with
  | [] => exact .ok (.refl scene)
  | node :: rest =>
      refine (Node.confined_exec node scene).bind fun next first => ?_
      exact fun last ran => first.trans (Node.confined_listExec rest next last ran)

end

end

end QueryTemplate
