import Mathlib.Data.List.Induction
import QueryTemplate.Proofs.Code.TagCalls
import QueryTemplate.Proofs.Compilation.Assembly

set_option autoImplicit false

/- What the runner of a tag is handed. Among its keyword arguments are the values of the literals
that the tag has for them in the template; of several for one keyword it is the last. -/

namespace QueryTemplate

namespace Machine

/-- What the next step hands to the runner of a tag, if it calls one. -/
def handed? (setting : Setting) (machine : Machine) : Option TagContext :=
  match setting.program[machine.pc]? with
  | some (.callTag _ argc kwargs hasBody) =>
    ((machine.jumpTo (machine.pc + 1)).hand setting argc kwargs hasBody).toOption.map Prod.fst
  | _ => none

variable {setting : Setting} {machine : Machine} {context : TagContext} {name : String}
  {argc : Nat} {kwargs : List String} {hasBody : Bool}

/-- The step runs the runner of the tag on what it is handed. -/
theorem step?_of_handed
    (fetched : setting.program[machine.pc]? = some (.callTag name argc kwargs hasBody))
    (handed : machine.handed? setting = some context) :
    ∃ rest : Machine, machine.step? setting = some (rest.answer setting name context) := by
  simp only [handed?, fetched, Option.map_eq_some_iff] at handed
  obtain ⟨⟨_, rest⟩, hands, rfl⟩ := handed
  refine ⟨rest, ?_⟩
  rw [step?_of_fetched fetched, execute, callTag_eq, eq_ok_iff_toOption.mpr hands]
  rfl

/-- The keyword arguments are on top of the stack. -/
theorem kwargs_of_handed
    (fetched : setting.program[machine.pc]? = some (.callTag name argc kwargs hasBody))
    (handed : machine.handed? setting = some context) :
    context.kwargs = Table.ofList
      (kwargs.zip ((machine.stack.take kwargs.length).reverse.map Slot.toJson)) := by
  simp only [handed?, fetched, Option.map_eq_some_iff] at handed
  obtain ⟨⟨context, rest⟩, hands, rfl⟩ := handed
  obtain ⟨body, -, same⟩ := takesBody_of_hand (eq_ok_iff_toOption.mpr hands)
  rw [same]
  rfl

end Machine

namespace Table

variable {α : Type}

/-- The value of an entry for a key. -/
def under? (key : String) (entry : String × α) : Option α :=
  if entry.1 = key then some entry.2 else none

/-- Of the entries for one key the last stays. -/
theorem get?_ofList_last (entries : List (String × α)) (key : String) :
    get? (ofList entries) key = (entries.filterMap (under? key)).getLast? := by
  induction entries using List.reverseRecOn with
  | nil => rfl
  | append_singleton entries last ih =>
      rw [ofList_concat, List.filterMap_append, List.getLast?_append]
      by_cases same : last.1 = key
      · simp [under?, same]
      · simp [get?_insert_of_ne _ _ (Ne.symm same), ih, under?, same]

end Table

/-- Values whose slots hold the literals among them, by keywords. -/
abbrev KeywordsShown : List (String × Expr) → List Slot → Prop :=
  List.Forall₂ fun keyword slot => Sketch.Shows keyword.2.constant? slot

/-- If all values of a keyword are literals, then they are what is found under it. -/
theorem KeywordsShown.under {keywords : List (String × Expr)} {slots : List Slot}
    (shown : KeywordsShown keywords slots) {key : String}
    (literals : ∀ value ∈ keywords.filterMap (Table.under? key), value.constant?.isSome) :
    ((keywords.map Prod.fst).zip (slots.map Slot.toJson)).filterMap (Table.under? key) =
      (keywords.filterMap (Table.under? key)).filterMap Expr.constant? := by
  induction shown with
  | nil => rfl
  | @cons keyword slot keywords slots here _ ih =>
      rw [List.map_cons, List.map_cons, List.zip_cons_cons]
      by_cases own : keyword.1 = key
      · have picked : Table.under? key keyword = some keyword.2 := if_pos own
        have entry : Table.under? key (keyword.1, slot.toJson) = some slot.toJson := if_pos own
        rw [List.filterMap_cons_some picked] at literals ⊢
        obtain ⟨first, others⟩ := List.forall_mem_cons.mp literals
        obtain ⟨value, known⟩ := Option.isSome_iff_exists.mp first
        have held : slot = .data value := here value known
        rw [List.filterMap_cons_some entry, ih others, List.filterMap_cons_some known, held]
        rfl
      · have passed : Table.under? key keyword = none := if_neg own
        have entry : Table.under? key (keyword.1, slot.toJson) = none := if_neg own
        rw [List.filterMap_cons_none passed] at literals ⊢
        rw [List.filterMap_cons_none entry, ih literals]

namespace Arg

theorem filterMap_keywords (args : List Arg) (key : String) :
    (keywords args).filterMap (Table.under? key) = args.filterMap (keyword? key) := by
  rw [keywords, List.filterMap_filterMap]
  congr
  funext arg
  cases arg <;> rfl

/-- The slots of the keyword arguments, in their order, hold the literals among them. -/
theorem keywordsShown {args : List Arg} {stack : List Slot}
    (fits : (Expr.known [] (pushed args)).Fits stack) :
    KeywordsShown (keywords args) (stack.take (keywords args).length).reverse := by
  rw [pushed, Expr.known, List.map_append, List.reverse_append, List.append_assoc] at fits
  have shown := List.rel_reverse fits.front
  rw [List.reverse_reverse, List.length_reverse, List.length_map, List.length_map, List.map_map,
    List.forall₂_map_left_iff] at shown
  exact shown

end Arg

/-- If all values that a tag has for a keyword are literals, then its runner is handed the last of
them whenever the tag is called. -/
theorem Template.handed_keyword {setting : Setting} {template : Template}
    (compiled : setting.program = Template.program template) {call : TagCall}
    (listed : call ∈ template.tagCalls) {key : String}
    (literals : ∀ value ∈ call.args.filterMap (Arg.keyword? key), value.constant?.isSome)
    {steps : Nat} {machine : Machine}
    (reached : Machine.start.advance setting steps = .ok machine)
    (stands : machine.pc = call.address) {context : TagContext}
    (handed : machine.handed? setting = some context) :
    Table.get? context.kwargs key =
      ((call.args.filterMap (Arg.keyword? key)).filterMap Expr.constant?).getLast? := by
  have fits := fits_tagCall compiled listed reached stands
  have fetched : setting.program[machine.pc]? = some call.instr := by
    rw [compiled, stands]
    exact (fetch_tagCall.mpr ⟨call, listed, rfl, rfl⟩).1
  rw [Machine.kwargs_of_handed fetched handed, Table.get?_ofList_last, List.length_map,
    (Arg.keywordsShown fits).under, Arg.filterMap_keywords]
  rwa [Arg.filterMap_keywords]

end QueryTemplate
