import Mathlib.Data.List.Induction
import Mathlib.Data.List.Nodup
import Mathlib.Data.List.Perm.Basic
import QueryTemplate.Table

set_option autoImplicit false

/- Tables as lists of entries in order. Inserting keeps the order of keys, entries for different
keys can come in any order, of several entries for one key the last stays, and a table is known from
what it has for each key. -/

namespace QueryTemplate

namespace Table

universe u

variable {α : Type u}

theorem insert_above {table : Table α} {key : String} (above : ∀ other ∈ table.keys, other < key)
    (value : α) : table.insert key value = table ++ [(key, value)] := by
  induction table with
  | nil => rfl
  | cons entry rest ih =>
      obtain ⟨first, others⟩ := List.forall_mem_cons.mp above
      have notBelow : ¬ key < entry.1 := String.lt_asymm first
      have other : key ≠ entry.1 := fun same => String.lt_irrefl _ (same ▸ first)
      rw [insert, if_neg notBelow, if_neg other, ih others, List.cons_append]

theorem keys_insert (table : Table α) (key : String) (value : α) (other : String) :
    other ∈ (table.insert key value).keys ↔ other = key ∨ other ∈ table.keys := by
  induction table with
  | nil => simp [insert]
  | cons entry rest ih =>
      rw [insert]
      split
      · simp
      · split
        next same => simp [← same]
        next => simp only [keys_cons, List.mem_cons, ih, or_left_comm]

theorem sorted_insert {table : Table α} (sorted : table.Sorted) (key : String) (value : α) :
    (table.insert key value).Sorted := by
  induction table with
  | nil => exact List.pairwise_singleton _ _
  | cons entry rest ih =>
      obtain ⟨below, tail⟩ := List.pairwise_cons.mp sorted
      rw [insert]
      split
      next before =>
        refine List.pairwise_cons.mpr ⟨fun other within => ?_, sorted⟩
        rcases List.mem_cons.mp within with rfl | within
        · exact before
        · exact String.lt_trans before (below other within)
      next notBelow =>
        split
        next same => exact List.pairwise_cons.mpr ⟨fun other within => same ▸ below other within, tail⟩
        next different =>
          refine List.pairwise_cons.mpr ⟨fun other within => ?_, ih tail⟩
          rcases (keys_insert rest key value other).mp within with rfl | within
          · exact Classical.byContradiction fun notAbove =>
              different (String.le_antisymm notAbove notBelow)
          · exact below other within

theorem sorted_ofList (entries : List (String × α)) : (ofList entries).Sorted := by
  have folded : ∀ table : Table α, table.Sorted →
      Sorted (entries.foldl (fun table entry => table.insert entry.1 entry.2) table) := by
    induction entries with
    | nil => exact fun _ sorted => sorted
    | cons entry rest ih => exact fun _ sorted => ih _ (sorted_insert sorted _ _)
  exact folded [] List.Pairwise.nil

theorem ofList_sorted {table : Table α} (sorted : table.Sorted) : ofList table = table := by
  -- the entries read so far stand before the others
  have folded : ∀ first rest : Table α, Sorted (first ++ rest) →
      rest.foldl (fun table entry => table.insert entry.1 entry.2) first = first ++ rest := by
    intro first rest
    induction rest generalizing first with
    | nil => exact fun _ => (List.append_nil first).symm
    | cons entry rest ih =>
        intro sorted
        have above : ∀ other ∈ keys first, other < entry.1 := by
          intro other within
          rw [Sorted, keys, List.map_append, List.pairwise_append] at sorted
          exact sorted.2.2 other within entry.1 List.mem_cons_self
        rw [List.foldl_cons, insert_above above, ih _ (by rwa [List.append_assoc]),
          List.append_assoc]
        rfl
  exact folded [] table sorted

theorem Sorted.nodup {table : Table α} (sorted : table.Sorted) : table.keys.Nodup :=
  sorted.imp fun before => String.ne_of_lt before

theorem mem_insert_of_ne {table : Table α} {key : String} (value : α) {entry : String × α}
    (away : entry.1 ≠ key) : entry ∈ table.insert key value ↔ entry ∈ table := by
  have other : entry ≠ (key, value) := fun same => away (congrArg Prod.fst same)
  induction table with
  | nil => simp [insert, other]
  | cons first rest ih =>
      rw [insert]
      split
      · simp [other]
      · split
        next here =>
          have different : entry ≠ first := fun same => away (same ▸ here.symm)
          simp [other, different]
        next =>
          rw [List.mem_cons, List.mem_cons]
          exact or_congr_right ih

/-- Entries for different keys can be inserted in either order. -/
theorem insert_comm (table : Table α) {first second : String} (different : first ≠ second)
    (value other : α) :
    (table.insert first value).insert second other =
      (table.insert second other).insert first value := by
  induction table with
  | nil => grind [insert]
  | cons entry rest ih =>
      -- either key stands before the entry, at it, or behind it
      grind [insert]

theorem ofList_of_perm {first second : List (String × α)} (reordered : first.Perm second)
    (distinct : (keys first).Nodup) : ofList first = ofList second := by
  refine reordered.foldl_eq' ?_ []
  intro entry within other within' table
  by_cases same : entry.1 = other.1
  · rw [List.inj_on_of_nodup_map distinct within within' same]
  · exact insert_comm table same entry.2 other.2

theorem ofList_concat (entries : List (String × α)) (entry : String × α) :
    ofList (entries ++ [entry]) = insert (ofList entries) entry.1 entry.2 := by
  unfold ofList
  rw [List.foldl_append]
  rfl

theorem exists_get?_ofList {entries : List (String × α)} {entry : String × α}
    (within : entry ∈ entries) : ∃ value, get? (ofList entries) entry.1 = some value := by
  induction entries using List.reverseRecOn with
  | nil => cases within
  | append_singleton entries last ih =>
      rw [ofList_concat]
      by_cases same : entry.1 = last.1
      · exact ⟨last.2, by rw [same, get?_insert_self]⟩
      · rw [get?_insert_of_ne _ _ same]
        rcases List.mem_append.mp within with before | here
        · exact ih before
        · exact absurd (congrArg Prod.fst (List.mem_singleton.mp here)) same

theorem insert_perm {table : Table α} {key : String} (new : key ∉ table.keys) (value : α) :
    (table.insert key value).Perm ((key, value) :: table) := by
  induction table with
  | nil => exact List.Perm.refl _
  | cons entry rest ih =>
      rw [keys_cons, List.mem_cons, not_or] at new
      rw [insert, if_neg new.1]
      split
      · exact List.Perm.refl _
      · exact ((ih new.2).cons entry).trans (List.Perm.swap _ _ _)

theorem ofList_perm {entries : List (String × α)} (distinct : (keys entries).Nodup) :
    (ofList entries).Perm entries := by
  induction entries using List.reverseRecOn with
  | nil => exact List.Perm.refl _
  | append_singleton entries last ih =>
      rw [keys, List.map_append, List.nodup_append] at distinct
      obtain ⟨before, -, apart⟩ := distinct
      have new : last.1 ∉ keys (ofList entries) := by
        rw [keys, ((ih before).map Prod.fst).mem_iff]
        exact fun within => apart _ within _ List.mem_cons_self rfl
      rw [ofList_concat]
      exact (insert_perm new last.2).trans
        (((ih before).cons last).trans (List.perm_append_singleton last entries).symm)

theorem get?_eq_some_iff_mem {table : Table α} (distinct : table.keys.Nodup) {key : String}
    {value : α} : table.get? key = some value ↔ (key, value) ∈ table := by
  induction table with
  | nil => simp
  | cons entry rest ih =>
      obtain ⟨absent, distinct⟩ := List.nodup_cons.mp distinct
      rw [get?_cons, List.mem_cons]
      split
      next same =>
        have elsewhere : (key, value) ∉ rest := fun within =>
          absent (List.mem_map.mpr ⟨_, within, same⟩)
        rw [or_iff_left elsewhere, same, Option.some.injEq]
        exact ⟨fun here => here ▸ rfl, fun here => here ▸ rfl⟩
      next other =>
        rw [ih distinct, or_iff_right fun same => other (congrArg Prod.fst same)]

theorem mem_ofList {entries : List (String × α)} (distinct : (keys entries).Nodup)
    {entry : String × α} : entry ∈ ofList entries ↔ entry ∈ entries :=
  (ofList_perm distinct).mem_iff

theorem get?_ofList {entries : List (String × α)} (distinct : (keys entries).Nodup) {key : String}
    {value : α} : get? (ofList entries) key = some value ↔ (key, value) ∈ entries := by
  rw [get?_eq_some_iff_mem, mem_ofList distinct]
  exact ((ofList_perm distinct).map Prod.fst).nodup_iff.mpr distinct

/-- Tables in order that have the same for each key are equal. -/
theorem eq_of_get?_eq {first second : Table α} (sorted : first.Sorted) (sorted' : second.Sorted)
    (agree : ∀ key, first.get? key = second.get? key) : first = second := by
  have members (entry : String × α) : entry ∈ first ↔ entry ∈ second := by
    rw [← get?_eq_some_iff_mem sorted.nodup, ← get?_eq_some_iff_mem sorted'.nodup, agree]
  have reordered : first.Perm second :=
    (List.perm_ext_iff_of_nodup sorted.nodup.of_map sorted'.nodup.of_map).mpr members
  refine reordered.eq_of_pairwise ?_ (List.pairwise_map.mp sorted) (List.pairwise_map.mp sorted')
  exact fun _ _ _ _ before after => absurd before (String.lt_asymm after)

section Values

universe v

variable {β : Type v} (f : α → β)

@[simp] theorem keys_mapValues (table : Table α) : (table.mapValues f).keys = table.keys := by
  rw [keys, keys, mapValues, List.map_map]
  rfl

theorem get?_mapValues (table : Table α) (key : String) :
    (table.mapValues f).get? key = (table.get? key).map f := by
  induction table with
  | nil => rfl
  | cons entry rest ih =>
      change get? ((entry.1, f entry.2) :: mapValues f rest) key = _
      rw [get?_cons, get?_cons, ih]
      split <;> rfl

theorem mapValues_insert (table : Table α) (key : String) (value : α) :
    (table.insert key value).mapValues f = (table.mapValues f).insert key (f value) := by
  induction table with
  | nil => rfl
  | cons entry rest ih =>
      change _ = insert ((entry.1, f entry.2) :: mapValues f rest) key (f value)
      rw [insert, insert, ← ih]
      split
      · rfl
      · split <;> rfl

end Values

/-- What is merged into a table replaces what was there. -/
theorem get?_merge (first : Table α) (second : List (String × α)) (key : String) :
    get? (merge first second) key = (get? (ofList second) key).or (get? first key) := by
  induction second using List.reverseRecOn with
  | nil => rfl
  | append_singleton entries last ih =>
      have merged : merge first (entries ++ [last]) =
          (merge first entries).insert last.1 last.2 := by
        rw [merge, List.foldl_append]
        rfl
      rw [merged, ofList_concat]
      by_cases same : key = last.1
      · rw [same, get?_insert_self, get?_insert_self, Option.some_or]
      · rw [get?_insert_of_ne _ _ same, get?_insert_of_ne _ _ same, ih]

theorem contains_merge {first : Table α} {key : String} (bound : contains first key = true)
    (second : List (String × α)) : contains (merge first second) key = true := by
  unfold contains at bound ⊢
  rw [get?_merge]
  cases get? (ofList second) key with
  | none => exact bound
  | some value => rfl

end Table

end QueryTemplate
