import QueryTemplate.Expr.Operator
import QueryTemplate.Proofs.Tables

set_option autoImplicit false

/- Equality of JSON values. It is an equivalence, since two values are equal just when they have the
same face: a number its floating-point number, any other value its structure. Inside of arrays and
objects numbers are told apart by how they are held as well, so two equal numbers make equal
containers only if both are floating-point numbers or both are one integer. -/

namespace QueryTemplate

namespace Binary64

/-- The number itself, but one zero for both. -/
def canonical (x : Binary64) : Binary64 := if x.isZero then zero else x

variable {x y : Binary64}

theorem key_eq_zero_iff : x.key = 0 ↔ x.isZero = true := by
  rw [isZero, beq_iff_eq]
  unfold key
  split <;> omega

theorem eq_of_key_eq (nonzero : x.isZero = false) (same : x.key = y.key) : x = y := by
  have present : x.magnitude ≠ 0 := by simpa [isZero] using nonzero
  have parts : x.negative = y.negative ∧ x.magnitude = y.magnitude := by
    cases left : x.negative <;> cases right : y.negative <;>
      simp only [key, left, right, Bool.false_eq_true, ↓reduceIte] at same <;>
      simp <;> omega
  obtain ⟨negative, magnitude, _⟩ := x
  obtain ⟨negative', magnitude', _⟩ := y
  obtain ⟨rfl, rfl⟩ := parts
  rfl

theorem key_eq_iff : x.key = y.key ↔ x.canonical = y.canonical := by
  have zeroKey : zero.key = 0 := rfl
  have fixed (z : Binary64) : z.canonical.key = z.key := by
    unfold canonical
    split
    next absent => rw [zeroKey, key_eq_zero_iff.mpr absent]
    next => rfl
  refine ⟨fun same => ?_, fun same => by rw [← fixed x, same, fixed y]⟩
  cases first : x.isZero with
  | true =>
      have second : y.isZero = true := key_eq_zero_iff.mp (same ▸ key_eq_zero_iff.mpr first)
      rw [canonical, if_pos first, canonical, if_pos second]
  | false => rw [eq_of_key_eq first same]

end Binary64

namespace Number

def canonical : Number → Number
  | int value => int value
  | float x => float x.canonical

theorem same_iff {m n : Number} : m.same n = true ↔ m.canonical = n.canonical := by
  cases m with
  | int i => cases n <;> simp [same, canonical]
  | float x => cases n <;> simp [same, canonical, Binary64.key_eq_iff]

/-- Numbers that are held alike: one integer, or floating-point numbers both. -/
def HeldAlike : Number → Number → Prop
  | int i, int j => i = j
  | float _, float _ => True
  | _, _ => False

theorem same_iff_heldAlike {m n : Number} :
    m.same n = true ↔ m.toBinary64.key = n.toBinary64.key ∧ m.HeldAlike n := by
  cases m with
  | int i =>
      cases n with
      | int j =>
          simp only [same, HeldAlike, beq_iff_eq]
          exact ⟨fun equal => ⟨by rw [equal], equal⟩, And.right⟩
      | float y => simp [same, HeldAlike]
  | float x => cases n <;> simp [same, HeldAlike, toBinary64]

end Number

namespace Json

mutual

/-- The structure of a value, with one zero for both among its floating-point numbers. -/
def canonical : Json → Json
  | null => null
  | bool value => bool value
  | number value => number value.canonical
  | string value => string value
  | array items => array (canonicalItems items)
  | object members => object (canonicalMembers members)

def canonicalItems : List Json → List Json
  | [] => []
  | item :: items => item.canonical :: canonicalItems items

def canonicalMembers : List (String × Json) → List (String × Json)
  | [] => []
  | (name, value) :: members => (name, value.canonical) :: canonicalMembers members

end

theorem canonicalItems_eq (items : List Json) : canonicalItems items = items.map canonical := by
  induction items with
  | nil => rfl
  | cons item items ih => rw [canonicalItems, ih, List.map_cons]

theorem canonicalMembers_eq (members : List (String × Json)) :
    canonicalMembers members = Table.mapValues canonical members := by
  induction members with
  | nil => rfl
  | cons member members ih =>
      obtain ⟨name, value⟩ := member
      rw [canonicalMembers, ih]
      rfl

mutual

theorem same_iff (a b : Json) : a.same b = true ↔ a.canonical = b.canonical := by
  match a with
  | null => cases b <;> simp [same, canonical]
  | bool p => cases b <;> simp [same, canonical]
  | number m => cases b <;> simp [same, canonical, Number.same_iff]
  | string s => cases b <;> simp [same, canonical]
  | array items =>
      cases b with
      | array others => rw [same, sameItems_iff items others, canonical, canonical, array.injEq]
      | _ => simp [same, canonical]
  | object members =>
      cases b with
      | object others =>
          rw [same, sameMembers_iff members others, canonical, canonical, object.injEq]
      | _ => simp [same, canonical]
termination_by sizeOf a

theorem sameItems_iff (items others : List Json) :
    sameItems items others = true ↔ canonicalItems items = canonicalItems others := by
  match items, others with
  | [], others => cases others <;> simp [sameItems, canonicalItems]
  | item :: items, [] => simp [sameItems, canonicalItems]
  | item :: items, other :: others =>
      rw [sameItems, Bool.and_eq_true, same_iff item other, sameItems_iff items others,
        canonicalItems, canonicalItems, List.cons.injEq]
termination_by sizeOf items

theorem sameMembers_iff (members others : List (String × Json)) :
    sameMembers members others = true ↔ canonicalMembers members = canonicalMembers others := by
  match members, others with
  | [], others => cases others <;> simp [sameMembers, canonicalMembers]
  | member :: members, [] => simp [sameMembers, canonicalMembers]
  | (name, value) :: members, (name', value') :: others =>
      rw [sameMembers, Bool.and_eq_true, Bool.and_eq_true, same_iff value value',
        sameMembers_iff members others, canonicalMembers, canonicalMembers, List.cons.injEq,
        Prod.mk.injEq, beq_iff_eq]
termination_by sizeOf members

end

/-- What equality sees of a value: of a number the floating-point number next to it, of anything
else the structure. -/
def face : Json → Json
  | number n => number (.float n.toBinary64.canonical)
  | other => other.canonical

theorem equal_numbers {m n : Number} :
    equal (number m) (number n) = true ↔ m.toBinary64.key = n.toBinary64.key := by
  simp [equal, compare?]

theorem equal_iff (a b : Json) : a.equal b = true ↔ a.face = b.face := by
  cases a with
  | number m =>
      cases b with
      | number n =>
          rw [equal_numbers, Binary64.key_eq_iff, face, face, number.injEq, Number.float.injEq]
      | _ => simp [equal, same, face, canonical]
  | _ =>
      cases b with
      | number n => simp [equal, same, face, canonical]
      | _ => exact same_iff _ _

/-- The operator `==` holds. -/
abbrev Equals (a b : Json) : Prop := BinaryOp.eq.holds a b = true

theorem equals_equivalence : Equivalence Equals where
  refl a := (equal_iff a a).mpr rfl
  symm same := (equal_iff _ _).mpr ((equal_iff _ _).mp same).symm
  trans first second :=
    (equal_iff _ _).mpr (((equal_iff _ _).mp first).trans ((equal_iff _ _).mp second))

/-- Two values that are not numbers held differently. -/
def HeldAlike : Json → Json → Prop
  | number m, number n => m.HeldAlike n
  | _, _ => True

/-- Two values that nothing tells apart, neither equality nor how they are held. -/
def Indistinct (a b : Json) : Prop := Equals a b ∧ HeldAlike a b

variable {a b : Json}

theorem same_iff_indistinct : a.same b = true ↔ Indistinct a b := by
  cases a with
  | number m =>
      cases b with
      | number n =>
          rw [same, Number.same_iff_heldAlike, ← equal_numbers]
          exact Iff.rfl
      | _ => exact (and_iff_left trivial).symm
  | _ => cases b <;> exact (and_iff_left trivial).symm

theorem indistinct_iff : Indistinct a b ↔ a.canonical = b.canonical := by
  rw [← same_iff_indistinct, same_iff]

theorem array_equals_iff {items others : List Json} :
    Equals (array items) (array others) ↔ items.map canonical = others.map canonical := by
  rw [← canonicalItems_eq, ← canonicalItems_eq, ← sameItems_iff]
  rfl

theorem object_equals_iff {members others : Table Json} :
    Equals (object members) (object others) ↔
      members.mapValues canonical = others.mapValues canonical := by
  rw [← canonicalMembers_eq, ← canonicalMembers_eq, ← sameMembers_iff]
  rfl

theorem map_canonical_eq_iff (items others : List Json) :
    items.map canonical = others.map canonical ↔ List.Forall₂ Indistinct items others := by
  induction items generalizing others with
  | nil => cases others <;> simp
  | cons item items ih =>
      cases others with
      | nil => simp
      | cons other others =>
          rw [List.map_cons, List.map_cons, List.cons.injEq, ih, ← indistinct_iff,
            List.forall₂_cons]

theorem map_canonical_get?_eq_iff (first second : Option Json) :
    first.map canonical = second.map canonical ↔ Option.Rel Indistinct first second := by
  cases first <;> cases second <;> simp [indistinct_iff]

theorem mapValues_canonical_eq_iff {members others : Table Json} (sorted : members.Sorted)
    (sorted' : others.Sorted) :
    members.mapValues canonical = others.mapValues canonical ↔
      ∀ name, Option.Rel Indistinct (members.get? name) (others.get? name) := by
  simp only [← map_canonical_get?_eq_iff, ← Table.get?_mapValues]
  constructor
  · intro same name
    rw [same]
  · refine Table.eq_of_get?_eq ?_ ?_
    · rwa [Table.Sorted, Table.keys_mapValues]
    · rwa [Table.Sorted, Table.keys_mapValues]

theorem forall₂_indistinct_iff {items others : List Json} :
    List.Forall₂ Indistinct items others ↔
      List.Forall₂ Equals items others ∧ List.Forall₂ HeldAlike items others := by
  induction items generalizing others with
  | nil => cases others <;> simp
  | cons item items ih =>
      cases others with
      | nil => simp
      | cons other others =>
          simp only [List.forall₂_cons, ih, Indistinct]
          exact and_and_and_comm

theorem rel_indistinct_iff {first second : Option Json} :
    Option.Rel Indistinct first second ↔
      Option.Rel Equals first second ∧ Option.Rel HeldAlike first second := by
  cases first <;> cases second <;> simp [Indistinct]

/-- Equality is an equivalence and `!=` its negation. Two arrays are equal just when they have the
same length and pairwise indistinct items, and two objects just when they have the same names with
indistinct values, so two values make equal containers, other things the same, just when they are
indistinct. That items or members are pairwise equal therefore is enough just where this leaves no two
numbers that are held differently. -/
theorem equality_structural (a b : Json) (items others : List Json) {members entries : Table Json}
    (sorted : members.Sorted) (sorted' : entries.Sorted) :
    Equivalence Equals ∧
      BinaryOp.notEq.holds a b = (!BinaryOp.eq.holds a b) ∧
      (Equals (array items) (array others) ↔ List.Forall₂ Indistinct items others) ∧
      (Equals (object members) (object entries) ↔
        ∀ name, Option.Rel Indistinct (members.get? name) (entries.get? name)) ∧
      (∀ before after : List Json,
        Equals (array (before ++ a :: after)) (array (before ++ b :: after)) ↔ Indistinct a b) ∧
      (∀ (outer : Table Json) (name : String),
        Equals (object (outer.insert name a)) (object (outer.insert name b)) ↔ Indistinct a b) ∧
      ((Equals (array items) (array others) ↔ List.Forall₂ Equals items others) ↔
        (List.Forall₂ Equals items others → List.Forall₂ HeldAlike items others)) ∧
      ((Equals (object members) (object entries) ↔
          ∀ name, Option.Rel Equals (members.get? name) (entries.get? name)) ↔
        ((∀ name, Option.Rel Equals (members.get? name) (entries.get? name)) →
          ∀ name, Option.Rel HeldAlike (members.get? name) (entries.get? name))) := by
  have arrays : Equals (array items) (array others) ↔ List.Forall₂ Indistinct items others := by
    rw [array_equals_iff, map_canonical_eq_iff]
  have objects : Equals (object members) (object entries) ↔
      ∀ name, Option.Rel Indistinct (members.get? name) (entries.get? name) := by
    rw [object_equals_iff, mapValues_canonical_eq_iff sorted sorted']
  refine ⟨equals_equivalence, rfl, arrays, objects, fun before after => ?_,
    fun outer name => ?_, ?_, ?_⟩
  · rw [array_equals_iff, indistinct_iff]
    simp
  · rw [object_equals_iff, indistinct_iff, Table.mapValues_insert, Table.mapValues_insert]
    refine ⟨fun same => ?_, fun same => by rw [same]⟩
    have found := congrArg (Table.get? · name) same
    simpa using found
  · rw [arrays, forall₂_indistinct_iff]
    exact and_iff_left_iff_imp
  · rw [objects]
    simp only [rel_indistinct_iff, forall_and]
    exact and_iff_left_iff_imp

/-- Objects that differ in the sign of a zero inside are equal, and so are the arrays in them. -/
theorem equality_structural_zeros :
    Table.Sorted [("a", array [number (.float .zero)])] ∧
      Table.Sorted [("a", array [number (.float Binary64.zero.negate)])] ∧
      Equals (object [("a", array [number (.float .zero)])])
        (object [("a", array [number (.float Binary64.zero.negate)])]) ∧
      Option.Rel Indistinct (some (array [number (.float .zero)]))
        (some (array [number (.float Binary64.zero.negate)])) := by
  have sorted (value : Json) : Table.Sorted [("a", value)] := List.pairwise_singleton _ _
  have equal : Equals (object [("a", array [number (.float .zero)])])
      (object [("a", array [number (.float Binary64.zero.negate)])]) := by decide +kernel
  obtain ⟨-, -, -, objects, -⟩ := equality_structural null null [] []
    (sorted (array [number (.float .zero)]))
    (sorted (array [number (.float Binary64.zero.negate)]))
  exact ⟨sorted _, sorted _, equal, objects.mp equal "a"⟩

/-- The integer one equals the floating-point number one, but an array or an object that holds the
one does not equal an array or an object that holds the other. -/
theorem equal_numbers_wrapped_differ :
    BinaryOp.eq.holds (nat 1) (number (.float (.ofInt 1))) = true ∧
      BinaryOp.eq.holds (array [nat 1]) (array [number (.float (.ofInt 1))]) = false ∧
      BinaryOp.eq.holds (object [("a", nat 1)]) (object [("a", number (.float (.ofInt 1)))]) =
        false := by
  decide +kernel

end Json

end QueryTemplate
