import QueryTemplate.Program.Listing

set_option autoImplicit false

/- Decoded programs kept by name. Each invalidation of a name starts a new generation of it, and a
program found in an older generation is not taken in, so no program outlives an invalidation. -/

namespace QueryTemplate

structure ProgramCache where
  programs : Table Program := []
  /-- How often a name was invalidated, where that is at least once. -/
  generations : Table Nat := []
deriving Repr, Inhabited

namespace ProgramCache

def find? (cache : ProgramCache) (name : String) : Option Program := Table.get? cache.programs name

def contains (cache : ProgramCache) (name : String) : Bool := (cache.find? name).isSome

def generation (cache : ProgramCache) (name : String) : Nat :=
  (Table.get? cache.generations name).getD 0

/-- Takes in a program that was asked for in a generation, unless that is over. -/
def accept (cache : ProgramCache) (name : String) (generation : Nat) (program : Program) :
    ProgramCache :=
  if cache.generation name = generation then
    { cache with programs := Table.insert cache.programs name program }
  else cache

def invalidate (cache : ProgramCache) (name : String) : ProgramCache where
  programs := Table.erase cache.programs name
  generations := Table.insert cache.generations name (cache.generation name + 1)

@[simp] theorem generation_accept (cache : ProgramCache) (name other : String) (generation : Nat)
    (program : Program) :
    (cache.accept name generation program).generation other = cache.generation other := by
  unfold accept
  split <;> rfl

theorem find?_accept_of_ne (cache : ProgramCache) (generation : Nat) (program : Program)
    {name other : String} (different : other ≠ name) :
    (cache.accept name generation program).find? other = cache.find? other := by
  unfold accept
  split
  · exact Table.get?_insert_of_ne _ _ different
  · rfl

theorem find?_accept_self (cache : ProgramCache) (name : String) (program : Program) :
    (cache.accept name (cache.generation name) program).find? name = some program := by
  simp [accept, find?]

@[simp] theorem generation_invalidate_self (cache : ProgramCache) (name : String) :
    (cache.invalidate name).generation name = cache.generation name + 1 := by
  simp [invalidate, generation]

theorem generation_invalidate_of_ne (cache : ProgramCache) {name other : String}
    (different : other ≠ name) :
    (cache.invalidate name).generation other = cache.generation other := by
  simp [invalidate, generation, Table.get?_insert_of_ne _ _ different]

@[simp] theorem find?_invalidate_self (cache : ProgramCache) (name : String) :
    (cache.invalidate name).find? name = none := by
  simp [invalidate, find?]

theorem find?_invalidate_of_ne (cache : ProgramCache) {name other : String}
    (different : other ≠ name) : (cache.invalidate name).find? other = cache.find? other := by
  simp [invalidate, find?, Table.get?_erase_of_ne _ different]

end ProgramCache

end QueryTemplate
