set_option autoImplicit false

/- Tables keyed by text. A table is an association list whose keys increase strictly, so two tables
with the same entries are equal and listing one gives its keys in order of code points. -/

namespace QueryTemplate

universe u v

abbrev Table (α : Type u) : Type u := List (String × α)

namespace Table

variable {α : Type u}

def keys (table : Table α) : List String := table.map Prod.fst

def get? (table : Table α) (key : String) : Option α := table.lookup key

def contains (table : Table α) (key : String) : Bool := (table.get? key).isSome

/-- The entry for a key that is already present is replaced. -/
def insert (table : Table α) (key : String) (value : α) : Table α :=
  match table with
  | [] => [(key, value)]
  | entry :: rest =>
    if key < entry.1 then (key, value) :: entry :: rest
    else if key = entry.1 then (key, value) :: rest
    else entry :: insert rest key value

def erase (table : Table α) (key : String) : Table α := table.filter fun entry => entry.1 ≠ key

/-- Of two entries with one key the later stays. -/
def ofList (entries : List (String × α)) : Table α :=
  entries.foldl (fun table entry => table.insert entry.1 entry.2) []

/-- The entries of the second table replace those of the first. -/
def merge (first second : Table α) : Table α :=
  second.foldl (fun table entry => table.insert entry.1 entry.2) first

def mapValues {β : Type v} (f : α → β) (table : Table α) : Table β :=
  table.map fun entry => (entry.1, f entry.2)

def Sorted (table : Table α) : Prop := table.keys.Pairwise (· < ·)

@[simp] theorem keys_nil : keys ([] : Table α) = [] := rfl

@[simp] theorem keys_cons (entry : String × α) (rest : Table α) :
    keys (entry :: rest) = entry.1 :: keys rest := rfl

@[simp] theorem get?_nil (key : String) : get? ([] : Table α) key = none := rfl

theorem get?_cons (entry : String × α) (rest : Table α) (key : String) :
    get? (entry :: rest) key = if key = entry.1 then some entry.2 else get? rest key := by
  unfold get?
  rw [List.lookup_cons]
  by_cases same : key = entry.1
  · simp [same]
  · simp [same, beq_eq_false_iff_ne.mpr same]

@[simp] theorem get?_insert_self (table : Table α) (key : String) (value : α) :
    (table.insert key value).get? key = some value := by
  induction table with
  | nil => simp [insert, get?_cons]
  | cons entry rest ih =>
    rw [insert]
    split
    · simp [get?_cons]
    · split
      · simp [get?_cons]
      · next other => simpa [get?_cons, other] using ih

theorem get?_insert_of_ne (table : Table α) (value : α) {key other : String}
    (different : other ≠ key) : (table.insert key value).get? other = table.get? other := by
  induction table with
  | nil => simp [insert, get?_cons, different]
  | cons entry rest ih =>
    rw [insert]
    split
    · rw [get?_cons, if_neg different]
    · split
      · next same => simp [get?_cons, different, ← same]
      · simp [get?_cons, ih]

theorem get?_insert_eq_some {table : Table α} {key other : String} {value found : α}
    (present : (table.insert key value).get? other = some found) :
    other = key ∧ value = found ∨ table.get? other = some found := by
  by_cases same : other = key
  · rw [same, get?_insert_self] at present
    exact Or.inl ⟨same, Option.some.inj present⟩
  · rw [get?_insert_of_ne _ _ same] at present
    exact Or.inr present

@[simp] theorem get?_erase_self (table : Table α) (key : String) :
    (table.erase key).get? key = none := by
  induction table with
  | nil => rfl
  | cons entry rest ih =>
    by_cases same : entry.1 = key
    · simpa [erase, same] using ih
    · have kept : erase (entry :: rest) key = entry :: erase rest key := by simp [erase, same]
      rw [kept, get?_cons, if_neg (Ne.symm same), ih]

theorem get?_erase_of_ne (table : Table α) {key other : String} (different : other ≠ key) :
    (table.erase key).get? other = table.get? other := by
  induction table with
  | nil => rfl
  | cons entry rest ih =>
    by_cases same : entry.1 = key
    · have dropped : erase (entry :: rest) key = erase rest key := by simp [erase, same]
      rw [dropped, ih, get?_cons, if_neg (same ▸ different)]
    · have kept : erase (entry :: rest) key = entry :: erase rest key := by simp [erase, same]
      rw [kept, get?_cons, get?_cons, ih]

end Table

end QueryTemplate
