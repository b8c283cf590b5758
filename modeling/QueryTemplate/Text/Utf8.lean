set_option autoImplicit false

/- Lengths of texts in bytes of their UTF-8 encoding, and slices by bytes. A slice exists only between
two places that are in order, inside of the text and not within a character. -/

namespace QueryTemplate

namespace Text

def byteLength : List Char → Nat
  | [] => 0
  | c :: rest => c.utf8Size + byteLength rest

@[simp] theorem byteLength_nil : byteLength [] = 0 := rfl

@[simp] theorem byteLength_cons (c : Char) (rest : List Char) :
    byteLength (c :: rest) = c.utf8Size + byteLength rest := rfl

@[simp] theorem byteLength_append (first second : List Char) :
    byteLength (first ++ second) = byteLength first + byteLength second := by
  induction first with
  | nil => simp
  | cons c rest ih => simp [ih, Nat.add_assoc]

/-- The characters that fit whole into the first bytes. -/
def takeBytes (bytes : Nat) : List Char → List Char
  | [] => []
  | c :: rest => if c.utf8Size ≤ bytes then c :: takeBytes (bytes - c.utf8Size) rest else []

/-- The characters after those that fit whole into the first bytes. -/
def dropBytes (bytes : Nat) : List Char → List Char
  | [] => []
  | c :: rest =>
    if c.utf8Size ≤ bytes then dropBytes (bytes - c.utf8Size) rest else c :: rest

@[simp] theorem takeBytes_byteLength_append (first rest : List Char) :
    takeBytes (byteLength first) (first ++ rest) = first ++ takeBytes 0 rest := by
  induction first with
  | nil => rfl
  | cons c tail ih => simp [takeBytes, ih]

@[simp] theorem dropBytes_byteLength_append (first rest : List Char) :
    dropBytes (byteLength first) (first ++ rest) = dropBytes 0 rest := by
  induction first with
  | nil => rfl
  | cons c tail ih => simp [dropBytes, ih]

@[simp] theorem takeBytes_zero (chars : List Char) : takeBytes 0 chars = [] := by
  cases chars with
  | nil => rfl
  | cons c rest =>
    have := c.utf8Size_pos
    simp [takeBytes, Nat.not_le.mpr this]

@[simp] theorem dropBytes_zero (chars : List Char) : dropBytes 0 chars = chars := by
  cases chars with
  | nil => rfl
  | cons c rest =>
    have := c.utf8Size_pos
    simp [dropBytes, Nat.not_le.mpr this]

theorem byteLength_pos {chars : List Char} (present : chars ≠ []) : 0 < byteLength chars := by
  cases chars with
  | nil => exact absurd rfl present
  | cons c rest =>
      have wide := c.utf8Size_pos
      rw [byteLength_cons]
      omega

/-- The characters before and after a byte. -/
def splitAt? (bytes : Nat) : List Char → Option (List Char × List Char)
  | [] => if bytes = 0 then some ([], []) else none
  | c :: rest =>
    if bytes = 0 then some ([], c :: rest)
    else if c.utf8Size ≤ bytes then
      (splitAt? (bytes - c.utf8Size) rest).map fun parts => (c :: parts.1, parts.2)
    else none

theorem splitAt?_eq_some {bytes : Nat} {chars before after : List Char} :
    splitAt? bytes chars = some (before, after) ↔
      chars = before ++ after ∧ byteLength before = bytes := by
  induction chars generalizing bytes before with
  | nil =>
      by_cases start : bytes = 0
      · subst start
        cases before <;> simp [splitAt?, eq_comm]
      · have present : byteLength [] ≠ bytes := Ne.symm start
        simp only [splitAt?, start, ↓reduceIte, reduceCtorEq, false_iff, not_and]
        intro whole
        rw [(List.nil_eq_append_iff.mp whole).1]
        exact present
  | cons c rest ih =>
      have wide := c.utf8Size_pos
      by_cases start : bytes = 0
      · subst start
        cases before with
        | nil => simp [splitAt?, eq_comm]
        | cons d front =>
            have := d.utf8Size_pos
            simp only [splitAt?, ↓reduceIte, Option.some.injEq, Prod.mk.injEq, List.nil_eq,
              reduceCtorEq, false_and, byteLength_cons, false_iff, not_and]
            omega
      · cases before with
        | nil =>
            by_cases fits : c.utf8Size ≤ bytes <;>
              simp [splitAt?, start, fits, Ne.symm start]
        | cons d front =>
            by_cases fits : c.utf8Size ≤ bytes
            · simp only [splitAt?, start, fits, ↓reduceIte, Option.map_eq_some_iff,
                Prod.exists, Prod.mk.injEq, List.cons.injEq, List.cons_append, byteLength_cons]
              constructor
              · rintro ⟨front, back, found, ⟨rfl, rfl⟩, rfl⟩
                obtain ⟨rfl, length⟩ := ih.mp found
                exact ⟨⟨rfl, rfl⟩, by omega⟩
              · rintro ⟨⟨rfl, rfl⟩, length⟩
                exact ⟨front, after, ih.mpr ⟨rfl, by omega⟩, ⟨rfl, rfl⟩, rfl⟩
            · simp only [splitAt?, start, fits, ↓reduceIte, reduceCtorEq, false_iff, not_and,
                List.cons_append, List.cons.injEq, byteLength_cons]
              rintro ⟨rfl, -⟩
              omega

/-- The characters from one byte on and before another. -/
def slice? (start stop : Nat) (chars : List Char) : Option (List Char) :=
  if start ≤ stop then do
    let (_, rest) ← splitAt? start chars
    let (part, _) ← splitAt? (stop - start) rest
    return part
  else none

/-- A slice is what stands between a front and a back of the text. -/
theorem slice?_eq_some {start stop : Nat} {chars part : List Char} :
    slice? start stop chars = some part ↔
      ∃ front back, chars = front ++ part ++ back ∧ byteLength front = start ∧
        start + byteLength part = stop := by
  by_cases ordered : start ≤ stop
  · simp only [slice?, ordered, ↓reduceIte, Option.bind_eq_bind, Option.bind_eq_some_iff,
      Option.pure_def, Option.some.injEq, Prod.exists, splitAt?_eq_some]
    constructor
    · rintro ⟨front, rest, ⟨rfl, starts⟩, piece, back, ⟨rfl, length⟩, rfl⟩
      exact ⟨front, back, by rw [List.append_assoc], starts, by omega⟩
    · rintro ⟨front, back, rfl, starts, stops⟩
      exact ⟨front, part ++ back, ⟨List.append_assoc .., starts⟩, part, back, ⟨rfl, by omega⟩, rfl⟩
  · simp only [slice?, ordered, ↓reduceIte, reduceCtorEq, false_iff, not_exists, not_and]
    intro _ _ _ _
    omega

/-- The slice of a part that stands at a known place. -/
theorem slice?_part {start stop : Nat} (front part back : List Char)
    (starts : byteLength front = start) (stops : start + byteLength part = stop) :
    slice? start stop (front ++ part ++ back) = some part :=
  slice?_eq_some.mpr ⟨front, back, rfl, starts, stops⟩

/-- A slice that starts after a known front. -/
theorem slice?_after {start stop : Nat} {front rest part : List Char}
    (starts : byteLength front = start) :
    slice? start stop (front ++ rest) = some part ↔
      ∃ back, rest = part ++ back ∧ start + byteLength part = stop := by
  constructor
  · intro found
    obtain ⟨before, back, whole, same, stops⟩ := slice?_eq_some.mp found
    rw [List.append_assoc] at whole
    have cut : splitAt? start (front ++ rest) = some (front, rest) :=
      splitAt?_eq_some.mpr ⟨rfl, starts⟩
    have other : splitAt? start (front ++ rest) = some (before, part ++ back) :=
      splitAt?_eq_some.mpr ⟨whole, same⟩
    cases cut.symm.trans other
    exact ⟨back, rfl, stops⟩
  · rintro ⟨back, rfl, stops⟩
    rw [← List.append_assoc]
    exact slice?_part front part back starts stops

/-- From the start of one slice to the end of another there is a slice, if they are in order. -/
theorem exists_slice?_of_lt {start stop start' stop' : Nat} {chars part part' : List Char}
    (first : slice? start stop chars = some part) (last : slice? start' stop' chars = some part')
    (ordered : start < stop') : ∃ whole, slice? start stop' chars = some whole := by
  obtain ⟨front, back, split, rfl, -⟩ := slice?_eq_some.mp first
  obtain ⟨front', back', rfl, rfl, rfl⟩ := slice?_eq_some.mp last
  rw [← byteLength_append] at ordered ⊢
  rw [List.append_assoc front] at split
  rcases List.append_eq_append_iff.mp split with ⟨more, same, -⟩ | ⟨more, same, -⟩
  · rw [same, byteLength_append] at ordered
    omega
  · rw [same]
    exact ⟨more, slice?_part front more back' rfl (byteLength_append ..).symm⟩

end Text

end QueryTemplate
