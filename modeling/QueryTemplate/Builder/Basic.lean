import QueryTemplate.Builder.Segments

set_option autoImplicit false

/- Query builders. A builder holds the text of a statement and the parameters bound in it; parameter
`i` is written `$i`. It remembers where the placeholders that it wrote stand, so that they, and not
look-alikes in raw text, are numbered anew when one builder is appended to another. Since they do
stand there, no operation cuts a statement in the wrong place. -/

namespace QueryTemplate

structure Builder extends Builder.Raw where
  wf : toRaw.WF := by decide
deriving Repr

namespace Builder

@[ext] theorem ext {first second : Builder} (same : first.toRaw = second.toRaw) :
    first = second := by
  cases first
  cases second
  cases same
  rfl

def empty : Builder := {}

instance : Inhabited Builder := ⟨empty⟩

def named (name : String) : Builder := { empty with name := some name }

def push (builder : Builder) (text : List Char) : Builder where
  toRaw := builder.toRaw.push text
  wf := by
    obtain ⟨segments, shown⟩ := Segments.exists_raw builder.wf
    rw [shown, Segments.push_raw]
    exact Segments.wf_raw _ _

@[simp] theorem push_nil (builder : Builder) : builder.push [] = builder := by
  apply ext
  simp only [push, Raw.push, List.append_nil]

/-- Binds a value as the next parameter and writes its placeholder. -/
def bind (builder : Builder) (value : Json) : Builder where
  toRaw := builder.toRaw.bind value
  wf := by
    obtain ⟨segments, shown⟩ := Segments.exists_raw builder.wf
    rw [shown, Segments.bind_raw]
    exact Segments.wf_raw _ _

theorem exists_append? (builder other : Builder) :
    ∃ raw, builder.toRaw.append? other.toRaw = some raw ∧ raw.WF := by
  obtain ⟨segments, shown⟩ := Segments.exists_raw builder.wf
  obtain ⟨others, more⟩ := Segments.exists_raw other.wf
  rw [shown, more, Segments.append?_raw]
  exact ⟨_, rfl, Segments.wf_raw _ _⟩

theorem exists_trim? (builder : Builder) : ∃ raw, builder.toRaw.trim? = some raw ∧ raw.WF := by
  obtain ⟨segments, shown⟩ := Segments.exists_raw builder.wf
  rw [shown, Segments.trim?_raw]
  exact ⟨_, rfl, Segments.wf_raw _ _⟩

/-- Appends a statement and its parameters; the name of the appended builder is dropped. -/
def append (builder other : Builder) : Builder where
  toRaw := (builder.toRaw.append? other.toRaw).get (by
    obtain ⟨raw, appended, -⟩ := exists_append? builder other
    rw [appended]
    rfl)
  wf := by
    obtain ⟨raw, appended, wf⟩ := exists_append? builder other
    simpa only [appended, Option.get_some] using wf

/-- Removes white space around the statement. -/
def trim (builder : Builder) : Builder where
  toRaw := builder.toRaw.trim?.get (by
    obtain ⟨raw, trimmed, -⟩ := exists_trim? builder
    rw [trimmed]
    rfl)
  wf := by
    obtain ⟨raw, trimmed, wf⟩ := exists_trim? builder
    simpa only [trimmed, Option.get_some] using wf

theorem append?_toRaw (builder other : Builder) :
    builder.toRaw.append? other.toRaw = some (builder.append other).toRaw :=
  (Option.some_get _).symm

theorem trim?_toRaw (builder : Builder) : builder.toRaw.trim? = some builder.trim.toRaw :=
  (Option.some_get _).symm

/-- A builder as data: its name if it has one, its statement and its parameters. -/
def toJson (builder : Builder) : Json :=
  let named := match builder.name with
    | some name => [("name", Json.string name)]
    | none => []
  .object (named ++
    [("parameters", .array builder.parameters),
      ("statement", .string (String.ofList builder.statement))])

end Builder

end QueryTemplate
