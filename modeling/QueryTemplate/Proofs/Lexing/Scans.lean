import QueryTemplate.Proofs.Lexing.Spelling

set_option autoImplicit false

/- How the lexer goes on, in a region and outside of regions, with one rule for each way. What holds
of every source that is read, or of every error, is proved by these rules. -/

namespace QueryTemplate.Lexer

/-- The marks that belong together as opener and closer of a region. -/
inductive Delimits : Mark → Mark → Prop
  | output : Delimits .outputOpen .outputClose
  | tag : Delimits .tagOpen .tagClose

/-- The tokens of a region, up to its closer, that begins at a place; then the place after it and
what is left. -/
inductive ReadsRegion (region : Region) :
    Nat → List Char → List (Located Token) → Nat → List Char → Prop
  | gap {place stop : Nat} {first : Char} {chars rest : List Char} {tokens : List (Located Token)}
      (blank : Token.isGap first = true)
      (inner : ReadsRegion region (place + 1) chars tokens stop rest) :
      ReadsRegion region place (first :: chars) tokens stop rest
  | closer (place : Nat) {first : Char} {chars : List Char} {token : Token} {count : Nat}
      (scans : Token.scan first chars = .ok (token, count))
      (closes : some token = region.closer?.map Token.mark) :
      ReadsRegion region place (first :: chars)
        [⟨token, ⟨place, place + Text.byteLength (first :: chars.take count)⟩⟩]
        (place + Text.byteLength (first :: chars.take count)) (chars.drop count)
  | token {place stop : Nat} {first : Char} {chars rest : List Char} {token : Token} {count : Nat}
      {tokens : List (Located Token)} (scans : Token.scan first chars = .ok (token, count))
      (goes : some token ≠ region.closer?.map Token.mark)
      (inner : ReadsRegion region (place + Text.byteLength (first :: chars.take count))
        (chars.drop count) tokens stop rest) :
      ReadsRegion region place (first :: chars)
        (⟨token, ⟨place, place + Text.byteLength (first :: chars.take count)⟩⟩ :: tokens) stop rest

/-- A region is not read up to its closer. -/
inductive FailsRegion (region : Region) (opener : Span) : Nat → List Char → ParseError → Prop
  | ended (place : Nat) : FailsRegion region opener place [] (.unterminated region opener)
  | gap {place : Nat} {first : Char} {chars : List Char} {error : ParseError}
      (blank : Token.isGap first = true)
      (inner : FailsRegion region opener (place + 1) chars error) :
      FailsRegion region opener place (first :: chars) error
  | unreadable (place : Nat) {first : Char} {chars : List Char} {count : Nat}
      (scans : Token.scan first chars = .error count) :
      FailsRegion region opener place (first :: chars)
        (.unreadable (String.ofList (first :: chars.take count))
          ⟨place, place + Text.byteLength (first :: chars.take count)⟩)
  | token {place : Nat} {first : Char} {chars : List Char} {token : Token} {count : Nat}
      {error : ParseError} (scans : Token.scan first chars = .ok (token, count))
      (inner : FailsRegion region opener (place + Text.byteLength (first :: chars.take count))
        (chars.drop count) error) :
      FailsRegion region opener place (first :: chars) error

theorem scanRegion_cases (region : Region) (opener : Span) (place : Nat) (chars : List Char) :
    (∃ scanned, scanRegion region opener place chars = .ok scanned ∧
        ReadsRegion region place chars scanned.tokens scanned.stop scanned.rest) ∨
      ∃ error, scanRegion region opener place chars = .error error ∧
        FailsRegion region opener place chars error := by
  induction size : chars.length using Nat.strongRecOn generalizing chars place with
  | ind size ih =>
      subst size
      cases chars with
      | nil => exact Or.inr ⟨_, by rw [scanRegion], .ended place⟩
      | cons first rest =>
          rw [scanRegion]
          cases gap : Token.isGap first with
          | true =>
              rcases ih rest.length (Nat.lt_succ_self _) (place + 1) rest rfl with
                ⟨inner, found, reads⟩ | ⟨error, found, fails⟩
              · rw [found]
                exact Or.inl ⟨_, rfl, .gap gap reads⟩
              · rw [found]
                exact Or.inr ⟨error, rfl, .gap gap fails⟩
          | false =>
              cases scans : Token.scan first rest with
              | error count => exact Or.inr ⟨_, rfl, .unreadable place scans⟩
              | ok scanned =>
                  obtain ⟨token, count⟩ := scanned
                  by_cases closes : some token = region.closer?.map Token.mark
                  · dsimp only
                    rw [if_neg Bool.false_ne_true, if_pos closes]
                    exact Or.inl ⟨_, rfl, .closer place scans closes⟩
                  · have shorter : (rest.drop count).length < (first :: rest).length := by
                      rw [List.length_drop, List.length_cons]
                      omega
                    dsimp only
                    rw [if_neg Bool.false_ne_true, if_neg closes]
                    rcases ih _ shorter (place + Text.byteLength (first :: rest.take count))
                      (rest.drop count) rfl with ⟨inner, found, reads⟩ | ⟨error, found, fails⟩
                    · rw [found]
                      exact Or.inl ⟨_, rfl, .token scans closes reads⟩
                    · rw [found]
                      exact Or.inr ⟨error, rfl, .token scans fails⟩

theorem readsRegion_of_eq_ok {region : Region} {opener : Span} {place : Nat} {chars : List Char}
    {scanned : Scanned chars} (read : scanRegion region opener place chars = .ok scanned) :
    ReadsRegion region place chars scanned.tokens scanned.stop scanned.rest := by
  rcases scanRegion_cases region opener place chars with ⟨_, same, reads⟩ | ⟨_, same, _⟩
  · cases same.symm.trans read
    exact reads
  · cases same.symm.trans read

theorem failsRegion_of_eq_error {region : Region} {opener : Span} {place : Nat} {chars : List Char}
    {error : ParseError} (failed : scanRegion region opener place chars = .error error) :
    FailsRegion region opener place chars error := by
  rcases scanRegion_cases region opener place chars with ⟨_, same, _⟩ | ⟨_, same, fails⟩
  · cases same.symm.trans failed
  · cases same.symm.trans failed
    exact fails

/-- Where the text ends that comes first. -/
def textEnd (place : Nat) (chars : List Char) : Nat :=
  place + Text.byteLength (splitText chars).1

/-- A source is read, text first. -/
inductive ReadsSource : Nat → List Char → List (Located Token) → Prop
  | text (place : Nat) {chars : List Char} (nothing : (splitText chars).2 = []) :
      ReadsSource place chars (textToken place (splitText chars).1)
  | code {region : Region} {opener closer : Mark} (delimits : Delimits opener closer)
      (closes : region.closer? = some closer) {place : Nat} {chars rest : List Char}
      {after : List (Located Token)} (opens : (splitText chars).2 = opener.spelling ++ rest)
      {inner : Scanned rest}
      (read : scanRegion region ⟨textEnd place chars, textEnd place chars + 2⟩
        (textEnd place chars + 2) rest = .ok inner)
      (later : ReadsSource inner.stop inner.rest after) :
      ReadsSource place chars (textToken place (splitText chars).1 ++
        ⟨.mark opener, ⟨textEnd place chars, textEnd place chars + 2⟩⟩ :: inner.tokens ++ after)
  | comment {place stop : Nat} {chars rest left : List Char} {after : List (Located Token)}
      (opens : (splitText chars).2 = '{' :: '#' :: rest)
      (skipped : skipComment (textEnd place chars + 2) rest = some (stop, left))
      (later : ReadsSource stop left after) :
      ReadsSource place chars (textToken place (splitText chars).1 ++ after)

/-- A source is not read up to its end. -/
inductive FailsSource : Nat → List Char → ParseError → Prop
  | region {region : Region} {opener closer : Mark} (delimits : Delimits opener closer)
      {place : Nat} {chars rest : List Char} {error : ParseError}
      (opens : (splitText chars).2 = opener.spelling ++ rest)
      (failed : scanRegion region ⟨textEnd place chars, textEnd place chars + 2⟩
        (textEnd place chars + 2) rest = .error error) :
      FailsSource place chars error
  | code {region : Region} {opener closer : Mark} (delimits : Delimits opener closer)
      (closes : region.closer? = some closer) {place : Nat} {chars rest : List Char}
      {error : ParseError} (opens : (splitText chars).2 = opener.spelling ++ rest)
      {inner : Scanned rest}
      (read : scanRegion region ⟨textEnd place chars, textEnd place chars + 2⟩
        (textEnd place chars + 2) rest = .ok inner)
      (later : FailsSource inner.stop inner.rest error) : FailsSource place chars error
  | unclosed {place : Nat} {chars rest : List Char}
      (opens : (splitText chars).2 = '{' :: '#' :: rest) :
      FailsSource place chars
        (.unterminated .comment ⟨textEnd place chars, textEnd place chars + 2⟩)
  | comment {place stop : Nat} {chars rest left : List Char} {error : ParseError}
      (opens : (splitText chars).2 = '{' :: '#' :: rest)
      (skipped : skipComment (textEnd place chars + 2) rest = some (stop, left))
      (later : FailsSource stop left error) : FailsSource place chars error

/-- What is left after the text begins with an opener, if anything is left. -/
theorem splitText_opens (chars : List Char) :
    (splitText chars).2 = [] ∨ ∃ c rest, (splitText chars).2 = '{' :: c :: rest ∧
      (c = '{' ∨ c = '%' ∨ c = '#') := by
  fun_induction splitText chars with
  | case1 => exact Or.inl rfl
  | case2 c rest opens => exact Or.inr ⟨c, rest, rfl, opens⟩
  | case3 c rest other text after found ih => simpa [found] using ih
  | case4 c rest other text after found ih => simpa [found] using ih

theorem scanSource_text (place : Nat) {chars : List Char} (nothing : (splitText chars).2 = []) :
    scanSource place chars = .ok (textToken place (splitText chars).1) := by
  rw [scanSource]
  split
  next found => simp [nothing] at found
  next found => simp [nothing] at found
  next found => simp [nothing] at found
  next => rfl

theorem scanSource_code {region : Region} {opener closer : Mark} (delimits : Delimits opener closer)
    (closes : region.closer? = some closer) (place : Nat) {chars rest : List Char}
    (opens : (splitText chars).2 = opener.spelling ++ rest) :
    scanSource place chars =
      let span : Span := ⟨textEnd place chars, textEnd place chars + 2⟩
      (scanRegion region span (textEnd place chars + 2) rest).bind fun inner =>
        (scanSource inner.stop inner.rest).map fun after =>
          textToken place (splitText chars).1 ++ ⟨.mark opener, span⟩ :: inner.tokens ++ after := by
  rw [scanSource]
  cases delimits with
  | output =>
      obtain rfl : region = .output := by cases region <;> first | rfl | cases closes
      change (splitText chars).2 = '{' :: '{' :: rest at opens
      split
      next inside found =>
        cases found.symm.trans opens
        dsimp only [textEnd]
        cases scanRegion .output _ _ rest with
        | error error => rfl
        | ok inner =>
            dsimp only [Except.bind]
            cases scanSource inner.stop inner.rest <;> rfl
      next found => cases found.symm.trans opens
      next found => cases found.symm.trans opens
      next other _ _ => exact absurd opens (other rest)
  | tag =>
      obtain rfl : region = .tag := by cases region <;> first | rfl | cases closes
      change (splitText chars).2 = '{' :: '%' :: rest at opens
      split
      next found => cases found.symm.trans opens
      next inside found =>
        cases found.symm.trans opens
        dsimp only [textEnd]
        cases scanRegion .tag _ _ rest with
        | error error => rfl
        | ok inner =>
            dsimp only [Except.bind]
            cases scanSource inner.stop inner.rest <;> rfl
      next found => cases found.symm.trans opens
      next _ other _ => exact absurd opens (other rest)

theorem scanSource_comment (place : Nat) {chars rest : List Char}
    (opens : (splitText chars).2 = '{' :: '#' :: rest) :
    scanSource place chars =
      match skipComment (textEnd place chars + 2) rest with
      | none => .error (.unterminated .comment ⟨textEnd place chars, textEnd place chars + 2⟩)
      | some (stop, after) =>
        (scanSource stop after).map (textToken place (splitText chars).1 ++ ·) := by
  rw [scanSource]
  split
  next found => cases found.symm.trans opens
  next found => cases found.symm.trans opens
  next inside found =>
    cases found.symm.trans opens
    dsimp only [textEnd]
    split
    next unclosed => rw [unclosed]
    next stop after skipped =>
      rw [skipped]
      dsimp only
      cases scanSource stop after <;> rfl
  next _ _ other => exact absurd opens (other rest)

/-- What becomes of a source: it is read, or it fails. -/
def Settles (place : Nat) (chars : List Char) : Prop :=
  (∃ found, scanSource place chars = .ok found ∧ ReadsSource place chars found) ∨
    ∃ error, scanSource place chars = .error error ∧ FailsSource place chars error

namespace Settles

variable {place : Nat} {chars rest : List Char}

theorem code {region : Region} {opener closer : Mark} (delimits : Delimits opener closer)
    (closes : region.closer? = some closer) (opens : (splitText chars).2 = opener.spelling ++ rest)
    (later : ∀ stop left, left.length ≤ rest.length → Settles stop left) : Settles place chars := by
  unfold Settles
  rw [scanSource_code delimits closes place opens]
  dsimp only
  cases read : scanRegion region ⟨textEnd place chars, textEnd place chars + 2⟩
      (textEnd place chars + 2) rest with
  | error error => exact Or.inr ⟨error, rfl, .region delimits opens read⟩
  | ok inner =>
      dsimp only [Except.bind]
      rcases later inner.stop inner.rest inner.shorter with
        ⟨after, found, reads⟩ | ⟨error, found, fails⟩
      · rw [found]
        exact Or.inl ⟨_, rfl, .code delimits closes opens read reads⟩
      · rw [found]
        exact Or.inr ⟨error, rfl, .code delimits closes opens read fails⟩

theorem comment (opens : (splitText chars).2 = '{' :: '#' :: rest)
    (later : ∀ stop left, left.length ≤ rest.length → Settles stop left) : Settles place chars := by
  unfold Settles
  rw [scanSource_comment place opens]
  cases skipped : skipComment (textEnd place chars + 2) rest with
  | none => exact Or.inr ⟨_, rfl, .unclosed opens⟩
  | some ending =>
      obtain ⟨stop, left⟩ := ending
      dsimp only
      rcases later stop left (Nat.le_of_lt (skipComment_length skipped)) with
        ⟨after, found, reads⟩ | ⟨error, found, fails⟩
      · rw [found]
        exact Or.inl ⟨_, rfl, .comment opens skipped reads⟩
      · rw [found]
        exact Or.inr ⟨error, rfl, .comment opens skipped fails⟩

end Settles

theorem settles (place : Nat) (chars : List Char) : Settles place chars := by
  induction size : chars.length using Nat.strongRecOn generalizing chars place with
  | ind size ih =>
      subst size
      have later {first second : Char} {rest : List Char}
          (opens : (splitText chars).2 = first :: second :: rest) (stop : Nat) (left : List Char)
          (within : left.length ≤ rest.length) : Settles stop left :=
        ih left.length (Nat.lt_of_le_of_lt within (splitText_rest opens)) stop left rfl
      rcases splitText_opens chars with nothing | ⟨c, rest, opens, rfl | rfl | rfl⟩
      · exact Or.inl ⟨_, scanSource_text place nothing, .text place nothing⟩
      · exact .code .output (show Region.output.closer? = _ from rfl) opens (later opens)
      · exact .code .tag (show Region.tag.closer? = _ from rfl) opens (later opens)
      · exact .comment opens (later opens)

theorem readsSource_of_eq_ok {place : Nat} {chars : List Char} {found : List (Located Token)}
    (read : scanSource place chars = .ok found) : ReadsSource place chars found := by
  rcases settles place chars with ⟨_, same, reads⟩ | ⟨_, same, _⟩
  · cases same.symm.trans read
    exact reads
  · cases same.symm.trans read

theorem failsSource_of_eq_error {place : Nat} {chars : List Char} {error : ParseError}
    (failed : scanSource place chars = .error error) : FailsSource place chars error := by
  rcases settles place chars with ⟨_, same, _⟩ | ⟨_, same, fails⟩
  · cases same.symm.trans failed
  · cases same.symm.trans failed
    exact fails

end QueryTemplate.Lexer
