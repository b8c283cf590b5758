import Mathlib.Data.List.Chain
import QueryTemplate.Proofs.Lexing.Words
import QueryTemplate.Number.Digits

set_option autoImplicit false

/- Tokens are read back from what is written of them. Where the characters after it do not go on
with it, a token is scanned from any of its spellings, so a region of tokens that are printed with
white space between them is read as exactly these tokens. -/

namespace QueryTemplate

namespace Token

/-- No token goes on with these characters. -/
def Ends (after : List Char) : Prop :=
  ∀ c, after.head? = some c → isWordRest c = false ∧ c ≠ '.' ∧ c ≠ '='

variable {after : List Char}

theorem Ends.wordEnds (ends : Ends after) : WordEnds after := fun c first => (ends c first).1

theorem Ends.stops (ends : Ends after) : Decimal.Stops after := by
  intro c first
  have other := (ends c first).1
  simp only [isWordRest, Char.isAlphanum, Bool.or_eq_false_iff] at other
  exact other.1.2

theorem ends_cons {c : Char} (plain : isWordRest c = false ∧ c ≠ '.' ∧ c ≠ '=')
    (rest : List Char) : Ends (c :: rest) := by
  intro d first
  cases first
  exact plain

theorem plain_of_isGap {c : Char} (gap : isGap c = true) :
    isWordRest c = false ∧ c ≠ '.' ∧ c ≠ '=' := by
  simp only [isGap, Bool.or_eq_true, beq_iff_eq] at gap
  rcases gap with ((rfl | rfl) | rfl) | rfl <;> decide

/-- A digit is neither white space nor the start of a word. -/
theorem solid_digit {c : Char} (digit : c.isDigit = true) :
    isGap c = false ∧ isWordStart c = false := by
  have bounds := Char.isDigit_iff_toNat.mp digit
  have least : 48 ≤ c.toNat := bounds.1
  have most : c.toNat ≤ 57 := bounds.2
  constructor
  · refine Bool.eq_false_iff.mpr fun gap => ?_
    simp only [isGap, Bool.or_eq_true, beq_iff_eq] at gap
    rcases gap with ((rfl | rfl) | rfl) | rfl <;> exact absurd least (by decide)
  · refine Bool.eq_false_iff.mpr fun starts => ?_
    simp only [isWordStart, Bool.or_eq_true, beq_iff_eq] at starts
    rcases starts with letter | rfl
    · have cased : c.isUpper = true ∨ c.isLower = true := (Bool.or_eq_true ..).mp letter
      rcases cased with upper | lower
      · have range : c.val ≥ 'A'.val ∧ c.val ≤ 'Z'.val := of_decide_eq_true upper
        have above : 65 ≤ c.toNat := range.1
        omega
      · have range : (decide (c.val ≥ 'a'.val) && decide (c.val ≤ 'z'.val)) = true := lower
        have above : 97 ≤ c.toNat := of_decide_eq_true ((Bool.and_eq_true ..).mp range).1
        omega
    · exact absurd most (by decide)

theorem scan_word {first : Char} {rest : List Char} (starts : isWordStart first = true)
    (all : ∀ c ∈ rest, isWordRest c = true) (ends : WordEnds after) :
    scan first (rest ++ after) =
      .ok (ofWord (String.ofList (first :: rest)), rest.length) := by
  rw [scan, if_pos starts]
  dsimp only
  rw [takeWhile_word all ends]

theorem scan_digit {first : Char} (digit : first.isDigit = true) (rest : List Char) :
    scan first rest = scanNumber first rest := by
  rw [scan, if_neg (by simp [(solid_digit digit).2]), if_pos digit]

theorem scan_int {first : Char} {rest : List Char} (all : ∀ c ∈ first :: rest, c.isDigit = true)
    (small : Decimal.readNat (first :: rest) ≤ maxInt) (ends : Ends after) :
    scan first (rest ++ after) = .ok (.int (Decimal.readNat (first :: rest)), rest.length) := by
  obtain ⟨digit, digits⟩ := List.forall_mem_cons.mp all
  rw [scan_digit digit, scanNumber, Decimal.takeWhile_digits digits ends.stops,
    Decimal.dropWhile_digits digits ends.stops]
  dsimp only
  split
  next d after => exact absurd rfl (ends '.' rfl).2.1
  next => rw [scanNumber.whole, if_pos small]

theorem scan_float {first : Char} {rest fraction : List Char} (filled : fraction ≠ [])
    (all : ∀ c ∈ first :: rest ++ fraction, c.isDigit = true) (ends : Ends after) :
    scan first (rest ++ '.' :: fraction ++ after) =
      .ok (.float (Binary64.ofRatio false (Decimal.readNat (first :: rest ++ fraction))
        (tenPow fraction.length)), (rest ++ '.' :: fraction).length) := by
  obtain ⟨whole, others⟩ := List.forall_mem_append.mp all
  obtain ⟨digit, digits⟩ := List.forall_mem_cons.mp whole
  cases fraction with
  | nil => exact absurd rfl filled
  | cons d fraction =>
      obtain ⟨second, later⟩ := List.forall_mem_cons.mp others
      have point : Decimal.Stops ('.' :: d :: (fraction ++ after)) := by
        intro c found
        cases found
        rfl
      rw [List.append_assoc, List.cons_append, List.cons_append, scan_digit digit, scanNumber,
        Decimal.takeWhile_digits digits point, Decimal.dropWhile_digits digits point]
      simp only [second, ↓reduceIte, Decimal.takeWhile_digits later ends.stops]
      simp only [List.length_append, List.length_cons, Nat.add_assoc, Nat.add_comm 1]

/-- The contents of a literal are scanned up to the quote after them. -/
theorem scanString_quoted {quote : Char} (solid : quote ≠ '\\') {content body : List Char}
    (quoted : Quoted quote content body) (after : List Char) :
    scanString quote (body ++ quote :: after) = .ok (content, body.length + 1) := by
  induction quoted with
  | nil =>
      rw [List.nil_append, scanString, if_pos rfl]
      · rfl
      · intro c rest same
        cases same
        exact absurd rfl solid
  | @plain c content body unquoted unescaped _ ih =>
      rw [List.cons_append, scanString, if_neg unquoted, if_neg unescaped, ih]
      · rfl
      · intro d rest same
        cases same
        exact absurd rfl unescaped
  | escaped inLine _ ih =>
      rw [List.cons_append, List.cons_append, scanString, if_neg inLine, ih]
      rfl

theorem scan_string {quote : Char} (quotes : quote = '"' ∨ quote = '\x27')
    {content body : List Char} (quoted : Quoted quote content body) (after : List Char) :
    scan quote (body ++ quote :: after) =
      .ok (.string (String.ofList content), body.length + 1) := by
  have solid : quote ≠ '\\' := by rcases quotes with rfl | rfl <;> decide
  have other : isWordStart quote = false ∧ quote.isDigit = false := by
    rcases quotes with rfl | rfl <;> decide
  rw [scan, if_neg (by simp [other.1]), if_neg (by simp [other.2]), if_pos quotes,
    scanString_quoted solid quoted]
  rfl

/-- A mark is scanned as the longest one, so no `=` may come after it. -/
theorem scan_mark (value : Mark) (ends : Ends after) :
    ∃ first rest, value.spelling = first :: rest ∧ isGap first = false ∧
      scan first (rest ++ after) = .ok (.mark value, rest.length) := by
  have single {c : Char} (found : after.head? = some c) := (ends c found).2.2
  cases value
  case assign | less | greater =>
    refine ⟨_, _, rfl, rfl, ?_⟩
    cases after with
    | nil => rfl
    | cons c after =>
        have other := single rfl
        simp [scan, scanMark, isWordStart, other, Except.map]
  case ifWord | elifWord | elseWord | endifWord | forWord | inWord | endforWord | setWord |
    andWord | orWord | notWord | trueWord | falseWord | nullWord =>
    exact ⟨_, _, rfl, rfl, scan_word rfl (List.all_eq_true.mp rfl) ends.wordEnds⟩
  all_goals exact ⟨_, _, rfl, rfl, rfl⟩

/-- A token is scanned from each of its spellings. -/
theorem Spelled.scan {token : Token} {chars : List Char} (spelled : Spelled token chars)
    (ends : Ends after) : ∃ first rest, chars = first :: rest ∧ isGap first = false ∧
      scan first (rest ++ after) = .ok (token, rest.length) := by
  cases spelled with
  | word starts all =>
      exact ⟨_, _, rfl, isGap_of_isWordStart starts, scan_word starts all ends.wordEnds⟩
  | int present all small =>
      cases chars with
      | nil => exact absurd rfl present
      | cons first rest =>
          exact ⟨_, _, rfl, (solid_digit (all first List.mem_cons_self)).1, scan_int all small ends⟩
  | @float whole fraction present filled all =>
      cases whole with
      | nil => exact absurd rfl present
      | cons first rest =>
          exact ⟨_, _, rfl, (solid_digit (all first List.mem_cons_self)).1,
            scan_float filled all ends⟩
  | @string quote quotes content body quoted =>
      refine ⟨quote, body ++ [quote], rfl, ?_, ?_⟩
      · rcases quotes with rfl | rfl <;> rfl
      · rw [List.append_assoc, List.length_append]
        exact scan_string quotes quoted after
  | mark value => exact scan_mark value ends

/-- The contents of a literal in which only the quote and the backslash are escaped. -/
def escaped (quote : Char) (content : List Char) : List Char :=
  content.flatMap fun c => if c = quote ∨ c = '\\' then ['\\', c] else [c]

theorem quoted_escaped {quote : Char} (quotes : quote = '"' ∨ quote = '\x27')
    (content : List Char) : Quoted quote content (escaped quote content) := by
  induction content with
  | nil => exact .nil
  | cons c content ih =>
      rw [escaped, List.flatMap_cons, ← escaped]
      split
      next special =>
        have same : unescape c = c ∧ c ≠ '\n' := by
          rcases quotes with rfl | rfl <;> rcases special with rfl | rfl <;> decide
        have quoted := Quoted.escaped same.2 ih
        rwa [same.1] at quoted
      next plain =>
        obtain ⟨unquoted, unescaped⟩ := not_or.mp plain
        exact .plain unquoted unescaped ih

/-- How a token is printed: words and signs as they are, integers in decimal, and strings in quotes
of either kind. The word for null has two forms. -/
inductive Printed : Token → List Char → Prop
  | mark (value : Mark) : Printed (.mark value) value.spelling
  | none : Printed (.mark .nullWord) ['n', 'o', 'n', 'e']
  | ident {name : String} (named : IsName name) : Printed (.ident name) name.toList
  | int {value : Nat} (small : value ≤ maxInt) : Printed (.int value) (Decimal.natText value)
  | string {quote : Char} (quotes : quote = '"' ∨ quote = '\x27') (content : String) :
      Printed (.string content) (quote :: escaped quote content.toList ++ [quote])

theorem Printed.spelled {token : Token} {chars : List Char} (printed : Printed token chars) :
    Spelled token chars := by
  cases printed with
  | mark value => exact .mark value
  | none => exact @Spelled.word 'n' ['o', 'n', 'e'] rfl (List.all_eq_true.mp rfl)
  | ident named => exact spelled_ident.mpr ⟨rfl, named⟩
  | @int value small =>
      have same := Decimal.readNat_natText value
      have spelled := Spelled.int (Decimal.natText_ne_nil value) (Decimal.allDigits_natText value)
        (by rwa [same])
      rwa [same] at spelled
  | string quotes content =>
      have spelled := Spelled.string quotes (quoted_escaped quotes content.toList)
      rwa [String.ofList_toList] at spelled

end Token

namespace Lexer

open Grammar

namespace Stretch

/-- A stretch of a region as it is printed: white space, or a token other than the closer. -/
def Printed (closer : Mark) (stretch : Stretch) : Prop :=
  match stretch.token? with
  | none => stretch.chars ≠ [] ∧ ∀ c ∈ stretch.chars, Token.isGap c = true
  | some token => token ≠ .mark closer ∧ Token.Printed token stretch.chars

/-- There is white space between any two tokens. -/
def Spaced (stretches : List Stretch) : Prop :=
  stretches.IsChain fun first second => first.token? = none ∨ second.token? = none

end Stretch

theorem RegionReads.gaps {region : Region} {rest left : List Char} {read : List Token}
    {gap : List Char} (blank : ∀ c ∈ gap, Token.isGap c = true)
    (reads : RegionReads region rest read left) : RegionReads region (gap ++ rest) read left := by
  induction gap with
  | nil => exact reads
  | cons c gap ih =>
      obtain ⟨first, others⟩ := List.forall_mem_cons.mp blank
      exact (ih others).gap first

/-- What comes after a token of a region does not go on with the token. -/
theorem ends_after {closer opener : Mark} (delimits : Delimits opener closer)
    {inside : List Stretch} (printed : ∀ stretch ∈ inside, stretch.Printed closer)
    (spaced : ∀ stretch, inside.head? = some stretch → stretch.token? = none)
    (after : List Char) : Token.Ends (Stretch.text inside ++ (closer.spelling ++ after)) := by
  cases inside with
  | nil => cases delimits <;> exact Token.ends_cons (by decide) _
  | cons stretch inside =>
      have blank := printed stretch List.mem_cons_self
      rw [Stretch.Printed, spaced stretch rfl] at blank
      obtain ⟨present, gap⟩ := blank
      obtain ⟨c, chars, whole⟩ := List.exists_cons_of_ne_nil present
      rw [Stretch.text_cons, whole]
      exact Token.ends_cons (Token.plain_of_isGap (gap c (by simp [whole]))) _

/-- A region that is printed is read as its tokens and its closer. -/
theorem regionReads_printed {region : Region} {opener closer : Mark}
    (delimits : Delimits opener closer) (closes : region.closer? = some closer)
    {inside : List Stretch} (printed : ∀ stretch ∈ inside, stretch.Printed closer)
    (spaced : Stretch.Spaced inside) (after : List Char) :
    RegionReads region (Stretch.text inside ++ (closer.spelling ++ after))
      (inside.filterMap (·.token?) ++ [.mark closer]) after := by
  induction inside with
  | nil =>
      have ends : some (Token.mark closer) = region.closer?.map Token.mark := by rw [closes]; rfl
      cases delimits <;> exact .closer rfl rfl ends rfl
  | cons stretch inside ih =>
      obtain ⟨first, others⟩ := List.forall_mem_cons.mp printed
      have reads := ih others spaced.tail
      rw [Stretch.text_cons, List.append_assoc]
      unfold Stretch.Printed at first
      split at first
      next gap =>
        rw [List.filterMap_cons_none gap]
        exact reads.gaps first.2
      next token found =>
        rw [List.filterMap_cons_some found]
        have next (other : Stretch) (begins : inside.head? = some other) :
            other.token? = none := by
          obtain ⟨rest, rfl⟩ := List.head?_eq_some_iff.mp begins
          exact (List.isChain_cons_cons.mp spaced).1.resolve_left (by simp [found])
        obtain ⟨c, rest, whole, solid, scans⟩ :=
          first.2.spelled.scan (ends_after delimits others next after)
        rw [whole, List.cons_append, List.cons_append]
        refine .token solid scans ?_ ?_
        · rw [closes]
          exact fun same => first.1 (Option.some.inj same)
        · rwa [List.drop_left]

end Lexer

open Lexer Grammar

/-- Printing the tokens of a region and reading them is the identity: whichever white space stands
between the tokens, and whichever quotes are taken for a string, the region is read as its opener,
exactly these tokens, and its closer. -/
theorem tokens_printed {opener closer : Mark} (delimits : Delimits opener closer)
    {inside : List Stretch} (printed : ∀ stretch ∈ inside, stretch.Printed closer)
    (spaced : Stretch.Spaced inside) :
    ∃ found, tokens (String.ofList (opener.spelling ++ Stretch.text inside ++ closer.spelling)) =
        .ok found ∧
      values found = .mark opener :: inside.filterMap (·.token?) ++ [.mark closer] := by
  have region : ∃ region : Region, region.closer? = some closer := by
    cases delimits with
    | output => exact ⟨.output, rfl⟩
    | tag => exact ⟨.tag, rfl⟩
  obtain ⟨region, closes⟩ := region
  have reads := regionReads_printed delimits closes printed spaced []
  obtain ⟨found, scanned, same⟩ := SourceReads.code delimits closes reads SourceReads.nil 0
  refine ⟨found, ?_, by rw [same, List.append_nil, List.cons_append]⟩
  rw [List.append_nil, ← List.append_assoc] at scanned
  rw [tokens, String.toList_ofList]
  exact scanned

/-- Closers, quotes and line feeds in literals, and words that begin with other words. -/
theorem tokens_printed_confusing :
    let inside : List Stretch := [⟨[' '], none⟩, ⟨['n', 'o', 't', 'e'], some (.ident "note")⟩,
      ⟨['\n', '\t'], none⟩, ⟨['n', 'o', 't'], some (.mark .notWord)⟩, ⟨[' '], none⟩,
      ⟨['<'], some (.mark .less)⟩, ⟨[' '], none⟩, ⟨['='], some (.mark .assign)⟩, ⟨[' '], none⟩,
      ⟨['\x27', '\x7d', '\x7d', '\\', '\x27', '"', '\n', '\x27'],
        some (.string "\x7d\x7d'\"\n")⟩,
      ⟨[' '], none⟩, ⟨['%', '\x7d'], some (.mark .tagClose)⟩, ⟨[' '], none⟩,
      ⟨['4', '2'], some (.int 42)⟩, ⟨[' '], none⟩,
      ⟨['"', 'é', '\\', '\\', 'n', '"'], some (.string "é\\n")⟩]
    (∀ stretch ∈ inside, stretch.Printed .outputClose) ∧ Stretch.Spaced inside ∧
      ∃ found,
        tokens "\x7b\x7b note\n\tnot < = '\x7d\x7d\\'\"\n' %\x7d 42 \"é\\\\n\"\x7d\x7d" =
          .ok found ∧
        values found = [.mark .outputOpen, .ident "note", .mark .notWord, .mark .less,
          .mark .assign, .string "\x7d\x7d'\"\n", .mark .tagClose, .int 42,
          .string "é\\n", .mark .outputClose] := by
  intro inside
  have space : (⟨[' '], none⟩ : Stretch).Printed .outputClose :=
    ⟨by decide, List.all_eq_true.mp rfl⟩
  have note : IsName "note" := ⟨by decide, by simp [Mark.words]⟩
  have printed : ∀ stretch ∈ inside, stretch.Printed .outputClose := by
    simp only [inside, List.forall_mem_cons]
    refine ⟨space, ⟨by decide, .ident note⟩, ⟨by decide, List.all_eq_true.mp rfl⟩,
      ⟨by decide, .mark .notWord⟩,
      space, ⟨by decide, .mark .less⟩, space, ⟨by decide, .mark .assign⟩, space,
      ⟨by decide, .string (Or.inr rfl) _⟩, space, ⟨by decide, .mark .tagClose⟩, space,
      ⟨by decide, .int (by decide)⟩, space, ⟨by decide, .string (Or.inl rfl) _⟩,
      List.forall_mem_nil _⟩
  have spaced : Stretch.Spaced inside := by
    simp [inside, Stretch.Spaced]
  have text : String.ofList (Mark.outputOpen.spelling ++ Stretch.text inside ++
      Mark.outputClose.spelling) =
        "\x7b\x7b note\n\tnot < = '\x7d\x7d\\'\"\n' %\x7d 42 \"é\\\\n\"\x7d\x7d" := by
    decide
  rw [← text]
  exact ⟨printed, spaced, tokens_printed .output printed spaced⟩

end QueryTemplate
