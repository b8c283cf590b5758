import QueryTemplate.Extension.Registry
import QueryTemplate.Proofs.Lexing.Pieces
import QueryTemplate.Proofs.Reading.Grammar

set_option autoImplicit false

/- Names: identifiers that are no words of the language. A name is read as one identifier wherever
no word goes on after it, and every identifier among the tokens of a source is a name. -/

namespace QueryTemplate

/-- An identifier that the language does not claim as a word of its own. -/
def IsName (name : String) : Prop :=
  isIdentifier name = true ∧ name ∉ Mark.words.map (·.1)

theorem isIdentifier_eq_true {name : String} :
    isIdentifier name = true ↔ ∃ first rest, name.toList = first :: rest ∧
      Token.isWordStart first = true ∧ ∀ c ∈ rest, Token.isWordRest c = true := by
  unfold isIdentifier
  split
  next empty => simp [empty]
  next first rest spelled =>
    rw [Bool.and_eq_true, List.all_eq_true, spelled]
    constructor
    · rintro ⟨starts, all⟩
      exact ⟨first, rest, rfl, starts, all⟩
    · rintro ⟨_, _, same, starts, all⟩
      cases same
      exact ⟨starts, all⟩

namespace Token

theorem ofWord_eq_ident {word name : String} :
    ofWord word = .ident name ↔ word = name ∧ name ∉ Mark.words.map (·.1) := by
  unfold ofWord
  split
  next reserved found =>
    obtain ⟨before, after, listed, -⟩ := List.lookup_eq_some_iff.mp found
    have within : word ∈ Mark.words.map (·.1) := by
      rw [listed, List.map_append]
      exact List.mem_append_right _ List.mem_cons_self
    constructor
    · intro same
      cases same
    · rintro ⟨rfl, free⟩
      exact absurd within free
  next absent =>
    have free : word ∉ Mark.words.map (·.1) := by
      intro within
      obtain ⟨entry, listed, same⟩ := List.mem_map.mp within
      have differs := List.lookup_eq_none_iff.mp absent entry listed
      rw [same, bne_self_eq_false] at differs
      cases differs
    constructor
    · intro same
      cases same
      exact ⟨rfl, free⟩
    · rintro ⟨rfl, -⟩
      rfl

/-- Identifiers are names, written as they are. -/
theorem spelled_ident {name : String} {chars : List Char} :
    Spelled (.ident name) chars ↔ chars = name.toList ∧ IsName name := by
  constructor
  · intro spelled
    generalize whole : Token.ident name = token at spelled
    cases spelled with
    | @word first rest starts all =>
        obtain ⟨rfl, free⟩ := ofWord_eq_ident.mp whole.symm
        have letters : (String.ofList (first :: rest)).toList = first :: rest :=
          String.toList_ofList
        exact ⟨letters.symm, isIdentifier_eq_true.mpr ⟨first, rest, letters, starts, all⟩, free⟩
    | _ => cases whole
  · rintro ⟨rfl, identifier, free⟩
    obtain ⟨first, rest, letters, starts, all⟩ := isIdentifier_eq_true.mp identifier
    have whole : String.ofList (first :: rest) = name := by rw [← letters, String.ofList_toList]
    have token : ofWord (String.ofList (first :: rest)) = .ident name :=
      ofWord_eq_ident.mpr ⟨whole, free⟩
    rw [letters, ← token]
    exact .word starts all

theorem isGap_of_isWordStart {c : Char} (starts : isWordStart c = true) : isGap c = false := by
  refine Bool.eq_false_iff.mpr fun gap => ?_
  simp only [isGap, Bool.or_eq_true, beq_iff_eq] at gap
  rcases gap with ((rfl | rfl) | rfl) | rfl <;> exact absurd starts (by decide)

/-- No word goes on with these characters. -/
def WordEnds (chars : List Char) : Prop := ∀ c, chars.head? = some c → isWordRest c = false

theorem takeWhile_word {word after : List Char} (all : ∀ c ∈ word, isWordRest c = true)
    (ends : WordEnds after) : (word ++ after).takeWhile isWordRest = word := by
  rw [List.takeWhile_append_of_pos all]
  cases after with
  | nil => exact List.append_nil word
  | cons c after =>
      rw [List.takeWhile_cons_of_neg (by simp [ends c rfl]), List.append_nil]

/-- The longest word that a name begins is the name, where no word goes on after it. -/
theorem scan_name {name : String} (named : IsName name) {after : List Char}
    (ends : WordEnds after) :
    ∃ first rest, name.toList = first :: rest ∧ isGap first = false ∧
      scan first (rest ++ after) = .ok (.ident name, rest.length) := by
  obtain ⟨first, rest, letters, starts, all⟩ := isIdentifier_eq_true.mp named.1
  refine ⟨first, rest, letters, isGap_of_isWordStart starts, ?_⟩
  have token : ofWord (String.ofList (first :: rest)) = .ident name := by
    rw [← letters, String.ofList_toList]
    exact ofWord_eq_ident.mpr ⟨rfl, named.2⟩
  rw [scan, if_pos starts]
  dsimp only
  rw [takeWhile_word all ends, token]

end Token

namespace Lexer

open Grammar

/-- In a region the characters are read as these tokens, wherever it lies, and those are left. -/
def RegionReads (region : Region) (chars : List Char) (read : List Token) (left : List Char) :
    Prop :=
  ∀ opener place, ∃ scanned, scanRegion region opener place chars = .ok scanned ∧
    values scanned.tokens = read ∧ scanned.rest = left

/-- Outside the regions the characters are read as these tokens, wherever they stand. -/
def SourceReads (chars : List Char) (read : List Token) : Prop :=
  ∀ place, ∃ found, scanSource place chars = .ok found ∧ values found = read

namespace RegionReads

variable {region : Region} {first : Char} {rest left : List Char} {read : List Token}

theorem gap (blank : Token.isGap first = true) (reads : RegionReads region rest read left) :
    RegionReads region (first :: rest) read left := by
  intro opener place
  obtain ⟨scanned, found, tokens, last⟩ := reads opener (place + 1)
  rw [scanRegion, if_pos blank, found]
  exact ⟨_, rfl, tokens, last⟩

theorem token {token : Token} {count : Nat} (solid : Token.isGap first = false)
    (scans : Token.scan first rest = .ok (token, count))
    (goes : some token ≠ region.closer?.map Token.mark)
    (reads : RegionReads region (rest.drop count) read left) :
    RegionReads region (first :: rest) (token :: read) left := by
  intro opener place
  obtain ⟨scanned, found, tokens, last⟩ :=
    reads opener (place + Text.byteLength (first :: rest.take count))
  rw [scanRegion, if_neg (by simp [solid]), scans]
  dsimp only
  rw [if_neg goes, found]
  refine ⟨_, rfl, ?_, last⟩
  rw [values_cons, tokens]

theorem closer {token : Token} {count : Nat} (solid : Token.isGap first = false)
    (scans : Token.scan first rest = .ok (token, count))
    (closes : some token = region.closer?.map Token.mark) (leaves : rest.drop count = left) :
    RegionReads region (first :: rest) [token] left := by
  intro opener place
  rw [scanRegion, if_neg (by simp [solid]), scans]
  dsimp only
  rw [if_pos closes]
  exact ⟨_, rfl, rfl, leaves⟩

/-- A name is read as an identifier. -/
theorem name {name : String} (named : IsName name) (ends : Token.WordEnds rest)
    (reads : RegionReads region rest read left) :
    RegionReads region (name.toList ++ rest) (.ident name :: read) left := by
  obtain ⟨first, others, letters, solid, scans⟩ := Token.scan_name named ends
  rw [letters]
  refine token solid scans ?_ ?_
  · cases region <;> intro closes <;> cases closes
  · change RegionReads region ((others ++ rest).drop others.length) read left
    rwa [List.drop_left]

end RegionReads

theorem splitText_opener {opener closer : Mark} (delimits : Delimits opener closer)
    (rest : List Char) : splitText (opener.spelling ++ rest) = ([], opener.spelling ++ rest) := by
  cases delimits <;> simp [Mark.spelling, splitText]

namespace SourceReads

variable {rest left : List Char} {read later : List Token}

theorem nil : SourceReads [] [] := by
  intro place
  rw [scanSource]
  exact ⟨[], rfl, rfl⟩

/-- An opener at the front begins a region. -/
theorem code {region : Region} {opener closer : Mark} (delimits : Delimits opener closer)
    (closes : region.closer? = some closer) (reads : RegionReads region rest read left)
    (after : SourceReads left later) :
    SourceReads (opener.spelling ++ rest) (.mark opener :: read ++ later) := by
  intro place
  obtain ⟨scanned, found, tokens, rfl⟩ := reads ⟨place, place + 2⟩ (place + 2)
  obtain ⟨others, again, last⟩ := after scanned.stop
  have front := splitText_opener delimits rest
  have start : textEnd place (opener.spelling ++ rest) = place := by
    rw [textEnd, front]
    rfl
  rw [scanSource_code delimits closes place (congrArg Prod.snd front), start]
  dsimp only
  rw [found, Except.bind, again, front]
  refine ⟨_, rfl, ?_⟩
  change values (⟨.mark opener, _⟩ :: scanned.tokens ++ others) = _
  rw [values_append, values_cons, tokens, last]

end SourceReads

end Lexer

open Lexer

/-- An identifier among the tokens of a source is a name, and stands in the source at its place. -/
theorem slice_of_ident {source : String} {found : List (Located Token)}
    (read : tokens source = .ok found) {name : String} {span : Span}
    (within : ⟨.ident name, span⟩ ∈ found) :
    Text.slice? span.start span.stop source.toList = some name.toList ∧ IsName name := by
  obtain ⟨slice, -, cut, ⟨_, raw, -⟩ | spelled⟩ := exists_slice read within
  · cases raw
  · obtain ⟨rfl, named⟩ := Token.spelled_ident.mp spelled
    exact ⟨cut, named⟩

end QueryTemplate
