import QueryTemplate.Proofs.Lexing.Pieces
import QueryTemplate.Proofs.Reading.Chunks
import QueryTemplate.Proofs.Reading.Templates

set_option autoImplicit false

/- Sources that are read: no more tokens than characters, no integer beyond the largest literal, and
a template whose code is no longer than the source. -/

namespace QueryTemplate

/-- The tokens of a text are in range. -/
def TokensInRange (tokens : List (Located Token)) : Prop :=
  ∀ token ∈ tokens, token.TokenInRange

/-- Integers have no other spelling than in range. -/
theorem Token.Spelled.inRange {token : Token} {chars : List Char} (spelled : Spelled token chars) :
    token.InRange := by
  cases spelled with
  | word =>
      unfold ofWord
      split <;> trivial
  | int _ _ small =>
      have most : maxInt < twoPow 63 := by decide
      show -(twoPow 63 : Int) ≤ (Decimal.readNat chars : Int) ∧
        (Decimal.readNat chars : Int) < (twoPow 63 : Int)
      omega
  | float | string | mark => trivial

namespace Lexer

theorem scanSource_covers {place : Nat} {chars : List Char} {tokens : List (Located Token)}
    (read : scanSource place chars = .ok tokens) :
    tokens.length ≤ chars.length ∧ TokensInRange tokens := by
  obtain ⟨pieces, formed, rfl, rfl⟩ := scanSource_accounted read
  have each {stretch : Stretch} (within : stretch ∈ pieces.flatMap Piece.stretches) {token : Token}
      (found : stretch.token? = some token) : stretch.chars ≠ [] ∧ token.InRange := by
    obtain ⟨piece, member, inside⟩ := List.mem_flatMap.mp within
    obtain ⟨present, ⟨content, rfl, -⟩ | spelled⟩ := (formed piece member).token inside found
    · exact ⟨present, trivial⟩
    · exact ⟨present, spelled.inRange⟩
  refine ⟨Stretch.length_tokens_le (fun stretch within valued => ?_) place, fun token within => ?_⟩
  · obtain ⟨token, found⟩ := Option.isSome_iff_exists.mp valued
    exact (each within found).1
  · obtain ⟨before, stretch, after, split, found, -⟩ := Stretch.mem_tokens within
    have member : stretch ∈ pieces.flatMap Piece.stretches := by
      rw [split]
      exact List.mem_append_right _ List.mem_cons_self
    exact (each member found).2

end Lexer

open Reader (Sums)

theorem Chunk.ofSource_covers {source : String} {chunks : List Chunk}
    (read : Chunk.ofSource source = .ok chunks) :
    ∃ count, count ≤ source.length ∧ Sums Chunk.Covered chunks count := by
  obtain ⟨tokens, scanned, -, listed⟩ := Chunk.ofSource_eq_ok.mp read
  obtain ⟨rest, found⟩ := ofTokens_eq_ok.mp listed
  obtain ⟨fit, inRange⟩ := Lexer.scanSource_covers scanned
  obtain ⟨used, rfl, sums⟩ := yields_listReader tokens chunks rest inRange found
  refine ⟨used.length, ?_, sums⟩
  rw [String.length_toList, List.length_append] at fit
  omega

theorem readBody_covers (grammars : TagGrammars) (allowance : Nat) :
    BodyCovers (readBody grammars allowance) := by
  induction allowance with
  | zero =>
      intro opener chunks total run _ read
      cases read
  | succ allowance ih =>
      intro opener chunks total run sums read
      exact readsNodes_covered ih sums (readsNodes_of_eq_ok read)

/-- The code of a template is no longer than its source, and its integer literals are in range. -/
theorem Template.parse_covers {grammars : TagGrammars} {source : String} {template : Template}
    (read : Template.parse grammars source = .ok template) :
    Node.ListCovered template source.length := by
  unfold Template.parse at read
  cases found : Chunk.ofSource source with
  | error error => rw [found] at read; cases read
  | ok chunks =>
      rw [found] at read
      obtain ⟨count, fit, sums⟩ := Chunk.ofSource_covers found
      simp only [bind, Except.bind, ofChunks] at read
      split at read
      next => cases read
      next nodes again =>
        cases read
        have covered := readsNodes_covered (readBody_covers grammars maxNesting) sums
          (readsNodes_of_eq_ok again)
        exact ⟨Nat.le_trans covered.size fit, covered.literals⟩
      next => cases read

end QueryTemplate
