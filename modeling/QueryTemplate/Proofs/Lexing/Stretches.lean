import QueryTemplate.Text.Utf8
import QueryTemplate.Source
import QueryTemplate.Token.Basic

set_option autoImplicit false

/- Sources as stretches of characters, each of which is one token or stands between tokens. A token
lies where its characters lie, so the tokens of a source follow one another as the stretches do, and
no two of them share a character. -/

namespace QueryTemplate.Lexer

/-- Characters of a source, and the token that they are, if they are one. -/
structure Stretch where
  chars : List Char
  token? : Option Token

namespace Stretch

def text (stretches : List Stretch) : List Char := stretches.flatMap (·.chars)

@[simp] theorem text_nil : text [] = [] := rfl

@[simp] theorem text_cons (stretch : Stretch) (rest : List Stretch) :
    text (stretch :: rest) = stretch.chars ++ text rest := rfl

@[simp] theorem text_append (first second : List Stretch) :
    text (first ++ second) = text first ++ text second := List.flatMap_append

/-- The token of a stretch that begins at a place. -/
def located (place : Nat) (stretch : Stretch) : List (Located Token) :=
  match stretch.token? with
  | some token => [⟨token, ⟨place, place + Text.byteLength stretch.chars⟩⟩]
  | none => []

/-- The tokens of stretches of which the first begins at a place. -/
def tokens (place : Nat) : List Stretch → List (Located Token)
  | [] => []
  | stretch :: rest =>
    stretch.located place ++ tokens (place + Text.byteLength stretch.chars) rest

@[simp] theorem tokens_nil (place : Nat) : tokens place [] = [] := rfl

theorem tokens_gap (place : Nat) (chars : List Char) (rest : List Stretch) :
    tokens place (⟨chars, none⟩ :: rest) = tokens (place + Text.byteLength chars) rest := rfl

theorem tokens_token (place : Nat) (chars : List Char) (token : Token) (rest : List Stretch) :
    tokens place (⟨chars, some token⟩ :: rest) =
      ⟨token, ⟨place, place + Text.byteLength chars⟩⟩ ::
        tokens (place + Text.byteLength chars) rest := rfl

theorem tokens_append (place : Nat) (first second : List Stretch) :
    tokens place (first ++ second) =
      tokens place first ++ tokens (place + Text.byteLength (text first)) second := by
  induction first generalizing place with
  | nil => rfl
  | cons stretch rest ih =>
      rw [List.cons_append, tokens, tokens, ih, text_cons, Text.byteLength_append, Nat.add_assoc,
        List.append_assoc]

theorem mem_located {place : Nat} {stretch : Stretch} {token : Located Token}
    (within : token ∈ stretch.located place) :
    stretch.token? = some token.value ∧
      token.span = ⟨place, place + Text.byteLength stretch.chars⟩ := by
  unfold located at within
  split at within
  next value found =>
    obtain rfl := List.mem_singleton.mp within
    exact ⟨found, rfl⟩
  next => cases within

/-- A token is a stretch, and lies where the characters of the stretch do. -/
theorem mem_tokens {place : Nat} {stretches : List Stretch} {token : Located Token}
    (within : token ∈ tokens place stretches) :
    ∃ before stretch after, stretches = before ++ stretch :: after ∧
      stretch.token? = some token.value ∧
      token.span.start = place + Text.byteLength (text before) ∧
      token.span.stop = token.span.start + Text.byteLength stretch.chars := by
  induction stretches generalizing place with
  | nil => cases within
  | cons stretch rest ih =>
      rcases List.mem_append.mp within with here | later
      · obtain ⟨found, span⟩ := mem_located here
        refine ⟨[], stretch, rest, rfl, found, ?_, ?_⟩
        · rw [span]
          rfl
        · rw [span]
      · obtain ⟨before, other, after, rfl, found, start, stop⟩ := ih later
        refine ⟨stretch :: before, other, after, rfl, found, ?_, stop⟩
        rw [start, text_cons, Text.byteLength_append, Nat.add_assoc]

/-- What a token's span cuts out of the source are the characters of its stretch. -/
theorem slice_token {stretches : List Stretch} {token : Located Token}
    (within : token ∈ tokens 0 stretches) :
    ∃ stretch ∈ stretches, stretch.token? = some token.value ∧
      Text.slice? token.span.start token.span.stop (text stretches) = some stretch.chars := by
  obtain ⟨before, stretch, after, rfl, found, start, stop⟩ := mem_tokens within
  refine ⟨stretch, List.mem_append_right _ List.mem_cons_self, found, ?_⟩
  rw [text_append, text_cons, ← List.append_assoc]
  exact Text.slice?_part (text before) stretch.chars (text after) (by omega) stop.symm

/-- Every token ends before the next one begins. -/
theorem pairwise_tokens (place : Nat) (stretches : List Stretch) :
    (tokens place stretches).Pairwise fun first second => first.span.stop ≤ second.span.start := by
  induction stretches generalizing place with
  | nil => exact List.Pairwise.nil
  | cons stretch rest ih =>
      refine List.pairwise_append.mpr ⟨?_, ih _, fun first here second later => ?_⟩
      · unfold located
        split
        · exact List.pairwise_singleton _ _
        · exact List.Pairwise.nil
      · obtain ⟨-, span⟩ := mem_located here
        obtain ⟨_, _, _, _, _, start, _⟩ := mem_tokens later
        rw [span, start]
        exact Nat.le_add_right _ _

/-- Tokens are no more than the characters that they are written with. -/
theorem length_tokens_le {stretches : List Stretch}
    (written : ∀ stretch ∈ stretches, stretch.token?.isSome → stretch.chars ≠ []) (place : Nat) :
    (tokens place stretches).length ≤ (text stretches).length := by
  induction stretches generalizing place with
  | nil => exact Nat.le_refl _
  | cons stretch rest ih =>
      obtain ⟨head, tail⟩ := List.forall_mem_cons.mp written
      have others := ih tail (place + Text.byteLength stretch.chars)
      have own : (stretch.located place).length ≤ stretch.chars.length := by
        unfold located
        split
        next found => exact List.length_pos_iff.mpr (head (by rw [found]; rfl))
        next => exact Nat.zero_le _
      rw [tokens, text_cons, List.length_append, List.length_append]
      omega

end Stretch

end QueryTemplate.Lexer
