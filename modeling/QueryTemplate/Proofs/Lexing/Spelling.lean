import QueryTemplate.Token.Lexer

set_option autoImplicit false

/- How the tokens of code regions are written. What is scanned as a token is spelled as that token,
and scanning never goes past the characters there are. -/

namespace QueryTemplate

/-- How a mark is written. The word for null may also be written `none`. -/
def Mark.spelling : Mark → List Char
  | outputOpen => ['{', '{']
  | outputClose => ['}', '}']
  | tagOpen => ['{', '%']
  | tagClose => ['%', '}']
  | ifWord => ['i', 'f']
  | elifWord => ['e', 'l', 'i', 'f']
  | elseWord => ['e', 'l', 's', 'e']
  | endifWord => ['e', 'n', 'd', 'i', 'f']
  | forWord => ['f', 'o', 'r']
  | inWord => ['i', 'n']
  | endforWord => ['e', 'n', 'd', 'f', 'o', 'r']
  | setWord => ['s', 'e', 't']
  | andWord => ['a', 'n', 'd']
  | orWord => ['o', 'r']
  | notWord => ['n', 'o', 't']
  | trueWord => ['t', 'r', 'u', 'e']
  | falseWord => ['f', 'a', 'l', 's', 'e']
  | nullWord => ['n', 'u', 'l', 'l']
  | eq => ['=', '=']
  | notEq => ['!', '=']
  | less => ['<']
  | lessEq => ['<', '=']
  | greater => ['>']
  | greaterEq => ['>', '=']
  | assign => ['=']
  | pipe => ['|']
  | dot => ['.']
  | comma => [',']
  | parenOpen => ['(']
  | parenClose => [')']

namespace Token

/-- What stands between the quotes of a string literal, and the text that it means. -/
inductive Quoted (quote : Char) : List Char → List Char → Prop
  | nil : Quoted quote [] []
  | plain {c : Char} {content body : List Char} (unquoted : c ≠ quote) (unescaped : c ≠ '\\')
      (rest : Quoted quote content body) : Quoted quote (c :: content) (c :: body)
  | escaped {c : Char} {content body : List Char} (inLine : c ≠ '\n')
      (rest : Quoted quote content body) : Quoted quote (unescape c :: content) ('\\' :: c :: body)

/-- A token and the characters that it is written with. -/
inductive Spelled : Token → List Char → Prop
  | word {first : Char} {rest : List Char} (starts : isWordStart first = true)
      (all : ∀ c ∈ rest, isWordRest c = true) :
      Spelled (ofWord (String.ofList (first :: rest))) (first :: rest)
  | int {digits : List Char} (present : digits ≠ []) (all : ∀ c ∈ digits, c.isDigit = true)
      (small : Decimal.readNat digits ≤ maxInt) : Spelled (.int (Decimal.readNat digits)) digits
  | float {whole fraction : List Char} (present : whole ≠ []) (filled : fraction ≠ [])
      (all : ∀ c ∈ whole ++ fraction, c.isDigit = true) :
      Spelled (.float (Binary64.ofRatio false (Decimal.readNat (whole ++ fraction))
        (tenPow fraction.length))) (whole ++ '.' :: fraction)
  | string {quote : Char} (quotes : quote = '"' ∨ quote = '\x27') {content body : List Char}
      (quoted : Quoted quote content body) :
      Spelled (.string (String.ofList content)) (quote :: body ++ [quote])
  | mark (value : Mark) : Spelled (.mark value) value.spelling

theorem Spelled.present {token : Token} {chars : List Char} (spelled : Spelled token chars) :
    chars ≠ [] := by
  cases spelled with
  | word => exact List.cons_ne_nil _ _
  | int present => exact present
  | float => simp
  | string => exact List.cons_ne_nil _ _
  | mark value => cases value <;> exact List.cons_ne_nil _ _

/-- No word of the language is a delimiter, so delimiters are written in one way. -/
theorem Spelled.delimiter {value : Mark} {chars : List Char} (spelled : Spelled (.mark value) chars)
    (symbol : ∀ entry ∈ Mark.words, entry.2 ≠ value) : chars = value.spelling := by
  generalize whole : Token.mark value = token at spelled
  cases spelled with
  | @word first rest =>
      unfold ofWord at whole
      split at whole
      next reserved found =>
        cases whole
        obtain ⟨before, after, listed, -⟩ := List.lookup_eq_some_iff.mp found
        refine absurd rfl (symbol (String.ofList (first :: rest), value) ?_)
        rw [listed]
        exact List.mem_append_right _ List.mem_cons_self
      next => cases whole
  | mark other =>
      cases whole
      rfl
  | _ => cases whole

theorem mem_takeWhile_holds {keep : Char → Bool} {chars : List Char} :
    ∀ c ∈ chars.takeWhile keep, keep c = true := List.all_eq_true.mp List.all_takeWhile

/-- What a scan takes of the characters after a first one spells a token together with it. -/
def Reads (token : Token) (first : Char) (rest : List Char) (count : Nat) : Prop :=
  ∃ taken after, rest = taken ++ after ∧ taken.length = count ∧ Spelled token (first :: taken)

theorem reads_takeWhile {token : Token} {first : Char} {rest : List Char} (keep : Char → Bool)
    (spelled : Spelled token (first :: rest.takeWhile keep)) :
    Reads token first rest (rest.takeWhile keep).length :=
  ⟨_, _, List.takeWhile_append_dropWhile.symm, rfl, spelled⟩

theorem quoted_scanString {quote : Char} {rest content : List Char} {count : Nat}
    (read : scanString quote rest = .ok (content, count)) :
    ∃ body after, rest = body ++ quote :: after ∧ body.length + 1 = count ∧
      Quoted quote content body := by
  fun_induction scanString quote rest generalizing content count with
  | case3 c tail inLine inner more found ih =>
      cases read
      obtain ⟨body, after, rfl, rfl, quoted⟩ := ih found
      exact ⟨'\\' :: c :: body, after, rfl, rfl, quoted.escaped inLine⟩
  | case5 tail =>
      cases read
      exact ⟨[], tail, rfl, rfl, .nil⟩
  | case7 c tail _ unquoted unescaped inner more found ih =>
      cases read
      obtain ⟨body, after, rfl, rfl, quoted⟩ := ih found
      exact ⟨c :: body, after, rfl, rfl, quoted.plain unquoted unescaped⟩
  | _ => cases read

theorem reads_whole {first : Char} {rest : List Char} {token : Token} {count : Nat}
    (digit : first.isDigit = true)
    (read : scanNumber.whole first (rest.takeWhile Char.isDigit) = .ok (token, count)) :
    Reads token first rest count := by
  unfold scanNumber.whole at read
  dsimp only at read
  split at read
  next small =>
    cases read
    refine reads_takeWhile Char.isDigit (.int (List.cons_ne_nil _ _) ?_ small)
    exact List.forall_mem_cons.mpr ⟨digit, mem_takeWhile_holds⟩
  next => cases read

theorem reads_scanNumber {first : Char} {rest : List Char} {token : Token} {count : Nat}
    (digit : first.isDigit = true) (read : scanNumber first rest = .ok (token, count)) :
    Reads token first rest count := by
  have split_rest : rest.takeWhile Char.isDigit ++ rest.dropWhile Char.isDigit = rest :=
    List.takeWhile_append_dropWhile
  unfold scanNumber at read
  dsimp only at read
  split at read
  next d after point =>
    split at read
    next second =>
      cases read
      have fraction : after.takeWhile Char.isDigit ++ after.dropWhile Char.isDigit = after :=
        List.takeWhile_append_dropWhile
      refine ⟨rest.takeWhile Char.isDigit ++ '.' :: d :: after.takeWhile Char.isDigit,
        after.dropWhile Char.isDigit, ?_, ?_, ?_⟩
      · rw [List.append_assoc, List.cons_append, List.cons_append, fraction, ← point, split_rest]
      · simp only [List.length_append, List.length_cons]
        omega
      · refine .float (List.cons_ne_nil _ _) (List.cons_ne_nil _ _) ?_
        refine List.forall_mem_cons.mpr ⟨digit, ?_⟩
        exact List.forall_mem_append.mpr
          ⟨mem_takeWhile_holds, List.forall_mem_cons.mpr ⟨second, mem_takeWhile_holds⟩⟩
    next => exact reads_whole digit read
  next => exact reads_whole digit read

theorem reads_scanMark {first : Char} {rest : List Char} {value : Mark} {count : Nat}
    (read : scanMark first rest = .ok (value, count)) : Reads (.mark value) first rest count := by
  unfold scanMark at read
  split at read
  all_goals cases read
  all_goals first
    | exact ⟨[_], _, rfl, rfl, .mark _⟩
    | exact ⟨[], _, rfl, rfl, .mark _⟩

theorem reads_scan {first : Char} {rest : List Char} {token : Token} {count : Nat}
    (read : scan first rest = .ok (token, count)) : Reads token first rest count := by
  unfold scan at read
  split at read
  next starts =>
    cases read
    exact reads_takeWhile isWordRest (.word starts mem_takeWhile_holds)
  next =>
    split at read
    next digit => exact reads_scanNumber digit read
    next =>
      split at read
      next quotes =>
        cases found : scanString first rest with
        | error count => rw [found] at read; cases read
        | ok scanned =>
            rw [found] at read
            cases read
            obtain ⟨body, after, rfl, count, quoted⟩ := quoted_scanString found
            refine ⟨body ++ [first], after, by simp, by simpa using count, ?_⟩
            exact .string quotes quoted
      next =>
        cases found : scanMark first rest with
        | error count => rw [found] at read; cases read
        | ok scanned =>
            rw [found] at read
            cases read
            exact reads_scanMark found

/-- The characters that a scan takes spell its token. -/
theorem spelled_scan {first : Char} {rest : List Char} {token : Token} {count : Nat}
    (read : scan first rest = .ok (token, count)) : Spelled token (first :: rest.take count) := by
  obtain ⟨taken, after, rfl, rfl, spelled⟩ := reads_scan read
  rwa [List.take_left]

end Token

end QueryTemplate
