import Mathlib.Data.List.Flatten
import QueryTemplate.Proofs.Lexing.Words
import QueryTemplate.Proofs.Reading.Chunks
import QueryTemplate.Proofs.Template.Building

set_option autoImplicit false

/- Where the names of tags and filters in a template come from: each is an identifier among the
tokens of its source, and so a name that the language does not claim, and they are named in the
order of those tokens. -/

namespace QueryTemplate

open Reader Grammar

/-- The identifier that names a symbol. -/
def Symbol.token (symbol : Symbol) : Located Token := ⟨.ident symbol.name, symbol.span⟩

/-- The symbols are named by some of the tokens, one after the other. -/
def NamedIn (symbols : List Symbol) (used : List (Located Token)) : Prop :=
  (symbols.map Symbol.token).Sublist used

namespace NamedIn

variable {symbols others : List Symbol} {used more : List (Located Token)}

theorem nil (used : List (Located Token)) : NamedIn [] used := List.nil_sublist used

theorem append (first : NamedIn symbols used) (second : NamedIn others more) :
    NamedIn (symbols ++ others) (used ++ more) := by
  rw [NamedIn, List.map_append]
  exact List.Sublist.append first second

theorem named (kind : SymbolKind) (name : String) (span : Span) (rest : NamedIn symbols used) :
    NamedIn (⟨kind, name, span⟩ :: symbols) (⟨.ident name, span⟩ :: used) :=
  List.Sublist.cons_cons _ rest

theorem cons (rest : NamedIn symbols used) (token : Located Token) :
    NamedIn symbols (token :: used) := List.Sublist.cons token rest

theorem concat (rest : NamedIn symbols used) (token : Located Token) :
    NamedIn symbols (used ++ [token]) := List.Sublist.trans rest (List.sublist_append_left _ _)

/-- What holds of every item with its own tokens holds of all of them. -/
theorem flatMap {α : Type} {items : List (α × List (Located Token))} {symbols : α → List Symbol}
    (each : ∀ item ∈ items, NamedIn (symbols item.1) item.2) :
    NamedIn ((items.map (·.1)).flatMap symbols) (items.flatMap (·.2)) := by
  rw [NamedIn, List.flatMap_map, List.map_flatMap]
  exact List.Sublist.flatMap_right items each

theorem of_parts {α : Type} {post : α → List (Located Token) → Prop} (symbols : α → List Symbol)
    (each : ∀ item used, post item used → NamedIn (symbols item) used) {items : List α}
    (parts : Parts post items used) : NamedIn (items.flatMap symbols) used := by
  induction parts with
  | nil => exact .nil []
  | cons head _ ih => exact (each _ _ head).append ih

end NamedIn

theorem Expr.Derived.named {level : Precedence} {expr : Expr} {used : List (Located Token)}
    (derived : Derived level expr used) : NamedIn expr.symbols used := by
  induction derived with
  | literal => exact .nil _
  | var => exact .nil _
  | parens _ _ _ ih => exact (ih.concat _).cons _
  | attr _ _ _ _ ih => exact List.Sublist.trans ih (List.sublist_append_left _ _)
  | filter _ _ name place _ _ inside ih others =>
      have args := (NamedIn.flatMap others).trans (inside.trans (List.dropLast_sublist _))
      rw [symbols, listSymbols_eq_flatMap]
      exact ih.append (.cons (.named .filter name place args) _)
  | negate _ _ ih => exact ih.cons _
  | binary _ _ _ _ ih others => exact ih.append (others.cons _)
  | of_tighter _ _ ih => exact ih

theorem Arg.Listed.named {arg : Arg} {used : List (Located Token)} (listed : arg.Listed used) :
    NamedIn arg.value.symbols used := by
  have alone {used : List (Located Token)} (derived : arg.Derived used) :
      NamedIn arg.value.symbols used := by
    cases derived with
    | positional derived => exact derived.named
    | keyword _ _ _ derived => exact (derived.named.cons _).cons _
  cases listed with
  | alone derived => exact alone derived
  | comma derived _ => exact (alone derived).concat _

theorem Header.Derived.named {header : Header} {used : List (Located Token)}
    (derived : header.Derived used) : NamedIn header.symbols used := by
  cases derived with
  | branch _ derived => exact derived.named.cons _
  | elif _ derived => exact derived.named.cons _
  | otherwise => exact .nil _
  | endBranch => exact .nil _
  | loop _ _ _ _ derived => exact ((derived.named.cons _).cons _).cons _
  | endLoop => exact .nil _
  | assign _ _ _ _ derived => exact ((derived.named.cons _).cons _).cons _
  | tag name place parts =>
      have args := NamedIn.of_parts (·.value.symbols) (fun _ _ => Arg.Listed.named) parts
      exact .named .tag name place args

theorem Chunk.Derived.named {chunk : Chunk} {used : List (Located Token)}
    (derived : chunk.Derived used) : NamedIn chunk.symbols used := by
  cases derived with
  | text => exact .nil _
  | output _ _ derived => exact (derived.named.concat _).cons _
  | header _ _ derived => exact (derived.named.concat _).cons _

namespace Template

variable {grammars : TagGrammars} {source : String} {template : Template}

/-- The chunks that a template is built from, and the tokens that they are derived from. -/
theorem exists_walk (parsed : parse grammars source = .ok template) :
    ∃ found chunks, tokens source = .ok found ∧ Parts Chunk.Derived chunks found ∧
      Walk template.elements template.symbols chunks := by
  obtain ⟨chunks, read, built⟩ := built_of_parse parsed
  obtain ⟨found, scanned, -, listed⟩ := Chunk.ofSource_eq_ok.mp read
  exact ⟨found, chunks, scanned, Chunk.parts_ofTokens listed, built.walk⟩

/-- The tags and filters of a template are named by tokens of its source, in their order. -/
theorem named_symbols (parsed : parse grammars source = .ok template) :
    ∃ found, tokens source = .ok found ∧ NamedIn template.symbols found := by
  obtain ⟨found, chunks, scanned, parts, walk⟩ := exists_walk parsed
  have named : NamedIn (chunks.flatMap Chunk.symbols) found :=
    .of_parts Chunk.symbols (fun _ _ => Chunk.Derived.named) parts
  exact ⟨found, scanned, (walk.symbols_sublist.map _).trans named⟩

/-- Every tag and filter that a template names has a name that the language does not claim. -/
theorem isName_symbols (parsed : parse grammars source = .ok template) :
    ∀ symbol ∈ template.symbols, IsName symbol.name := by
  obtain ⟨found, scanned, named⟩ := named_symbols parsed
  intro symbol within
  have token : symbol.token ∈ found := named.subset (List.mem_map_of_mem within)
  exact (slice_of_ident scanned token).2

end Template

end QueryTemplate
