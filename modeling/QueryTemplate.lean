import QueryTemplate.Number.Binary64
import QueryTemplate.Text.Case
import QueryTemplate.Text.Basic
import QueryTemplate.Text.Utf8
import QueryTemplate.Json.Printer
import QueryTemplate.Json.Document
import QueryTemplate.Template.Basic
import QueryTemplate.Token.Lexer
import QueryTemplate.Chunk.Reader
import QueryTemplate.Template.Tree
import QueryTemplate.Template.ParseError
import QueryTemplate.Builder.Basic
import QueryTemplate.Program.Listing
import QueryTemplate.Template.Symbol
import QueryTemplate.Program.Generate
import QueryTemplate.Template.Awaiting
import QueryTemplate.Extension.Registry
import QueryTemplate.Execution.Executor
import QueryTemplate.Engine
import QueryTemplate.Config
import QueryTemplate.Compilation.Basic
import QueryTemplate.Catalog.Basic
import QueryTemplate.Proofs.Tables
import QueryTemplate.Proofs.Meaning
import QueryTemplate.Proofs.Code.Logic
import QueryTemplate.Proofs.Code.Layout
import QueryTemplate.Proofs.Code.Runs
import QueryTemplate.Proofs.Code.Expressions
import QueryTemplate.Proofs.Code.Nodes
import QueryTemplate.Proofs.Code.Programs
import QueryTemplate.Proofs.Code.Eager
import QueryTemplate.Text.Solid
import QueryTemplate.Number.Digits
import QueryTemplate.Proofs.Number.Shortest
import QueryTemplate.Proofs.Json.Quoted
import QueryTemplate.Proofs.Json.Numerals
import QueryTemplate.Proofs.Json.Reading
import QueryTemplate.Proofs.Json.RoundTrip
import QueryTemplate.Proofs.Json.OneLine
import QueryTemplate.Proofs.Program.Operands
import QueryTemplate.Proofs.Program.RoundTrip
import QueryTemplate.Proofs.Reading.Takes
import QueryTemplate.Proofs.Reading.Yields
import QueryTemplate.Proofs.Reading.Expressions
import QueryTemplate.Proofs.Reading.Templates
import QueryTemplate.Proofs.Reading.Sources
import QueryTemplate.Proofs.Template.Revision
import QueryTemplate.Proofs.Code.Contents
import QueryTemplate.Proofs.Code.Bounds
import QueryTemplate.Proofs.Json.Faithful
import QueryTemplate.Proofs.Compilation.RoundTrip
import QueryTemplate.Proofs.Number.Rounding
import QueryTemplate.Proofs.Number.Scaling
import QueryTemplate.Proofs.Number.Rereading
import QueryTemplate.Proofs.Template.Served
import QueryTemplate.Proofs.Code.Rereading
import QueryTemplate.Proofs.Compilation.Safety
import QueryTemplate.Proofs.Builder.Rendering
import QueryTemplate.Proofs.Builder.Authored
import QueryTemplate.Proofs.Execution.Successes
import QueryTemplate.Proofs.Execution.Authored
import QueryTemplate.Proofs.Compilation.Provenance
import QueryTemplate.Proofs.Builder.Sequences
import QueryTemplate.Proofs.Execution.Interleaving
import QueryTemplate.Proofs.Execution.Invalidation
import QueryTemplate.Proofs.Execution.Registration
import QueryTemplate.Proofs.Reading.Regions
import QueryTemplate.Proofs.Lexing.Stretches
import QueryTemplate.Proofs.Lexing.Spelling
import QueryTemplate.Proofs.Lexing.Scans
import QueryTemplate.Proofs.Lexing.Pieces
import QueryTemplate.Proofs.Template.Flattening
import QueryTemplate.Proofs.Template.Readings
import QueryTemplate.Proofs.Template.Building
import QueryTemplate.Proofs.Template.Rebuilding
import QueryTemplate.Proofs.Reading.Nested
import QueryTemplate.Proofs.Reading.Limits
import QueryTemplate.Proofs.Execution.Disclosed
import QueryTemplate.Proofs.Compilation.Loading
import QueryTemplate.Proofs.Compilation.Metadata
import QueryTemplate.Proofs.Compilation.Listed
import QueryTemplate.Proofs.Compilation.Disclosure
import QueryTemplate.Proofs.Builder.Legibility
import QueryTemplate.Proofs.Compilation.Assembly
import QueryTemplate.Proofs.Compilation.Ordering
import QueryTemplate.Proofs.Template.Extending
import QueryTemplate.Proofs.Compilation.Extending
import QueryTemplate.Proofs.Execution.History
import QueryTemplate.Proofs.Execution.Requests
import QueryTemplate.Proofs.Compilation.Exported
import QueryTemplate.Proofs.Execution.Lineages
import QueryTemplate.Proofs.Execution.Versions
import QueryTemplate.Proofs.Template.OpenBlocks
import QueryTemplate.Proofs.Template.Scanned
import QueryTemplate.Proofs.Lexing.Words
import QueryTemplate.Proofs.Reading.Names
import QueryTemplate.Proofs.Reading.Unbounded
import QueryTemplate.Proofs.Reading.Misses
import QueryTemplate.Proofs.Reading.Lookahead
import QueryTemplate.Proofs.Reading.Predictive
import QueryTemplate.Proofs.Reading.Viable
import QueryTemplate.Proofs.Reading.Rejected
import QueryTemplate.Proofs.Compilation.Usable
import QueryTemplate.Proofs.Template.Marking
import QueryTemplate.Proofs.Template.Walks
import QueryTemplate.Proofs.Template.Symbols
import QueryTemplate.Proofs.Reading.Spans
import QueryTemplate.Proofs.Template.Places
import QueryTemplate.Proofs.Compilation.Unresolved
import QueryTemplate.Proofs.Lexing.Faults
import QueryTemplate.Proofs.Template.Errors
import QueryTemplate.Proofs.Template.Addresses
import QueryTemplate.Proofs.Compilation.Visits
import QueryTemplate.Proofs.Compilation.Refusals
import QueryTemplate.Proofs.Reading.Openers
import QueryTemplate.Proofs.Compilation.Gathered
import QueryTemplate.Proofs.Code.Sketches
import QueryTemplate.Proofs.Code.Labels
import QueryTemplate.Proofs.Code.TagCalls
import QueryTemplate.Proofs.Execution.Handed
import QueryTemplate.Proofs.Compilation.Flags
import QueryTemplate.Proofs.Text.Cuts
import QueryTemplate.Proofs.Program.Truncation
import QueryTemplate.Proofs.Execution.Failures
import QueryTemplate.Proofs.Execution.Scopes
import QueryTemplate.Proofs.Execution.WellFormed
import QueryTemplate.Proofs.Execution.Strictness
import QueryTemplate.Proofs.Code.Onward
import QueryTemplate.Proofs.Execution.Arrivals
import QueryTemplate.Proofs.Execution.Confined
import QueryTemplate.Proofs.Execution.Loops
import QueryTemplate.Proofs.Execution.Dependence
import QueryTemplate.Proofs.Reading.Headers
import QueryTemplate.Proofs.Lexing.Printing
import QueryTemplate.Proofs.Number.Values
import QueryTemplate.Proofs.Number.Integers
import QueryTemplate.Proofs.Json.Ordering
import QueryTemplate.Proofs.Json.Integers
import QueryTemplate.Proofs.Json.Equality
