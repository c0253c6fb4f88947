import ScriptLang.Source.Unit
import ScriptLang.Diagnostic.Json
import ScriptLang.Token.Lexer
import ScriptLang.Syntax.Parser
import ScriptLang.Session
import ScriptLang.Script
import ScriptLang.Interactive.LineLoop
import ScriptLang.CommandLine
import ScriptLang.Main
import ScriptLang.Proofs.Eval.Congruence
import ScriptLang.Proofs.Module.Registry
import ScriptLang.Proofs.Eval.Run
import ScriptLang.Proofs.Session.Request
import ScriptLang.Proofs.Session.Rest
import ScriptLang.Proofs.Module.Journal
import ScriptLang.Proofs.Session.LoadJournal
import ScriptLang.Proofs.Session.LoadOnce
import ScriptLang.Proofs.Session.Termination
import ScriptLang.Proofs.Syntax.Nesting
import ScriptLang.Proofs.Syntax.Reads
import ScriptLang.Proofs.Syntax.Shape
import ScriptLang.Proofs.Syntax.Chain
import ScriptLang.Proofs.Syntax.RoundTrip
import ScriptLang.Proofs.Decimal.Nearest
import ScriptLang.Proofs.Decimal.Rounding
import ScriptLang.Proofs.Decimal.Conversion
import ScriptLang.Proofs.Decimal.Fraction
import ScriptLang.Proofs.Token.Spelling
import ScriptLang.Proofs.Token.Layout
import ScriptLang.Proofs.Interactive.Completeness
import ScriptLang.Proofs.Syntax.Derivation
import ScriptLang.Proofs.Syntax.Places
import ScriptLang.Proofs.Syntax.Yields
import ScriptLang.Proofs.Syntax.Acceptance
import ScriptLang.Proofs.Syntax.Depth
import ScriptLang.Proofs.Syntax.Brackets
import ScriptLang.Proofs.Source.Coverage
import ScriptLang.Proofs.Value.Outcome
import ScriptLang.Proofs.Machine.Contents
import ScriptLang.Proofs.Eval.Blame
import ScriptLang.Proofs.Eval.Attribution
import ScriptLang.Proofs.Eval.Layers
import ScriptLang.Proofs.Session.Attribution
import ScriptLang.Proofs.Source.Position
import ScriptLang.Proofs.Token.Separators
import ScriptLang.Proofs.Token.Tiling
import ScriptLang.Proofs.Syntax.Skeleton
import ScriptLang.Proofs.Session.FrameLimit
import ScriptLang.Proofs.Eval.Discipline
import ScriptLang.Proofs.Eval.Obedience
import ScriptLang.Proofs.Session.Confinement
import ScriptLang.Proofs.Json.Spacing
import ScriptLang.Proofs.Json.Reading
import ScriptLang.Proofs.Diagnostic.RoundTrip
import ScriptLang.Proofs.Interactive.Inputs
import ScriptLang.Proofs.Session.Echo
import ScriptLang.Proofs.Interactive.Excerpt
import ScriptLang.Proofs.Machine.Nesting
import ScriptLang.Proofs.Session.Dialogue
import ScriptLang.Proofs.Session.Heap
import ScriptLang.Proofs.Machine.Assignment
import ScriptLang.Proofs.Source.Lines
import ScriptLang.Proofs.Source.Marks
import ScriptLang.Proofs.Syntax.Nodes
import ScriptLang.Proofs.Syntax.Spans
import ScriptLang.Proofs.Syntax.Names
import ScriptLang.Proofs.Session.Moments
import ScriptLang.Proofs.Session.Reserved
import ScriptLang.Proofs.Token.Malformed
import ScriptLang.Proofs.Syntax.Assembly
import ScriptLang.Proofs.Syntax.Finality
import ScriptLang.Proofs.Syntax.Composition
import ScriptLang.Proofs.Eval.Unwinding
import ScriptLang.Proofs.Eval.Return
import ScriptLang.Proofs.Module.Tables
import ScriptLang.Proofs.Value.Equality
import ScriptLang.Proofs.Value.Integers
import ScriptLang.Proofs.Value.Exactness
import ScriptLang.Proofs.Eval.Arithmetic
import ScriptLang.Proofs.Module.Visibility
import ScriptLang.Proofs.Session.Stock
import ScriptLang.Proofs.Session.Visibility
import ScriptLang.Module.Libraries
import ScriptLang.Proofs.Module.Libraries
import ScriptLang.Proofs.Text.Trim
import ScriptLang.Proofs.Interactive.Splitting
import ScriptLang.Proofs.Eval.IntegerText
import ScriptLang.Proofs.Session.Arguments
