import Formula.Cache
import Formula.Callable
import Formula.CommandLine.Arguments
import Formula.CommandLine.Binding
import Formula.CommandLine.Report
import Formula.Elementary.Circular
import Formula.Elementary.Fixed
import Formula.Elementary.Power
import Formula.Evaluation
import Formula.Fault
import Formula.Fixity
import Formula.Infix
import Formula.Literal
import Formula.Main
import Formula.Number.Decimal
import Formula.Number.Magnitude
import Formula.Number.Numeral
import Formula.Postfix
import Formula.Proofs.Acceptance
import Formula.Proofs.Adjacency
import Formula.Proofs.Agreement
import Formula.Proofs.Alternation
import Formula.Proofs.Arrangement
import Formula.Proofs.Atomicity
import Formula.Proofs.Bracketing
import Formula.Proofs.CacheCoherence
import Formula.Proofs.CacheHistory
import Formula.Proofs.CharacterClasses
import Formula.Proofs.Classification
import Formula.Proofs.Climbing
import Formula.Proofs.Completion
import Formula.Proofs.Composition
import Formula.Proofs.Configurations
import Formula.Proofs.Conservation
import Formula.Proofs.Containment
import Formula.Proofs.Correspondence
import Formula.Proofs.Delimiters
import Formula.Proofs.Distinction
import Formula.Proofs.DivisionPolicy
import Formula.Proofs.EvaluationStep
import Formula.Proofs.Grammar
import Formula.Proofs.HeadToken
import Formula.Proofs.LastDefinition
import Formula.Proofs.Layout
import Formula.Proofs.Lexemes
import Formula.Proofs.Literals
import Formula.Proofs.LongestMatch
import Formula.Proofs.MachineRun
import Formula.Proofs.Nesting
import Formula.Proofs.NumberNames
import Formula.Proofs.NumeralForm
import Formula.Proofs.OpenBrackets
import Formula.Proofs.Operands
import Formula.Proofs.Outcome
import Formula.Proofs.PartialUpdate
import Formula.Proofs.Pipeline
import Formula.Proofs.Placement
import Formula.Proofs.PrecedenceOrder
import Formula.Proofs.Registration
import Formula.Proofs.Rendering
import Formula.Proofs.Reordering
import Formula.Proofs.Reports
import Formula.Proofs.Resolution
import Formula.Proofs.Respacing
import Formula.Proofs.Scanning
import Formula.Proofs.SessionRun
import Formula.Proofs.Spans
import Formula.Proofs.Spelling
import Formula.Proofs.StandardCallables
import Formula.Proofs.StandardRegistry
import Formula.Proofs.Substitution
import Formula.Proofs.SymbolReading
import Formula.Proofs.TextOperands
import Formula.Proofs.Tree
import Formula.Proofs.TreeEvaluation
import Formula.Proofs.Weight
import Formula.Proofs.WrittenForm
import Formula.Registry
import Formula.Session
import Formula.Settings
import Formula.Table
import Formula.Text.Blank
import Formula.Text.Digit
import Formula.Text.Letter
import Formula.Text.Printable
import Formula.Text.Quoted
import Formula.Text.Ranges
import Formula.Text.Word
import Formula.Token
import Formula.Value
