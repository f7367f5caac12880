import AccessRules.Operation
import AccessRules.Check
import AccessRules.Accessor
import AccessRules.Rules.Describe
import AccessRules.Main
import AccessRules.Proofs.Expression.Composition
import AccessRules.Proofs.Expression.Concatenation
import AccessRules.Proofs.Expression.Grouping
import AccessRules.Proofs.Expression.Patterns
import AccessRules.Proofs.Expression.Pushing
import AccessRules.Proofs.Expression.Spelling
import AccessRules.Proofs.Expression.Walk
import AccessRules.Proofs.Expression.Warnings
import AccessRules.Proofs.Path.Components
import AccessRules.Proofs.Path.Slashes
import AccessRules.Proofs.Rules.Census
import AccessRules.Proofs.Rules.Collected
import AccessRules.Proofs.Rules.Deferral
import AccessRules.Proofs.Rules.Gate
import AccessRules.Proofs.Rules.Log
import AccessRules.Proofs.Rules.Placement
import AccessRules.Proofs.Rules.Places
import AccessRules.Proofs.Rules.Replacement
import AccessRules.Proofs.Rules.Siblings
import AccessRules.Proofs.Rules.Strictness
import AccessRules.Proofs.Number.Nearest
import AccessRules.Proofs.Number.Rounding
import AccessRules.Proofs.Number.Reading
import AccessRules.Proofs.Number.Numeral
import AccessRules.Proofs.Number.NumberText
import AccessRules.Proofs.Number.Notation
import AccessRules.Proofs.Number.Integers
import AccessRules.Proofs.CommandLine.InputOption
import AccessRules.Proofs.Json.Numbers
import AccessRules.Proofs.Json.Sequences
import AccessRules.Proofs.Json.Strings
import AccessRules.Proofs.Json.Printers
import AccessRules.Proofs.CommandLine.Documents
import AccessRules.Proofs.CommandLine.Presentation
import AccessRules.Proofs.CommandLine.Order
import AccessRules.Proofs.CommandLine.StandardInput
