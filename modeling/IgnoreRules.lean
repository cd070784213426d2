import IgnoreRules.Calendar
import IgnoreRules.CommandLine.Arguments
import IgnoreRules.CommandLine.Footprint
import IgnoreRules.CommandLine.Grammar
import IgnoreRules.CommandLine.Outcome
import IgnoreRules.CommandLine.Printing
import IgnoreRules.CommandLine.Run
import IgnoreRules.Files.Accounts
import IgnoreRules.Files.Codec
import IgnoreRules.Files.Listing
import IgnoreRules.Files.Path
import IgnoreRules.Files.Portions
import IgnoreRules.Files.Standard
import IgnoreRules.Files.Tree
import IgnoreRules.Log.Level
import IgnoreRules.Log.Logger
import IgnoreRules.Log.Record
import IgnoreRules.Log.Registry
import IgnoreRules.Main
import IgnoreRules.Number.Double
import IgnoreRules.Number.Notation
import IgnoreRules.Number.Shortest
import IgnoreRules.Pattern.Brackets
import IgnoreRules.Pattern.Rule
import IgnoreRules.Pattern.Wildcards
import IgnoreRules.Proofs.CommandLine.EffectiveSettings
import IgnoreRules.Proofs.CommandLine.Escapes
import IgnoreRules.Proofs.CommandLine.Outcomes
import IgnoreRules.Proofs.CommandLine.Output
import IgnoreRules.Proofs.CommandLine.Reading
import IgnoreRules.Proofs.CommandLine.RuleFileVariable
import IgnoreRules.Proofs.Files.Encoding
import IgnoreRules.Proofs.Files.Errors
import IgnoreRules.Proofs.Files.Listing
import IgnoreRules.Proofs.Files.Walks
import IgnoreRules.Proofs.Glob.Hits
import IgnoreRules.Proofs.Glob.Marks
import IgnoreRules.Proofs.Glob.Path
import IgnoreRules.Proofs.Glob.Syntax
import IgnoreRules.Proofs.Log.Contexts
import IgnoreRules.Proofs.Log.Registry
import IgnoreRules.Proofs.Outcome
import IgnoreRules.Proofs.Pattern.Bracketed
import IgnoreRules.Proofs.Pattern.Brackets
import IgnoreRules.Proofs.Pattern.CharacterSets
import IgnoreRules.Proofs.Pattern.Depth
import IgnoreRules.Proofs.Pattern.Directory
import IgnoreRules.Proofs.Pattern.Division
import IgnoreRules.Proofs.Pattern.EmptyBracket
import IgnoreRules.Proofs.Pattern.Expression
import IgnoreRules.Proofs.Pattern.Hits
import IgnoreRules.Proofs.Pattern.Letter
import IgnoreRules.Proofs.Pattern.Literal
import IgnoreRules.Proofs.Pattern.LiteralBrackets
import IgnoreRules.Proofs.Pattern.Marks
import IgnoreRules.Proofs.Pattern.NameWildcards
import IgnoreRules.Proofs.Pattern.Negated
import IgnoreRules.Proofs.Pattern.Placement
import IgnoreRules.Proofs.Pattern.Plain
import IgnoreRules.Proofs.Pattern.Repeated
import IgnoreRules.Proofs.Pattern.Seam
import IgnoreRules.Proofs.Pattern.Shape
import IgnoreRules.Proofs.Pattern.Tokens
import IgnoreRules.Proofs.Regex.ClassReading
import IgnoreRules.Proofs.Regex.LargeCodes
import IgnoreRules.Proofs.Regex.Matching
import IgnoreRules.Proofs.Regex.Reading
import IgnoreRules.Proofs.Ruleset.Compilation
import IgnoreRules.Proofs.Ruleset.Composition
import IgnoreRules.Proofs.Ruleset.Descent
import IgnoreRules.Proofs.Ruleset.Explanation
import IgnoreRules.Proofs.Ruleset.Layout
import IgnoreRules.Proofs.Ruleset.LinePatterns
import IgnoreRules.Proofs.Ruleset.LongestMatch
import IgnoreRules.Proofs.Ruleset.Names
import IgnoreRules.Proofs.Ruleset.Nested
import IgnoreRules.Proofs.Ruleset.Precedence
import IgnoreRules.Proofs.Scan.Failing
import IgnoreRules.Proofs.Scan.Listing
import IgnoreRules.Proofs.Scan.Loading
import IgnoreRules.Proofs.Scan.Logging
import IgnoreRules.Proofs.Scan.Partition
import IgnoreRules.Proofs.Scan.Session
import IgnoreRules.Proofs.Scan.StoredRules
import IgnoreRules.Proofs.Settings.Failing
import IgnoreRules.Proofs.Settings.Loads
import IgnoreRules.Proofs.Settings.Lookup
import IgnoreRules.Proofs.Settings.Variables
import IgnoreRules.Regex.Basic
import IgnoreRules.Regex.CharClass
import IgnoreRules.Regex.ClassSyntax
import IgnoreRules.Regex.Reader
import IgnoreRules.Regex.Search
import IgnoreRules.Ruleset.Lines
import IgnoreRules.Ruleset.Matcher
import IgnoreRules.Ruleset.Messages
import IgnoreRules.Ruleset.Report
import IgnoreRules.Ruleset.Verdict
import IgnoreRules.Scan.Failure
import IgnoreRules.Scan.Filter
import IgnoreRules.Scan.RuleFile
import IgnoreRules.Scan.Session
import IgnoreRules.Settings.Environment
import IgnoreRules.Settings.Layers
import IgnoreRules.Settings.Load
import IgnoreRules.Settings.Reader
import IgnoreRules.Settings.YamlReader
import IgnoreRules.Text.Alphanumeric
import IgnoreRules.Text.AsciiNames
import IgnoreRules.Text.Base64
import IgnoreRules.Text.Blank
import IgnoreRules.Text.CharacterNames
import IgnoreRules.Text.CodeRange
import IgnoreRules.Text.Digit
import IgnoreRules.Text.Hex
import IgnoreRules.Text.LetterCase
import IgnoreRules.Text.Lines
import IgnoreRules.Text.Lowercase
import IgnoreRules.Text.Order
import IgnoreRules.Text.Printable
import IgnoreRules.Text.Quoted
import IgnoreRules.Text.Surrogate
import IgnoreRules.Value
import IgnoreRules.ValueGraph
import IgnoreRules.Yaml.Cursor
import IgnoreRules.Yaml.Document
import IgnoreRules.Yaml.Error
import IgnoreRules.Yaml.Form
import IgnoreRules.Yaml.Node
import IgnoreRules.Yaml.Numeral
import IgnoreRules.Yaml.Scalar
import IgnoreRules.Yaml.Tag
import IgnoreRules.Yaml.Timestamp
import IgnoreRules.Yaml.Token
import IgnoreRules.Yaml.TokenList
