import CodeSweep.Block
import CodeSweep.Mask
import CodeSweep.Path
import CodeSweep.Pattern.Match
import CodeSweep.Pattern.Reader
import CodeSweep.Severity
import CodeSweep.Text.Line
import CodeSweep.Text.Quoted
import CodeSweep.Glob
import CodeSweep.Language.Classify
import CodeSweep.Rule.Hit
import CodeSweep.Rule.Spec
import CodeSweep.Registry
import CodeSweep.Registry.Index
import CodeSweep.Scan.Text
import CodeSweep.Json.Printer
import CodeSweep.Json.Reader
import CodeSweep.Toml.Reader
import CodeSweep.Text.Utf8
import CodeSweep.Workers
import CodeSweep.Log
import CodeSweep.Config.Reader
import CodeSweep.Scan.Sources
import CodeSweep.Report.RuleTable
import CodeSweep.Project
import CodeSweep.CommandLine.Run
import CodeSweep.Main
import CodeSweep.Proofs.Result
import CodeSweep.Proofs.Text.Position
import CodeSweep.Proofs.Pattern.Matches
import CodeSweep.Proofs.Analysis.Spans
import CodeSweep.Proofs.Block
import CodeSweep.Proofs.Analysis.Causal
import CodeSweep.Proofs.Rule.Hit
import CodeSweep.Proofs.Scan.Text
import CodeSweep.Proofs.Scan.Located
import CodeSweep.Proofs.Scan.Order
import CodeSweep.Proofs.Rule.Spec
import CodeSweep.Proofs.Scan.Disabled
import CodeSweep.Proofs.Scan.Superfluous
import CodeSweep.Proofs.Mask.Turns
import CodeSweep.Proofs.Mask.Delimiters
import CodeSweep.Proofs.Mask.Causal
import CodeSweep.Proofs.Suppression
import CodeSweep.Proofs.Rule.Lines
import CodeSweep.Proofs.Scan.Locality
import CodeSweep.Proofs.Scan.LineEnds
import CodeSweep.Proofs.Pattern.Local
import CodeSweep.Proofs.Pattern.Alike
import CodeSweep.Proofs.Rule.Test
import CodeSweep.Proofs.Scan.Pool
import CodeSweep.Proofs.Path
import CodeSweep.Proofs.Tree
import CodeSweep.Proofs.Project.Part
import CodeSweep.Proofs.Project.Config
import CodeSweep.Proofs.Glob.Reading
import CodeSweep.Proofs.Project.Globs
import CodeSweep.Proofs.Glob.Positive
import CodeSweep.Proofs.Registry.Index
import CodeSweep.Proofs.Scan.TestFiles
import CodeSweep.Proofs.Suppression.Reach
import CodeSweep.Proofs.Text.Slice
import CodeSweep.Proofs.Block.Balanced
import CodeSweep.Proofs.Pattern.CharSet
import CodeSweep.Proofs.Pattern.Parts
import CodeSweep.Proofs.Pattern.Depth
import CodeSweep.Proofs.Mask.Code
import CodeSweep.Proofs.Analysis.Shape
import CodeSweep.Proofs.Text.Words
import CodeSweep.Proofs.Pattern.Holds
import CodeSweep.Proofs.Analysis.Marker
import CodeSweep.Proofs.Rule.CodeLines
import CodeSweep.Proofs.Pattern.LetterCase
import CodeSweep.Proofs.Rule.LetterCase
import CodeSweep.Proofs.Pattern.InTurn
import CodeSweep.Proofs.Suppression.Keyword
import CodeSweep.Proofs.Suppression.Names
import CodeSweep.Proofs.Suppression.Written
import CodeSweep.Proofs.Suppression.ReadBack
import CodeSweep.Proofs.Pattern.Continued
import CodeSweep.Proofs.Pattern.Reads
import CodeSweep.Proofs.Rule.SoleStatement
import CodeSweep.Proofs.Text.Joined
import CodeSweep.Proofs.Glob.Union
import CodeSweep.Proofs.Pattern.Accepts
import CodeSweep.Proofs.Glob.Segments
import CodeSweep.Proofs.Glob.Components
import CodeSweep.Proofs.Glob.Shape
import CodeSweep.Proofs.Project.Extension
import CodeSweep.Proofs.Tree.Files
import CodeSweep.Proofs.Project.Discover
import CodeSweep.Proofs.Scan.Counts
import CodeSweep.Proofs.Scan.Settings
import CodeSweep.Proofs.Config.Reader
import CodeSweep.Proofs.Config.Normal
import CodeSweep.Proofs.Report.Terminal
import CodeSweep.Proofs.Json.Grammar
import CodeSweep.Proofs.Json.Printer
import CodeSweep.Proofs.Json.Reader
import CodeSweep.Proofs.Report.Json
import CodeSweep.Proofs.Text.Coordinates
import CodeSweep.Proofs.Block.Dyck
import CodeSweep.Proofs.Mask.Again
import CodeSweep.Proofs.Path.FinalName
import CodeSweep.Proofs.Language.Classify
