import JavaTree.Main
import JavaTree.Pipeline.Shelf
import JavaTree.Storage.FileTree
import JavaTree.Proofs.Tree.Links
import JavaTree.Proofs.Walk.Recursion
import JavaTree.Proofs.Walk.Nesting
import JavaTree.Proofs.Document.Levels
import JavaTree.Proofs.Walk.Stack
import JavaTree.Proofs.Tree.Numbering
import JavaTree.Proofs.Tree.Validation
import JavaTree.Proofs.Tree.RoundTrip
import JavaTree.Proofs.Print.Indentation
import JavaTree.Proofs.Print.Simulation
import JavaTree.Proofs.Print.Structural
import JavaTree.Proofs.Statistics.Counts
import JavaTree.Proofs.Export.Sameness
import JavaTree.Proofs.Json.Lexemes
import JavaTree.Proofs.Json.Parsing
import JavaTree.Proofs.Document.JsonText
import JavaTree.Proofs.Graph.Labels
import JavaTree.Proofs.Graph.Structure
import JavaTree.Proofs.Graph.Escaping
import JavaTree.Proofs.Print.Failure
import JavaTree.Proofs.Print.Gaps
import JavaTree.Proofs.Print.Uniform
import JavaTree.Proofs.Print.Layout
import JavaTree.Proofs.Pipeline.Overflow
import JavaTree.Proofs.Pipeline.Depot
import JavaTree.Proofs.Pipeline.Interleaving
import JavaTree.Proofs.Storage.Directories
import JavaTree.Proofs.Analysis.Effects
import JavaTree.Proofs.Analysis.FixedPoint
import JavaTree.Proofs.Document.Nesting
import JavaTree.Proofs.Document.YamlText
import JavaTree.Proofs.Tree.Growth
import JavaTree.Proofs.Statistics.Tally
import JavaTree.Proofs.Statistics.Table
import JavaTree.Proofs.Print.DanglingElse
import JavaTree.Proofs.Print.Balance
import JavaTree.Proofs.Print.Attachment
import JavaTree.Proofs.Tree.LocalChecks
import JavaTree.Proofs.Print.Shown
import JavaTree.Proofs.Print.Operators
import JavaTree.Proofs.Print.Comments
