import Lending.Checker
import Lending.CommandLine.Arguments
import Lending.CommandLine.Commands
import Lending.CommandLine.Settings
import Lending.Datum.Basic
import Lending.Datum.Decimal
import Lending.Datum.Double
import Lending.Datum.Json.Printer
import Lending.Datum.Json.Reader
import Lending.Datum.Json.Token
import Lending.Datum.Toml.Lexeme
import Lending.Datum.Toml.Reader
import Lending.Datum.Toml.Table
import Lending.Diagnostic.Basic
import Lending.Diagnostic.Encode
import Lending.Diagnostic.Kind
import Lending.Diagnostic.Report
import Lending.Diagnostic.Snippet
import Lending.Evaluation
import Lending.Files.Loading
import Lending.Files.Path
import Lending.Files.Tree
import Lending.Loans
import Lending.Main
import Lending.Mode
import Lending.Program.Basic
import Lending.Program.Compose
import Lending.Program.Decode
import Lending.Program.Encode
import Lending.Program.Expr
import Lending.Proofs.Batch
import Lending.Proofs.Blocks
import Lending.Proofs.Checker
import Lending.Proofs.Coherence
import Lending.Proofs.Containers
import Lending.Proofs.Dangling
import Lending.Proofs.Declarations
import Lending.Proofs.Destruction
import Lending.Proofs.Discovery
import Lending.Proofs.EditDistance
import Lending.Proofs.EditScripts
import Lending.Proofs.Equivariance
import Lending.Proofs.Erasure
import Lending.Proofs.Evaluation
import Lending.Proofs.Exactness
import Lending.Proofs.Fallbacks
import Lending.Proofs.Footprint
import Lending.Proofs.Grouping
import Lending.Proofs.Holders
import Lending.Proofs.Isolation
import Lending.Proofs.Json
import Lending.Proofs.Lexical
import Lending.Proofs.Lines
import Lending.Proofs.Loans
import Lending.Proofs.Losses
import Lending.Proofs.NameFaults
import Lending.Proofs.Numbering
import Lending.Proofs.Observations
import Lending.Proofs.Order
import Lending.Proofs.Paths
import Lending.Proofs.Renaming
import Lending.Proofs.Rendering
import Lending.Proofs.Reports
import Lending.Proofs.Resolution
import Lending.Proofs.Runs
import Lending.Proofs.ScopeHistory
import Lending.Proofs.Scopes
import Lending.Proofs.Serialization
import Lending.Proofs.SharedOnly
import Lending.Proofs.Simulation
import Lending.Proofs.Soundness
import Lending.Proofs.Storage
import Lending.Proofs.Suggestions
import Lending.Proofs.Symbols
import Lending.Proofs.TableHistory
import Lending.Proofs.Trees
import Lending.Proofs.Utf8
import Lending.Proofs.Validity
import Lending.Proofs.Windows
import Lending.Scopes
import Lending.Session
import Lending.Source
import Lending.Symbols
import Lending.Text.Blank
import Lending.Text.EditDistance
import Lending.Text.Lines
import Lending.Text.Width
import Lending.Validation
import Lending.Word
