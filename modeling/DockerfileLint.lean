import DockerfileLint.Main
import DockerfileLint.Packages
import DockerfileLint.Proofs.LineOrder
import DockerfileLint.Proofs.Linting
import DockerfileLint.Proofs.Catalog
import DockerfileLint.Proofs.WholeFileRules
import DockerfileLint.Proofs.Configuration
import DockerfileLint.Proofs.Reordering
import DockerfileLint.Proofs.Json.Lexing
import DockerfileLint.Proofs.Json.Reading
import DockerfileLint.Proofs.Json.Decoding
import DockerfileLint.Proofs.Json.Representation
import DockerfileLint.Proofs.Document.RoundTrip
import DockerfileLint.Proofs.Growth
import DockerfileLint.Proofs.Onbuild
import DockerfileLint.Proofs.Checking
import DockerfileLint.Proofs.Distinctness
import DockerfileLint.Proofs.Remarks
import DockerfileLint.Proofs.Document.Representation
import DockerfileLint.Proofs.Discovery
import DockerfileLint.Proofs.Toml.Sections
import DockerfileLint.Proofs.Toml.Spelling
import DockerfileLint.Proofs.Config.Layout
import DockerfileLint.Proofs.Report.Json
import DockerfileLint.Proofs.Report.Compact
import DockerfileLint.Proofs.Selection
import DockerfileLint.Proofs.ExitStatus
import DockerfileLint.Proofs.Blocks
import DockerfileLint.Proofs.Segments
import DockerfileLint.Proofs.Flags
import DockerfileLint.Proofs.Commands
import DockerfileLint.Proofs.Pinning
import DockerfileLint.Proofs.Chaining
import DockerfileLint.Proofs.Analyzer.Calls
import DockerfileLint.Proofs.Utf8
import DockerfileLint.Proofs.Analyzer.Outcome
import DockerfileLint.Proofs.Installing
import DockerfileLint.Proofs.Building
import DockerfileLint.Proofs.FileTree
import DockerfileLint.Proofs.Initialization
import DockerfileLint.Proofs.Toml.Distinct
import DockerfileLint.Proofs.Config.Fields
import DockerfileLint.Proofs.Config.Decoding
import DockerfileLint.Proofs.Report.Printed
