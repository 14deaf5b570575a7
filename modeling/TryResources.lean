import TryResources.Code
import TryResources.CommandLine
import TryResources.Document
import TryResources.Filter
import TryResources.Listing
import TryResources.Listing.Line
import TryResources.Main
import TryResources.Matching.Bindings
import TryResources.Matching.Matcher
import TryResources.Matching.Step
import TryResources.Method
import TryResources.Method.Builder
import TryResources.Method.Error
import TryResources.Method.TableBuilder
import TryResources.Node
import TryResources.Opcode
import TryResources.Position
import TryResources.Program
import TryResources.Range
import TryResources.Report
import TryResources.Template
import TryResources.Template.Ecj
import TryResources.Template.Javac
import TryResources.Text.Blank
import TryResources.Text.Numeral
import TryResources.Text.Quoted
import TryResources.Text.Unprintable
import TryResources.Yaml.Cell
import TryResources.Yaml.Decode
import TryResources.Yaml.Document
import TryResources.Yaml.Fault
import TryResources.Yaml.Node
import TryResources.Yaml.Token
import TryResources.Yaml.Token.Layout
import TryResources.Yaml.Token.Scalar
import TryResources.Yaml.Token.Tag
import TryResources.Proofs.Reads
import TryResources.Proofs.Results
import TryResources.Proofs.Valuation
import TryResources.Proofs.Reading
import TryResources.Proofs.Search
import TryResources.Proofs.Candidates
import TryResources.Proofs.Javac
import TryResources.Proofs.Ecj
import TryResources.Proofs.Ecj.FlowOut
import TryResources.Proofs.Ecj.NoFlowOut
import TryResources.Proofs.Placement
import TryResources.Proofs.Spelling
import TryResources.Proofs.Clash
import TryResources.Proofs.Exclusion
import TryResources.Proofs.Blockwise
import TryResources.Proofs.Logging
import TryResources.Proofs.Footprint
import TryResources.Proofs.Nodes
import TryResources.Proofs.Compiled
import TryResources.Proofs.Compiled.Placed
import TryResources.Proofs.Compiled.Javac
import TryResources.Proofs.Compiled.Ecj
import TryResources.Proofs.Recognition
import TryResources.Proofs.Padding
import TryResources.Proofs.Simulation
import TryResources.Proofs.Persistence
import TryResources.Proofs.Progress
import TryResources.Proofs.Transparency
import TryResources.Proofs.Renaming
import TryResources.Proofs.Words
import TryResources.Proofs.Tokens
import TryResources.Proofs.Grammar
import TryResources.Proofs.Lines
import TryResources.Proofs.References
import TryResources.Proofs.Building
import TryResources.Proofs.Numbering
import TryResources.Proofs.Resolution
import TryResources.Proofs.Tables
import TryResources.Proofs.Faults
import TryResources.Proofs.Finishing
import TryResources.Proofs.RoundTrip
import TryResources.Proofs.Outcome
import TryResources.Proofs.Runs
import TryResources.Proofs.Marks
import TryResources.Proofs.Relabelling
import TryResources.Proofs.Appending
