import CodegenTypes.Main
import CodegenTypes.Proofs.CommandLine.Bridge
import CodegenTypes.Proofs.CommandLine.Derive
import CodegenTypes.Proofs.History.Canonical
import CodegenTypes.Proofs.History.Faults
import CodegenTypes.Proofs.History.Grammar
import CodegenTypes.Proofs.History.Independence
import CodegenTypes.Proofs.History.Lowering
import CodegenTypes.Proofs.History.Naming
import CodegenTypes.Proofs.History.Positions
import CodegenTypes.Proofs.History.Rendering
import CodegenTypes.Proofs.History.Shortcut
import CodegenTypes.Proofs.History.Summaries
import CodegenTypes.Proofs.History.Updates
import CodegenTypes.Proofs.Json.RoundTrip
import CodegenTypes.Proofs.LaneRuns
import CodegenTypes.Proofs.Listing
import CodegenTypes.Proofs.MachineType.Lookup
