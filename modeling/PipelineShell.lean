import PipelineShell.Main
import PipelineShell.Proofs.System.Objects
import PipelineShell.Proofs.System.Care
import PipelineShell.Proofs.System.Census
import PipelineShell.Proofs.System.Uncollected
import PipelineShell.Proofs.System.Behaviour
import PipelineShell.Proofs.Pipeline.Calls
import PipelineShell.Proofs.Pipeline.Care
import PipelineShell.Proofs.Pipeline.Wiring
import PipelineShell.Proofs.Pipeline.Network
import PipelineShell.Proofs.Pipeline.Dataflow
import PipelineShell.Proofs.Pipeline.Delivery
import PipelineShell.Proofs.Pipeline.Composition
import PipelineShell.Proofs.Pipeline.Scheduling
import PipelineShell.Proofs.Pipeline.Hygiene
import PipelineShell.Proofs.Job.Report
import PipelineShell.Proofs.Job.Reap
import PipelineShell.Proofs.Job.History
import PipelineShell.Proofs.Job.Family
import PipelineShell.Proofs.Job.Children
import PipelineShell.Proofs.Line.Acceptance
import PipelineShell.Proofs.Line.ShortCircuit
import PipelineShell.Proofs.Line.Frame
import PipelineShell.Proofs.Line.Ends
import PipelineShell.Proofs.Line.Opening
import PipelineShell.Proofs.Line.Hygiene
import PipelineShell.Proofs.Line.Spelling
import PipelineShell.Proofs.Line.Writing
import PipelineShell.Proofs.Line.Shown
import PipelineShell.Proofs.Line.Seam
import PipelineShell.Proofs.Line.Halves
import PipelineShell.Proofs.Line.Leftover
import PipelineShell.Proofs.Line.Lexing
import PipelineShell.Proofs.Line.Rearrangement
import PipelineShell.Proofs.Line.Offsets
import PipelineShell.Proofs.Line.Builder
import PipelineShell.Proofs.Line.Storage
import PipelineShell.Proofs.Pipeline.Attempts
import PipelineShell.Proofs.Line.Safety
import PipelineShell.Proofs.Interpreter.Input
import PipelineShell.Proofs.Interpreter.Frame
import PipelineShell.Proofs.Interpreter.Execution
import PipelineShell.Proofs.Interpreter.Joining
import PipelineShell.Proofs.Interpreter.Session
import PipelineShell.Proofs.Interpreter.Consumption
import PipelineShell.Proofs.Interpreter.Children
import PipelineShell.Proofs.Interpreter.Rejection
import PipelineShell.Proofs.Interpreter.Terminal
import PipelineShell.Proofs.Interpreter.Turn
import PipelineShell.Proofs.Interpreter.Loops
import PipelineShell.Proofs.Text.Utf8
import PipelineShell.Proofs.Interpreter.Decoding
import PipelineShell.Proofs.Line.Quotation
