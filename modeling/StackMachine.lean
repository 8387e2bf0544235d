import StackMachine.Instruction.Checked
import StackMachine.Main
import StackMachine.Session
import StackMachine.Proofs.Codec.Utf8
import StackMachine.Proofs.Codec.Word
import StackMachine.Proofs.Codec.Delivery
import StackMachine.Proofs.Codec.Record
import StackMachine.Proofs.Codec.RoundTrip
import StackMachine.Proofs.Codec.MoreBytes
import StackMachine.Proofs.Codec.FormatErrors
import StackMachine.Proofs.Codec.Pieces
import StackMachine.Proofs.Execution.Steps
import StackMachine.Proofs.Execution.TopFirst
import StackMachine.Proofs.Execution.Lines
import StackMachine.Proofs.Execution.Slots
import StackMachine.Proofs.Execution.Refinement
import StackMachine.Proofs.Execution.StepTable
import StackMachine.Proofs.Execution.Atomicity
import StackMachine.Proofs.Execution.Runs
import StackMachine.Proofs.Execution.Streams
import StackMachine.Proofs.Execution.StepLimits
import StackMachine.Proofs.Execution.MoreInput
import StackMachine.Proofs.Execution.StackChanges
import StackMachine.Proofs.Execution.Reachable
import StackMachine.Proofs.Execution.Base
import StackMachine.Proofs.Execution.History
import StackMachine.Proofs.Execution.ReadBack
import StackMachine.Proofs.Execution.Tracing
import StackMachine.Proofs.Execution.Flushing
import StackMachine.Proofs.Execution.ClosedOutput
import StackMachine.Proofs.Codec.Growth
import StackMachine.Proofs.Execution.NumberLines
import StackMachine.Proofs.Listing.Rows
import StackMachine.Proofs.Execution.Branches
import StackMachine.Proofs.Execution.OperandOrder
import StackMachine.Proofs.Text.Delimited
import StackMachine.Proofs.Text.Quoted
import StackMachine.Proofs.Text.Instruction
import StackMachine.Proofs.Listing.Lossless
import StackMachine.Proofs.Listing.Addresses
import StackMachine.Proofs.Execution.TraceText
import StackMachine.Proofs.Execution.ProgramPoints
import StackMachine.Proofs.Execution.Fibonacci
import StackMachine.Proofs.Execution.Echo
import StackMachine.Proofs.Execution.ForwardPrograms
import StackMachine.Proofs.Codec.TextFaults
import StackMachine.Proofs.Text.IntegerLiteral
import StackMachine.Proofs.Settings.StepLimitText
import StackMachine.Proofs.Settings.Meanings
import StackMachine.Proofs.Settings.Layers
import StackMachine.Proofs.Runner.LoadThenRun
