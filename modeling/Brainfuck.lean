import Brainfuck.Main
import Brainfuck.Proofs.Execution.Comparison
import Brainfuck.Proofs.Execution.Store
import Brainfuck.Proofs.Execution.Effect
import Brainfuck.Proofs.Execution.Step
import Brainfuck.Proofs.Brackets.Search
import Brainfuck.Proofs.Compilation.Pieces
import Brainfuck.Proofs.Compilation.Layout
import Brainfuck.Proofs.Engines.Agreement
import Brainfuck.Proofs.Engines.Folding
import Brainfuck.Proofs.Structure.Block
import Brainfuck.Proofs.Structure.Interpretation
import Brainfuck.Proofs.Execution.Transition
import Brainfuck.Proofs.Debugging.Session
import Brainfuck.Proofs.Debugging.Transparency
import Brainfuck.Proofs.Brackets.Blame
import Brainfuck.Proofs.Compilation.Verdict
import Brainfuck.Proofs.Compilation.Jumps
import Brainfuck.Proofs.Execution.Safety
import Brainfuck.Proofs.Debugging.Stops
import Brainfuck.Proofs.Execution.Visits
import Brainfuck.Proofs.Debugging.Pauses
import Brainfuck.Proofs.Execution.Pacing
import Brainfuck.Proofs.Compilation.Addresses
import Brainfuck.Proofs.Debugging.SideBySide
import Brainfuck.Proofs.Execution.Stepping
import Brainfuck.Proofs.Memory.Checking
import Brainfuck.Proofs.Execution.Failure
import Brainfuck.Proofs.Memory.Shape
import Brainfuck.Proofs.Debugging.States
import Brainfuck.Proofs.Brackets.Matching
import Brainfuck.Proofs.Execution.Scanning
import Brainfuck.Proofs.Compilation.Decoding
import Brainfuck.Proofs.Engines.Courses
import Brainfuck.Proofs.CommandLine.Optimization
import Brainfuck.Proofs.Engines.Raising
import Brainfuck.Proofs.Execution.Writing
import Brainfuck.Proofs.Debugging.Conversing
import Brainfuck.Proofs.Debugging.Requests
import Brainfuck.Proofs.Debugging.Reloading
import Brainfuck.Proofs.Execution.Listening
import Brainfuck.Proofs.Execution.Interruption
import Brainfuck.Proofs.CommandLine.Tracing
import Brainfuck.Proofs.Execution.Accounting
import Brainfuck.Proofs.Memory.Widening
import Brainfuck.Proofs.Compilation.Comments
import Brainfuck.Proofs.Engines.Comments
import Brainfuck.Proofs.Execution.Reading
import Brainfuck.Proofs.Execution.Addressing
import Brainfuck.Proofs.Text.Numerals
import Brainfuck.Proofs.Debugging.Registry
import Brainfuck.Proofs.Debugging.BreakpointMap
import Brainfuck.Proofs.Debugging.Console
import Brainfuck.Proofs.Compilation.RunLength
import Brainfuck.Proofs.Memory.Sums
import Brainfuck.Proofs.Debugging.MemoryDump
import Brainfuck.Proofs.CommandLine.Rereading
import Brainfuck.Proofs.CommandLine.Handover
