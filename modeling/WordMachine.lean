import WordMachine.CommandLine.Session
import WordMachine.Debugger.View
import WordMachine.Embedded
import WordMachine.Main
import WordMachine.Proofs.Execution
import WordMachine.Proofs.Guest
import WordMachine.Proofs.Atomicity
import WordMachine.Proofs.Frame
import WordMachine.Proofs.Watching
import WordMachine.Proofs.History
import WordMachine.Proofs.Outbound
import WordMachine.Proofs.Drain
import WordMachine.Proofs.Session
import WordMachine.Proofs.Staging
import WordMachine.Proofs.Skipping
import WordMachine.Proofs.Mirrors
import WordMachine.Proofs.Coherence
import WordMachine.Proofs.Tally
import WordMachine.Proofs.Stack
import WordMachine.Proofs.Faults
import WordMachine.Proofs.Lines
import WordMachine.Proofs.Grammar
import WordMachine.Proofs.Sweep
import WordMachine.Proofs.Annotation
import WordMachine.Proofs.Forecast
import WordMachine.Proofs.Testimony
import WordMachine.Proofs.LifeCycle
import WordMachine.Proofs.Renewal
import WordMachine.Proofs.Assembly
import WordMachine.Proofs.DoubleWords
import WordMachine.Proofs.Independence
import WordMachine.Proofs.Zeroing
import WordMachine.Proofs.Readback
import WordMachine.Proofs.Comments
import WordMachine.Proofs.Interruption
import WordMachine.Proofs.Rings
import WordMachine.Proofs.Rejection
import WordMachine.Proofs.Batches
import WordMachine.Proofs.MemoryView
import WordMachine.Proofs.Drawing
