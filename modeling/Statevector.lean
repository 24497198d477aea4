import Statevector.Command.Respond
import Statevector.Circuit.Builtin
import Statevector.Circuit.Edit
import Statevector.Circuit.Document
import Statevector.Run.Roster
import Statevector.Main
import Statevector.Settings.File
import Statevector.Source.Listing
import Statevector.Source.Sample
import Statevector.State.Distance
import Statevector.State.Ket
import Statevector.Proofs.Source.Classify
import Statevector.Proofs.Circuit.Operands
import Statevector.Proofs.Source.NormalForm
import Statevector.Proofs.State.Bits
import Statevector.Proofs.State.Loop
import Statevector.Proofs.State.Vector
import Statevector.Proofs.State.Gate
import Statevector.Proofs.State.Classical
import Statevector.Proofs.Run.Progress
import Statevector.Proofs.Run.Executor
import Statevector.Proofs.Run.Outcome
import Statevector.Proofs.Run.History
import Statevector.Proofs.Run.Basis
import Statevector.Proofs.State.Reversal
import Statevector.Proofs.Run.Pace
import Statevector.Proofs.Run.Cancellation
import Statevector.Proofs.Source.Program
import Statevector.Proofs.Run.Trace
import Statevector.Proofs.Run.Session
import Statevector.Proofs.Source.Line
import Statevector.Proofs.Source.Outcome
import Statevector.Proofs.Source.Canonical
import Statevector.Proofs.Source.Validity
import Statevector.Proofs.State.Relabel
import Statevector.Proofs.Run.Relabel
import Statevector.Proofs.State.Weight
import Statevector.Proofs.Run.Weight
import Statevector.Proofs.Run.Roster
import Statevector.Proofs.Run.Atomic
import Statevector.Proofs.Json.Spelling
import Statevector.Proofs.Json.Tokens
import Statevector.Proofs.Circuit.Document
import Statevector.Proofs.Source.Rendering
import Statevector.Proofs.Source.Grammar
import Statevector.Proofs.State.Outcome
import Statevector.Proofs.State.Pairs
import Statevector.Proofs.State.Exchange
import Statevector.Proofs.Run.Exchange
import Statevector.Proofs.State.Identities
import Statevector.Proofs.Circuit.Edit
import Statevector.Proofs.Run.Cursor
import Statevector.Proofs.State.Measure
import Statevector.Proofs.Source.Blanks
import Statevector.Proofs.Source.Edits
import Statevector.Proofs.Decimal.Value
import Statevector.Proofs.Decimal.Numeral
import Statevector.Proofs.State.Amplitude
import Statevector.Proofs.State.Ket
import Statevector.Proofs.Run.Bound
import Statevector.Proofs.Settings.Precedence
