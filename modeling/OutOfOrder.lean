import OutOfOrder.Main
import OutOfOrder.Proofs.Contract
import OutOfOrder.Proofs.ReorderBuffer
import OutOfOrder.Proofs.History
import OutOfOrder.Proofs.InFlight
import OutOfOrder.Proofs.Committed
import OutOfOrder.Proofs.Feed
import OutOfOrder.Proofs.Ledger
import OutOfOrder.Proofs.Provenance
import OutOfOrder.Proofs.Causality
import OutOfOrder.Proofs.Rotation
import OutOfOrder.Proofs.Progress
import OutOfOrder.Proofs.InOrder
import OutOfOrder.Proofs.Lockstep
import OutOfOrder.Proofs.Schedule
import OutOfOrder.Proofs.Places
import OutOfOrder.Proofs.OldestFirst
import OutOfOrder.Proofs.Awaited
import OutOfOrder.Proofs.Balance
import OutOfOrder.Proofs.Commute
import OutOfOrder.Proofs.Chronicle
import OutOfOrder.Proofs.Timing
import OutOfOrder.Proofs.Prediction
import OutOfOrder.Proofs.Unfailing
import OutOfOrder.Proofs.Records
import OutOfOrder.Proofs.RunLoop
import OutOfOrder.Proofs.Queue
import OutOfOrder.Proofs.Refusal
import OutOfOrder.Proofs.Installation
import OutOfOrder.Proofs.Reports
import OutOfOrder.Proofs.Age
import OutOfOrder.Proofs.Selection
import OutOfOrder.Proofs.Slots
import OutOfOrder.Proofs.Broadcast
import OutOfOrder.Proofs.Arithmetic
import OutOfOrder.Proofs.Mispredictions
import OutOfOrder.Proofs.Disassembly
import OutOfOrder.Proofs.Files
