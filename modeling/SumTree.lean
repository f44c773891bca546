import SumTree.Main
import SumTree.Proofs.Compose.Ports
import SumTree.Proofs.Compose.Reports
import SumTree.Proofs.Entry.File
import SumTree.Proofs.Entry.Line
import SumTree.Proofs.Json.Canonical
import SumTree.Proofs.Run.Accepted
import SumTree.Proofs.Run.Cancellation
import SumTree.Proofs.Run.Ended
import SumTree.Proofs.Run.FailFast
import SumTree.Proofs.Run.GivingBack
import SumTree.Proofs.Run.Order
import SumTree.Proofs.Run.Precedence
import SumTree.Proofs.Run.Release
import SumTree.Proofs.Run.Replies
import SumTree.Proofs.Run.Session
import SumTree.Proofs.Run.Totals
import SumTree.Proofs.Run.Watch
import SumTree.Proofs.Spawner.Cleanup
import SumTree.Proofs.Spawner.Ready
import SumTree.Proofs.Spawner.Retirement
import SumTree.Proofs.Tree.Bounds
import SumTree.Proofs.Tree.Hashed
import SumTree.Proofs.Tree.Locality
import SumTree.Proofs.Tree.Lookup
import SumTree.Proofs.Tree.Nesting
import SumTree.Proofs.Tree.Spans
import SumTree.Proofs.Wire.Hexadecimal
import SumTree.Proofs.Worker.Answers
import SumTree.Rehearsal.Engine
import SumTree.Rehearsal.Loopback
import SumTree.Rehearsal.Probe
import SumTree.Rehearsal.Run
import SumTree.Rehearsal.Steps
