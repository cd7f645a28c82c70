import Bookkeeping.Session
import Bookkeeping.Sql.Session
import Bookkeeping.Json.Parser
import Bookkeeping.Json.Printer
import Bookkeeping.Proofs.Scheduling
import Bookkeeping.Proofs.Replay
import Bookkeeping.Proofs.Idempotency
import Bookkeeping.Proofs.Serializability
import Bookkeeping.Proofs.Conservation
import Bookkeeping.Proofs.Streams
import Bookkeeping.Proofs.Races
import Bookkeeping.Proofs.RowTimes
import Bookkeeping.Proofs.Deadlock
import Bookkeeping.Proofs.Judgement
import Bookkeeping.Proofs.Execution
import Bookkeeping.Proofs.Repetition
import Bookkeeping.Proofs.Balances
import Bookkeeping.Proofs.Overflow
import Bookkeeping.Proofs.Commuting
import Bookkeeping.Proofs.DoubleEntry
import Bookkeeping.Proofs.IntegerLedger
import Bookkeeping.Proofs.Refinement
import Bookkeeping.Proofs.AuditTrail
import Bookkeeping.Proofs.Isolation
import Bookkeeping.Proofs.LogIntegrity
import Bookkeeping.Proofs.Openings
import Bookkeeping.Proofs.OpeningRaces
import Bookkeeping.Proofs.Previews
import Bookkeeping.Proofs.Conflicts
import Bookkeeping.Proofs.CommitDiscipline
import Bookkeeping.Proofs.StoreErrors
import Bookkeeping.Proofs.OpeningGates
import Bookkeeping.Proofs.Omissions
import Bookkeeping.Proofs.TransactionEntries
import Bookkeeping.Proofs.Batches
import Bookkeeping.Proofs.PayloadGrammar
import Bookkeeping.Proofs.Insertion
import Bookkeeping.Proofs.NumericForm
import Bookkeeping.Proofs.RowRoundTrip
import Bookkeeping.Proofs.Enumeration
import Bookkeeping.Proofs.BalanceBounds
import Bookkeeping.Proofs.Variables
import Bookkeeping.Proofs.Transparency
