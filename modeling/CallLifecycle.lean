import CallLifecycle.Console
import CallLifecycle.SettingsStore
import CallLifecycle.Switchboard
import CallLifecycle.Timestamp
import CallLifecycle.Written
import CallLifecycle.Proofs.Announcing
import CallLifecycle.Proofs.ChangeLog
import CallLifecycle.Proofs.Concluding
import CallLifecycle.Proofs.Course
import CallLifecycle.Proofs.Ending
import CallLifecycle.Proofs.Findings
import CallLifecycle.Proofs.GivingUp
import CallLifecycle.Proofs.Handshake
import CallLifecycle.Proofs.Ledger
import CallLifecycle.Proofs.Leniency
import CallLifecycle.Proofs.Loading
import CallLifecycle.Proofs.Particulars
import CallLifecycle.Proofs.Promotion
import CallLifecycle.Proofs.Registration
import CallLifecycle.Proofs.Rejecting
import CallLifecycle.Proofs.Remembering
import CallLifecycle.Proofs.Routing
import CallLifecycle.Proofs.Scheduling
import CallLifecycle.Proofs.Sharing
import CallLifecycle.Proofs.StoppingShort
import CallLifecycle.Proofs.Straying
import CallLifecycle.Proofs.TwoSteps
import CallLifecycle.Proofs.Veil
import CallLifecycle.Proofs.VeiledTraffic
import CallLifecycle.Proofs.Walk
import CallLifecycle.Proofs.Watching
