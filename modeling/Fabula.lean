import Fabula.Proofs.Brackets
import Fabula.Proofs.CallLog
import Fabula.Proofs.Canonical
import Fabula.Proofs.Complement
import Fabula.Proofs.Containment
import Fabula.Proofs.Courses
import Fabula.Proofs.Detection
import Fabula.Proofs.Fingerprint
import Fabula.Proofs.Kinds
import Fabula.Proofs.Lines
import Fabula.Proofs.Lookup
import Fabula.Proofs.Naming
import Fabula.Proofs.Notification
import Fabula.Proofs.Observation
import Fabula.Proofs.Ordering
import Fabula.Proofs.Paths
import Fabula.Proofs.References
import Fabula.Proofs.Reports
import Fabula.Proofs.Resting
import Fabula.Proofs.Rendered
import Fabula.Proofs.RestoredFlows
import Fabula.Proofs.RestoredKinds
import Fabula.Proofs.Resumption
import Fabula.Proofs.Safety
import Fabula.Proofs.Scopes
import Fabula.Proofs.Shuffle
import Fabula.Proofs.Snapshots
import Fabula.Proofs.Threads
import Fabula.Proofs.Transparency
import Fabula.Proofs.Utf8
import Fabula.Session.Control
import Fabula.Story.Assembler
import Fabula.Text.Hex
