import MeshSettle.Theorems.Agreement
import MeshSettle.Theorems.Balance
import MeshSettle.Theorems.Conduct
import MeshSettle.Theorems.Allowlist
import MeshSettle.Theorems.AtMostOnce
import MeshSettle.Theorems.Authenticity
import MeshSettle.Theorems.Codec
import MeshSettle.Theorems.Confluence
import MeshSettle.Theorems.Contained
import MeshSettle.Theorems.Convergence
import MeshSettle.Theorems.Counters
import MeshSettle.Theorems.Disclosure
import MeshSettle.Theorems.Drain
import MeshSettle.Theorems.Evidence
import MeshSettle.Theorems.Exclusion
import MeshSettle.Theorems.Expiry
import MeshSettle.Theorems.Handoff
import MeshSettle.Theorems.Honest
import MeshSettle.Theorems.HopBlind
import MeshSettle.Theorems.Isolation
import MeshSettle.Theorems.Lookup
import MeshSettle.Theorems.MarkerBacked
import MeshSettle.Theorems.NoLoss
import MeshSettle.Theorems.NoPoison
import MeshSettle.Theorems.Paid
import MeshSettle.Theorems.Reads
import MeshSettle.Theorems.Release
import MeshSettle.Theorems.Reporting
import MeshSettle.Theorems.Resealed
import MeshSettle.Theorems.Routing
import MeshSettle.Theorems.SignedRegion
import MeshSettle.Theorems.Spendable
import MeshSettle.Theorems.Spinning
import MeshSettle.Theorems.Submission
import MeshSettle.Theorems.Truthful
import MeshSettle.Theorems.Uplink
import MeshSettle.Theorems.Verdicts
import MeshSettle.Theorems.Watch
import MeshSettle.Theorems.WireAgreement
