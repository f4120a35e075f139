import Coplanar.Dataset.Correction
import Coplanar.Dataset.Stored
import Coplanar.Proofs.Binding
import Coplanar.Proofs.Channels
import Coplanar.Proofs.Copies
import Coplanar.Proofs.Counting
import Coplanar.Proofs.Drift
import Coplanar.Proofs.Equatorial
import Coplanar.Proofs.Failing
import Coplanar.Proofs.Faults
import Coplanar.Proofs.Frames
import Coplanar.Proofs.Gaps
import Coplanar.Proofs.GreatCircle
import Coplanar.Proofs.Isometry
import Coplanar.Proofs.Lifting
import Coplanar.Proofs.Observer
import Coplanar.Proofs.Outputs
import Coplanar.Proofs.Quantities
import Coplanar.Proofs.Ranges
import Coplanar.Proofs.Rechecking
import Coplanar.Proofs.Recording
import Coplanar.Proofs.Refinement
import Coplanar.Proofs.Rejection
import Coplanar.Proofs.Reordering
import Coplanar.Proofs.Residual
import Coplanar.Proofs.Selecting
import Coplanar.Proofs.Slices
import Coplanar.Proofs.Slicewise
import Coplanar.Proofs.Sphere
import Coplanar.Proofs.Steadfast
import Coplanar.Proofs.Turning
import Coplanar.Report
import Coplanar.Trackers
import Coplanar.World
