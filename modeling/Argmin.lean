import Argmin.Auth.Calendar
import Argmin.Auth.RequestBinding
import Argmin.Checksum.Crc
import Argmin.Cluster.RecoveryDispatch
import Argmin.Cluster.RouteAdmission
import Argmin.ControlPlane.AuthorityClock
import Argmin.ControlPlane.LeaseExpiry
import Argmin.ControlPlane.LeaseHorizon
import Argmin.ControlPlane.LeaseModel
import Argmin.ControlPlane.OperatorState
import Argmin.ControlPlane.OverlayCommands
import Argmin.ControlPlane.RuntimeMap
import Argmin.Crypto.Integrity
import Argmin.Ec.Verify
import Argmin.Placement.Disruption
import Argmin.Policy.InsertedText
import Argmin.Policy.NonPublic
import Argmin.Storage.JournalRecovery
import Argmin.Storage.RecoveryCertificate
import Argmin.Storage.RetainedChain
