import Lemul.Attach.Proofs.Authority
import Lemul.Attach.Proofs.Seed
import Lemul.Attach.Proofs.SingleUse
import Lemul.Cli.Detach
import Lemul.Driver.Local
import Lemul.Driver.PlacementKey
import Lemul.Driver.Preserve
import Lemul.Gateway.Broker
import Lemul.Gateway.Proofs.Allowlist
import Lemul.MgmtApi.DeleteSession
import Lemul.MgmtApi.OrgName
import Lemul.MgmtApi.Proofs.CredentialReuse
import Lemul.MgmtApi.Proofs.CurrentRow
import Lemul.MgmtApi.Proofs.FailedPlacement
import Lemul.MgmtApi.Proofs.PolicyPatch
import Lemul.MgmtApi.Proofs.SessionListing
import Lemul.MgmtApi.Proofs.SnapshotLineage
import Lemul.MgmtApi.Proofs.TunnelBinding
import Lemul.MgmtApi.Proofs.TunnelFrame
import Lemul.MgmtApi.Proofs.TunnelReports
import Lemul.MgmtApi.Proofs.WarmHold
import Lemul.PtySession.Proofs.AttachStart
import Lemul.PtySession.Proofs.FailedCreate
import Lemul.PtySession.Proofs.SessionRegistry
import Lemul.PtySession.Proofs.TerminalSize
import Lemul.PtySession.Replay
import Lemul.Registry.Rotation
import Lemul.Registry.Waiting
import Lemul.StateKey
import Lemul.Supervisor.Activity
import Lemul.Supervisor.CommandLine
import Lemul.Supervisor.Explorer
import Lemul.Supervisor.FsJail
import Lemul.Supervisor.ProcStat
import Lemul.Supervisor.Proofs.ChildEnv
import Lemul.Supervisor.Proofs.EventStream
import Lemul.Supervisor.Proofs.FailedStart
import Lemul.Supervisor.Proofs.Forgotten
import Lemul.Supervisor.Proofs.ModelProxy
import Lemul.Supervisor.Proofs.PreparedHome
import Lemul.Supervisor.Proofs.StartOnce
import Lemul.Supervisor.Resources
import Lemul.Tunnel.Reader
