import AgentStack.Reconcile.CreateOnce
import AgentStack.Runtime.AdmissionCommit
import AgentStack.Runtime.TaskRuns
import AgentStack.Runtime.ReplayRuns
import AgentStack.Runtime.JournalCallers
import AgentStack.Runtime.RegistrationRuns
import AgentStack.Runtime.MigrationCalls
import AgentStack.Runtime.OutboxRuns
import AgentStack.Core.TaskGate
import AgentStack.Core.CatalogClosure
import AgentStack.Core.Profile
import AgentStack.Core.ArtifactTargets
import AgentStack.Core.ImpactPatch
import AgentStack.Core.SurfaceAcceptance
import AgentStack.Runtime.RuntimeIntegrity
import AgentStack.Route.SurfaceClosure
import AgentStack.Providers.AttemptRecovery
import AgentStack.Providers.Extracted
import AgentStack.Core.CanonicalJson
import AgentStack.Release.Gates
import AgentStack.Release.Compatibility
import AgentStack.Runtime.LauncherRender
import AgentStack.Reconcile.ProbeRecovery
import AgentStack.Reconcile.LifecycleSafety
