import GhostMesh.Api.ClaimScope
import GhostMesh.Api.Hosted
import GhostMesh.Api.HostedRoutes
import GhostMesh.Api.Mediation
import GhostMesh.Api.OwnExits
import GhostMesh.Auth.EnsuredRole
import GhostMesh.Auth.RoleScope
import GhostMesh.Genesis.Again
import GhostMesh.Genesis.Candidates
import GhostMesh.Genesis.Launches
import GhostMesh.Genesis.Proposals
import GhostMesh.Genesis.SelectedVersion
import GhostMesh.Lib.DiGraph
import GhostMesh.Mcp.Admission
import GhostMesh.Mcp.Mediation
import GhostMesh.Mcp.ServedIntents
import GhostMesh.Nodes.AsProposed
import GhostMesh.Nodes.IngressOnce
import GhostMesh.Nodes.Lifecycles
import GhostMesh.Nodes.ShadowAgain
import GhostMesh.Nodes.ShadowEgress
import GhostMesh.Nodes.ShadowLinks
import GhostMesh.Nodes.SinkEvidence
import GhostMesh.Nodes.SourceBuckets
import GhostMesh.Nodes.TopologyVerdicts
import GhostMesh.Nodes.ValidationEvidence
import GhostMesh.Nodes.Verdicts
import GhostMesh.Nodes.WorkerRuns
import GhostMesh.PatchPanel.WaysOut
import GhostMesh.Registry.Drafts
import GhostMesh.Registry.SameRegistry
import GhostMesh.Runtime.Acceptance
import GhostMesh.Runtime.Accounting
import GhostMesh.Runtime.AppendOnly
import GhostMesh.Runtime.CallEffects
import GhostMesh.Runtime.ClaimRace
import GhostMesh.Runtime.CommitLedger
import GhostMesh.Runtime.DeclaredRows
import GhostMesh.Runtime.HistoryOrder
import GhostMesh.Runtime.Idempotency
import GhostMesh.Runtime.LeaseLife
import GhostMesh.Runtime.ManyPanels
import GhostMesh.Runtime.NewVersion
import GhostMesh.Runtime.OnePlace
import GhostMesh.Runtime.PipeRouting
import GhostMesh.Runtime.Promotion
import GhostMesh.Runtime.Replay
import GhostMesh.Runtime.SameRuns
import GhostMesh.Runtime.ServingPanels
import GhostMesh.Runtime.StoreContention
import GhostMesh.Runtime.Sweeping
import GhostMesh.Runtime.VersionDefinition
import GhostMesh.Runtime.WorkPlace
import GhostMesh.Runtime.WorkflowVersion
