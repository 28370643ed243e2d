import GhostMesh.Domain.RoundTrip
import GhostMesh.Genesis.Proposals
import GhostMesh.Nodes.Publication
import GhostMesh.Nodes.TopologyVerdicts
import GhostMesh.PatchPanel.WellFormed

/-!
# A proposal, judged and published

The candidate definition of a proposal travels as JSON in the payload of its card. The
topology validator and the publication sink read it again; what they read is the panel and
the metadata that were proposed.
-/

set_option autoImplicit false

namespace GhostMesh

open NodeExecutor

section Reading
variable {w : World} {payload : JsonObj} {candidate : PatchPanel}
  {metadata : PatchPanelRegistryMetadata} (h : Carries payload candidate metadata)
include h

theorem Carries.parseCandidate : parseCandidate w payload = .ok candidate := by
  have hget : JsonObj.getD payload "candidate_definition" .null = candidate.toJson := by
    rw [JsonObj.getD, h.definition, Option.getD_some]
  rw [NodeExecutor.parseCandidate]
  simp only [hget, PatchPanel.reads candidate]

theorem Carries.parseRegistryMetadata : parseRegistryMetadata w payload = .ok metadata := by
  have hget : JsonObj.getD payload "registry_metadata" .null = metadata.toJson := by
    rw [JsonObj.getD, h.metadata, Option.getD_some]
  rw [NodeExecutor.parseRegistryMetadata]
  simp only [hget, PatchPanelRegistryMetadata.reads metadata]

end Reading

/-- What a registry entry says of its panel. -/
def PatchPanelRegistryEntry.registryMetadata (e : PatchPanelRegistryEntry) :
    PatchPanelRegistryMetadata where
  name := e.name
  description := e.description
  tags := e.tags
  inputTypes := e.inputTypes
  outputTypes := e.outputTypes
  requiredTools := e.requiredTools
  requiredPermissions := e.requiredPermissions
  riskLevel := e.riskLevel
  estimatedCost := e.estimatedCost
  estimatedLatency := e.estimatedLatency
  ownerParticipantId := e.ownerParticipantId
  status := e.status

section Publishing
variable {settings : Settings} {w : World} {p : PatchPanel} {registryGiven repositoryGiven : Bool}
  {a a' : Machine SystemStores} {n : NodeDefinition} {card : Card} {candidate : PatchPanel}
  {metadata : PatchPanelRegistryMetadata} {externalReference : Option String}

end Publishing

end GhostMesh
