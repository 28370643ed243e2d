import GhostMesh.PatchPanel.Validator

/-!
# The shipped approval workflow

`system-pp-approval.yaml`: proposals are judged by the topology validator, reviewed,
and published.
-/

set_option autoImplicit false

namespace GhostMesh

def approvalMetadata : JsonObj :=
  [("registry", .obj [("name", .str "System Patch Panel Approval"),
    ("description", .str ("Validates proposed Patch Panel topologies, routes governance " ++
      "decisions, and publishes approved registry entries.")),
    ("tags", Json.ofStrings ["system", "governance", "patch-panel-approval"]),
    ("input_types", Json.ofStrings ["patch_panel_proposal"]),
    ("output_types", Json.ofStrings ["patch_panel_registry_entry"]),
    ("required_permissions", Json.ofStrings ["mutation:propose", "validation:submit",
      "sink:execute"]),
    ("risk_level", .str "medium"), ("status", .str "published")])]

def approvalBuckets : List BucketDefinition :=
  [⟨"topology_proposals",
      some "Proposed Patch Panel definitions awaiting algorithmic topology validation.", [], [],
      none, false⟩,
    ⟨"governance_review",
      some "Valid topology proposals awaiting role-driven governance review.", [], [], none, false⟩,
    ⟨"registry_publication",
      some "Approved proposals ready for registry publication sink execution.", [], [], none,
      false⟩,
    ⟨"rejected_proposals",
      some "Proposals rejected by topology validation or governance review.", [], [], none, false⟩]

def topologicalValidator : NodeDefinition where
  id := "topological_validator"
  type := .validator
  validatorKind := some "routing"
  description := none
  inputPipes := ["topology_validation_input"]
  outputPipes := ["topology_valid", "topology_invalid"]
  acceptanceContract := none
  config := [("validation_handler", .str "patch_panel_topology"),
    ("valid_exit", .str "topology_valid"), ("invalid_exit", .str "topology_invalid"),
    ("accept_exits", Json.ofStrings ["topology_valid"])]

def approvalNodes : List NodeDefinition :=
  [⟨"proposal_source", .source, none, none, [], ["proposal_submitted"], none, []⟩,
    topologicalValidator,
    ⟨"governance_reviewer", .validator, some "routing", none, ["governance_review_input"],
      ["proposal_approved", "proposal_rejected"], none,
      [("accept_exits", Json.ofStrings ["proposal_approved"])]⟩,
    ⟨"registry_publication_sink", .sink, none, none, ["publication_input"], [], none,
      [("egress_contract", .obj [("type", .str "registry_publication"),
        ("external_reference_required", .bool false)])]⟩]

def approvalBindings : Dict String PipeBinding :=
  ⟨[("proposal_submitted", ⟨"topology_proposals", some "proposal_source", some .output⟩),
    ("topology_validation_input",
      ⟨"topology_proposals", some "topological_validator", some .input⟩),
    ("topology_valid", ⟨"governance_review", some "topological_validator", some .output⟩),
    ("topology_invalid", ⟨"rejected_proposals", some "topological_validator", some .output⟩),
    ("governance_review_input", ⟨"governance_review", some "governance_reviewer", some .input⟩),
    ("proposal_approved", ⟨"registry_publication", some "governance_reviewer", some .output⟩),
    ("proposal_rejected", ⟨"rejected_proposals", some "governance_reviewer", some .output⟩),
    ("publication_input",
      ⟨"registry_publication", some "registry_publication_sink", some .input⟩)], by decide⟩

def systemApproval : PatchPanel where
  id := "system_pp_approval"
  version := "1.0.0"
  description := some ("System workflow for Patch Panel proposal validation, governance, and " ++
    "registry publication.")
  buckets := approvalBuckets
  nodes := approvalNodes
  edges := [⟨"proposal_source", "topological_validator", "card_created", none⟩,
    ⟨"topological_validator", "governance_reviewer", "topology_valid", none⟩,
    ⟨"governance_reviewer", "registry_publication_sink", "proposal_approved", none⟩]
  pipeBindings := approvalBindings
  acceptanceContracts := []
  metadata := approvalMetadata
  uniqueBuckets := by decide
  uniqueNodes := by decide
  uniqueContracts := List.nodup_nil

theorem systemApproval_accepted : PatchPanelValidator.accepts .simple systemApproval = true := by
  decide +kernel

end GhostMesh
