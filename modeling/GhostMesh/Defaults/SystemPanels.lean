import GhostMesh.PatchPanel.Validator

/-!
# The shipped registration workflow

`system-agent-registration.yaml`, with its id as a parameter: a designer may write
the same workflow under another id.
-/

set_option autoImplicit false

namespace GhostMesh

def systemAgentRegistrationId : String := "system_agent_registration"

def registrationMetadata : JsonObj :=
  [("registry", .obj [("name", .str "System Agent Registration"),
    ("description", .str ("Validates participant onboarding payloads, routes administrative " ++
      "approval, and provisions authorized identities.")),
    ("tags", Json.ofStrings ["system", "governance", "participant-onboarding"]),
    ("input_types", Json.ofStrings ["participant_onboarding_request"]),
    ("output_types", Json.ofStrings ["participant_authority_profile"]),
    ("required_permissions", Json.ofStrings ["validation:submit", "sink:execute",
      "participant:manage", "permission:grant"]),
    ("risk_level", .str "high"), ("status", .str "published")])]

def registrationBuckets : List BucketDefinition :=
  [⟨"registration_compliance",
      some "Participant onboarding requests awaiting automated compliance checks.", [], [], none,
      false⟩,
    ⟨"registration_admin_review",
      some "Compliant onboarding requests awaiting administrator approval.", [], [], none, false⟩,
    ⟨"authority_provisioning",
      some "Approved onboarding requests ready for authority provisioning.", [], [], none, false⟩,
    ⟨"registration_rejected",
      some "Onboarding requests rejected by compliance or administrative review.", [], [], none,
      false⟩]

def registrationNodes : List NodeDefinition :=
  [⟨"registration_source", .source, none, none, [], ["registration_submitted"], none, []⟩,
    ⟨"registration_compliance_validator", .validator, some "routing", none, ["compliance_input"],
      ["registration_compliant", "registration_noncompliant"], none,
      [("validation_handler", .str "participant_onboarding_compliance"),
        ("valid_exit", .str "registration_compliant"),
        ("invalid_exit", .str "registration_noncompliant"),
        ("accept_exits", Json.ofStrings ["registration_compliant"])]⟩,
    ⟨"registration_admin_reviewer", .validator, some "routing", none, ["admin_review_input"],
      ["registration_approved", "registration_rejected"], none,
      [("accept_exits", Json.ofStrings ["registration_approved"])]⟩,
    ⟨"authority_provisioner_sink", .sink, none, none, ["provisioning_input"], [], none,
      [("egress_contract", .obj [("type", .str "authority_provisioning"),
        ("external_reference_required", .bool false)])]⟩]

def registrationBindings : Dict String PipeBinding :=
  ⟨[("registration_submitted",
      ⟨"registration_compliance", some "registration_source", some .output⟩),
    ("compliance_input",
      ⟨"registration_compliance", some "registration_compliance_validator", some .input⟩),
    ("registration_compliant",
      ⟨"registration_admin_review", some "registration_compliance_validator", some .output⟩),
    ("registration_noncompliant",
      ⟨"registration_rejected", some "registration_compliance_validator", some .output⟩),
    ("admin_review_input",
      ⟨"registration_admin_review", some "registration_admin_reviewer", some .input⟩),
    ("registration_approved",
      ⟨"authority_provisioning", some "registration_admin_reviewer", some .output⟩),
    ("registration_rejected",
      ⟨"registration_rejected", some "registration_admin_reviewer", some .output⟩),
    ("provisioning_input",
      ⟨"authority_provisioning", some "authority_provisioner_sink", some .input⟩)], by decide⟩

def registrationPanel (id : String) : PatchPanel where
  id := id
  version := "1.0.0"
  description :=
    some "System workflow for governed participant onboarding and role provisioning."
  buckets := registrationBuckets
  nodes := registrationNodes
  edges := [⟨"registration_source", "registration_compliance_validator", "card_created", none⟩,
    ⟨"registration_compliance_validator", "registration_admin_reviewer",
      "registration_compliant", none⟩,
    ⟨"registration_admin_reviewer", "authority_provisioner_sink", "registration_approved", none⟩]
  pipeBindings := registrationBindings
  acceptanceContracts := []
  metadata := registrationMetadata
  uniqueBuckets := by decide
  uniqueNodes := by decide
  uniqueContracts := List.nodup_nil

/-- The validator accepts the workflow under its own id and under another. -/
example : ∀ id ∈ [systemAgentRegistrationId, "rogue"],
    PatchPanelValidator.accepts .simple (registrationPanel id) = true := by decide +kernel

end GhostMesh
