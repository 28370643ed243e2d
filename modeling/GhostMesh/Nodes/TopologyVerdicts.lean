import GhostMesh.Defaults.ApprovalPanel
import GhostMesh.Nodes.ValidationEvidence
import GhostMesh.Runtime.PipeRouting

/-!
# The verdict of a topology validator

A topology validator judges the candidate in the payload of its card and routes the card
to one of two exits. The candidate is data of the proposer; the verdict fails to come
only for a candidate whose accept exits cannot be looked up.
-/

set_option autoImplicit false

namespace GhostMesh

open PatchPanelValidator (accepts HashableExits unhashable)
open InMemoryCardRuntime (RouteOk Validates beforeLastColon)

namespace NodeExecutor

/-! ## The verdict -/

/-- The candidate of a payload parses, and the validator accepts it. -/
def candidateAccepted (w : World) (payload : JsonObj) : Bool :=
  match parseCandidate w payload with
  | .ok candidate => accepts w candidate
  | .error _ => false

/-- No routing validator of the candidate has a list or an object as an accept exit. -/
def HashableCandidate (w : World) (payload : JsonObj) : Prop :=
  ∀ candidate, parseCandidate w payload = .ok candidate → HashableExits candidate.nodes

def exitFor (validExit invalidExit : String) (good : Bool) : String :=
  if good then validExit else invalidExit

/-- The request with the verdict of the handler. -/
structure Judged (w : World) (validExit invalidExit : String) (request : ValidatorExecutionInput)
    (card : Card) (request' : ValidatorExecutionInput) : Prop where
  accepted : request'.accepted = some (candidateAccepted w card.payload)
  exit : request'.selectedExit =
    some (exitFor validExit invalidExit (candidateAccepted w card.payload))
  cardId : request'.cardId = request.cardId
  key : request'.idempotencyKey = request.idempotencyKey

section Verdict
variable {w : World} {validExit invalidExit : String} {request : ValidatorExecutionInput}
  {card : Card}

theorem parseCandidate_error {payload : JsonObj} {e : PyErr}
    (h : parseCandidate w payload = .error e) : e.isValueError = true := by
  unfold parseCandidate at h
  simp only at h
  split at h
  · cases h
  · cases h
    rfl

theorem topologyVerdict_cases (w : World) (validExit invalidExit : String)
    (request : ValidatorExecutionInput) (card : Card) :
    (HashableCandidate w card.payload ∧ ∃ request',
      topologyVerdict w validExit invalidExit request card = .ok request' ∧
        Judged w validExit invalidExit request card request') ∨
      (¬ HashableCandidate w card.payload ∧
        topologyVerdict w validExit invalidExit request card = .error unhashable) := by
  unfold topologyVerdict
  cases hparse : parseCandidate w card.payload with
  | error e =>
    refine .inl ⟨fun candidate h => ?_, ?_⟩
    · rw [hparse] at h
      cases h
    · simp only [bind, Except.bind, parseCandidate_error hparse, if_true]
      refine ⟨_, rfl, ?_⟩
      have hrejected : candidateAccepted w card.payload = false := by
        simp only [candidateAccepted, hparse]
      exact ⟨by rw [hrejected], by rw [hrejected]; rfl, rfl, rfl⟩
  | ok candidate =>
    have hhash : HashableCandidate w card.payload ↔ HashableExits candidate.nodes := by
      constructor
      · exact fun h => h candidate hparse
      · intro h c hc
        cases hparse.symm.trans hc
        exact h
    have hgood : candidateAccepted w card.payload = accepts w candidate := by
      simp only [candidateAccepted, hparse]
    rw [hhash]
    rcases PatchPanelValidator.validate_total (w := w) (p := candidate) with
      ⟨hall, ⟨report, hvalid⟩ | ⟨errors, hinvalid⟩⟩ | ⟨hsome, hraise⟩
    · have haccepted : accepts w candidate = true :=
        PatchPanelValidator.accepts_iff.mpr ⟨report, hvalid⟩
      rw [haccepted] at hgood
      simp only [bind, Except.bind, hvalid, pure, Except.pure]
      exact .inl ⟨hall, _, rfl, ⟨by rw [hgood], by rw [hgood]; rfl, rfl, rfl⟩⟩
    · have hrejected : accepts w candidate = false := by
        simp only [accepts, hinvalid]
      rw [hrejected] at hgood
      simp only [bind, Except.bind, hinvalid, PyErr.isValueError, if_true]
      exact .inl ⟨hall, _, rfl, ⟨by rw [hgood], by rw [hgood]; rfl, rfl, rfl⟩⟩
    · simp only [bind, Except.bind, hraise]
      exact .inr ⟨hsome, rfl⟩

end Verdict

/-! ## Through the executor -/

/-- A validated panel with a topology validator that declares its two exits. -/
structure TopologyGate (w : World) (p : PatchPanel) (n : NodeDefinition)
    (validExit invalidExit : String) : Prop where
  accepted : accepts w p = true
  node : n ∈ p.nodes
  validator : n.type = .validator
  handler : hasHandler n "patch_panel_topology" = true
  valid : configuredExit n "valid_exit" = .ok validExit
  invalid : configuredExit n "invalid_exit" = .ok invalidExit
  declared : validExit ∈ n.outputPipes ∧ invalidExit ∈ n.outputPipes

/-- What the verdict and its exit need: a candidate whose accept exits can be looked up,
and a binding that gives the node and the direction of the exit. -/
structure CanDecide (w : World) (p : PatchPanel) (n : NodeDefinition) (payload : JsonObj)
    (exit : String) : Prop where
  hashable : HashableCandidate w payload
  bound : ∃ binding, p.pipeBindings.get? exit = some binding ∧ binding.node = some n.id ∧
    binding.direction = some .output

theorem node_of_mem {p : PatchPanel} {n : NodeDefinition} (hn : n ∈ p.nodes) :
    node p n.id n.type = .ok n := by
  have hfind : p.nodes.find? (fun m => m.id = n.id) = some n := by
    cases hfind : p.nodes.find? (fun m => m.id = n.id) with
    | none =>
      have hno := List.find?_eq_none.mp hfind n hn
      simp at hno
    | some m =>
      have hid : m.id = n.id := by simpa using List.find?_some hfind
      rw [List.inj_on_of_nodup_map p.uniqueNodes (List.mem_of_find?_eq_some hfind) hn hid]
  rw [node, hfind]
  exact if_pos rfl

theorem ensureValidatorExit_iff {p : PatchPanel} {n : NodeDefinition} {exit : String}
    (hdeclared : exit ∈ n.outputPipes) : ensureValidatorExit p n exit = .ok () ↔
      ∃ binding, p.pipeBindings.get? exit = some binding ∧ binding.node = some n.id ∧
        binding.direction = some .output := by
  rw [ensureValidatorExit, if_neg (not_not.mpr hdeclared)]
  cases hget : p.pipeBindings.get? exit with
  | none => simp
  | some binding =>
    by_cases hbound : binding.node = some n.id ∧ binding.direction = some .output
    · simp [hbound]
    · simp only [if_neg hbound, reduceCtorEq, false_iff]
      rintro ⟨_, h, hboth⟩
      cases h
      exact hbound hboth

section Executor
variable {w : World} {σ : Type} {x : NodeExecutor σ} {cards : σ → Dict Uuid Card}
  {s : Machine σ} {n : NodeDefinition} {validExit invalidExit : String}
  {request : ValidatorExecutionInput} {card : Card}

theorem run_handledRequest (hx : LooksUp x.runtime cards)
    (gate : TopologyGate w x.patchPanel n validExit invalidExit) (hopen : decided request = false)
    (hcard : (cards s.store).get? request.cardId = some card) :
    (x.handledRequest n request).run w s =
      (topologyVerdict w validExit invalidExit request card, s) := by
  have hverdict : (x.topologyValidationRequest n request).run w s =
      (topologyVerdict w validExit invalidExit request card, s) := by
    simp only [topologyValidationRequest, hopen, Bool.false_eq_true, if_false, Exec.run_bind,
      hx request.cardId w s, hcard, gate.valid, gate.invalid, Op.run_ofExcept, Op.run_world]
  rw [handledRequest, if_pos gate.handler, Exec.run_bind, hverdict]
  cases hjudged : topologyVerdict w validExit invalidExit request card with
  | error e => rfl
  | ok request' =>
    have hdone : decided request' = true := topologyVerdict_decided hjudged
    simp only
    rw [(handlers_decided x n hdone).2, ite_self]
    rfl

/-- The call ends in `validate_card` with the verdict. -/
def HandsOver (x : NodeExecutor σ) (w : World) (s : Machine σ) (n : NodeDefinition)
    (request : ValidatorExecutionInput) (good : Bool) (exit : String) : Prop :=
  ∃ reason payload, (x.executeValidator request).run w s =
    (x.runtime.validateCard request.cardId n.id good reason (some exit) (some payload)
      request.idempotencyKey).run w s

/-- On any runtime the call hands a verdict over, or raises before it has done anything. -/
theorem executeValidator_topology (hx : LooksUp x.runtime cards)
    (gate : TopologyGate w x.patchPanel n validExit invalidExit)
    (hid : request.validatorId = n.id) (hopen : decided request = false)
    (hcard : (cards s.store).get? request.cardId = some card) {good : Bool} {exit : String}
    (hgood : good = candidateAccepted w card.payload)
    (hexit : exit = exitFor validExit invalidExit good) :
    (CanDecide w x.patchPanel n card.payload exit ∧ HandsOver x w s n request good exit) ∨
      (¬ CanDecide w x.patchPanel n card.payload exit ∧
        ∃ e, (x.executeValidator request).run w s = (.error e, s)) := by
  subst hgood hexit
  have hnode : node x.patchPanel request.validatorId .validator = .ok n := by
    rw [hid, ← gate.validator]
    exact node_of_mem gate.node
  have hhandled := run_handledRequest hx gate hopen hcard
  have hdeclared : exitFor validExit invalidExit (candidateAccepted w card.payload) ∈
      n.outputPipes := by
    unfold exitFor
    split
    · exact gate.declared.1
    · exact gate.declared.2
  have hstart : ((Op.ofExcept (node x.patchPanel request.validatorId .validator)).run w s) =
      (.ok n, s) := by rw [hnode]; rfl
  unfold HandsOver executeValidator
  rw [Exec.run_bind_ok hstart]
  rcases topologyVerdict_cases w validExit invalidExit request card with
    ⟨hhash, request', hverdict, hjudged⟩ | ⟨hnot, hraise⟩
  · rw [hverdict] at hhandled
    rw [Exec.run_bind_ok hhandled]
    have hensure : x.ensureExit n (some (exitFor validExit invalidExit
        (candidateAccepted w card.payload))) = ensureValidatorExit x.patchPanel n
          (exitFor validExit invalidExit (candidateAccepted w card.payload)) := rfl
    by_cases hbound : ensureValidatorExit x.patchPanel n
        (exitFor validExit invalidExit (candidateAccepted w card.payload)) = .ok ()
    · refine .inl ⟨⟨hhash, (ensureValidatorExit_iff hdeclared).mp hbound⟩, request'.reason,
        request'.payload, ?_⟩
      have haccepted : validatorAccepted n request' =
          .ok (candidateAccepted w card.payload) := by
        unfold validatorAccepted
        rw [hjudged.accepted]
      simp only [Exec.run_bind, Op.run_ofExcept, hensure, hbound, haccepted, hjudged.exit,
        hjudged.cardId, hjudged.key]
    · refine .inr ⟨fun h => hbound ((ensureValidatorExit_iff hdeclared).mpr h.bound), ?_⟩
      cases hresult : ensureValidatorExit x.patchPanel n
          (exitFor validExit invalidExit (candidateAccepted w card.payload)) with
      | ok u => exact absurd hresult hbound
      | error e =>
        refine ⟨e, ?_⟩
        simp only [Exec.run_bind, Op.run_ofExcept, hjudged.exit, hensure, hresult]
  · rw [hraise] at hhandled
    exact .inr ⟨fun h => hnot h.hashable, unhashable, Exec.run_bind_error hhandled⟩

end Executor

/-! ## In memory -/

/-- The call returned and routed the card through the exit with the verdict. -/
def RoutesTo (w : World) (m : Machine InMemoryCardRuntime) (p : PatchPanel) (n : NodeDefinition)
    (request : ValidatorExecutionInput) (card : Card) (good : Bool) (exit : String) : Prop :=
  ∃ e m' reason payload binding, ((onMemory p).executeValidator request).run w m = (.ok e, m') ∧
    p.pipeBindings.get? exit = some binding ∧
    Validates w m m' request.cardId n.id good reason (some exit) (some payload)
      request.idempotencyKey card (some (exit, binding.bucket)) e

section Memory
variable {w : World} {m : Machine InMemoryCardRuntime} {p : PatchPanel} {n : NodeDefinition}
  {validExit invalidExit : String} {request : ValidatorExecutionInput} {card : Card}

theorem run_validateCard_routed {a : ValidationCall} {c : Card} {pipe bucket node : String}
    (hkey : m.store.cached a.key = none) (hcard : m.store.cards.get? a.cardId = some c)
    (hpanel : m.store.patchPanels.get? (beforeLastColon c.workflowVersion) = some p)
    (hpipe : truthyStr a.outputPipe = some pipe)
    (hresolves : resolvePipeBucket p pipe .output = .ok (bucket, node)) :
    ∃ e m', (a.runOn InMemoryCardRuntime.runtime).run w m = (.ok e, m') := by
  have hroute : (InMemoryCardRuntime.validationRoute c a.outputPipe).run w m =
      (.ok (some (pipe, bucket)), m) := by
    simp only [InMemoryCardRuntime.validationRoute, hpipe, InMemoryCardRuntime.getPatchPanelForCard,
      Exec.run_bind, InMemoryCardRuntime.run_getPatchPanel, hpanel, Op.run_ofExcept, hresolves,
      Exec.run_pure]
  change ∃ e m', (InMemoryCardRuntime.validateCard a.cardId a.validatorId a.accepted a.reason
    a.outputPipe a.payload a.key).run w m = (.ok e, m')
  rw [InMemoryCardRuntime.validateCard, InMemoryCardRuntime.run_idempotent, hkey]
  simp only [Exec.run_bind, InMemoryCardRuntime.run_getCard, hcard, hroute]
  exact ⟨_, _, rfl⟩

/-- An exit that passes the check of the executor resolves to its bucket. -/
theorem resolves_of_bound {exit : String} {binding : PipeBinding}
    (hexit : exit ∈ n.outputPipes) (hn : n ∈ p.nodes)
    (hget : p.pipeBindings.get? exit = some binding)
    (hdirection : binding.direction = some .output) :
    ∃ id, resolvePipeBucket p exit .output = .ok (binding.bucket, id) := by
  cases htruthy : truthyStr binding.node with
  | some id =>
    refine ⟨id, resolvePipeBucket_of hget ?_ ?_⟩
    · intro d' hd'
      exact Option.some.inj (hd'.symm.trans hdirection)
    · rw [htruthy]
  | none =>
    have hfound : (p.nodes.find? fun n => exit ∈ n.pipes .output).isSome = true :=
      List.find?_isSome.mpr ⟨n, hn, decide_eq_true hexit⟩
    obtain ⟨owner, howner⟩ := Option.isSome_iff_exists.mp hfound
    refine ⟨owner.id, resolvePipeBucket_of hget ?_ ?_⟩
    · intro d' hd'
      exact Option.some.inj (hd'.symm.trans hdirection)
    · rw [htruthy]
      simp only [findNodeForPipe, howner]

theorem routesTo_iff (gate : TopologyGate w p n validExit invalidExit)
    (hid : request.validatorId = n.id) (hopen : decided request = false)
    (hkey : m.store.cached request.idempotencyKey = none)
    (hcard : m.store.cards.get? request.cardId = some card)
    (hpanel : m.store.patchPanels.get? (beforeLastColon card.workflowVersion) = some p)
    {good : Bool} {exit : String} (hgood : good = candidateAccepted w card.payload)
    (hexit : exit = exitFor validExit invalidExit good) :
    RoutesTo w m p n request card good exit ↔
      CanDecide w p n card.payload exit ∧ exit ≠ "" := by
  have hcases := executeValidator_topology (x := onMemory p) memory_looksUp gate hid hopen hcard
    hgood hexit
  constructor
  · rintro ⟨e, m', reason, payload, binding, hrun, hget, hvalidates⟩
    rcases hcases with ⟨hdecides, -⟩ | ⟨-, err, hraises⟩
    · refine ⟨hdecides, ?_⟩
      intro hempty
      have hrouted := hvalidates.routed.1
      rw [hempty] at hrouted
      cases hrouted
    · rw [hrun] at hraises
      cases hraises
  · rintro ⟨hdecides, hnamed⟩
    rcases hcases with ⟨-, reason, payload, hhands⟩ | ⟨hnot, -⟩
    · obtain ⟨binding, hget, -, hdirection⟩ := hdecides.bound
      have hdeclared : exit ∈ n.outputPipes := by
        subst hexit
        unfold exitFor
        split
        · exact gate.declared.1
        · exact gate.declared.2
      obtain ⟨id, hresolves⟩ := resolves_of_bound hdeclared gate.node hget hdirection
      have htruthy : truthyStr (some exit) = some exit := if_neg hnamed
      obtain ⟨e, m', hrun⟩ := run_validateCard_routed (w := w)
        (a := ⟨request.cardId, n.id, good, reason, some exit, some payload,
          request.idempotencyKey⟩) hkey hcard hpanel htruthy hresolves
      obtain ⟨c, route, hvalidates⟩ := validateCard_returns hrun hkey
      have hc : card = c := Option.some.inj (hcard.symm.trans hvalidates.card)
      subst hc
      have hroute : route = some (exit, binding.bucket) := by
        have hrouted := hvalidates.routed
        cases route with
        | none =>
          rw [RouteOk, htruthy] at hrouted
          cases hrouted
        | some r =>
          obtain ⟨pipe, destination⟩ := r
          obtain ⟨hpipe, q, id', hq, hres⟩ := hrouted
          rw [htruthy] at hpipe
          cases hpipe
          rw [hpanel] at hq
          cases hq
          rw [(resolvePipeBucket_cases hget hres).1]
      rw [hroute] at hvalidates
      exact ⟨e, m', reason, payload, binding, hhands.trans hrun, hget, hvalidates⟩
    · exact absurd hdecides hnot

end Memory

/-- A topology validator gives a verdict, whatever the candidate, exactly if the accept exits
of the candidate can be looked up and the exit is one that the executor takes: on any
runtime the verdict is handed over, and in memory the card is routed by it. -/
theorem topology_verdict_iff {w : World} {p : PatchPanel} {n : NodeDefinition}
    {validExit invalidExit : String} (gate : TopologyGate w p n validExit invalidExit)
    {request : ValidatorExecutionInput} (hid : request.validatorId = n.id)
    (hopen : decided request = false) (card : Card) {good : Bool} {exit : String}
    (hgood : good = candidateAccepted w card.payload)
    (hexit : exit = exitFor validExit invalidExit good) :
    (∀ (σ : Type) (x : NodeExecutor σ) (cards : σ → Dict Uuid Card) (s : Machine σ),
      x.patchPanel = p → LooksUp x.runtime cards →
      (cards s.store).get? request.cardId = some card →
        (CanDecide w p n card.payload exit ∧ HandsOver x w s n request good exit) ∨
          (¬ CanDecide w p n card.payload exit ∧
            ∃ e, (x.executeValidator request).run w s = (.error e, s))) ∧
    ∀ m : Machine InMemoryCardRuntime, m.store.cached request.idempotencyKey = none →
      m.store.cards.get? request.cardId = some card →
      m.store.patchPanels.get? (beforeLastColon card.workflowVersion) = some p →
        (RoutesTo w m p n request card good exit ↔
          CanDecide w p n card.payload exit ∧ exit ≠ "") := by
  constructor
  · rintro σ x cards s rfl hx hcard
    exact executeValidator_topology hx gate hid hopen hcard hgood hexit
  · intro m hkey hcard hpanel
    exact routesTo_iff gate hid hopen hkey hcard hpanel hgood hexit

/-! The shipped approval workflow, with a proposal in front of its validator. -/

section Shipped

theorem approvalGate : TopologyGate .simple systemApproval topologicalValidator "topology_valid"
    "topology_invalid" where
  accepted := systemApproval_accepted
  node := .tail _ (.head _)
  validator := rfl
  handler := rfl
  valid := rfl
  invalid := rfl
  declared := ⟨.head _, .tail _ (.head _)⟩

/-- A proposal whose validator lists an accept exit inside a list. -/
def nestedExitCandidate : JsonObj :=
  [("id", .str "orders"), ("version", .str "1"), ("buckets", .list []), ("edges", .list []),
    ("nodes", .list [.obj [("id", .str "check"), ("type", .str "validator"),
      ("validator_kind", .str "routing"),
      ("config", .obj [("accept_exits", .list [Json.ofStrings ["check_ok"]])])]])]

def proposedPayload (candidate : JsonObj) : JsonObj := [("candidate_definition", .obj candidate)]

def proposedMachine (candidate : JsonObj) : Machine InMemoryCardRuntime :=
  runCalls .simple [.registerPatchPanel systemApproval,
    .createCard "system_pp_approval" (proposedPayload candidate) none none]

def proposedCard (candidate : JsonObj) : Card :=
  ⟨⟨0⟩, "system_pp_approval:1.0.0", "topology_proposals", proposedPayload candidate, [], 0⟩

def openRequest : ValidatorExecutionInput :=
  ⟨⟨0⟩, "topological_validator", none, none, none, [], none⟩

theorem proposed (candidate : JsonObj) :
    (proposedMachine candidate).store.cards.get? ⟨0⟩ = some (proposedCard candidate) ∧
      (proposedMachine candidate).store.patchPanels.get? (beforeLastColon
        (proposedCard candidate).workflowVersion) = some systemApproval := by
  have hid : beforeLastColon "system_pp_approval:1.0.0" = "system_pp_approval" := by
    decide +kernel
  refine ⟨rfl, ?_⟩
  have hpanel : (proposedMachine candidate).store.patchPanels.get? "system_pp_approval" =
      some systemApproval := rfl
  rw [← hid] at hpanel
  exact hpanel

theorem nestedExit_unhashable : ¬ HashableCandidate .simple (proposedPayload nestedExitCandidate) := by
  intro h
  obtain ⟨candidate, hparse, hnodes⟩ : ∃ candidate,
      parseCandidate .simple (proposedPayload nestedExitCandidate) = .ok candidate ∧
        candidate.nodes = [⟨"check", .validator, some "routing", none, [], [], none,
          [("accept_exits", .list [Json.ofStrings ["check_ok"]])]⟩] := ⟨_, rfl, rfl⟩
  have hexits := h candidate hparse
  rw [hnodes] at hexits
  have hexit := hexits _ (.head _) rfl rfl _ rfl _ (.head _)
  cases hexit

/-- In a reachable state a proposal stays where it is, without a verdict. -/
theorem proposal_without_verdict :
    ¬ ∀ (w : World) (calls : List RuntimeCall) (p : PatchPanel) (n : NodeDefinition)
      (validExit invalidExit : String) (request : ValidatorExecutionInput) (card : Card),
      TopologyGate w p n validExit invalidExit → request.validatorId = n.id →
      decided request = false → (runCalls w calls).store.cached request.idempotencyKey = none →
      (runCalls w calls).store.cards.get? request.cardId = some card →
      (runCalls w calls).store.patchPanels.get? (beforeLastColon card.workflowVersion) = some p →
        RoutesTo w (runCalls w calls) p n request card (candidateAccepted w card.payload)
          (exitFor validExit invalidExit (candidateAccepted w card.payload)) := by
  intro h
  obtain ⟨hcard, hpanel⟩ := proposed nestedExitCandidate
  have hroutes := h .simple [.registerPatchPanel systemApproval,
    .createCard "system_pp_approval" (proposedPayload nestedExitCandidate) none none] systemApproval
    topologicalValidator _ _ openRequest (proposedCard nestedExitCandidate) approvalGate rfl rfl rfl
    hcard hpanel
  have hdecides := (routesTo_iff approvalGate rfl rfl rfl hcard hpanel rfl rfl).mp hroutes
  exact nestedExit_unhashable hdecides.1.hashable

theorem topology_verdict_iff_proposed :
    (∀ (σ : Type) (x : NodeExecutor σ) (cards : σ → Dict Uuid Card) (s : Machine σ),
      x.patchPanel = systemApproval → LooksUp x.runtime cards →
      (cards s.store).get? ⟨0⟩ = some (proposedCard nestedExitCandidate) →
        (CanDecide .simple systemApproval topologicalValidator (proposedPayload nestedExitCandidate)
            "topology_invalid" ∧
          HandsOver x .simple s topologicalValidator openRequest false "topology_invalid") ∨
        (¬ CanDecide .simple systemApproval topologicalValidator
            (proposedPayload nestedExitCandidate) "topology_invalid" ∧
          ∃ e, (x.executeValidator openRequest).run .simple s = (.error e, s))) ∧
    (RoutesTo .simple (proposedMachine nestedExitCandidate) systemApproval topologicalValidator
        openRequest (proposedCard nestedExitCandidate) false "topology_invalid" ↔
      CanDecide .simple systemApproval topologicalValidator (proposedPayload nestedExitCandidate)
        "topology_invalid" ∧ "topology_invalid" ≠ "") := by
  have hrejected : false = candidateAccepted .simple (proposedPayload nestedExitCandidate) := rfl
  obtain ⟨hany, hmemory⟩ := @topology_verdict_iff _ _ _ _ _ approvalGate openRequest rfl rfl
    (proposedCard nestedExitCandidate) _ _ hrejected rfl
  refine ⟨hany, ?_⟩
  exact hmemory _ rfl (proposed nestedExitCandidate).1 (proposed nestedExitCandidate).2

end Shipped

end NodeExecutor

end GhostMesh
