import GhostMesh.Api.App
import GhostMesh.Nodes.Executor
import GhostMesh.Runtime.Calls

/-!
# What one node execution can do

Source, worker and validator nodes act on the runtime alone, so on a store that
contains a runtime they are the lifted operations. The inversion lemmas say which
runtime operations each node performed, and which components a sink can write.
-/

set_option autoImplicit false

namespace GhostMesh

open InMemoryCardRuntime Op
open Exec (bind_cases bind_ok bind_same)

namespace NodeExecutor

section Lift
variable {σ τ : Type} (c : Component τ σ) (R : CardRuntime σ) (p : PatchPanel)

/-- An executor that has been given the runtime alone. -/
def bare (R : CardRuntime σ) (p : PatchPanel) : NodeExecutor σ := ⟨p, R, none, none⟩

variable {x : NodeExecutor τ} (hx : x.runtime = R.on c)
include hx

theorem on_executeSource (sourceId : String) (payload : JsonObj) (metadata : Option JsonObj)
    (key : Option String) : x.executeSource sourceId payload metadata key =
      Op.on c ((bare R x.patchPanel).executeSource sourceId payload metadata key) := by
  simp only [executeSource, hx, CardRuntime.on, bare, Op.on_bind, Op.on_ofExcept, Op.on_pure]

theorem on_executeWorker (request : WorkerExecutionInput) : x.executeWorker request =
      Op.on c ((bare R x.patchPanel).executeWorker request) := by
  simp only [executeWorker, hx, CardRuntime.on, bare, Op.on_bind, Op.on_ofExcept, Op.on_ensure]
  refine congrArg _ (funext fun n => congrArg _ (funext fun lease => congrArg _ (funext fun refs =>
    congrArg _ (funext fun _ => congrArg _ (funext fun history => ?_)))))
  cases history.getLast? with
  | none => exact (Op.on_raise c _).symm
  | some event =>
    cases x.patchPanel.pipeBindings.get? request.outputPipe with
    | none => exact (Op.on_raise c _).symm
    | some binding => simp only [Op.on_bind, Op.on_ensure, Op.on_pure]

theorem on_topologyValidationRequest (n : NodeDefinition) (request : ValidatorExecutionInput) :
    x.topologyValidationRequest n request =
      Op.on c ((bare R x.patchPanel).topologyValidationRequest n request) := by
  unfold topologyValidationRequest
  split
  · exact (Op.on_pure c _).symm
  · simp only [hx, CardRuntime.on, bare, Op.on_bind, Op.on_ofExcept, Op.on_world]

theorem on_participantOnboardingRequest (n : NodeDefinition)
    (request : ValidatorExecutionInput) : x.participantOnboardingRequest n request =
      Op.on c ((bare R x.patchPanel).participantOnboardingRequest n request) := by
  unfold participantOnboardingRequest
  split
  · exact (Op.on_pure c _).symm
  · simp only [hx, CardRuntime.on, bare, Op.on_bind, Op.on_ofExcept, Op.on_world, Op.on_now,
      Op.on_pure]

theorem on_handledRequest (n : NodeDefinition) (request : ValidatorExecutionInput) :
    x.handledRequest n request = Op.on c ((bare R x.patchPanel).handledRequest n request) := by
  simp only [handledRequest, on_topologyValidationRequest c R hx,
    on_participantOnboardingRequest c R hx]
  split
  · rw [Op.on_bind]
    split <;> simp only [Op.on_pure]
  · split <;> simp only [Op.on_bind, Op.on_pure]

theorem on_executeValidator (request : ValidatorExecutionInput) : x.executeValidator request =
      Op.on c ((bare R x.patchPanel).executeValidator request) := by
  simp only [executeValidator, Op.on_bind, Op.on_ofExcept, on_handledRequest c R hx]
  simp only [hx, CardRuntime.on, bare, ensureExit]

end Lift

/-! ## What a node does to the runtime -/

abbrev onMemory (p : PatchPanel) : NodeExecutor InMemoryCardRuntime :=
  bare InMemoryCardRuntime.runtime p

theorem node_id {p : PatchPanel} {nodeId : String} {type : NodeType} {n : NodeDefinition}
    (h : node p nodeId type = .ok n) : n.id = nodeId := by
  unfold node at h
  split at h
  · cases h
  · rename_i n' hfind
    split at h
    · cases h
      simpa using List.find?_some hfind
    · cases h

/-- What either handler does with an undecided request. -/
def handledWith (judge : String → String → Card → Except PyErr ValidatorExecutionInput)
    (n : NodeDefinition) (card : Option Card) (request : ValidatorExecutionInput) :
    Except PyErr ValidatorExecutionInput :=
  match card with
  | none => .error (.notFound s!"card '{request.cardId.str}' does not exist")
  | some card => do
    let validExit ← configuredExit n "valid_exit"
    let invalidExit ← configuredExit n "invalid_exit"
    judge validExit invalidExit card

/-- The request as the handlers leave it, as a function of the clock and the stored
card. -/
def handled (w : World) (t : Instant) (n : NodeDefinition) (card : Option Card)
    (request : ValidatorExecutionInput) : Except PyErr ValidatorExecutionInput :=
  if decided request then .ok request
  else if hasHandler n "patch_panel_topology" then
    handledWith (fun v i c => topologyVerdict w v i request c) n card request
  else if hasHandler n "participant_onboarding_compliance" then
    handledWith (fun v i c => .ok (onboardingVerdict w t v i request c)) n card request
  else .ok request

/-- What a validator node hands to the runtime: acceptance, and the handled request. -/
def verdict (w : World) (t : Instant) (p : PatchPanel) (card : Option Card)
    (request : ValidatorExecutionInput) : Except PyErr (Bool × ValidatorExecutionInput) := do
  let n ← node p request.validatorId .validator
  let request ← handled w t n card request
  ensureExit (onMemory p) n request.selectedExit
  let accepted ← validatorAccepted n request
  return (accepted, request)

section Cases
variable {w : World} {m m' : Machine InMemoryCardRuntime} {p : PatchPanel}

theorem executeSource_cases {sourceId : String} {payload : JsonObj} {metadata : Option JsonObj}
    {key : Option String} {r : Except PyErr Card}
    (h : ((onMemory p).executeSource sourceId payload metadata key).run w m = (r, m')) :
    ∃ s, (s = m ∨ ∃ c e, Creates w m s p.id payload (some (metadata.getD [])) key c e) ∧
      (m' = s ∨ ∃ cardId e, Records s m' cardId "source_executed" (some sourceId)
        (some [("source_id", .str sourceId)]) (suffixedKey key ":source") e) := by
  simp only [executeSource, bare] at h
  rcases ofExcept_bind h with rfl | ⟨n, hn, h⟩
  · exact ⟨m', .inl rfl, .inl rfl⟩
  rw [node_id hn] at h
  rcases bind_cases h with ⟨e, h1, -⟩ | ⟨card, s, h1, h⟩
  · rcases createCard_cases h1 with rfl | ⟨c, e', hc, -⟩
    · exact ⟨m', .inl rfl, .inl rfl⟩
    · cases hc
  · refine ⟨s, (createCard_cases h1).imp id ?_, ?_⟩
    · rintro ⟨c, e, -, hcreates⟩
      exact ⟨c, e, hcreates⟩
    · rcases bind_cases h with ⟨e, h2, -⟩ | ⟨event, s2, h2, h⟩
      · rcases recordEvent_cases h2 with rfl | ⟨e', he, -⟩
        · exact .inl rfl
        · cases he
      · cases h
        rcases recordEvent_cases h2 with rfl | ⟨e', -, hrecords⟩
        · exact .inl rfl
        · exact .inr ⟨card.id, e', hrecords⟩

/-- The submission of a worker node on a lease, whether it goes through or not. -/
def Submitted (w : World) (m m' : Machine InMemoryCardRuntime) (leaseId : Uuid)
    (request : WorkerExecutionInput) : Prop :=
  SameStore m m' ∨ ∃ l c destination t e, Submits w m m' leaseId request.outputPipe
    request.artifactRefs (suffixedKey request.idempotencyKey ":submit") l c destination t e

theorem Submitted.of_run {leaseId : Uuid} {request : WorkerExecutionInput}
    {r : Except PyErr (List ArtifactReference)}
    (h : (submitArtifact leaseId request.outputPipe request.artifactRefs
      (suffixedKey request.idempotencyKey ":submit")).run w m = (r, m')) :
    Submitted w m m' leaseId request := by
  rcases submitArtifact_cases h with hsame | ⟨l, c, d, t, e, -, hsubmits⟩
  · exact .inl hsame
  · exact .inr ⟨l, c, d, t, e, hsubmits⟩

theorem executeWorker_cases {request : WorkerExecutionInput}
    {r : Except PyErr (List ArtifactReference)}
    (h : ((onMemory p).executeWorker request).run w m = (r, m')) :
    m' = m ∨ ∃ n, nodeForPipe p request.inputPipe .worker = .ok n ∧ ∃ s,
      ((SameStore m s ∧ (m' = s ∨ ∃ v l, v.lease? = some l ∧
          m.store.cached (suffixedKey request.idempotencyKey ":claim") = some v ∧
          Submitted w s m' l.id request)) ∨
        ∃ l e, Claims w m s request.inputPipe request.workerId
          (suffixedKey request.idempotencyKey ":claim") l e ∧ Submitted w s m' l.id request) := by
  simp only [executeWorker, bare] at h
  rcases ofExcept_bind h with rfl | ⟨n, hn, h⟩
  · exact .inl rfl
  refine .inr ⟨n, hn, ?_⟩
  rcases bind_cases h with ⟨e, h1, -⟩ | ⟨l, s, h1, h⟩
  · rcases claimCard_cases h1 with ⟨hsame, -⟩ | ⟨l, e', hl, -⟩
    · exact ⟨m', .inl ⟨hsame, .inl rfl⟩⟩
    · cases hl
  have hsubmitted : Submitted w s m' l.id request := by
    rcases bind_cases h with ⟨e, h2, -⟩ | ⟨refs, s2, h2, h⟩
    · exact Submitted.of_run h2
    · have hsame : m' = s2 := by
        rcases ensure_bind h with rfl | ⟨-, h⟩
        · rfl
        rcases bind_cases h with ⟨e, h3, -⟩ | ⟨history, s3, h3, h⟩
        · exact cardHistory_same h3
        rw [cardHistory_same h3] at h
        cases hlast : history.getLast? with
        | none =>
          rw [hlast] at h
          exact (Prod.mk.inj h).2.symm
        | some event =>
          simp only [hlast] at h
          split at h
          · exact (Prod.mk.inj h).2.symm
          · rcases ensure_bind h with rfl | ⟨-, h⟩
            · rfl
            rcases ensure_bind h with rfl | ⟨-, h⟩
            · rfl
            cases h
            rfl
      rw [hsame]
      exact Submitted.of_run h2
  rcases claimCard_cases h1 with ⟨hsame, hcached⟩ | ⟨l', e', hl, hclaims⟩
  · obtain ⟨v, hv, hlease⟩ := hcached l rfl
    exact ⟨s, .inl ⟨hsame, .inr ⟨v, l, hlease, hv, hsubmitted⟩⟩⟩
  · cases hl
    exact ⟨s, .inr ⟨l, e', hclaims, hsubmitted⟩⟩

theorem topologyVerdict_decided {validExit invalidExit : String}
    {request request' : ValidatorExecutionInput} {card : Card}
    (h : topologyVerdict w validExit invalidExit request card = .ok request') :
    decided request' = true := by
  simp only [topologyVerdict] at h
  split at h
  · cases h
    rfl
  · split at h
    · cases h
      rfl
    · cases h

theorem handledWith_decided {n : NodeDefinition} {card : Option Card}
    {request request' : ValidatorExecutionInput}
    (h : handledWith (fun v i c => topologyVerdict w v i request c) n card request =
      .ok request') : decided request' = true := by
  unfold handledWith at h
  cases card with
  | none => cases h
  | some card =>
    cases hv : configuredExit n "valid_exit" with
    | error e =>
      rw [hv] at h
      cases h
    | ok v =>
      cases hi : configuredExit n "invalid_exit" with
      | error e =>
        rw [hv, hi] at h
        cases h
      | ok i =>
        rw [hv, hi] at h
        exact topologyVerdict_decided h

/-- The handlers decide; the card and the key stay those of the request. -/
theorem handled_keeps {t : Instant} {n : NodeDefinition} {card : Option Card}
    {request request' : ValidatorExecutionInput}
    (h : handled w t n card request = .ok request') :
    request'.cardId = request.cardId ∧ request'.idempotencyKey = request.idempotencyKey := by
  have hwith : ∀ judge, handledWith judge n card request = .ok request' →
      (∀ v i c q, judge v i c = .ok q →
        q.cardId = request.cardId ∧ q.idempotencyKey = request.idempotencyKey) →
      request'.cardId = request.cardId ∧ request'.idempotencyKey = request.idempotencyKey := by
    intro judge hj hkeep
    unfold handledWith at hj
    cases card with
    | none => cases hj
    | some card =>
      cases hv : configuredExit n "valid_exit" <;> cases hi : configuredExit n "invalid_exit" <;>
        rw [hv, hi] at hj <;> try cases hj
      exact hkeep _ _ _ _ hj
  unfold handled at h
  split at h
  · cases h
    exact ⟨rfl, rfl⟩
  split at h
  · refine hwith _ h ?_
    intro v i c q hq
    simp only [topologyVerdict] at hq
    split at hq
    · cases hq
      exact ⟨rfl, rfl⟩
    · split at hq <;> cases hq
      exact ⟨rfl, rfl⟩
  split at h
  · refine hwith _ h ?_
    intro v i c q hq
    cases hq
    unfold onboardingVerdict
    split <;> exact ⟨rfl, rfl⟩
  · cases h
    exact ⟨rfl, rfl⟩

/-- The runtime finds a card in a table of its store, and does nothing else for it. -/
def LooksUp {σ : Type} (R : CardRuntime σ) (cards : σ → Dict Uuid Card) : Prop :=
  ∀ id (w : World) (m : Machine σ), (R.getCard id).run w m =
    (match (cards m.store).get? id with
      | some c => .ok c
      | none => .error (.notFound s!"card '{id.str}' does not exist"), m)

theorem memory_looksUp : LooksUp InMemoryCardRuntime.runtime (·.cards) :=
  fun id w m => run_getCard w m id

section Handlers
variable {σ : Type} {x : NodeExecutor σ} {cards : σ → Dict Uuid Card} {s s' : Machine σ}

theorem topologyValidationRequest_cases (hx : LooksUp x.runtime cards) {n : NodeDefinition}
    {request : ValidatorExecutionInput} {r : Except PyErr ValidatorExecutionInput}
    (hopen : decided request = false)
    (h : (x.topologyValidationRequest n request).run w s = (r, s')) :
    s' = s ∧ r = handledWith (fun v i c => topologyVerdict w v i request c) n
      ((cards s.store).get? request.cardId) request := by
  simp only [topologyValidationRequest, hopen, Bool.false_eq_true, if_false, Exec.run_bind,
    hx request.cardId w s, Op.run_ofExcept, Op.run_world] at h
  cases hc : (cards s.store).get? request.cardId with
  | none =>
    rw [hc] at h
    cases h
    exact ⟨rfl, rfl⟩
  | some card =>
    rw [hc] at h
    simp only [handledWith]
    cases hv : configuredExit n "valid_exit" <;> cases hi : configuredExit n "invalid_exit" <;>
      simp only [hv, hi] at h <;> cases h <;> exact ⟨rfl, rfl⟩

theorem participantOnboardingRequest_cases (hx : LooksUp x.runtime cards) {n : NodeDefinition}
    {request : ValidatorExecutionInput} {r : Except PyErr ValidatorExecutionInput}
    (hopen : decided request = false)
    (h : (x.participantOnboardingRequest n request).run w s = (r, s')) :
    SameStore s s' ∧ r = handledWith
      (fun v i c => .ok (onboardingVerdict w (w.clock s.ticks) v i request c)) n
      ((cards s.store).get? request.cardId) request := by
  simp only [participantOnboardingRequest, hopen, Bool.false_eq_true, if_false, Exec.run_bind,
    hx request.cardId w s, Op.run_ofExcept, Op.run_world, Op.run_now, Exec.run_pure] at h
  cases hc : (cards s.store).get? request.cardId with
  | none =>
    rw [hc] at h
    cases h
    exact ⟨.refl _, rfl⟩
  | some card =>
    rw [hc] at h
    simp only [handledWith]
    cases hv : configuredExit n "valid_exit" <;> cases hi : configuredExit n "invalid_exit" <;>
      simp only [hv, hi] at h <;> cases h <;>
      exact ⟨⟨rfl, by simp, by simp⟩, rfl⟩

/-- Both handlers leave a decided request alone. -/
theorem handlers_decided (x : NodeExecutor σ) (n : NodeDefinition)
    {request : ValidatorExecutionInput} (h : decided request = true) :
    x.topologyValidationRequest n request = pure request ∧
      x.participantOnboardingRequest n request = pure request :=
  ⟨if_pos h, if_pos h⟩

theorem handledRequest_cases (hx : LooksUp x.runtime cards) {n : NodeDefinition}
    {request : ValidatorExecutionInput} {r : Except PyErr ValidatorExecutionInput}
    (h : (x.handledRequest n request).run w s = (r, s')) :
    SameStore s s' ∧
      r = handled w (w.clock s.ticks) n ((cards s.store).get? request.cardId) request := by
  simp only [handledRequest] at h
  unfold handled
  by_cases htopology : hasHandler n "patch_panel_topology" = true
  · rw [if_pos htopology] at h ⊢
    cases hdecided : decided request with
    | true =>
      rw [(handlers_decided x n hdecided).1, Exec.run_bind_ok (Exec.run_pure _ _ _),
        (handlers_decided x n hdecided).2, ite_self] at h
      cases h
      exact ⟨.refl _, rfl⟩
    | false =>
      rw [if_neg Bool.false_ne_true]
      rcases bind_cases h with ⟨e, h1, rfl⟩ | ⟨request', m1, h1, h2⟩
      · obtain ⟨rfl, hr⟩ := topologyValidationRequest_cases hx hdecided h1
        exact ⟨.refl _, hr⟩
      · obtain ⟨hm, hr⟩ := topologyValidationRequest_cases hx hdecided h1
        have hdone : decided request' = true := handledWith_decided hr.symm
        rw [(handlers_decided x n hdone).2, ite_self] at h2
        cases h2
        rw [hm]
        exact ⟨.refl _, hr⟩
  · rw [if_neg htopology, Exec.run_bind_ok (Exec.run_pure _ _ _)] at h
    rw [if_neg htopology]
    by_cases honboarding : hasHandler n "participant_onboarding_compliance" = true
    · rw [if_pos honboarding] at h ⊢
      cases hdecided : decided request with
      | true =>
        rw [(handlers_decided x n hdecided).2] at h
        cases h
        exact ⟨.refl _, rfl⟩
      | false => exact participantOnboardingRequest_cases hx hdecided h
    · rw [if_neg honboarding] at h ⊢
      cases h
      exact ⟨.refl _, (ite_self _).symm⟩

/-- A validator node that returns has made one validation, of its verdict. -/
theorem executeValidator_returns (hx : LooksUp x.runtime cards)
    {request : ValidatorExecutionInput} {e : CardEvent}
    (h : (x.executeValidator request).run w s = (.ok e, s')) : ∃ accepted request' t,
      verdict w (w.clock s.ticks) x.patchPanel ((cards s.store).get? request.cardId) request =
        .ok (accepted, request') ∧ SameStore s t ∧
      (x.runtime.validateCard request.cardId request.validatorId accepted request'.reason
        request'.selectedExit (some request'.payload) request.idempotencyKey).run w t =
          (.ok e, s') := by
  simp only [executeValidator] at h
  obtain ⟨n, s1, h1, h⟩ := bind_ok h
  obtain ⟨hn, hs1⟩ := Prod.mk.inj h1
  rw [← hs1] at h
  obtain ⟨request', t, h2, h⟩ := bind_ok h
  obtain ⟨hsame, hhandled⟩ := handledRequest_cases hx h2
  obtain ⟨hcard, hkey⟩ := handled_keeps hhandled.symm
  obtain ⟨_, t1, h3, h⟩ := bind_ok h
  obtain ⟨hexit, ht1⟩ := Prod.mk.inj h3
  rw [← ht1] at h
  obtain ⟨accepted, t2, h4, h⟩ := bind_ok h
  obtain ⟨haccepted, ht2⟩ := Prod.mk.inj h4
  rw [← ht2, node_id hn, hcard, hkey] at h
  have hnode : node x.patchPanel request.validatorId .validator = .ok n := hn
  have hensure : ensureExit (onMemory x.patchPanel) n request'.selectedExit = .ok () := hexit
  refine ⟨accepted, request', t, ?_, hsame, h⟩
  simp only [verdict, bind, Except.bind, hnode, ← hhandled, hensure, haccepted, pure, Except.pure]

end Handlers

theorem executeValidator_cases {request : ValidatorExecutionInput} {r : Except PyErr CardEvent}
    (h : ((onMemory p).executeValidator request).run w m = (r, m')) :
    SameStore m m' ∨ ∃ accepted request' s c route e,
      verdict w (w.clock m.ticks) p (m.store.cards.get? request.cardId) request =
        .ok (accepted, request') ∧ SameStore m s ∧
      Validates w s m' request.cardId request.validatorId accepted request'.reason
        request'.selectedExit (some request'.payload) request.idempotencyKey c route e := by
  simp only [executeValidator] at h
  rcases ofExcept_bind h with rfl | ⟨n, hn, h⟩
  · exact .inl (.refl _)
  rcases bind_cases h with ⟨e, h1, -⟩ | ⟨request', s, h1, h⟩
  · exact .inl (handledRequest_cases memory_looksUp h1).1
  obtain ⟨hsame, hhandled⟩ := handledRequest_cases memory_looksUp h1
  obtain ⟨hcard, hkey⟩ := handled_keeps hhandled.symm
  rcases ofExcept_bind h with rfl | ⟨_, hexit, h⟩
  · exact .inl hsame
  rcases ofExcept_bind h with rfl | ⟨accepted, haccepted, h⟩
  · exact .inl hsame
  rw [node_id hn, hcard, hkey] at h
  rcases validateCard_cases h with rfl | ⟨c, route, e, -, hvalidates⟩
  · exact .inl hsame
  refine .inr ⟨accepted, request', s, c, route, e, ?_, hsame, hvalidates⟩
  have hnode : node p request.validatorId .validator = .ok n := hn
  simp only [verdict, bind, Except.bind, hnode, ← hhandled, hexit, haccepted, pure, Except.pure]

end Cases

/-! ## What a sink does to the application -/

section Sinks
variable {w : World} {m m' : Machine App}

/-- An operation of the authorization repository that does not turn the counters back. -/
theorem authorization_via {α : Type} {x : Op InMemoryAuthorizationRepository α}
    (hx : ∀ m, m.ticks ≤ (x.run w m).2.ticks ∧ m.draws ≤ (x.run w m).2.draws) :
    Exec.Within (Via App.authorizationStore) w (Op.on App.authorizationStore x) := Via.on hx

theorem ensureBuiltinRoleAssignment_via (participantId : String) (role : RoleName) (scope : Scope)
    (assignedBy : Option String) : Exec.Within (Via App.authorizationStore) w
      (ensureBuiltinRoleAssignment App.authorizationRepository participantId role scope
        assignedBy) := by
  refine ensureBuiltinRoleAssignment_within ?_ Via.trans ?_ ?_ ?_ ?_
  · intro m m' h
    exact ⟨by rw [h.store, App.authorizationStore.put_get], h.ticks, h.draws⟩
  · exact authorization_via
      (x := InMemoryAuthorizationRepository.listRoleAssignments participantId)
      fun _ => ⟨Nat.le_succ _, Nat.le_refl _⟩
  · intro a
    exact authorization_via (x := InMemoryAuthorizationRepository.addRoleAssignment a)
      fun _ => ⟨Nat.le_refl _, Nat.le_refl _⟩
  · exact authorization_via
      (x := InMemoryAuthorizationRepository.listPermissionGrants participantId)
      fun _ => ⟨Nat.le_succ _, Nat.le_refl _⟩
  · intro g
    exact authorization_via (x := InMemoryAuthorizationRepository.addPermissionGrant g)
      fun _ => ⟨Nat.le_refl _, Nat.le_refl _⟩

/-- Everything that the configured branch of a sink can do before the sink event is
recorded. -/
inductive SinkEffect (w : World) (x : NodeExecutor App) (n : NodeDefinition) (card : Card)
    (m m' : Machine App) (r : Except PyErr (Option String)) : Prop where
  | passes (same : m' = m) (plain : (∃ e, r = .error e) ∨
      (n.id ≠ "authority_provisioner_sink" ∧ isRegistryPublication n = false))
  | provisions (given : x.authorizationRepository ≠ none)
      (sink : n.id = "authority_provisioner_sink")
      (approved : provisioningApproved (m.store.runtime.history card.id) = true)
      (writes : Via App.authorizationStore m m')
  | publishes (given : x.registry ≠ none) (plain : n.id ≠ "authority_provisioner_sink")
      (sink : isRegistryPublication n = true)
      (approved : publicationApproved (m.store.runtime.history card.id) = true)
      (panel : InMemoryCardRuntime) (same : panel = m.store.runtime ∨ ∃ p report,
        PatchPanelValidator.validate w p = .ok report ∧ panel = m.store.runtime.putPanel p)
      (writes : Via App.registryStore { m with store := { m.store with runtime := panel } } m')

theorem getCard_run (cardId : Uuid) :
    (App.cardRuntime.getCard cardId).run w m =
      (match m.store.runtime.cards.get? cardId with
        | some c => .ok c
        | none => .error (.notFound s!"card '{cardId.str}' does not exist"), m) :=
  congrArg (fun r : Except PyErr Card × Machine InMemoryCardRuntime => (r.1, App.withRuntime m r.2))
    (run_getCard w (App.runtimeMachine m) cardId)

theorem getCard_bind {β : Type} {cardId : Uuid} {f : Card → Op App β} {r : Except PyErr β}
    (h : (App.cardRuntime.getCard cardId >>= f).run w m = (r, m')) :
    (m' = m ∧ ∃ e, r = .error e) ∨
      ∃ c, m.store.runtime.cards.get? cardId = some c ∧ (f c).run w m = (r, m') :=
  (Exec.bind_lookup (fun c hc => by rw [getCard_run, hc])
    (fun hc => ⟨_, by rw [getCard_run, hc]⟩) h).imp_left (And.imp_right And.right)

theorem cardHistory_run (cardId : Uuid) :
    (App.cardRuntime.cardHistory cardId).run w m =
      (match m.store.runtime.cards.get? cardId with
        | some _ => .ok (m.store.runtime.history cardId)
        | none => .error (.notFound s!"card '{cardId.str}' does not exist"), m) := by
  simp only [App.cardRuntime, CardRuntime.on, InMemoryCardRuntime.runtime,
    InMemoryCardRuntime.cardHistory, App.runtimeStore, Op.run_on, Exec.run_bind, run_getCard]
  cases m.store.runtime.cards.get? cardId <;> rfl

/-- The guards read the history and let the sink go on only with the approvals. -/
theorem guard_bind {α : Type} {card : Card} {approved : List CardEvent → Bool} {e : PyErr}
    {f : Unit → Op App α} {r : Except PyErr α}
    (h : ((App.cardRuntime.cardHistory card.id >>= fun history =>
      Op.ensure (approved history) e) >>= f).run w m = (r, m')) :
    (m' = m ∧ ∃ e, r = .error e) ∨
      approved (m.store.runtime.history card.id) = true ∧ (f ()).run w m = (r, m') := by
  rcases bind_cases h with ⟨e', h1, rfl⟩ | ⟨_, m1, h1, h⟩
  · rcases bind_same (cardHistory_run card.id) h1 with ⟨rfl, -⟩ | ⟨history, -, h2⟩
    · exact .inl ⟨rfl, e', rfl⟩
    · rw [Op.run_ensure] at h2
      exact .inl ⟨(Prod.mk.inj h2).2.symm, e', rfl⟩
  · rcases bind_same (cardHistory_run card.id) h1 with ⟨-, e', -, he⟩ | ⟨history, hv, h2⟩
    · cases he
    · rw [Op.run_ensure] at h2
      have hhistory : history = m.store.runtime.history card.id := by
        split at hv
        · exact (Except.ok.inj hv).symm
        · cases hv
      rw [← hhistory]
      cases happroved : approved history with
      | false =>
        rw [happroved] at h2
        cases h2
      | true =>
        rw [happroved] at h2
        cases h2
        exact .inr ⟨rfl, h⟩

theorem executeAuthorityProvisioningSink_cases {x : NodeExecutor App}
    (hx : x.runtime = App.cardRuntime)
    (hauthorization : x.authorizationRepository = none ∨
      x.authorizationRepository = some App.authorizationRepository)
    {card : Card} {externalReference : Option String} {r : Except PyErr (Option String)}
    (h : (x.executeAuthorityProvisioningSink card externalReference).run w m = (r, m')) :
    (m' = m ∧ ∃ e, r = .error e) ∨
      x.authorizationRepository ≠ none ∧
        provisioningApproved (m.store.runtime.history card.id) = true ∧
        Via App.authorizationStore m m' := by
  unfold executeAuthorityProvisioningSink at h
  rcases hauthorization with hauth | hauth <;> simp only [hauth] at h
  · cases h
    exact .inl ⟨rfl, _, rfl⟩
  · simp only [ensureAuthorityProvisioningHistory, hx] at h
    refine (guard_bind h).imp id fun ⟨happroved, h2⟩ => ⟨by simp [hauth], happroved, ?_⟩
    refine Via.of_run h2 ?_
    refine Via.bind Via.world fun _ => Via.bind Via.now fun _ => ?_
    refine Via.bind (Via.ofExcept _) fun p => ?_
    have hupsert : Exec.Within (Via App.authorizationStore) w
        (App.authorizationRepository.upsertParticipant p.participant) :=
      authorization_via (x := InMemoryAuthorizationRepository.upsertParticipant p.participant)
        fun _ => ⟨Nat.le_refl _, Nat.le_refl _⟩
    refine Via.bind hupsert fun _ => Via.bind (Via.forEach (fun a => ?_) _) fun _ => Via.pure _
    exact Via.bind (ensureBuiltinRoleAssignment_via _ _ _ _) fun _ => Via.pure _

theorem publishedEntry_via (n : NodeDefinition) (card : Card) (candidate : PatchPanel)
    (metadata : PatchPanelRegistryMetadata) : Exec.Within (Via App.registryStore) w
      (publishedEntry App.patchPanelRegistry n card candidate metadata) := by
  simp only [publishedEntry, App.patchPanelRegistry, PatchPanelRegistry.on,
    InMemoryPatchPanelRegistry.registry]
  refine Via.bind (Via.on fun _ => ⟨Nat.le_refl _, Nat.le_refl _⟩) fun entries => ?_
  split
  · exact Via.pure _
  · refine Via.bind ?_ fun entry => Via.on fun _ => ⟨Nat.le_refl _, Nat.le_refl _⟩
    exact Via.bind Via.uuid4 fun _ => Via.bind Via.now fun _ => Via.bind Via.now fun _ => Via.pure _

theorem appRegisterPatchPanel_cases {p : PatchPanel} {r : Except PyErr PatchPanel}
    (h : (App.cardRuntime.registerPatchPanel p).run w m = (r, m')) :
    ∃ panel, m' = { m with store := { m.store with runtime := panel } } ∧
      (panel = m.store.runtime ∨ ∃ p report,
        PatchPanelValidator.validate w p = .ok report ∧ panel = m.store.runtime.putPanel p) := by
  have hon : (Op.on App.runtimeStore (InMemoryCardRuntime.registerPatchPanel p)).run w m =
      (r, m') := h
  obtain ⟨s, hs, rfl⟩ := App.runtime_cases hon
  rcases registerPatchPanel_cases hs with rfl | ⟨report, hvalid, rfl⟩
  · exact ⟨_, rfl, .inl rfl⟩
  · exact ⟨_, rfl, .inr ⟨p, report, hvalid, rfl⟩⟩

theorem executeConfiguredSink_cases {x : NodeExecutor App} (hx : x.runtime = App.cardRuntime)
    (hregistry : x.registry = none ∨ x.registry = some App.patchPanelRegistry)
    (hauthorization : x.authorizationRepository = none ∨
      x.authorizationRepository = some App.authorizationRepository)
    {n : NodeDefinition} {card : Card} {externalReference : Option String}
    {r : Except PyErr (Option String)}
    (h : (x.executeConfiguredSink n card externalReference).run w m = (r, m')) :
    SinkEffect w x n card m m' r := by
  unfold executeConfiguredSink at h
  by_cases hsink : n.id = "authority_provisioner_sink"
  · rw [if_pos hsink] at h
    rcases executeAuthorityProvisioningSink_cases hx hauthorization h with
      ⟨rfl, hr⟩ | ⟨hgiven, happroved, hvia⟩
    · exact .passes rfl (.inl hr)
    · exact .provisions hgiven hsink happroved hvia
  rw [if_neg hsink] at h
  cases hpub : isRegistryPublication n with
  | false =>
    rw [hpub] at h
    cases h
    exact .passes rfl (.inr ⟨hsink, hpub⟩)
  | true =>
    rw [if_pos hpub] at h
    unfold executeRegistryPublication at h
    rcases hregistry with hreg | hreg <;> simp only [hreg] at h
    · cases h
      exact .passes rfl (.inl ⟨_, rfl⟩)
    have hgiven : x.registry ≠ none := by simp [hreg]
    simp only [ensureRegistryPublicationHistory, hx] at h
    rcases guard_bind h with ⟨rfl, hr⟩ | ⟨happroved, h⟩
    · exact .passes rfl (.inl hr)
    rw [Exec.run_bind_ok (Op.run_world w m)] at h
    rcases bind_same (Op.run_ofExcept _ w m) h with ⟨rfl, e, -, rfl⟩ | ⟨candidate, -, h⟩
    · exact .passes rfl (.inl ⟨e, rfl⟩)
    rcases bind_same (Op.run_ofExcept _ w m) h with ⟨rfl, e, -, rfl⟩ | ⟨metadata, -, h⟩
    · exact .passes rfl (.inl ⟨e, rfl⟩)
    rcases bind_cases h with ⟨e, h1, rfl⟩ | ⟨p, m1, h1, h⟩
    · obtain ⟨panel, hm, hpanel⟩ := appRegisterPatchPanel_cases h1
      exact .publishes hgiven hsink hpub happroved panel hpanel (hm ▸ Via.refl _)
    · obtain ⟨panel, hm, hpanel⟩ := appRegisterPatchPanel_cases h1
      rw [hm] at h
      refine .publishes hgiven hsink hpub happroved panel hpanel (Via.of_run h ?_)
      exact Via.bind (publishedEntry_via n card candidate metadata) fun _ => Via.pure _

theorem executeSink_cases {x : NodeExecutor App} (hx : x.runtime = App.cardRuntime)
    (hregistry : x.registry = none ∨ x.registry = some App.patchPanelRegistry)
    (hauthorization : x.authorizationRepository = none ∨
      x.authorizationRepository = some App.authorizationRepository)
    {cardId : Uuid} {sinkId : String} {externalReference key : Option String}
    {r : Except PyErr SinkResult}
    (h : (x.executeSink cardId sinkId externalReference key).run w m = (r, m')) :
    (m' = m ∧ ∃ e, r = .error e) ∨ ∃ n card m1 r1,
      node x.patchPanel sinkId .sink = .ok n ∧ m.store.runtime.cards.get? cardId = some card ∧
      ensureCardAtSink x.patchPanel n card = .ok () ∧ SinkEffect w x n card m m1 r1 ∧
      ((∃ e, r1 = .error e) → ∃ e, r = .error e) ∧
      (m' = m1 ∨ ∃ payload s e, Records (App.runtimeMachine m1) s cardId "sink_executed" (some sinkId)
        (some payload) key e ∧ m' = App.withRuntime m1 s) := by
  unfold executeSink at h
  rcases bind_same (Op.run_ofExcept _ w m) h with ⟨rfl, e, -, rfl⟩ | ⟨n, hn, h⟩
  · exact .inl ⟨rfl, e, rfl⟩
  rw [hx] at h
  rcases getCard_bind h with ⟨rfl, e, rfl⟩ | ⟨card, hstored, h⟩
  · exact .inl ⟨rfl, e, rfl⟩
  rcases bind_same (Op.run_ofExcept _ w m) h with ⟨rfl, e, -, rfl⟩ | ⟨_, -, h⟩
  · exact .inl ⟨rfl, e, rfl⟩
  rcases bind_same (Op.run_ofExcept _ w m) h with ⟨rfl, e, -, rfl⟩ | ⟨_, hat, h⟩
  · exact .inl ⟨rfl, e, rfl⟩
  refine .inr ⟨n, card, ?_⟩
  rcases bind_cases h with ⟨e, h1, rfl⟩ | ⟨reference, m1, h1, h⟩
  · exact ⟨m', _, hn, hstored, hat, executeConfiguredSink_cases hx hregistry hauthorization h1,
      fun _ => ⟨e, rfl⟩, .inl rfl⟩
  refine ⟨m1, _, hn, hstored, hat, executeConfiguredSink_cases hx hregistry hauthorization h1,
    ?_, ?_⟩
  · rintro ⟨e, ⟨⟩⟩
  rw [Exec.run_bind_ok (Op.run_world w m1), node_id hn] at h
  have hrecord : ∀ {r' : Except PyErr CardEvent} {m2 : Machine App},
      (App.cardRuntime.recordEvent cardId "sink_executed" (some sinkId)
        (some (sinkPayload w n reference)) key).run w m1 = (r', m2) →
      m2 = m1 ∨ ∃ s e, Records (App.runtimeMachine m1) s cardId "sink_executed" (some sinkId)
        (some (sinkPayload w n reference)) key e ∧ m2 = App.withRuntime m1 s := by
    intro r' m2 h2
    obtain ⟨s, hs, rfl⟩ := App.runtime_cases h2
    rcases recordEvent_cases hs with rfl | ⟨e, -, hrecords⟩
    · exact .inl rfl
    · exact .inr ⟨s, e, hrecords, rfl⟩
  have hwritten : ∀ {r' : Except PyErr CardEvent},
      (App.cardRuntime.recordEvent cardId "sink_executed" (some sinkId)
        (some (sinkPayload w n reference)) key).run w m1 = (r', m') →
      m' = m1 ∨ ∃ payload s e, Records (App.runtimeMachine m1) s cardId "sink_executed"
        (some sinkId) (some payload) key e ∧ m' = App.withRuntime m1 s := by
    intro r' h2
    rcases hrecord h2 with heq | ⟨s, e, hrecords⟩
    · exact .inl heq
    · exact .inr ⟨_, s, e, hrecords⟩
  rcases bind_cases h with ⟨e, h2, -⟩ | ⟨event, m2, h2, h⟩
  · exact hwritten h2
  · cases h
    exact hwritten h2

end Sinks

end NodeExecutor

end GhostMesh
