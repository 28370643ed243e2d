import GhostMesh.Api.Mediation
import GhostMesh.Runtime.ClaimScan
import GhostMesh.Runtime.WorkPlace

/-!
# Claims under a scoped grant

`POST /cards/claim` asks for authority over the bucket of the pipe's name and tells the
check neither the panel nor the workflow. A grant for the panel never matches, and a
grant for a bucket matches the pipe that is named like it.
-/

set_option autoImplicit false

namespace GhostMesh

open InMemoryCardRuntime

/-! ## The answer to a claim -/

section Answer
variable {w : World} {m : Machine App} {request : Request} {body : ClaimCardRequest}

variable (w m request body) in
/-- The runtime's claim answers; before it only the audit log is written. -/
def ClaimAuthorized : Prop :=
  ∃ m', SameButAudit m.store m'.store ∧
    ((App.application true).claimCard body request).run w m =
      (App.cardRuntime.claimCard body.inputPipe body.workerId body.leaseSeconds
        request.idempotencyKey).run w m'

variable (w m request body) in
/-- The answer is a 403, and only the audit log is written. -/
def ClaimRefused : Prop :=
  ∃ detail m', SameButAudit m.store m'.store ∧
    ((App.application true).claimCard body request).run w m = (.error (.http 403 detail), m')

/-- A claim that is answered by the runtime raises no error of its own. -/
theorem ClaimAuthorized.raises (h : ClaimAuthorized w m request body) {e : PyErr}
    {m' : Machine App}
    (hrun : ((App.application true).claimCard body request).run w m = (.error e, m')) :
    ClaimError e := by
  obtain ⟨m₁, -, heq⟩ := h
  rw [heq] at hrun
  exact Exec.Raises.zoom (claimCard_raises _ _ _ _) m₁ e m' hrun

theorem run_scopeBuild (scope : Scope) (w : World) (m : Machine App) :
    (Scope.build scope.type scope.id : Op App Scope).run w m = (.ok scope, m) := by
  have hmake : Scope.make? scope.type scope.id = some scope := dif_pos scope.valid
  simp only [Scope.build, Exec.run_bind, Op.run_world, hmake, Exec.run_pure]

/-- The scope that the endpoint asks for. -/
def pipeScope (pipe : String) (h : pipe ≠ "") : Scope :=
  ⟨.bucket, some pipe, by simp [validScopeId, ScopeType.isGlobal, h]⟩

def claimContext (body : ClaimCardRequest) : JsonObj :=
  [("input_pipe", .str body.inputPipe), ("worker_id", .str body.workerId)]

theorem run_claimCard_of_scope (hpipe : body.inputPipe ≠ "") :
    ((App.application true).claimCard body request).run w m =
      (authorizeRequest App.authorizationRepository true request .cardClaim
        (pipeScope body.inputPipe hpipe) (claimContext body) none >>= fun _ =>
          App.cardRuntime.claimCard body.inputPipe body.workerId body.leaseSeconds
            request.idempotencyKey).run w m := by
  exact Exec.run_bind_ok (run_scopeBuild (pipeScope body.inputPipe hpipe) w m)

/-- The pipe without a name is no scope. -/
theorem run_claimCard_of_noScope (hpipe : body.inputPipe = "") :
    ∃ message, ((App.application true).claimCard body request).run w m =
      (.error (.value message), m) := by
  have hscope : ∃ message, (Scope.build .bucket (some body.inputPipe) : Op App Scope).run w m =
      (.error (.value message), m) := by
    rw [hpipe]
    exact ⟨_, rfl⟩
  obtain ⟨message, hscope⟩ := hscope
  exact ⟨message, Exec.run_bind_error hscope⟩

theorem claimAuthorized_iff : ClaimAuthorized w m request body ↔ ∃ hpipe : body.inputPipe ≠ "",
    m.store.authorization.admits (w.clock m.ticks) request .cardClaim
      (pipeScope body.inputPipe hpipe) (claimContext body) none = true := by
  constructor
  · intro h
    by_cases hpipe : body.inputPipe = ""
    · obtain ⟨message, hrun⟩ := run_claimCard_of_noScope hpipe
      exact absurd (h.raises hrun) id
    · refine ⟨hpipe, ?_⟩
      obtain ⟨m', -, ⟨hadmits, -⟩ | ⟨-, detail, hrun⟩⟩ := App.run_authorizeRequest w m request
        .cardClaim (pipeScope body.inputPipe hpipe) (claimContext body) none
      · exact hadmits
      · exact absurd (h.raises ((run_claimCard_of_scope hpipe).trans
          (Exec.run_bind_error hrun))) id
  · rintro ⟨hpipe, hadmits⟩
    obtain ⟨m', hsame, ⟨-, hrun⟩ | ⟨hnot, -⟩⟩ := App.run_authorizeRequest w m request .cardClaim
      (pipeScope body.inputPipe hpipe) (claimContext body) none
    · exact ⟨m', hsame, (run_claimCard_of_scope hpipe).trans (Exec.run_bind_ok hrun)⟩
    · rw [hadmits] at hnot
      cases hnot

theorem claimRefused_iff : ClaimRefused w m request body ↔ ∃ hpipe : body.inputPipe ≠ "",
    m.store.authorization.admits (w.clock m.ticks) request .cardClaim
      (pipeScope body.inputPipe hpipe) (claimContext body) none = false := by
  constructor
  · rintro ⟨detail, m', -, hrefused⟩
    by_cases hpipe : body.inputPipe = ""
    · obtain ⟨message, hrun⟩ : ∃ message, ((App.application true).claimCard body request).run w m =
          (.error (.value message), m) := run_claimCard_of_noScope hpipe
      rw [hrefused] at hrun
      cases hrun
    · refine ⟨hpipe, Bool.eq_false_iff.mpr fun hadmits => ?_⟩
      exact absurd ((claimAuthorized_iff.mpr ⟨hpipe, hadmits⟩).raises hrefused) id
  · rintro ⟨hpipe, hnot⟩
    obtain ⟨m', hsame, ⟨hadmits, -⟩ | ⟨-, detail, hrun⟩⟩ := App.run_authorizeRequest w m request
      .cardClaim (pipeScope body.inputPipe hpipe) (claimContext body) none
    · rw [hnot] at hadmits
      cases hadmits
    · exact ⟨detail, m', hsame, (run_claimCard_of_scope hpipe).trans (Exec.run_bind_error hrun)⟩

end Answer

/-! ## One grant -/

section Grant
variable {w : World} {m : Machine App} {request : Request} {body : ClaimCardRequest}
  {p : PatchPanel} {bucket participantId : String} {scope : Scope}

variable (w m request body p bucket participantId scope) in
/-- A request on an input pipe of a registered panel, by an active participant whose only
grant for claims has the scope. -/
structure PipeClaim : Prop where
  registered : p ∈ m.store.runtime.patchPanels.values
  input : ∃ n ∈ p.nodes, body.inputPipe ∈ n.inputPipes
  bound : Binds p body.inputPipe bucket
  identified : request.resolve none = some participantId
  active : ∃ q, m.store.authorization.participants.get? participantId = some q ∧
    q.status = .active
  only : ∃ g, (m.store.authorization.grantsAt participantId (w.clock m.ticks)).filter
    (fun g => g.permission = .cardClaim) = [g] ∧ g.scope = scope

variable (w m request body p bucket scope) in
/-- A grant for the panel or for the bucket of the pipe suffices; one for a bucket that no
registered panel binds the pipe to does not. -/
structure FollowsPipe : Prop where
  panel : scope.type = .patchPanel → scope.id = some p.id → ClaimAuthorized w m request body
  bucket : scope.type = .bucket → scope.id = some bucket → ClaimAuthorized w m request body
  elsewhere : scope.type = .bucket → (∀ r ∈ m.store.runtime.patchPanels.values, ∀ id,
    scope.id = some id → ¬ Binds r body.inputPipe id) → ClaimRefused w m request body

/-- The only grant matches when it is global or for the bucket of the pipe's name. -/
theorem PipeClaim.admits_iff (h : PipeClaim w m request body p bucket participantId scope)
    (hpipe : body.inputPipe ≠ "") : m.store.authorization.admits (w.clock m.ticks) request
        .cardClaim (pipeScope body.inputPipe hpipe) (claimContext body) none = true ↔
      scope.type.isGlobal = true ∨ scope = pipeScope body.inputPipe hpipe := by
  obtain ⟨g, hgrants, rfl⟩ := h.only
  have hmatch : scopeMatches g.scope (pipeScope body.inputPipe hpipe) (claimContext body) = true ↔
      g.scope.type.isGlobal = true ∨ g.scope = pipeScope body.inputPipe hpipe :=
    scopeMatches_of_absent rfl rfl
  rw [← hmatch]
  simp only [InMemoryAuthorizationRepository.admits, h.identified]
  rw [InMemoryAuthorizationRepository.decides_iff]
  constructor
  · rintro ⟨-, g', hg', hpermission, hmatches⟩
    have hmem : g' ∈ [g] := by
      rw [← hgrants]
      exact List.mem_filter.mpr ⟨hg', decide_eq_true hpermission⟩
    rwa [List.mem_singleton.mp hmem] at hmatches
  · intro hmatches
    have hmem : g ∈ (m.store.authorization.grantsAt participantId (w.clock m.ticks)).filter
        (fun g => g.permission = .cardClaim) := by
      rw [hgrants]
      exact List.mem_singleton_self g
    obtain ⟨hg, hpermission⟩ := List.mem_filter.mp hmem
    exact ⟨h.active, g, hg, of_decide_eq_true hpermission, hmatches⟩

theorem PipeClaim.authorized_iff (h : PipeClaim w m request body p bucket participantId scope)
    (hlocal : scope.type.isGlobal = false) : ClaimAuthorized w m request body ↔
      scope.type = .bucket ∧ scope.id = some body.inputPipe := by
  rw [claimAuthorized_iff]
  constructor
  · rintro ⟨hpipe, hadmits⟩
    rcases (h.admits_iff hpipe).mp hadmits with hglobal | rfl
    · rw [hlocal] at hglobal
      cases hglobal
    · exact ⟨rfl, rfl⟩
  · rintro ⟨htype, hid⟩
    have hpipe : body.inputPipe ≠ "" := by
      have hvalid := scope.valid
      rw [htype, hid] at hvalid
      simpa [validScopeId, ScopeType.isGlobal] using hvalid
    exact ⟨hpipe, (h.admits_iff hpipe).mpr (.inr (Scope.ext htype hid))⟩

theorem PipeClaim.refused_iff (h : PipeClaim w m request body p bucket participantId scope)
    (hlocal : scope.type.isGlobal = false) : ClaimRefused w m request body ↔
      body.inputPipe ≠ "" ∧ ¬ (scope.type = .bucket ∧ scope.id = some body.inputPipe) := by
  rw [← h.authorized_iff hlocal, claimAuthorized_iff, claimRefused_iff]
  constructor
  · rintro ⟨hpipe, hnot⟩
    refine ⟨hpipe, ?_⟩
    rintro ⟨hpipe', hadmits⟩
    rw [hnot] at hadmits
    cases hadmits
  · rintro ⟨hpipe, hnot⟩
    exact ⟨hpipe, Bool.eq_false_iff.mpr fun hadmits => hnot ⟨hpipe, hadmits⟩⟩

/-- The grant of a panel is never enough, that of a bucket only for the pipe of its name;
and a bucket of that name is taken for the pipe's wherever the pipe is bound. -/
theorem claim_follows_pipe_iff
    (h : PipeClaim w m request body p bucket participantId scope) :
    FollowsPipe w m request body p bucket scope ↔
      (scope.type = .patchPanel → scope.id ≠ some p.id) ∧
      (scope.type = .bucket → scope.id = some bucket → bucket = body.inputPipe) ∧
      (scope.type = .bucket → scope.id = some body.inputPipe ∨ body.inputPipe = "" →
        ∃ r ∈ m.store.runtime.patchPanels.values, ∃ id, scope.id = some id ∧
          Binds r body.inputPipe id) := by
  have hlocal : scope.type = .patchPanel ∨ scope.type = .bucket → scope.type.isGlobal = false := by
    rintro (htype | htype) <;> rw [htype] <;> rfl
  constructor
  · intro hfollows
    refine ⟨?_, ?_, ?_⟩
    · intro htype hid
      have hbucket := ((h.authorized_iff (hlocal (.inl htype))).mp (hfollows.panel htype hid)).1
      rw [htype] at hbucket
      cases hbucket
    · intro htype hid
      have hnamed := ((h.authorized_iff (hlocal (.inr htype))).mp (hfollows.bucket htype hid)).2
      exact Option.some.inj (hid.symm.trans hnamed)
    · intro htype hnamed
      by_contra hunbound
      have hrefused := hfollows.elsewhere htype fun r hr id hid hbinds =>
        hunbound ⟨r, hr, id, hid, hbinds⟩
      obtain ⟨hpipe, hnot⟩ := (h.refused_iff (hlocal (.inr htype))).mp hrefused
      rcases hnamed with hid | hempty
      · exact hnot ⟨htype, hid⟩
      · exact hpipe hempty
  · rintro ⟨hpanel, hbucket, helsewhere⟩
    constructor
    · intro htype hid
      exact absurd hid (hpanel htype)
    · intro htype hid
      exact (h.authorized_iff (hlocal (.inr htype))).mpr ⟨htype, hbucket htype hid ▸ hid⟩
    · intro htype hunbound
      have hnowhere : ¬ (scope.id = some body.inputPipe ∨ body.inputPipe = "") := by
        intro hnamed
        obtain ⟨r, hr, id, hid, hbinds⟩ := helsewhere htype hnamed
        exact hunbound r hr id hid hbinds
      refine (h.refused_iff (hlocal (.inr htype))).mpr ⟨fun hempty => hnowhere (.inr hempty), ?_⟩
      exact fun hscope => hnowhere (.inl hscope.2)

end Grant

/-! A worker with a grant for the bucket that holds the cards of its pipe. -/

def inboxScope : Scope := ⟨.bucket, some "inbox", by decide⟩

/-- The root operator registers a line and a worker, who gets a grant for claims. -/
def inboxRequests : List (Request × Route) :=
  rootRequests ++
    [(⟨some "root", none⟩, .createParticipant ⟨"w1", .agent, none, .active, none, none, []⟩),
      (⟨some "root", none⟩, .grantParticipantPermission "w1" ⟨.cardClaim, inboxScope, none⟩)]

def inboxWorker : Machine App :=
  inboxRequests.foldl (App.respond World.simple true) (App.start World.simple "root")

def workClaim : ClaimCardRequest := ⟨"work_in", "w1", 300⟩

theorem inboxWorker_claims : PipeClaim .simple inboxWorker ⟨some "w1", none⟩ workClaim
    (PatchPanelValidator.linePanel "orders" "1") "inbox" "w1" inboxScope where
  registered := by
    have hpanels : inboxWorker.store.runtime.patchPanels.values =
        [PatchPanelValidator.linePanel "orders" "1"] := rfl
    rw [hpanels]
    exact List.mem_singleton_self _
  input := ⟨_, List.mem_cons_of_mem _ List.mem_cons_self, List.mem_cons_self⟩
  bound := ⟨⟨"inbox", some "work", some .input⟩, rfl, rfl⟩
  identified := rfl
  active := ⟨_, rfl, rfl⟩
  only := ⟨_, rfl, rfl⟩

theorem claim_follows_pipe_iff_inbox :
    FollowsPipe .simple inboxWorker ⟨some "w1", none⟩ workClaim
        (PatchPanelValidator.linePanel "orders" "1") "inbox" inboxScope ↔
      (inboxScope.type = .patchPanel → inboxScope.id ≠ some "orders") ∧
      (inboxScope.type = .bucket → inboxScope.id = some "inbox" → "inbox" = "work_in") ∧
      (inboxScope.type = .bucket → inboxScope.id = some "work_in" ∨ "work_in" = "" →
        ∃ r ∈ inboxWorker.store.runtime.patchPanels.values, ∃ id, inboxScope.id = some id ∧
          Binds r "work_in" id) :=
  claim_follows_pipe_iff inboxWorker_claims

/-- The worker is refused the cards of the bucket that its grant names. -/
theorem inboxWorker_refused :
    ¬ ∀ (calls : List (Request × Route)) (request : Request) (body : ClaimCardRequest)
      (p : PatchPanel) (bucket participantId : String) (scope : Scope),
      let m := calls.foldl (App.respond World.simple true) (App.start World.simple "root")
      PipeClaim .simple m request body p bucket participantId scope →
        FollowsPipe .simple m request body p bucket scope := by
  intro h
  have hfollows : FollowsPipe .simple inboxWorker ⟨some "w1", none⟩ workClaim
      (PatchPanelValidator.linePanel "orders" "1") "inbox" inboxScope :=
    h inboxRequests _ _ _ _ _ _ inboxWorker_claims
  have hanswer : ∃ m', ((App.application true).claimCard workClaim ⟨some "w1", none⟩).run .simple
      inboxWorker = (.error (.http 403 "no matching permission grant"), m') := ⟨_, rfl⟩
  obtain ⟨m', hrun⟩ := hanswer
  exact (hfollows.bucket rfl rfl).raises hrun

end GhostMesh
