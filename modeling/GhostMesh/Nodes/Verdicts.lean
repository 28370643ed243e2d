import GhostMesh.Nodes.Isolation
import GhostMesh.Nodes.Privilege

/-!
# The last verdict on a card

The sinks ask whether some event of the history approves. That is the same as
asking the last verdict of a validator as long as no verdict is recorded over an
approval that does not approve again.
-/

set_option autoImplicit false

namespace GhostMesh

open InMemoryCardRuntime Op
open NodeExecutor (approves)
open Relation (ReflTransGen)

/-! ## Verdicts in a history -/

def isVerdict (actor : String) (e : CardEvent) : Bool :=
  e.eventType = "card_validated" && e.actorId = some actor

def lastVerdict (actor : String) (history : List CardEvent) : Option CardEvent :=
  (history.filter (isVerdict actor)).getLast?

/-- A payload that records acceptance through the exit. -/
def approvesPayload (exit : String) (payload : JsonObj) : Bool :=
  (JsonObj.getD payload "accepted" .null).isTrue &&
    (JsonObj.getD payload "output_pipe" .null).isStr exit

theorem approves_eq (actor exit : String) (e : CardEvent) :
    approves actor exit e = (isVerdict actor e && approvesPayload exit e.payload) := by
  simp only [approves, isVerdict, approvesPayload, Bool.and_assoc]

/-- The validators whose approval a sink asks for, with the approving exits. -/
def publicationGates : List (String × String) :=
  [("topological_validator", "topology_valid"), ("governance_reviewer", "proposal_approved")]

def provisioningGates : List (String × String) :=
  [("registration_compliance_validator", "registration_compliant"),
    ("registration_admin_reviewer", "registration_approved")]

def gates : List (String × String) := publicationGates ++ provisioningGates

/-- The last verdict of the validator accepts through the approving exit. -/
def LastApproves (gate : String × String) (history : List CardEvent) : Prop :=
  ∃ e, lastVerdict gate.1 history = some e ∧ approves gate.1 gate.2 e = true

/-- Where a history has an approval, the last verdict is one. -/
def Standing (history : List CardEvent) : Prop :=
  ∀ gate ∈ gates, history.any (approves gate.1 gate.2) = true → LastApproves gate history

theorem lastVerdict_append (actor : String) (history : List CardEvent) (e : CardEvent) :
    lastVerdict actor (history ++ [e]) =
      if isVerdict actor e then some e else lastVerdict actor history := by
  unfold lastVerdict
  rw [List.filter_append]
  by_cases h : isVerdict actor e = true
  · simp [h]
  · simp [h]

/-- An event may be appended to a standing history when it is no verdict of a gate
that has an approval, or approves itself. -/
theorem Standing.append {history : List CardEvent} {e : CardEvent} (h : Standing history)
    (he : ∀ gate ∈ gates, isVerdict gate.1 e = true →
      history.any (approves gate.1 gate.2) = true → approvesPayload gate.2 e.payload = true) :
    Standing (history ++ [e]) := by
  intro gate hgate happroved
  unfold LastApproves
  rw [lastVerdict_append]
  rw [List.any_append, Bool.or_eq_true] at happroved
  by_cases hverdict : isVerdict gate.1 e = true
  · rw [if_pos hverdict]
    refine ⟨e, rfl, ?_⟩
    rw [approves_eq, hverdict, Bool.true_and]
    rcases happroved with hold | hnew
    · exact he gate hgate hverdict hold
    · simp only [List.any_cons, List.any_nil, Bool.or_false, approves_eq, hverdict,
        Bool.true_and] at hnew
      exact hnew
  · rw [if_neg hverdict]
    rcases happroved with hold | hnew
    · exact h gate hgate hold
    · simp only [List.any_cons, List.any_nil, Bool.or_false, approves_eq, hverdict,
        Bool.false_and] at hnew
      cases hnew

/-! ## Verdicts in a store -/

/-- Every history stands. -/
def AllStanding (s : InMemoryCardRuntime) : Prop := ∀ x, Standing (s.history x)

namespace AllStanding

variable {s s' : InMemoryCardRuntime}

theorem of_history_eq (h : AllStanding s) (heq : ∀ x, s'.history x = s.history x) :
    AllStanding s' := by
  intro x
  rw [heq]
  exact h x

theorem putEvent {e : CardEvent} (h : AllStanding s)
    (he : ∀ gate ∈ gates, isVerdict gate.1 e = true →
      (s.history e.cardId).any (approves gate.1 gate.2) = true →
      approvesPayload gate.2 e.payload = true) : AllStanding (s.putEvent e) := by
  intro x
  rw [putEvent_history]
  split
  · rename_i hx
    rw [hx]
    exact (h e.cardId).append he
  · exact h x

theorem putEvent_plain {e : CardEvent} (h : AllStanding s) (he : e.eventType ≠ "card_validated") :
    AllStanding (s.putEvent e) :=
  h.putEvent fun gate _ hverdict => by simp [isVerdict, he] at hverdict

theorem expires {t : Instant} {ls : List Lease} (hexp : Expires t ls s s') (h : AllStanding s) :
    AllStanding s' := by
  refine hexp.invariant (fun s l e htype h => ?_) h
  apply putEvent_plain (h.of_history_eq fun _ => rfl)
  rw [htype]
  decide

end AllStanding

/-! ## Calls that record no verdict over an approval -/

/-- The payload of a verdict by `actor` approves again where the history already has
its approval. -/
def VerdictKept (history : List CardEvent) (actor : String) (payload : JsonObj) : Prop :=
  ∀ gate ∈ gates, gate.1 = actor → history.any (approves gate.1 gate.2) = true →
    approvesPayload gate.2 payload = true

/-- The verdict that `validate_card` is about to record is kept. -/
def ValidationKept (s : InMemoryCardRuntime) (cardId : Uuid) (validatorId : String)
    (accepted : Bool) (reason outputPipe : Option String) (payload : Option JsonObj)
    (key : Option String) : Prop :=
  s.cached key = none → ∀ c route, s.cards.get? cardId = some c → RouteOk s c outputPipe route →
    VerdictKept (s.history cardId) validatorId
      (routedPayload (validationPayload accepted reason payload) route)

def RuntimeCall.KeepsVerdicts (s : InMemoryCardRuntime) : RuntimeCall → Prop
  | validateCard card validator accepted reason pipe payload key =>
    ValidationKept s card validator accepted reason pipe payload key
  | recordEvent card type actor payload key =>
    s.cached key = none → (s.cards.get? card).isSome = true → type = "card_validated" →
      ∀ validator, actor = some validator → VerdictKept (s.history card) validator (payload.getD [])
  | _ => True

def MeshCall.KeepsVerdicts (w : World) (m : Machine App) : MeshCall → Prop
  | runtime call => call.KeepsVerdicts m.store.runtime
  | node x (.validator request) => ∀ accepted request',
    NodeExecutor.verdict w (w.clock m.ticks) x.patchPanel
      (m.store.runtime.cards.get? request.cardId) request = .ok (accepted, request') →
    ValidationKept m.store.runtime request.cardId request.validatorId accepted request'.reason
      request'.selectedExit (some request'.payload) request.idempotencyKey
  | _ => True

section Steps
variable {w : World} {m m' : Machine InMemoryCardRuntime}

/-- Writes, then one event, then the key: the shape of most effects. -/
theorem AllStanding.of_event {s t : InMemoryCardRuntime} {e : CardEvent} {key : Option String}
    {v : Stored} (h : AllStanding s) (ht : ∀ x, t.history x = s.history x)
    (he : ∀ gate ∈ gates, isVerdict gate.1 e = true →
      (s.history e.cardId).any (approves gate.1 gate.2) = true →
      approvesPayload gate.2 e.payload = true) : AllStanding ((t.putEvent e).putKey key v) := by
  have hput : AllStanding (t.putEvent e) := by
    refine (h.of_history_eq ht).putEvent ?_
    rw [ht]
    exact he
  exact hput.of_history_eq fun x => putKey_history _ key v x

theorem AllStanding.of_plain_event {s t : InMemoryCardRuntime} {e : CardEvent}
    {key : Option String} {v : Stored} (h : AllStanding s) (ht : ∀ x, t.history x = s.history x)
    (he : e.eventType ≠ "card_validated") : AllStanding ((t.putEvent e).putKey key v) :=
  h.of_event ht fun gate _ hverdict => by simp [isVerdict, he] at hverdict

theorem validates_standing {card : Uuid} {validator : String} {accepted : Bool}
    {reason pipe : Option String} {payload : Option JsonObj} {key : Option String} {c : Card}
    {route : Option (String × String)} {e : CardEvent} (hkeyed : WellKeyed m.store)
    (hm : AllStanding m.store)
    (h : Validates w m m' card validator accepted reason pipe payload key c route e)
    (hkept : ValidationKept m.store card validator accepted reason pipe payload key) :
    AllStanding m'.store := by
  obtain ⟨hcard, -, hactor, hpayload⟩ := h.event
  have hid : c.id = card := hkeyed.cards h.card
  rw [h.store]
  refine hm.of_event (fun x => routeCard_history _ _ _ x) ?_
  intro gate hgate hverdict happroved
  have hgateActor : gate.1 = validator := by
    simp only [isVerdict, hactor, Bool.and_eq_true, decide_eq_true_eq, Option.some.injEq] at hverdict
    exact hverdict.2.symm
  rw [hcard, hid] at happroved
  rw [hpayload]
  exact hkept h.uncached c route h.card h.routed gate hgate hgateActor happroved

theorem records_standing {card : Uuid} {type : String} {actor : Option String}
    {payload : Option JsonObj} {key : Option String} {e : CardEvent} (hm : AllStanding m.store)
    (h : Records m m' card type actor payload key e)
    (hkept : (RuntimeCall.recordEvent card type actor payload key).KeepsVerdicts m.store) :
    AllStanding m'.store := by
  obtain ⟨hcard, htype, hactor, hpayload⟩ := h.event
  rw [h.store]
  refine hm.of_event (fun _ => rfl) ?_
  intro gate hgate hverdict happroved
  simp only [isVerdict, hactor, htype, Bool.and_eq_true, decide_eq_true_eq] at hverdict
  rw [hcard] at happroved
  rw [hpayload]
  exact hkept h.uncached h.card hverdict.1 gate.1 hverdict.2 gate hgate rfl happroved

theorem creates_standing {panel : String} {payload : JsonObj} {metadata : Option JsonObj}
    {key : Option String} {c : Card} {e : CardEvent} (hm : AllStanding m.store)
    (h : Creates w m m' panel payload metadata key c e) : AllStanding m'.store := by
  rw [h.store]
  exact hm.of_plain_event (fun _ => rfl) (by rw [h.event.2.1]; decide)

theorem claims_standing {pipe worker : String} {key : Option String} {l : Lease} {e : CardEvent}
    (hm : AllStanding m.store) (h : Claims w m m' pipe worker key l e) : AllStanding m'.store := by
  rw [h.store]
  exact hm.of_plain_event (fun _ => rfl) (by rw [h.event.2.1]; decide)

theorem submits_standing {lease : Uuid} {pipe : String} {refs : List ArtifactReference}
    {key : Option String} {l : Lease} {c : Card} {d : String} {t : Instant} {e : CardEvent}
    (hm : AllStanding m.store) (h : Submits w m m' lease pipe refs key l c d t e) :
    AllStanding m'.store := by
  rw [h.store]
  exact hm.of_plain_event (fun _ => rfl) (by rw [h.event.2.1]; decide)

theorem renews_standing {lease : Uuid} {key : Option String} {l : Lease} {t : Instant}
    {e : CardEvent} (hm : AllStanding m.store) (h : Renews w m m' lease key l t e) :
    AllStanding m'.store := by
  rw [h.store]
  exact hm.of_plain_event (fun _ => rfl) (by rw [h.event.2.1]; decide)

theorem releases_standing {lease : Uuid} {actor key : Option String} {l : Lease} {t : Instant}
    {e : CardEvent} (hm : AllStanding m.store) (h : Releases m m' lease actor key l t e) :
    AllStanding m'.store := by
  rw [h.store]
  exact hm.of_plain_event (fun _ => rfl) (by rw [h.event.2.1]; decide)

theorem moves_standing {card : Uuid} {bucket : String} {actor reason key : Option String}
    {c : Card} {e : CardEvent} (hm : AllStanding m.store)
    (h : Moves m m' card bucket actor reason key c e) : AllStanding m'.store := by
  rw [h.store]
  exact hm.of_plain_event (fun _ => rfl) (by rw [h.event.2.1]; decide)

theorem AllStanding.of_same (hm : AllStanding m.store) (h : SameStore m m') :
    AllStanding m'.store := by
  rw [h.store]
  exact hm

theorem AllStanding.of_eq (hm : AllStanding m.store) (h : m' = m) : AllStanding m'.store := by
  rw [h]
  exact hm

theorem AllStanding.registers (hm : AllStanding m.store) {p : PatchPanel}
    (h : m' = { m with store := m.store.putPanel p }) : AllStanding m'.store := by
  rw [h]
  exact hm.of_history_eq fun _ => rfl

theorem RuntimeCall.step_standing {call : RuntimeCall} (hkeyed : WellKeyed m.store)
    (hm : AllStanding m.store) (hkept : call.KeepsVerdicts m.store) :
    AllStanding (call.step w m).store := by
  cases call with
  | registerPatchPanel p =>
    have hrun : (InMemoryCardRuntime.registerPatchPanel p).run w m = (_, _) := rfl
    rcases registerPatchPanel_cases hrun with h | ⟨report, -, h⟩
    · exact hm.of_eq h
    · exact hm.registers h
  | listPatchPanels => exact hm
  | listCards => exact hm
  | listLeases => exact hm
  | createCard panel payload metadata key =>
    have hrun : (InMemoryCardRuntime.createCard panel payload metadata key).run w m = (_, _) := rfl
    rcases createCard_cases hrun with h | ⟨c, e, -, h⟩
    · exact hm.of_eq h
    · exact creates_standing hm h
  | claimCard pipe worker seconds key =>
    have hrun : (InMemoryCardRuntime.claimCard pipe worker seconds key).run w m = (_, _) := rfl
    rcases claimCard_cases hrun with ⟨h, -⟩ | ⟨l, e, -, h⟩
    · exact hm.of_same h
    · exact claims_standing hm h
  | submitArtifact lease pipe refs key =>
    have hrun : (InMemoryCardRuntime.submitArtifact lease pipe refs key).run w m = (_, _) := rfl
    rcases submitArtifact_cases hrun with h | ⟨l, c, d, t, e, -, h⟩
    · exact hm.of_same h
    · exact submits_standing hm h
  | renewLease lease seconds key =>
    have hrun : (InMemoryCardRuntime.renewLease lease seconds key).run w m = (_, _) := rfl
    rcases renewLease_cases hrun with h | ⟨l, t, e, -, h⟩
    · exact hm.of_same h
    · exact renews_standing hm h
  | releaseLease lease actor key =>
    have hrun : (InMemoryCardRuntime.releaseLease lease actor key).run w m = (_, _) := rfl
    rcases releaseLease_cases hrun with h | ⟨l, t, e, -, h⟩
    · exact hm.of_eq h
    · exact releases_standing hm h
  | expireLeases =>
    have hrun : InMemoryCardRuntime.expireLeases.run w m = (_, _) := rfl
    exact AllStanding.expires (expireLeases_cases hrun).1 hm
  | validateCard card validator accepted reason pipe payload key =>
    have hrun : (InMemoryCardRuntime.validateCard card validator accepted reason pipe payload
      key).run w m = (_, _) := rfl
    rcases validateCard_cases hrun with h | ⟨c, route, e, -, h⟩
    · exact hm.of_eq h
    · exact validates_standing hkeyed hm h hkept
  | moveCard card bucket actor reason key =>
    have hrun : (InMemoryCardRuntime.moveCard card bucket actor reason key).run w m = (_, _) := rfl
    rcases moveCard_cases hrun with h | ⟨c, e, -, h⟩
    · exact hm.of_eq h
    · exact moves_standing hm h
  | cardHistory card =>
    have hrun : (InMemoryCardRuntime.cardHistory card).run w m = (_, _) := rfl
    exact hm.of_eq (cardHistory_same hrun)
  | recordEvent card type actor payload key =>
    have hrun : (InMemoryCardRuntime.recordEvent card type actor payload key).run w m =
      (_, _) := rfl
    rcases recordEvent_cases hrun with h | ⟨e, -, h⟩
    · exact hm.of_eq h
    · exact records_standing hm h hkept

end Steps

/-! ## Node executions -/

section Nodes
variable {w : World} {m m' : Machine InMemoryCardRuntime} {p : PatchPanel}

theorem records_plain_standing {card : Uuid} {type : String} {actor : Option String}
    {payload : Option JsonObj} {key : Option String} {e : CardEvent} (hm : AllStanding m.store)
    (h : Records m m' card type actor payload key e) (hplain : type ≠ "card_validated") :
    AllStanding m'.store :=
  records_standing hm h fun _ _ htype => absurd htype hplain

theorem source_standing {sourceId : String} {payload : JsonObj} {metadata : Option JsonObj}
    {key : Option String} {r : Except PyErr Card} (hm : AllStanding m.store)
    (h : (NodeExecutor.executeSource (NodeExecutor.onMemory p) sourceId payload metadata key).run
      w m = (r, m')) : AllStanding m'.store := by
  obtain ⟨s, hcreate, hrecord⟩ := NodeExecutor.executeSource_cases h
  have hs : AllStanding s.store := by
    rcases hcreate with hs | ⟨c, e, hcreates⟩
    · exact hm.of_eq hs
    · exact creates_standing hm hcreates
  rcases hrecord with hsame | ⟨card, e, hrecords⟩
  · exact hs.of_eq hsame
  · exact records_plain_standing hs hrecords (by decide)

theorem submitted_standing {leaseId : Uuid} {request : WorkerExecutionInput}
    (hm : AllStanding m.store) (h : NodeExecutor.Submitted w m m' leaseId request) :
    AllStanding m'.store := by
  rcases h with hsame | ⟨l, c, d, t, e, hsubmits⟩
  · exact hm.of_same hsame
  · exact submits_standing hm hsubmits

theorem worker_standing {request : WorkerExecutionInput}
    {r : Except PyErr (List ArtifactReference)} (hm : AllStanding m.store)
    (h : (NodeExecutor.executeWorker (NodeExecutor.onMemory p) request).run w m = (r, m')) :
    AllStanding m'.store := by
  rcases NodeExecutor.executeWorker_cases h with hsame | ⟨n, -, s, hclaim⟩
  · exact hm.of_eq hsame
  rcases hclaim with ⟨hsame, hrest⟩ | ⟨l, e, hclaims, hsub⟩
  · have hs : AllStanding s.store := hm.of_same hsame
    rcases hrest with heq | ⟨v, l, -, -, hsub⟩
    · exact hs.of_eq heq
    · exact submitted_standing hs hsub
  · exact submitted_standing (claims_standing hm hclaims) hsub

theorem validator_standing {request : ValidatorExecutionInput} {r : Except PyErr CardEvent}
    (hkeyed : WellKeyed m.store) (hm : AllStanding m.store)
    (hkept : ∀ accepted request', NodeExecutor.verdict w (w.clock m.ticks) p
      (m.store.cards.get? request.cardId) request = .ok (accepted, request') →
      ValidationKept m.store request.cardId request.validatorId accepted request'.reason
        request'.selectedExit (some request'.payload) request.idempotencyKey)
    (h : (NodeExecutor.executeValidator (NodeExecutor.onMemory p) request).run w m = (r, m')) :
    AllStanding m'.store := by
  rcases NodeExecutor.executeValidator_cases h with
    hsame | ⟨accepted, request', s, c, route, e, hverdict, hsame, hvalidates⟩
  · exact hm.of_same hsame
  have hs := hkept accepted request' hverdict
  rw [← hsame.store] at hkeyed hm hs
  exact validates_standing hkeyed hm hvalidates hs

theorem sinkEffect_standing {x : NodeExecutor App} {n : NodeDefinition} {card : Card}
    {a a' : Machine App} {r : Except PyErr (Option String)} (ha : AllStanding a.store.runtime)
    (h : NodeExecutor.SinkEffect w x n card a a' r) : AllStanding a'.store.runtime :=
  ha.of_history_eq fun x => (sinkEffect_untouched h x).1.history

theorem sink_standing {x : ExecutorSetup} {a a' : Machine App} {cardId : Uuid} {sinkId : String}
    {reference key : Option String} {r : Except PyErr SinkResult}
    (ha : AllStanding a.store.runtime)
    (h : (x.executor.executeSink cardId sinkId reference key).run w a = (r, a')) :
    AllStanding a'.store.runtime := by
  rcases NodeExecutor.executeSink_cases rfl x.registry_cases x.authorization_cases h with
    ⟨rfl, -⟩ | ⟨n, card, a1, r1, -, -, -, heffect, -, hrecord⟩
  · exact ha
  have h1 := sinkEffect_standing ha heffect
  rcases hrecord with rfl | ⟨payload, s, e, hrecords, rfl⟩
  · exact h1
  · exact records_plain_standing (m := App.runtimeMachine a1) h1 hrecords (by decide)

theorem MeshCall.step_standing {a : Machine App} {call : MeshCall}
    (hkeyed : WellKeyed a.store.runtime) (ha : AllStanding a.store.runtime)
    (hkept : call.KeepsVerdicts w a) : AllStanding (call.step w a).store.runtime := by
  cases call with
  | runtime call => exact RuntimeCall.step_standing (m := App.runtimeMachine a) hkeyed ha hkept
  | node x call =>
    cases call with
    | source sourceId payload metadata key =>
      rw [step, NodeCall.step_source]
      exact source_standing (m := App.runtimeMachine a) ha rfl
    | worker request =>
      rw [step, NodeCall.step_worker]
      exact worker_standing (m := App.runtimeMachine a) ha rfl
    | validator request =>
      rw [step, NodeCall.step_validator]
      exact validator_standing (m := App.runtimeMachine a) hkeyed ha hkept rfl
    | sink cardId sinkId reference key => exact sink_standing ha rfl

end Nodes

/-! ## The sinks -/

/-- Every sink execution that would succeed now has the last verdicts behind it. -/
def SinksByLastVerdict (w : World) (m : Machine App) : Prop :=
  ∀ (x : ExecutorSetup) (cardId : Uuid) (sinkId : String) (reference key : Option String)
    (n : NodeDefinition) (result : SinkResult) (m' : Machine App),
    NodeExecutor.node x.patchPanel sinkId .sink = .ok n →
    (x.executor.executeSink cardId sinkId reference key).run w m = (.ok result, m') →
    (n.id = "authority_provisioner_sink" →
      ∀ gate ∈ provisioningGates, LastApproves gate (m.store.runtime.history cardId)) ∧
    (n.id ≠ "authority_provisioner_sink" → NodeExecutor.isRegistryPublication n = true →
      ∀ gate ∈ publicationGates, LastApproves gate (m.store.runtime.history cardId))

section Sinks
variable {history : List CardEvent}

theorem provisioningApproved_iff : NodeExecutor.provisioningApproved history = true ↔
    ∀ gate ∈ provisioningGates, history.any (approves gate.1 gate.2) = true := by
  simp [NodeExecutor.provisioningApproved, provisioningGates]

theorem publicationApproved_iff : NodeExecutor.publicationApproved history = true ↔
    ∀ gate ∈ publicationGates, history.any (approves gate.1 gate.2) = true := by
  simp [NodeExecutor.publicationApproved, publicationGates]

theorem AllStanding.sinks {w : World} {m : Machine App} (hkeyed : WellKeyed m.store.runtime)
    (hm : AllStanding m.store.runtime) : SinksByLastVerdict w m := by
  intro x cardId sinkId reference key n result m' hn h
  rcases NodeExecutor.executeSink_cases rfl x.registry_cases x.authorization_cases h with
    ⟨-, e, he⟩ | ⟨n', c, m1, r1, hn', hc, -, heffect, hraises, -⟩
  · cases he
  have hsame : n' = n := Except.ok.inj (hn'.symm.trans hn)
  rw [hsame] at heffect
  have hid : c.id = cardId := hkeyed.cards hc
  cases heffect with
  | passes _ plain =>
    rcases plain with herror | ⟨hplain, hpub⟩
    · obtain ⟨e, he⟩ := hraises herror
      cases he
    · exact ⟨fun hsink => absurd hsink hplain, fun _ hpub' => by rw [hpub] at hpub'; cases hpub'⟩
  | provisions _ sink approved _ =>
    refine ⟨fun _ gate hgate => ?_, fun hplain => absurd sink hplain⟩
    rw [hid] at approved
    exact hm cardId gate (List.mem_append_right _ hgate)
      (provisioningApproved_iff.mp approved gate hgate)
  | publishes _ plain _ approved _ _ _ =>
    refine ⟨fun hsink => absurd hsink plain, fun _ _ gate hgate => ?_⟩
    rw [hid] at approved
    exact hm cardId gate (List.mem_append_left _ hgate)
      (publicationApproved_iff.mp approved gate hgate)

end Sinks

/-- In every run that records no verdict over an approval other than another approval,
a sink that succeeds has the last verdicts behind it. -/
theorem sinks_by_last_verdict (w : World) (a : App) (ticks draws : Nat) (calls : List MeshCall)
    (h : Permitted (MeshCall.step w) (MeshCall.KeepsVerdicts w) (App.boot a ticks draws) calls) :
    SinksByLastVerdict w (calls.foldl (MeshCall.step w) (App.boot a ticks draws)) := by
  have hboth : WellKeyed (calls.foldl (MeshCall.step w) (App.boot a ticks draws)).store.runtime ∧
      AllStanding (calls.foldl (MeshCall.step w) (App.boot a ticks draws)).store.runtime := by
    refine h.reaches.invariant
      (I := fun b => WellKeyed b.store.runtime ∧ AllStanding b.store.runtime) ?_ ?_
    · refine ⟨WellKeyed.init, fun x gate _ happroved => ?_⟩
      simp [App.boot, InMemoryCardRuntime.init, InMemoryCardRuntime.history] at happroved
    · intro b call hb hkept
      exact ⟨effects_invariant (I := fun m => WellKeyed m.store) (fun _ _ hm heffect =>
        hm.effect heffect) (call.step_effects w b) hb.1, call.step_standing hb.1 hb.2 hkept⟩
  exact AllStanding.sinks hboth.1 hboth.2

theorem VerdictKept.of_first {history : List CardEvent} {actor : String} {payload : JsonObj}
    (h : ∀ gate ∈ gates, gate.1 = actor → history.any (approves gate.1 gate.2) = false) :
    VerdictKept history actor payload := by
  intro gate hgate hactor happroved
  rw [h gate hgate hactor] at happroved
  cases happroved

theorem sinks_by_last_verdict_onboarding :
    SinksByLastVerdict .simple (onboarded systemAgentRegistrationId) := by
  refine sinks_by_last_verdict .simple App.init 0 0 (onboardingCalls systemAgentRegistrationId)
    ⟨trivial, trivial, ?_, ?_, trivial⟩
  · intro accepted request' _ _ c route _ _
    refine VerdictKept.of_first ?_
    decide +kernel
  · intro accepted request' _ _ c route _ _
    refine VerdictKept.of_first ?_
    decide +kernel

/-- After the approval the reviewer rejects, and the card is moved back to the sink. -/
def rejectionCalls : List MeshCall :=
  onboardingCalls systemAgentRegistrationId ++
    [.node ⟨registrationPanel systemAgentRegistrationId, false, true⟩
        (reviewOf "registration_admin_reviewer" (some "registration_rejected")),
      .runtime (.moveCard ⟨0⟩ "authority_provisioning" none none none)]

def rejected : Machine App :=
  rejectionCalls.foldl (MeshCall.step .simple) (App.boot App.init 0 0)

theorem sinks_after_rejection :
    ¬ ∀ (w : World) (a : App) (ticks draws : Nat) (calls : List MeshCall),
      SinksByLastVerdict w (calls.foldl (MeshCall.step w) (App.boot a ticks draws)) := by
  intro h
  let x : ExecutorSetup := ⟨registrationPanel systemAgentRegistrationId, false, true⟩
  have hsinks : SinksByLastVerdict .simple rejected := h .simple App.init 0 0 rejectionCalls
  have hnode : (NodeExecutor.node x.patchPanel "authority_provisioner_sink" .sink).toOption.map
      (·.id) = some "authority_provisioner_sink" := by decide +kernel
  have hruns : ((x.executor.executeSink ⟨0⟩ "authority_provisioner_sink" none none).run .simple
      rejected).1.toOption.isSome = true := by decide +kernel
  have hlast : (lastVerdict "registration_admin_reviewer"
      (rejected.store.runtime.history ⟨0⟩)).map
        (approves "registration_admin_reviewer" "registration_approved") = some false := by
    decide +kernel
  cases hn : NodeExecutor.node x.patchPanel "authority_provisioner_sink" .sink with
  | error e =>
    rw [hn] at hnode
    cases hnode
  | ok n =>
    rw [hn] at hnode
    rcases hrun : (x.executor.executeSink ⟨0⟩ "authority_provisioner_sink" none none).run .simple
      rejected with ⟨r, m'⟩
    rw [hrun] at hruns
    cases r with
    | error e => cases hruns
    | ok result =>
      obtain ⟨e, he, happroves⟩ := (hsinks x ⟨0⟩ _ none none n result m' hn hrun).1
        (Option.some.inj hnode) ("registration_admin_reviewer", "registration_approved")
        (List.mem_cons_of_mem _ List.mem_cons_self)
      rw [he, Option.map_some, happroves] at hlast
      cases hlast

end GhostMesh
