import GhostMesh.Nodes.Services

/-!
# What an operation of the shadow service did

Every operation reads at most one record and writes at most one. `ShadowEffect` says
which, by the operation and its outcome; all other operations leave the records of the
service alone.
-/

set_option autoImplicit false

namespace GhostMesh

open InMemoryCardRuntime Op
open Relation (ReflTransGen)
open Exec (bind_cases bind_same)

/-- An application whose runtime and shadow service are new, with anything in its other
stores. -/
def App.newServices (a : App) (ticks draws : Nat) : Machine App :=
  ({ a with shadow := ShadowStore.init } : App).boot ticks draws

/-- The metadata that `create_shadow_card` gives to a new card. -/
def shadowMetadata (productionCard : Card) (candidateId : String) : JsonObj :=
  JsonObj.update productionCard.metadata
    [("shadow", .bool true), ("production_card_id", .str productionCard.id.str),
      ("candidate_id", .str candidateId)]

/-- The policy skips the card, or the card has its shadows already. -/
def ShadowPolicy.refuses (policy : ShadowPolicy) (s : ShadowStore) (cardId : Uuid) : Bool :=
  policy.sampleRate.leZero || policy.maxParallel ≤ (ShadowService.activeLinks s cardId).length

/-- What `create_card` answers when `create_shadow_card` asks for the shadow. -/
def shadowCard (w : World) (a : Machine App) (productionCard : Card) (candidateId : String)
    (key : Option String) : Except PyErr Card × Machine InMemoryCardRuntime :=
  (InMemoryCardRuntime.createCard (beforeFirstColon productionCard.workflowVersion)
    productionCard.payload (some (shadowMetadata productionCard candidateId)) key).run w
    (App.runtimeMachine a)

def ShadowStore.putLink (s : ShadowStore) (id : Uuid) (l : ShadowCardLink) : ShadowStore :=
  { s with links := s.links.set id l }

def ShadowStore.putMutation (s : ShadowStore) (id : Uuid) (mu : ProposedMutation) : ShadowStore :=
  { s with mutations := s.mutations.set id mu }

def newLink (w : World) (b : Machine InMemoryCardRuntime) (productionCard shadow : Card)
    (candidateId : String) : ShadowCardLink :=
  ⟨w.uuid4 b.draws, productionCard.id, shadow.id, candidateId, "active", [], w.clock b.ticks⟩

/-- A link that is stored: the card it points at is the one that `create_card` returned. -/
structure CreatesLink (w : World) (a a' : Machine App) (productionCard : Card)
    (candidateId : String) (policy : ShadowPolicy) (key : Option String) (shadow : Card)
    (b : Machine InMemoryCardRuntime) : Prop where
  wanted : policy.refuses a.store.shadow productionCard.id = false
  created : shadowCard w a productionCard candidateId key = (.ok shadow, b)
  stored : a'.store.shadow = a.store.shadow.putLink (w.uuid4 b.draws)
    (newLink w b productionCard shadow candidateId)
  recorded : Effect w { b with ticks := b.ticks + 1, draws := b.draws + 1 } (App.runtimeMachine a')

section Create
variable {w : World} {a a' : Machine App}

/-- An event for the history of a card: one effect on the runtime, none on the service. -/
theorem recordEvent_effect {cardId : Uuid} {type : String} {actor : Option String}
    {payload : Option JsonObj} {key : Option String} {r : Except PyErr CardEvent}
    (h : (App.cardRuntime.recordEvent cardId type actor payload key).run w a = (r, a')) :
    Effect w (App.runtimeMachine a) (App.runtimeMachine a') ∧
      a'.store.shadow = a.store.shadow := by
  obtain ⟨b, hb, rfl⟩ := App.runtime_cases (x := InMemoryCardRuntime.recordEvent cardId type actor
    payload key) h
  have heffect := RuntimeCall.step_effect w (App.runtimeMachine a)
    (.recordEvent cardId type actor payload key)
  simp only [RuntimeCall.step, hb] at heffect
  exact ⟨heffect, rfl⟩

theorem createShadowCard_cases {card : Card} {candidateId : String} {policy : ShadowPolicy}
    {key : Option String} {r : Except PyErr ShadowRun}
    (h : (App.shadowService.createShadowCard card candidateId policy key).run w a = (r, a')) :
    (a'.store.shadow = a.store.shadow ∧ (∃ e, r = .error e) ∧
      (policy.refuses a.store.shadow card.id = true ∨
        ∃ e, (shadowCard w a card candidateId key).1 = .error e)) ∨
      ∃ shadow b, CreatesLink w a a' card candidateId policy key shadow b := by
  unfold ShadowService.createShadowCard at h
  rcases Exec.ensure_bind h with ⟨hrate, rfl, rfl⟩ | ⟨hrate, h⟩
  · refine .inl ⟨rfl, ⟨_, rfl⟩, .inl ?_⟩
    have hzero : policy.sampleRate.leZero = true := by simpa using hrate
    rw [ShadowPolicy.refuses, hzero, Bool.true_or]
  have hget : (Op.on App.shadowService.store Op.get).run w a = (.ok a.store.shadow, a) := rfl
  rw [Exec.run_bind_ok hget] at h
  rcases Exec.ensure_bind h with ⟨hfull, rfl, rfl⟩ | ⟨hroom, h⟩
  · refine .inl ⟨rfl, ⟨_, rfl⟩, .inl ?_⟩
    simp only [decide_eq_false_iff_not, not_lt] at hfull
    rw [ShadowPolicy.refuses, decide_eq_true hfull, Bool.or_true]
  have hwanted : policy.refuses a.store.shadow card.id = false := by
    have hpositive : policy.sampleRate.leZero = false := by simpa using hrate
    simp only [decide_eq_true_eq] at hroom
    rw [ShadowPolicy.refuses, hpositive, decide_eq_false (not_le.mpr hroom)]
    rfl
  rcases bind_cases h with ⟨e, hcreate, rfl⟩ | ⟨shadow, m1, hcreate, h⟩
  · obtain ⟨b, hb, rfl⟩ := App.runtime_cases (x := InMemoryCardRuntime.createCard _ _ _ _) hcreate
    exact .inl ⟨rfl, ⟨e, rfl⟩, .inr ⟨e, congrArg Prod.fst hb⟩⟩
  obtain ⟨b, hb, rfl⟩ := App.runtime_cases (x := InMemoryCardRuntime.createCard _ _ _ _) hcreate
  refine .inr ⟨shadow, b, ?_⟩
  rw [Exec.run_bind_ok (Op.run_uuid4 _ _), Exec.run_bind_ok (Op.run_now _ _)] at h
  have hput : ∀ link m, (App.shadowService.putLink link).run w m =
      (.ok (), { m with store := { m.store with shadow := m.store.shadow.putLink link.id link } }) :=
    fun _ _ => rfl
  rw [Exec.run_bind_ok (hput _ _)] at h
  rcases bind_cases h with ⟨e, hrecord, -⟩ | ⟨event, m2, hrecord, h⟩
  · obtain ⟨heffect, hsame⟩ := recordEvent_effect hrecord
    exact ⟨hwanted, hb, hsame, heffect⟩
  · cases h
    obtain ⟨heffect, hsame⟩ := recordEvent_effect hrecord
    exact ⟨hwanted, hb, hsame, heffect⟩

theorem CreatesLink.created_effect {card : Card} {candidateId : String} {policy : ShadowPolicy}
    {key : Option String} {shadow : Card} {b : Machine InMemoryCardRuntime}
    (h : CreatesLink w a a' card candidateId policy key shadow b) :
    Effect w (App.runtimeMachine a) b := by
  have heffect := RuntimeCall.step_effect w (App.runtimeMachine a)
    (.createCard (beforeFirstColon card.workflowVersion) card.payload
      (some (shadowMetadata card candidateId)) key)
  have hb : (shadowCard w a card candidateId key).2 = b := congrArg Prod.snd h.created
  rwa [← hb]

end Create

/-! ## Inversion of a call -/

/-- Whether a call returned, and else the exception it raised. -/
def ShadowCall.result (w : World) (a : Machine App) : ShadowCall → Except PyErr Unit
  | create card candidateId policy key =>
    ((App.shadowService.createShadowCard card candidateId policy key).run w a).1.map fun _ => ()
  | complete linkId metrics =>
    ((App.shadowService.completeShadow linkId metrics).run w a).1.map fun _ => ()
  | propose mutationType proposedBy payload =>
    ((App.shadowService.proposeMutation mutationType proposedBy payload).run w a).1.map fun _ => ()
  | validate mutationId accepted validatorId reason =>
    ((App.shadowService.validateMutation mutationId accepted validatorId reason).run w a).1.map
      fun _ => ()
  | promote mutationId p =>
    ((App.shadowService.promoteMutation mutationId p).run w a).1.map fun _ => ()

/-- The completion or validation of a record that does not exist. -/
def ShadowCall.Missing (a : Machine App) : ShadowCall → Prop
  | complete linkId _ => a.store.shadow.links.get? linkId = none
  | validate mutationId _ _ _ => a.store.shadow.mutations.get? mutationId = none
  | _ => True

/-- The record that a call wrote. An event that cannot be recorded raises after the
record of its link was written. -/
inductive ShadowEffect (w : World) (a a' : Machine App) :
    ShadowCall → Except PyErr Unit → Prop where
  | raised {call : ShadowCall} {e : PyErr} (missing : call.Missing a)
      (same : a'.store.shadow = a.store.shadow) : ShadowEffect w a a' call (.error e)
  | creates {card candidateId policy key r} (shadow : Card) (b : Machine InMemoryCardRuntime)
      (h : CreatesLink w a a' card candidateId policy key shadow b) :
      ShadowEffect w a a' (.create card candidateId policy key) r
  | completes {linkId metrics r} (l : ShadowCardLink)
      (stored : a.store.shadow.links.get? linkId = some l)
      (after : a'.store.shadow =
        a.store.shadow.putLink linkId { l with status := "completed", metrics }) :
      ShadowEffect w a a' (.complete linkId metrics) r
  | proposes {mutationType proposedBy payload} (drawn : a.draws < a'.draws)
      (after : a'.store.shadow = a.store.shadow.putMutation (w.uuid4 a.draws)
        ⟨w.uuid4 a.draws, mutationType, proposedBy, payload, .shadowing, w.clock a.ticks, none,
          none⟩) :
      ShadowEffect w a a' (.propose mutationType proposedBy payload) (.ok ())
  | validates {mutationId accepted validatorId reason} (mu : ProposedMutation)
      (payload : JsonObj) (validatedAt : Instant)
      (stored : a.store.shadow.mutations.get? mutationId = some mu)
      (after : a'.store.shadow = a.store.shadow.putMutation mutationId
        { mu with status := if accepted then .validated else .rejected,
                  validatedAt := some validatedAt, payload }) :
      ShadowEffect w a a' (.validate mutationId accepted validatorId reason) (.ok ())
  | promotes {mutationId p} (mu : ProposedMutation) (promotedAt : Instant)
      (stored : a.store.shadow.mutations.get? mutationId = some mu)
      (validated : mu.status = .validated)
      (after : a'.store.shadow = a.store.shadow.putMutation mutationId
        { mu with status := .promoted, promotedAt := some promotedAt }) :
      ShadowEffect w a a' (.promote mutationId p) (.ok ())

section Cases
variable {w : World} {a : Machine App}

theorem shadowLink_bind {α : Type} {a' : Machine App} {linkId : Uuid}
    {f : ShadowCardLink → Op App α} {r : Except PyErr α}
    (h : (App.shadowService.link linkId >>= f).run w a = (r, a')) :
    (a.store.shadow.links.get? linkId = none ∧ a' = a ∧ ∃ e, r = .error e) ∨
      ∃ l, a.store.shadow.links.get? linkId = some l ∧ (f l).run w a = (r, a') := by
  have hget : (Op.on App.shadowService.store Op.get).run w a = (.ok a.store.shadow, a) := rfl
  rw [Exec.run_bind, ShadowService.link, Exec.run_bind_ok hget] at h
  cases hl : a.store.shadow.links.get? linkId with
  | none =>
    rw [hl] at h
    cases h
    exact .inl ⟨rfl, rfl, _, rfl⟩
  | some l =>
    rw [hl] at h
    exact .inr ⟨l, rfl, h⟩

theorem shadowMutation_bind {α : Type} {a' : Machine App} {mutationId : Uuid}
    {f : ProposedMutation → Op App α} {r : Except PyErr α}
    (h : (App.shadowService.mutation mutationId >>= f).run w a = (r, a')) :
    (a.store.shadow.mutations.get? mutationId = none ∧ a' = a ∧ ∃ e, r = .error e) ∨
      ∃ mu, a.store.shadow.mutations.get? mutationId = some mu ∧ (f mu).run w a = (r, a') := by
  have hget : (Op.on App.shadowService.store Op.get).run w a = (.ok a.store.shadow, a) := rfl
  rw [Exec.run_bind, ShadowService.mutation, Exec.run_bind_ok hget] at h
  cases hmu : a.store.shadow.mutations.get? mutationId with
  | none =>
    rw [hmu] at h
    cases h
    exact .inl ⟨rfl, rfl, _, rfl⟩
  | some mu =>
    rw [hmu] at h
    exact .inr ⟨mu, rfl, h⟩

/-- Inversion, one case for each operation. -/
theorem ShadowCall.step_cases (w : World) (a : Machine App) (call : ShadowCall) :
    ShadowEffect w a (call.step w a) call (call.result w a) := by
  cases call with
  | create card candidateId policy key =>
    simp only [step, result]
    rcases hrun : (App.shadowService.createShadowCard card candidateId policy key).run w a with
      ⟨r, a'⟩
    rcases createShadowCard_cases hrun with ⟨hsame, ⟨e, rfl⟩, -⟩ | ⟨shadow, b, h⟩
    · exact .raised trivial hsame
    · exact .creates shadow b h
  | complete linkId metrics =>
    simp only [step, result]
    rcases hrun : (App.shadowService.completeShadow linkId metrics).run w a with ⟨r, a'⟩
    unfold ShadowService.completeShadow at hrun
    rcases shadowLink_bind hrun with ⟨hnone, rfl, e, rfl⟩ | ⟨l, hstored, h⟩
    · exact .raised hnone rfl
    refine .completes l hstored ?_
    rcases bind_cases h with ⟨e, hput, -⟩ | ⟨_, b, hput, h⟩
    · cases hput
    cases hput
    rcases bind_cases h with ⟨e, hrecord, -⟩ | ⟨event, b', hrecord, h⟩
    · exact (recordEvent_effect hrecord).2
    · cases h
      exact (recordEvent_effect hrecord).2
  | propose mutationType proposedBy payload => exact .proposes (Nat.lt_succ_self _) rfl
  | validate mutationId accepted validatorId reason =>
    simp only [step, result]
    rcases hrun : (App.shadowService.validateMutation mutationId accepted validatorId reason).run
      w a with ⟨r, a'⟩
    unfold ShadowService.validateMutation at hrun
    rcases shadowMutation_bind hrun with ⟨hnone, rfl, e, rfl⟩ | ⟨mu, hstored, h⟩
    · exact .raised hnone rfl
    cases h
    exact .validates mu _ _ hstored rfl
  | promote mutationId p =>
    simp only [step, result]
    rcases hrun : (App.shadowService.promoteMutation mutationId p).run w a with ⟨r, a'⟩
    unfold ShadowService.promoteMutation at hrun
    rcases shadowMutation_bind hrun with ⟨-, rfl, e, rfl⟩ | ⟨mu, hstored, h⟩
    · exact .raised trivial rfl
    rcases Exec.ensure_bind h with ⟨-, rfl, rfl⟩ | ⟨hvalidated, h⟩
    · exact .raised trivial rfl
    rcases bind_cases h with ⟨e, hregister, rfl⟩ | ⟨_, b, hregister, h⟩
    · obtain ⟨b, -, rfl⟩ := App.runtime_cases (x := InMemoryCardRuntime.registerPatchPanel p)
        hregister
      exact .raised trivial rfl
    · obtain ⟨b, -, rfl⟩ := App.runtime_cases (x := InMemoryCardRuntime.registerPatchPanel p)
        hregister
      cases h
      exact .promotes mu _ hstored (of_decide_eq_true hvalidated) rfl

end Cases

/-! ## Everything else -/

section Others
variable {w : World} {a a' : Machine App}

theorem sinkEffect_records {x : NodeExecutor App} {n : NodeDefinition} {card : Card}
    {r : Except PyErr (Option String)} (h : NodeExecutor.SinkEffect w x n card a a' r) :
    a'.store.shadow = a.store.shadow := by
  cases h with
  | passes same _ => rw [same]
  | provisions _ _ _ writes =>
    rw [writes.store]
    rfl
  | publishes _ _ _ _ panel _ writes =>
    rw [writes.store]
    rfl

theorem executeSink_records {x : NodeExecutor App} (hx : x.runtime = App.cardRuntime)
    (hregistry : x.registry = none ∨ x.registry = some App.patchPanelRegistry)
    (hauthorization : x.authorizationRepository = none ∨
      x.authorizationRepository = some App.authorizationRepository)
    {cardId : Uuid} {sinkId : String} {reference key : Option String}
    {r : Except PyErr SinkResult}
    (h : (x.executeSink cardId sinkId reference key).run w a = (r, a')) :
    a'.store.shadow = a.store.shadow := by
  rcases NodeExecutor.executeSink_cases hx hregistry hauthorization h with
    ⟨rfl, -⟩ | ⟨n, card, m1, r1, -, -, -, heffect, -, hrecord⟩
  · rfl
  · have hsink := sinkEffect_records heffect
    rcases hrecord with rfl | ⟨payload, s, e, -, rfl⟩
    · exact hsink
    · exact hsink

theorem boundarySource_records (request : BoundarySourceRequest) :
    ((BoundaryAdapterService.executeSource App.cardRuntime request).run w a).2.store.shadow =
      a.store.shadow := by
  rcases hrun : (BoundaryAdapterService.executeSource App.cardRuntime request).run w a with ⟨r, b⟩
  unfold BoundaryAdapterService.executeSource at hrun
  obtain ⟨rfl, -⟩ | ⟨p, -, h⟩ := patchPanel_bind hrun
  · rfl
  obtain ⟨rfl, -⟩ | ⟨n, -, h⟩ := bind_same (Op.run_ofExcept _ w a) h
  · rfl
  rw [Exec.run_bind_ok (Op.run_world w a)] at h
  obtain ⟨rfl, -⟩ | ⟨contract, -, h⟩ := bind_same (Op.run_ofExcept _ w a) h
  · rfl
  obtain ⟨rfl, -⟩ | ⟨_, -, h⟩ := bind_same (Op.run_ofExcept _ w a) h
  · rfl
  obtain ⟨rfl, -⟩ | ⟨_, -, h⟩ := bind_same (Op.run_ofExcept _ w a) h
  · rfl
  obtain ⟨rfl, -⟩ | ⟨mapped, -, h⟩ := bind_same (Op.run_ofExcept _ w a) h
  · rfl
  obtain ⟨rfl, -⟩ | ⟨metadata, -, h⟩ := bind_same (Op.run_ofExcept _ w a) h
  · rfl
  obtain ⟨rfl, -⟩ | ⟨deduplicationKey, -, h⟩ := bind_same (Op.run_ofExcept _ w a) h
  · rfl
  have hlift : ∀ {α : Type} {x : Op InMemoryCardRuntime α} {y : Op App α} {m : Machine App}
      {r : Except PyErr α}, y.run w a = (r, m) → y = Op.on App.runtimeStore x →
      m.store.shadow = a.store.shadow := by
    intro α x y m r hrun hlifted
    rw [hlifted] at hrun
    obtain ⟨s, -, rfl⟩ := App.runtime_cases hrun
    rfl
  rcases bind_cases h with ⟨e, hsource, -⟩ | ⟨card, m, hsource, h⟩
  · exact hlift hsource (NodeExecutor.on_executeSource _ InMemoryCardRuntime.runtime rfl ..)
  have hsame := hlift hsource (NodeExecutor.on_executeSource _ InMemoryCardRuntime.runtime rfl ..)
  rw [← hsame]
  rcases bind_cases h with ⟨e, hrecord, -⟩ | ⟨event, m, hrecord, h⟩
  · exact (recordEvent_effect hrecord).2
  · cases h
    exact (recordEvent_effect hrecord).2

/-- The call is one of the shadow service. -/
def ServiceCall.isShadow : ServiceCall → Bool
  | shadow _ => true
  | mesh _ | boundarySource _ | boundarySink _ => false

theorem ServiceCall.step_records {call : ServiceCall} (hcall : call.isShadow = false) :
    (call.step w a).store.shadow = a.store.shadow := by
  cases call with
  | shadow call => cases hcall
  | boundarySource request => exact boundarySource_records request
  | boundarySink request =>
    rcases hrun : (BoundaryAdapterService.executeSink App.cardRuntime request).run w a with ⟨r, b⟩
    have hstep : ServiceCall.step w a (.boundarySink request) = b := congrArg Prod.snd hrun
    rw [hstep]
    rcases boundarySink_cases hrun with rfl | ⟨p, n, card, reference, key, r', b', hegress⟩
    · rfl
    have hsink := executeSink_records (x := NodeExecutor.bare App.cardRuntime p) rfl (.inl rfl)
      (.inl rfl) hegress.sink
    rcases hegress.after with rfl | ⟨-, payload, key', rfl⟩
    · exact hsink
    · exact hsink
  | mesh call =>
    cases call with
    | runtime call => rfl
    | node setup call =>
      simp only [step, MeshCall.step]
      cases call with
      | source sourceId payload metadata key => rw [NodeCall.step_source]; rfl
      | worker request => rw [NodeCall.step_worker]; rfl
      | validator request => rw [NodeCall.step_validator]; rfl
      | sink cardId sinkId reference key =>
        exact executeSink_records (x := setup.executor) rfl setup.registry_cases
          setup.authorization_cases rfl

/-- No step turns the supply of identifiers back. -/
theorem ServiceCall.step_draws (call : ServiceCall) : a.draws ≤ (call.step w a).draws := by
  have heffects := call.step_effects (w := w) (a := a)
  have hgen : ∀ {m m' : Machine InMemoryCardRuntime}, ReflTransGen (Effect w) m m' →
      m.draws ≤ m'.draws := by
    intro m m' hm
    induction hm with
    | refl => exact Nat.le_refl _
    | tail _ heffect ih => exact Nat.le_trans ih heffect.later.draws
  exact hgen heffects

end Others

end GhostMesh
