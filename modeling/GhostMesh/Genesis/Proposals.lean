import GhostMesh.Defaults.ApprovalPanel
import GhostMesh.Genesis.Launches
import GhostMesh.Runtime.Idempotency

/-!
# What a proposal returns

The card of a proposal is the one stored under the key of the intent, the id and the
version. The key says nothing about the definition: the call that was first to use it
decides what the card carries.
-/

set_option autoImplicit false

namespace GhostMesh

open InMemoryCardRuntime Op
open GenesisService (proposeKey proposalPayload launchKey)

/-- The payload has this definition and this metadata. -/
structure Carries (payload : JsonObj) (candidate : PatchPanel)
    (metadata : PatchPanelRegistryMetadata) : Prop where
  definition : payload.get? "candidate_definition" = some candidate.toJson
  metadata : payload.get? "registry_metadata" = some metadata.toJson

theorem proposalPayload_carries (intent : GenesisIntent) (proposedBy : String)
    (candidate : PatchPanel) (metadata : PatchPanelRegistryMetadata)
    (baseId baseVersion : Option String) : Carries
      (proposalPayload intent proposedBy candidate metadata baseId baseVersion) candidate metadata :=
  ⟨rfl, rfl⟩

/-- The payload of the card that a launch asks for. -/
def launchPayload (intent : GenesisIntent) : JsonObj :=
  [("goal", .str intent.goal), ("input_type", .str intent.inputType),
    ("desired_outputs", Json.ofStrings intent.desiredOutputs),
    ("tags", Json.ofStrings intent.tags), ("constraints", intent.constraints.toJson)]

/-- The call asks, under the key, for a card with the payload. -/
def PlatformCall.PutsCard (s : App) (k : String) (payload : JsonObj) : PlatformCall → Prop
  | runtime (.createCard _ payload' _ key) => key = some k ∧ payload = payload'
  | runtime (.moveCard card _ _ _ key) =>
    key = some k ∧ ∃ c, s.runtime.cards.get? card = some c ∧ payload = c.payload
  | genesis (.propose intentId proposedBy candidate metadata baseId baseVersion) =>
    ∃ intent, s.genesis.intents.get? intentId = some intent ∧ proposeKey intent candidate = k ∧
      payload = proposalPayload intent proposedBy candidate metadata baseId baseVersion
  | genesis (.launch intentId registryEntryId) => ∃ intent entry,
    App.genesisService.Selects (fun s => s.registry.entries) s intentId registryEntryId intent
      entry ∧ launchKey intent entry = k ∧ payload = launchPayload intent
  | _ => False

theorem PlatformCall.PutsCard.unique {s : App} {k : String} {payload payload' : JsonObj}
    {call : PlatformCall} (h : call.PutsCard s k payload) (h' : call.PutsCard s k payload') :
    payload' = payload := by
  cases call with
  | runtime call =>
    cases call with
    | createCard panel p tags key => exact h'.2.trans h.2.symm
    | moveCard card bucket actor reason key =>
      obtain ⟨-, c, hc, rfl⟩ := h
      obtain ⟨-, c', hc', rfl⟩ := h'
      rw [Option.some.inj (hc'.symm.trans hc)]
    | _ => exact h.elim
  | registry call => exact h.elim
  | genesis call =>
    cases call with
    | receive request => exact h.elim
    | launch intentId registryEntryId =>
      obtain ⟨intent, entry, hselects, -, rfl⟩ := h
      obtain ⟨intent', entry', hselects', -, rfl⟩ := h'
      rw [(hselects.unique hselects').1]
    | propose intentId proposedBy candidate metadata baseId baseVersion =>
      obtain ⟨intent, hintent, -, rfl⟩ := h
      obtain ⟨intent', hintent', -, rfl⟩ := h'
      rw [Option.some.inj (hintent'.symm.trans hintent)]

/-! ## The key map over a run -/

/-- What the runtime has under a key. -/
def answer (k : String) (a : Machine App) : Option Stored := a.store.runtime.cached (some k)

/-- The call is the first to use the key. -/
def PlatformCall.FirstUses (w : World) (a : Machine App) (k : String) (call : PlatformCall) :
    Prop :=
  answer k a = none ∧ answer k (call.step w a) ≠ none

section Steps
variable {w : World} {a a' : Machine App} {k : String}

/-- Under another key a write answers nothing new. -/
theorem InMemoryCardRuntime.cached_putKey_ne {s : InMemoryCardRuntime} {key : Option String}
    {v : Stored} (hne : key ≠ some k) : (s.putKey key v).cached (some k) = s.cached (some k) := by
  unfold putKey
  cases hkey : truthyStr key with
  | none => rfl
  | some k' =>
    have hother : k ≠ k' := by
      rintro rfl
      exact hne (eq_of_truthyStr hkey)
    unfold cached
    cases hk : truthyStr (some k) with
    | none => rfl
    | some k₀ =>
      have hsame : k₀ = k := (Option.some.inj (eq_of_truthyStr hk)).symm
      simp only [Option.bind_some, hsame, Dict.get?_set_ne _ _ hother]

/-- A key that gets its answer from a write is the key of the write. -/
theorem InMemoryCardRuntime.cached_putKey_new {s : InMemoryCardRuntime} {key : Option String}
    {v v' : Stored} (h : (s.putKey key v').cached (some k) = some v)
    (hnew : s.cached (some k) = none) : key = some k ∧ v = v' := by
  rcases cached_putKey_cases h with hold | rfl
  · rw [hnew] at hold
    cases hold
  · refine ⟨?_, rfl⟩
    by_contra hne
    rw [cached_putKey_ne hne, hnew] at h
    cases h

/-- A creation that gets the key its answer asks for the card that is stored. -/
theorem creates_new {b : Machine InMemoryCardRuntime} {panel : String} {payload : JsonObj}
    {tags : Option JsonObj} {key : Option String} {c card : Card} {e : CardEvent}
    (h : Creates w (App.runtimeMachine a) b panel payload tags key c e)
    (hnew : answer k a = none) (hcard : b.store.cached (some k) = some (.card card)) :
    key = some k ∧ card.payload = payload := by
  rw [h.store] at hcard
  obtain ⟨hkey, hsame⟩ := cached_putKey_new hcard hnew
  cases hsame
  exact ⟨hkey, h.payload⟩

/-- The runtime after a call of the genesis service: as before, or with the card that the
call asks for. -/
theorem GenesisCall.step_runtime (call : GenesisCall) :
    (call.step w a).store.runtime = a.store.runtime ∨ ∃ b panel payload tags key c e,
      (call.step w a).store.runtime = b.store ∧
      Creates w (App.runtimeMachine a) b panel payload tags key c e ∧
      ∀ k, key = some k → (PlatformCall.genesis call).PutsCard a.store k payload := by
  cases call with
  | receive request =>
    rcases hrun : (App.genesisService.receiveIntent request).run w a with ⟨r, a'⟩
    have hstep : (GenesisCall.receive request).step w a = a' := congrArg Prod.snd hrun
    rw [hstep]
    rcases receiveIntent_cases hrun with ⟨hstore, -⟩ | ⟨intent, index, -, -, -, -, hstore⟩
    · exact .inl (congrArg App.runtime hstore)
    · exact .inl (by rw [hstore])
  | launch intentId registryEntryId =>
    rcases hrun : (App.genesisService.launch intentId registryEntryId).run w a with ⟨r, a'⟩
    have hstep : (GenesisCall.launch intentId registryEntryId).step w a = a' :=
      congrArg Prod.snd hrun
    rw [hstep]
    rcases GenesisService.launch_cases appRegistry_gets hrun with
      ⟨rfl, -⟩ | ⟨intent, entry, b, hselects, hcard, hafter⟩
    · exact .inl rfl
    have hruntime : a'.store.runtime = b.store.runtime := by
      rcases hafter with ⟨rfl, -⟩ | ⟨card, -, rfl⟩
      · rfl
      · rfl
    rw [hruntime]
    rcases createCard_creates hcard with rfl | ⟨m, c, e, rfl, hcreates⟩
    · exact .inl rfl
    · refine .inr ⟨m, _, _, _, _, c, e, rfl, hcreates, fun k hk => ?_⟩
      exact ⟨intent, entry, hselects, Option.some.inj hk, rfl⟩
  | propose intentId proposedBy candidate metadata baseId baseVersion =>
    rcases hrun : (App.genesisService.propose intentId proposedBy candidate metadata baseId
      baseVersion).run w a with ⟨r, a'⟩
    have hstep : (GenesisCall.propose intentId proposedBy candidate metadata baseId
      baseVersion).step w a = a' := congrArg Prod.snd hrun
    rw [hstep]
    rcases GenesisService.propose_asks hrun with ⟨rfl, -⟩ | ⟨intent, b, hintent, hcard, hafter⟩
    · exact .inl rfl
    have hruntime : a'.store.runtime = b.store.runtime := by
      rcases hafter with rfl | ⟨cardId, updatedAt, rfl⟩
      · rfl
      · rfl
    rw [hruntime]
    rcases createCard_creates hcard with rfl | ⟨m, c, e, rfl, hcreates⟩
    · exact .inl rfl
    · refine .inr ⟨m, _, _, _, _, c, e, rfl, hcreates, fun k hk => ?_⟩
      exact ⟨intent, hintent, Option.some.inj hk, rfl⟩

/-- The step lemma: an answer stays. -/
theorem answer_writtenOnce (w : World) (k : String) :
    WrittenOnce (PlatformCall.step w) (answer k) := by
  intro a call v hv
  cases call with
  | runtime call =>
    have hkept := (RuntimeCall.step_effect w (App.runtimeMachine a) call).keeps_cached hv
    exact hkept
  | registry call =>
    obtain ⟨hstore, -⟩ := call.step_via (w := w) (a := a)
    unfold answer PlatformCall.step
    rw [hstore]
    exact hv
  | genesis call =>
    unfold answer PlatformCall.step
    rcases call.step_runtime (w := w) (a := a) with
      hsame | ⟨b, panel, payload, tags, key, c, e, hb, hcreates, -⟩
    · rw [hsame]
      exact hv
    · rw [hb]
      exact Effect.keeps_cached (.creates hcreates) hv

/-- The step lemma: a card that becomes the answer is one that the call asks for. -/
theorem PlatformCall.putsCard_of_new {call : PlatformCall} {card : Card}
    (hnew : answer k a = none) (hanswer : answer k (call.step w a) = some (.card card)) :
    call.PutsCard a.store k card.payload := by
  cases call with
  | runtime call =>
    have hafter : (call.step w (App.runtimeMachine a)).store.cached (some k) =
        some (.card card) := hanswer
    have hbefore : (App.runtimeMachine a).store.cached (some k) = none := hnew
    have heffect := RuntimeCall.step_cases w (App.runtimeMachine a) call
    generalize call.result w (App.runtimeMachine a) = r at heffect
    generalize call.step w (App.runtimeMachine a) = m' at heffect hafter
    cases heffect with
    | same h =>
      rw [h.store, hbefore] at hafter
      cases hafter
    | registers report hvalid h =>
      rw [h, cached_putPanel, hbefore] at hafter
      cases hafter
    | expires hexp hlater =>
      rw [cached_expires hexp, hbefore] at hafter
      cases hafter
    | creates h =>
      rw [h.store] at hafter
      obtain ⟨hkey, hcard⟩ := cached_putKey_new hafter hbefore
      cases hcard
      exact ⟨hkey, h.payload⟩
    | moves h =>
      rw [h.store] at hafter
      obtain ⟨hkey, hcard⟩ := cached_putKey_new hafter hbefore
      cases hcard
      exact ⟨hkey, _, h.card, rfl⟩
    | claims h =>
      rw [h.store] at hafter
      cases (cached_putKey_new hafter hbefore).2
    | submits h =>
      rw [h.store] at hafter
      cases (cached_putKey_new hafter hbefore).2
    | renews h =>
      rw [h.store] at hafter
      cases (cached_putKey_new hafter hbefore).2
    | releases h =>
      rw [h.store] at hafter
      cases (cached_putKey_new hafter hbefore).2
    | validates h =>
      rw [h.store] at hafter
      have hrouted := cached_putKey_new hafter ((cached_routeCard _ _).trans hbefore)
      cases hrouted.2
    | records h =>
      rw [h.store] at hafter
      cases (cached_putKey_new hafter hbefore).2
  | registry call =>
    obtain ⟨hstore, -⟩ := call.step_via (w := w) (a := a)
    have hafter : answer k (call.step w a) = answer k a := by
      unfold answer
      rw [hstore]
      rfl
    have hsome : answer k (call.step w a) = some (.card card) := hanswer
    rw [hafter, hnew] at hsome
    cases hsome
  | genesis call =>
    unfold answer PlatformCall.step at hanswer
    rcases call.step_runtime (w := w) (a := a) with
      hsame | ⟨b, panel, payload, tags, key, c, e, hb, hcreates, hputs⟩
    · rw [hsame] at hanswer
      have hnone : a.store.runtime.cached (some k) = none := hnew
      rw [hnone] at hanswer
      cases hanswer
    · rw [hb] at hanswer
      obtain ⟨hkey, hpayload⟩ := creates_new hcreates hnew hanswer
      rw [hpayload]
      exact hputs k hkey

/-- The card of a proposal is the answer of its key, or a new one with the payload. -/
theorem propose_returns {intentId : Uuid} {proposedBy : String} {candidate : PatchPanel}
    {metadata : PatchPanelRegistryMetadata} {baseId baseVersion : Option String} {card : Card}
    (h : ((App.genesisService.propose intentId proposedBy candidate metadata baseId
      baseVersion).run w a).1 = .ok card) :
    ∃ intent, a.store.genesis.intents.get? intentId = some intent ∧
      (answer (proposeKey intent candidate) a = some (.card card) ∨
        answer (proposeKey intent candidate) a = none ∧ card.payload =
          proposalPayload intent proposedBy candidate metadata baseId baseVersion) := by
  rcases hrun : (App.genesisService.propose intentId proposedBy candidate metadata baseId
    baseVersion).run w a with ⟨r, a'⟩
  obtain rfl : r = .ok card := (congrArg Prod.fst hrun).symm.trans h
  rcases GenesisService.propose_asks hrun with ⟨-, e, he⟩ | ⟨intent, b, hintent, hcard, -⟩
  · cases he
  obtain ⟨m, hm, rfl⟩ := App.runtime_cases (x := InMemoryCardRuntime.createCard _ _ _ _) hcard
  refine ⟨intent, hintent, ?_⟩
  rcases (createCard_returns_iff _ _).mp (congrArg Prod.fst hm) with
    hcached | ⟨hnone, p, bucket, -, -, rfl⟩
  · exact .inl hcached
  · exact .inr ⟨hnone, rfl⟩

end Steps

/-- Whoever uses the key first in the calls asks for a card with this definition and this
metadata, if it asks for a card. -/
def FirstUseCarries (w : World) (a : Machine App) (calls : List PlatformCall) (k : String)
    (candidate : PatchPanel) (metadata : PatchPanelRegistryMetadata) : Prop :=
  ∀ before call after payload, calls = before ++ call :: after →
    call.FirstUses w (runPlatform w a before) k →
    call.PutsCard (runPlatform w a before).store k payload → Carries payload candidate metadata

section Runs
variable {w : World} {a : Machine App} {k : String}

/-- The answer is the card that the first use of the key has asked for. -/
theorem firstUseCarries_iff {calls : List PlatformCall} {card : Card} {candidate : PatchPanel}
    {metadata : PatchPanelRegistryMetadata} (hstart : answer k a = none)
    (hcard : answer k (runPlatform w a calls) = some (.card card)) :
    FirstUseCarries w a calls k candidate metadata ↔ Carries card.payload candidate metadata := by
  have honce := answer_writtenOnce w k
  constructor
  · intro h
    obtain ⟨before, call, after, hcalls, hnew, hwrite⟩ := honce.exists_write hstart hcard
    have huses : call.FirstUses w (runPlatform w a before) k := by
      refine ⟨hnew, ?_⟩
      have hsome : answer k (call.step w (runPlatform w a before)) = some (.card card) := hwrite
      rw [hsome]
      simp
    exact h before call after card.payload hcalls huses (PlatformCall.putsCard_of_new hnew hwrite)
  · intro h before call after payload hcalls huses hputs
    obtain ⟨v, hwrite⟩ := Option.ne_none_iff_exists'.mp huses.2
    rw [hcalls] at hcard
    obtain rfl : v = .card card := honce.write_eq hwrite hcard
    have hcarried : payload = card.payload :=
      (PlatformCall.putsCard_of_new huses.1 hwrite).unique hputs
    rw [hcarried]
    exact h

theorem firstUseCarries_of_unused {calls : List PlatformCall} {candidate : PatchPanel}
    {metadata : PatchPanelRegistryMetadata} (hend : answer k (runPlatform w a calls) = none) :
    FirstUseCarries w a calls k candidate metadata := by
  intro before call after payload hcalls huses hputs
  obtain ⟨v, hwrite⟩ := Option.ne_none_iff_exists'.mp huses.2
  have hkept := (answer_writtenOnce w k).foldl after hwrite
  rw [hcalls, runPlatform, List.foldl_append, List.foldl_cons] at hend
  cases hend.symm.trans hkept

/-- A proposal returns what was proposed exactly if the call that was first to use the key
of the intent, the id and the version has asked for a card with the same definition and
the same metadata. -/
theorem proposal_carries_iff (s : App) (ticks draws : Nat) (calls : List PlatformCall)
    {intentId : Uuid} {proposedBy : String} {candidate : PatchPanel}
    {metadata : PatchPanelRegistryMetadata} {baseId baseVersion : Option String} {card : Card}
    (h : ((App.genesisService.propose intentId proposedBy candidate metadata baseId
      baseVersion).run w (runPlatform w (s.newGenesis ticks draws) calls)).1 = .ok card) :
    Carries card.payload candidate metadata ↔ ∃ intent,
      (runPlatform w (s.newGenesis ticks draws) calls).store.genesis.intents.get? intentId =
        some intent ∧ FirstUseCarries w (s.newGenesis ticks draws) calls
          (proposeKey intent candidate) candidate metadata := by
  obtain ⟨intent, hintent, hcard⟩ := propose_returns h
  have hstart : answer (proposeKey intent candidate) (s.newGenesis ticks draws) = none := by
    unfold answer InMemoryCardRuntime.cached
    cases truthyStr (some (proposeKey intent candidate)) <;> rfl
  have hfirst : FirstUseCarries w (s.newGenesis ticks draws) calls (proposeKey intent candidate)
      candidate metadata ↔ Carries card.payload candidate metadata := by
    rcases hcard with hcached | ⟨hunused, hpayload⟩
    · exact firstUseCarries_iff hstart hcached
    · refine ⟨fun _ => ?_, fun _ => firstUseCarries_of_unused hunused⟩
      rw [hpayload]
      exact proposalPayload_carries _ _ _ _ _ _
  rw [← hfirst]
  constructor
  · intro huse
    exact ⟨intent, hintent, huse⟩
  · rintro ⟨intent', hintent', huse⟩
    obtain rfl : intent' = intent := Option.some.inj (hintent'.symm.trans hintent)
    exact huse

end Runs

/-- A line whose edges have been left out. -/
def unconnectedPanel : PatchPanel := { PatchPanelValidator.linePanel "orders" "1" with edges := [] }

def orderLineMetadata : PatchPanelRegistryMetadata :=
  ⟨"Orders", none, [], [], [], [], [], none, none, none, none, .draft⟩

/-- The line is proposed without its edges and rejected. -/
def rejectedProposalCalls : List PlatformCall :=
  [.runtime (.registerPatchPanel systemApproval), .genesis (.receive searchOnlyRequest),
    .genesis (.propose ⟨0⟩ "agent" unconnectedPanel orderLineMetadata none none),
    .runtime (.validateCard ⟨1⟩ "topological_validator" false none (some "topology_invalid") none
      none)]

/-- The card of the first proposal, in the bucket in which it has been placed. -/
def unconnectedCard : Card :=
  ⟨⟨1⟩, "system_pp_approval:1.0.0", "topology_proposals",
    [("kind", .str "patch_panel_proposal"), ("proposal_type", .str "create"),
      ("genesis_intent_id", .str (Uuid.str ⟨0⟩)), ("proposed_by", .str "agent"),
      ("candidate_definition", unconnectedPanel.toJson),
      ("registry_metadata", orderLineMetadata.toJson), ("base_patch_panel_id", .null),
      ("base_version", .null)],
    [("genesis_intent_id", .str (Uuid.str ⟨0⟩)), ("proposed_by", .str "agent"),
      ("candidate_patch_panel_id", .str "orders")], 2⟩

/-- In a reachable state the corrected line, proposed again, gives the card of the line
without edges. -/
theorem correction_dropped :
    ¬ ∀ (w : World) (s : App) (ticks draws : Nat) (calls : List PlatformCall) (intentId : Uuid)
      (proposedBy : String) (candidate : PatchPanel) (metadata : PatchPanelRegistryMetadata)
      (baseId baseVersion : Option String) (card : Card),
      ((App.genesisService.propose intentId proposedBy candidate metadata baseId baseVersion).run w
        (runPlatform w (s.newGenesis ticks draws) calls)).1 = .ok card →
      Carries card.payload candidate metadata := by
  intro h
  have hcarries := h .simple App.init 0 0 rejectedProposalCalls ⟨0⟩ "agent"
    (PatchPanelValidator.linePanel "orders" "1") orderLineMetadata none none unconnectedCard rfl
  have hsame : unconnectedPanel.toJson = (PatchPanelValidator.linePanel "orders" "1").toJson :=
    Option.some.inj hcarries.definition
  simp [PatchPanel.toJson, unconnectedPanel, PatchPanelValidator.linePanel] at hsame

theorem proposal_carries_iff_corrected : Carries unconnectedCard.payload
      (PatchPanelValidator.linePanel "orders" "1") orderLineMetadata ↔ ∃ intent,
    (runPlatform .simple (App.init.newGenesis 0 0) rejectedProposalCalls).store.genesis.intents.get?
      ⟨0⟩ = some intent ∧ FirstUseCarries .simple (App.init.newGenesis 0 0) rejectedProposalCalls
        (proposeKey intent (PatchPanelValidator.linePanel "orders" "1"))
        (PatchPanelValidator.linePanel "orders" "1") orderLineMetadata :=
  @proposal_carries_iff .simple App.init 0 0 rejectedProposalCalls ⟨0⟩ "agent" _ _ none none _ rfl

end GhostMesh
