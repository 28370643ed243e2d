import GhostMesh.Genesis.Runs

/-!
# What a launch lets through

A launch looks at neither the status of the entry nor the flag of the intent. It creates
a card whenever its key is new and the runtime can place a card on the panel.
-/

set_option autoImplicit false

namespace GhostMesh

open InMemoryCardRuntime Op
open Relation (ReflTransGen)

section Intents
variable {w : World} {a a' : Machine App}

/-- Intents are stored under their own ids, which have been drawn. -/
structure IntentsSound (w : World) (a : Machine App) : Prop where
  keyed : ∀ id intent, a.store.genesis.intents.get? id = some intent → intent.id = id
  drawn : ∀ id intent, a.store.genesis.intents.get? id = some intent → Drawn w a.draws id

/-- What the stored intent says about launching existing workflows. -/
def launchFlag (a : Machine App) (id : Uuid) : Option Bool :=
  (a.store.genesis.intents.get? id).map (·.launchIfExisting)

theorem IntentsSound.of_same (ha : IntentsSound w a)
    (hsame : a'.store.genesis.intents = a.store.genesis.intents) (hdraws : a.draws ≤ a'.draws) :
    IntentsSound w a' := by
  constructor
  · rw [hsame]
    exact ha.keyed
  · rw [hsame]
    exact fun id intent hid => (ha.drawn id intent hid).mono hdraws

theorem launchFlag_of_same (hsame : a'.store.genesis.intents = a.store.genesis.intents)
    (id : Uuid) : launchFlag a' id = launchFlag a id := by
  unfold launchFlag
  rw [hsame]

/-- A stored intent that is written again with the same id and flag. -/
structure Rewrites (a a' : Machine App) : Prop where
  draws : a.draws ≤ a'.draws
  intents : a'.store.genesis.intents = a.store.genesis.intents ∨ ∃ old new,
    a.store.genesis.intents.get? old.id = some old ∧ new.id = old.id ∧
    new.launchIfExisting = old.launchIfExisting ∧
    a'.store.genesis.intents = a.store.genesis.intents.set new.id new

theorem Rewrites.sound (h : Rewrites a a') (ha : IntentsSound w a) : IntentsSound w a' := by
  rcases h.intents with hsame | ⟨old, new, hold, hid, -, hset⟩
  · exact ha.of_same hsame h.draws
  have hstored : ∀ id intent, a'.store.genesis.intents.get? id = some intent →
      intent.id = id ∧ Drawn w a'.draws id := by
    intro id intent hget
    rw [hset, Dict.get?_set] at hget
    split at hget
    · rename_i hnew
      cases hget
      refine ⟨hnew.symm, ?_⟩
      rw [hnew, hid]
      exact (ha.drawn old.id old hold).mono h.draws
    · exact ⟨ha.keyed id intent hget, (ha.drawn id intent hget).mono h.draws⟩
  exact ⟨fun id intent hget => (hstored id intent hget).1,
    fun id intent hget => (hstored id intent hget).2⟩

theorem Rewrites.flag (h : Rewrites a a') (id : Uuid) : launchFlag a' id = launchFlag a id := by
  rcases h.intents with hsame | ⟨old, new, hold, hid, hflag, hset⟩
  · exact launchFlag_of_same hsame id
  unfold launchFlag
  rw [hset, Dict.get?_set]
  split
  · rename_i hnew
    rw [hnew, hid, hold, Option.map_some, Option.map_some, hflag]
  · rfl

/-- The application after a card creation: as before, or with the new card. -/
theorem createCard_creates {panel : String} {payload : JsonObj} {metadata : Option JsonObj}
    {key : Option String} {r : Except PyErr Card}
    (h : (App.cardRuntime.createCard panel payload metadata key).run w a = (r, a')) :
    a' = a ∨ ∃ b c e, a' = App.withRuntime a b ∧
      Creates w (App.runtimeMachine a) b panel payload metadata key c e := by
  obtain ⟨b, hb, rfl⟩ := App.runtime_cases (x := InMemoryCardRuntime.createCard _ _ _ _) h
  rcases createCard_cases hb with rfl | ⟨c, e, -, hcreates⟩
  · exact .inl rfl
  · exact .inr ⟨b, c, e, rfl, hcreates⟩

/-- A card creation leaves the genesis service alone. -/
theorem createCard_rewrites {panel : String} {payload : JsonObj} {metadata : Option JsonObj}
    {key : Option String} {r : Except PyErr Card}
    (h : (App.cardRuntime.createCard panel payload metadata key).run w a = (r, a')) :
    a'.store.genesis = a.store.genesis ∧ a.draws ≤ a'.draws := by
  rcases createCard_creates h with rfl | ⟨b, c, e, rfl, hcreates⟩
  · exact ⟨rfl, Nat.le_refl _⟩
  · exact ⟨rfl, hcreates.later.draws⟩

/-- The intent after a card creation is written over the one before it. -/
theorem Rewrites.of_put (ha : IntentsSound w a) {intentId : Uuid} {old new : GenesisIntent}
    (hold : a.store.genesis.intents.get? intentId = some old) (hid : new.id = old.id)
    (hflag : new.launchIfExisting = old.launchIfExisting) {b : Machine App}
    (hgenesis : b.store.genesis = a.store.genesis) (hdraws : a.draws ≤ b.draws) :
    Rewrites a ((App.genesisService.putIntent new).run w { b with ticks := b.ticks + 1 }).2 := by
  have hstored : a.store.genesis.intents.get? old.id = some old := by
    rw [ha.keyed _ _ hold]
    exact hold
  refine ⟨hdraws, .inr ⟨old, new, hstored, hid, hflag, ?_⟩⟩
  rw [← hgenesis]
  rfl

theorem launch_rewrites (ha : IntentsSound w a) (intentId : Uuid) (registryEntryId : Option Uuid) :
    Rewrites a ((App.genesisService.launch intentId registryEntryId).run w a).2 := by
  rcases hrun : (App.genesisService.launch intentId registryEntryId).run w a with ⟨r, a'⟩
  rcases GenesisService.launch_cases appRegistry_gets hrun with
    ⟨rfl, -⟩ | ⟨intent, entry, b, hselects, hcard, hafter⟩
  · exact ⟨Nat.le_refl _, .inl rfl⟩
  obtain ⟨hgenesis, hdraws⟩ := createCard_rewrites hcard
  rcases hafter with ⟨rfl, -⟩ | ⟨card, -, rfl⟩
  · exact ⟨hdraws, .inl (congrArg GenesisStore.intents hgenesis)⟩
  · refine Rewrites.of_put ha hselects.stored ?_ ?_ hgenesis hdraws
    · rfl
    · rfl

theorem propose_rewrites (ha : IntentsSound w a) (intentId : Uuid) (proposedBy : String)
    (candidate : PatchPanel) (metadata : PatchPanelRegistryMetadata)
    (baseId baseVersion : Option String) :
    Rewrites a ((App.genesisService.propose intentId proposedBy candidate metadata baseId
      baseVersion).run w a).2 := by
  rcases hrun : (App.genesisService.propose intentId proposedBy candidate metadata baseId
    baseVersion).run w a with ⟨r, a'⟩
  rcases GenesisService.propose_cases hrun with
    rfl | ⟨intent, rc, b, panel, payload, tags, key, hintent, hcard, hafter⟩
  · exact ⟨Nat.le_refl _, .inl rfl⟩
  obtain ⟨hgenesis, hdraws⟩ := createCard_rewrites hcard
  rcases hafter with rfl | ⟨cardId, updatedAt, rfl⟩
  · exact ⟨hdraws, .inl (congrArg GenesisStore.intents hgenesis)⟩
  · refine Rewrites.of_put ha hintent ?_ ?_ hgenesis hdraws
    · rfl
    · rfl

/-- The call is a request that stores the intent, with the flag it asks for. -/
def PlatformCall.Stores (w : World) (a : Machine App) (id : Uuid) (flag : Bool) :
    PlatformCall → Prop
  | genesis (.receive request) =>
    request.launchIfExisting = flag ∧ a.store.genesis.intents.get? id = none ∧
      ∃ intent, ((App.genesisService.receiveIntent request).run w a).1 = .ok intent ∧
        intent.id = id
  | _ => False

/-- The step lemma: flags are set by requests alone, and stay. -/
theorem PlatformCall.step_flags (ha : IntentsSound w a) (call : PlatformCall) :
    IntentsSound w (call.step w a) ∧ ∀ id flag, launchFlag (call.step w a) id = some flag ↔
      call.Stores w a id flag ∨ launchFlag a id = some flag := by
  have hkeeps : ∀ {a'}, Rewrites a a' → (∀ id flag, ¬ call.Stores w a id flag) →
      IntentsSound w a' ∧ ∀ id flag, launchFlag a' id = some flag ↔
        call.Stores w a id flag ∨ launchFlag a id = some flag := by
    intro a' h hnone
    refine ⟨h.sound ha, fun id flag => ?_⟩
    rw [h.flag id]
    simp only [hnone id flag, false_or]
  cases call with
  | runtime call =>
    have hlater := (RuntimeCall.step_effect w (App.runtimeMachine a) call).later
    exact hkeeps ⟨hlater.draws, .inl rfl⟩ fun _ _ => id
  | registry call =>
    obtain ⟨hstore, -, hdraws⟩ := call.step_via (w := w) (a := a)
    exact hkeeps ⟨hdraws, .inl (congrArg (·.genesis.intents) hstore)⟩ fun _ _ => id
  | genesis call =>
    cases call with
    | launch intentId registryEntryId =>
      exact hkeeps (launch_rewrites ha intentId registryEntryId) fun _ _ => id
    | propose intentId proposedBy candidate metadata baseId baseVersion =>
      exact hkeeps (propose_rewrites ha _ _ _ _ _ _) fun _ _ => id
    | receive request =>
      rcases hrun : (App.genesisService.receiveIntent request).run w a with ⟨r, a'⟩
      have hstep : (PlatformCall.genesis (.receive request)).step w a = a' :=
        congrArg Prod.snd hrun
      rw [hstep]
      rcases receiveIntent_cases hrun with
        ⟨hstore, hdraws, hknown⟩ | ⟨intent, index, rfl, hid, hdraws, hflag, hstore⟩
      · refine hkeeps ⟨hdraws, .inl (congrArg (·.genesis.intents) hstore)⟩ ?_
        rintro id flag ⟨-, hunknown, intent, hok, rfl⟩
        rw [hrun] at hok
        obtain ⟨id, hstored⟩ := hknown intent hok
        rw [ha.keyed id intent hstored, hstored] at hunknown
        cases hunknown
      · have hnew : a.store.genesis.intents.get? intent.id = none := by
          cases hget : a.store.genesis.intents.get? intent.id with
          | none => rfl
          | some old =>
            obtain ⟨i, hi, hold⟩ := ha.drawn _ _ hget
            have heq : a.draws = i := w.uuid4_injective (hid.symm.trans hold)
            omega
        have hset : a'.store.genesis.intents = a.store.genesis.intents.set intent.id intent :=
          congrArg (·.genesis.intents) hstore
        refine ⟨⟨?_, ?_⟩, fun id flag => ?_⟩
        · intro id old hget
          rw [hset, Dict.get?_set] at hget
          split at hget
          · rename_i hsame
            cases hget
            exact hsame.symm
          · exact ha.keyed id old hget
        · intro id old hget
          rw [hset, Dict.get?_set] at hget
          split at hget
          · rename_i hsame
            exact ⟨a.draws, hdraws, hsame.trans hid⟩
          · exact (ha.drawn id old hget).mono hdraws.le
        · unfold launchFlag
          rw [hset, Dict.get?_set]
          by_cases hsame : id = intent.id
          · subst hsame
            rw [if_pos rfl, Option.map_some, hnew, Option.some.injEq, hflag]
            constructor
            · intro hrequest
              exact .inl ⟨hrequest, hnew, intent, congrArg Prod.fst hrun, rfl⟩
            · rintro (⟨hrequest, -⟩ | hold)
              · exact hrequest
              · cases hold
          · rw [if_neg hsame]
            constructor
            · exact .inr
            · rintro (⟨-, -, intent', hok, hid'⟩ | hold)
              · rw [hrun] at hok
                cases hok
                exact (hsame hid'.symm).elim
              · exact hold

end Intents

/-- The run lets a request store the intent, with the flag. -/
def Received (w : World) (a : Machine App) (calls : List PlatformCall) (id : Uuid)
    (flag : Bool) : Prop :=
  ∃ before call after, calls = before ++ call :: after ∧
    call.Stores w (runPlatform w a before) id flag

section Runs
variable {w : World}

theorem Received.cons_iff {a : Machine App} {call : PlatformCall} {calls : List PlatformCall}
    {id : Uuid} {flag : Bool} : Received w a (call :: calls) id flag ↔
      call.Stores w a id flag ∨ Received w (call.step w a) calls id flag := by
  constructor
  · rintro ⟨before, c, after, hcalls, hstores⟩
    cases before with
    | nil =>
      obtain ⟨rfl, -⟩ := List.cons.inj hcalls
      exact .inl hstores
    | cons b before =>
      obtain ⟨rfl, hrest⟩ := List.cons.inj hcalls
      exact .inr ⟨before, c, after, hrest, hstores⟩
  · rintro (hstores | ⟨before, c, after, rfl, hstores⟩)
    · exact ⟨[], call, calls, rfl, hstores⟩
    · exact ⟨call :: before, c, after, rfl, hstores⟩

/-- The run lemma: the flag of a stored intent is that of the request that stored it. -/
theorem runPlatform_flag (calls : List PlatformCall) {a : Machine App} (ha : IntentsSound w a)
    (id : Uuid) (flag : Bool) : launchFlag (runPlatform w a calls) id = some flag ↔
      Received w a calls id flag ∨ launchFlag a id = some flag := by
  induction calls generalizing a with
  | nil =>
    refine ⟨.inr, ?_⟩
    rintro (⟨before, call, after, hcalls, -⟩ | hflag)
    · simp at hcalls
    · exact hflag
  | cons call calls ih =>
    obtain ⟨hsound, hstep⟩ := call.step_flags ha
    refine (ih hsound).trans ?_
    rw [hstep, Received.cons_iff, or_left_comm, or_assoc]

end Runs

/-! ## The cards of a launch -/

/-- Everything the launches of a run rely on. -/
structure PlatformSound (w : World) (a : Machine App) : Prop where
  cards : CardsSound w (App.runtimeMachine a)
  intents : IntentsSound w a

section Cards
variable {w : World} {a a' : Machine App}

theorem createCard_sound (ha : CardsSound w (App.runtimeMachine a)) {panel : String}
    {payload : JsonObj} {metadata : Option JsonObj} {key : Option String} {r : Except PyErr Card}
    (h : (App.cardRuntime.createCard panel payload metadata key).run w a = (r, a')) :
    CardsSound w (App.runtimeMachine a') := by
  rcases createCard_creates h with rfl | ⟨b, c, e, rfl, hcreates⟩
  · exact ha
  · exact ha.effect (.creates hcreates)

theorem GenesisCall.step_cardsSound (ha : CardsSound w (App.runtimeMachine a))
    (call : GenesisCall) : CardsSound w (App.runtimeMachine (call.step w a)) := by
  cases call with
  | receive request =>
    rcases hrun : (App.genesisService.receiveIntent request).run w a with ⟨r, a'⟩
    have hstep : (GenesisCall.receive request).step w a = a' := congrArg Prod.snd hrun
    rw [hstep]
    rcases receiveIntent_cases hrun with
      ⟨hstore, hdraws, -⟩ | ⟨intent, index, -, -, hdraws, -, hstore⟩
    · exact ha.of_same (congrArg App.runtime hstore) hdraws
    · have hruntime : a'.store.runtime = a.store.runtime := by rw [hstore]
      exact ha.of_same hruntime hdraws.le
  | launch intentId registryEntryId =>
    rcases hrun : (App.genesisService.launch intentId registryEntryId).run w a with ⟨r, a'⟩
    have hstep : (GenesisCall.launch intentId registryEntryId).step w a = a' :=
      congrArg Prod.snd hrun
    rw [hstep]
    rcases GenesisService.launch_cases appRegistry_gets hrun with
      ⟨rfl, -⟩ | ⟨intent, entry, b, -, hcard, ⟨rfl, -⟩ | ⟨card, -, rfl⟩⟩
    · exact ha
    · exact createCard_sound ha hcard
    · exact (createCard_sound ha hcard).of_same rfl (Nat.le_refl _)
  | propose intentId proposedBy candidate metadata baseId baseVersion =>
    rcases hrun : (App.genesisService.propose intentId proposedBy candidate metadata baseId
      baseVersion).run w a with ⟨r, a'⟩
    have hstep : (GenesisCall.propose intentId proposedBy candidate metadata baseId
      baseVersion).step w a = a' := congrArg Prod.snd hrun
    rw [hstep]
    rcases GenesisService.propose_cases hrun with
      rfl | ⟨intent, rc, b, panel, payload, tags, key, -, hcard, rfl | ⟨cardId, updatedAt, rfl⟩⟩
    · exact ha
    · exact createCard_sound ha hcard
    · exact (createCard_sound ha hcard).of_same rfl (Nat.le_refl _)

theorem PlatformSound.step (ha : PlatformSound w a) (call : PlatformCall) :
    PlatformSound w (call.step w a) := by
  refine ⟨?_, (call.step_flags ha.intents).1⟩
  cases call with
  | runtime call => exact ha.cards.effect (RuntimeCall.step_effect w _ call)
  | registry call =>
    obtain ⟨hstore, -, hdraws⟩ := call.step_via (w := w) (a := a)
    have hruntime : (call.step w a).store.runtime = a.store.runtime := by
      rw [hstore]
      rfl
    exact ha.cards.of_same hruntime hdraws
  | genesis call => exact call.step_cardsSound ha.cards

theorem PlatformSound.run (ha : PlatformSound w a) (calls : List PlatformCall) :
    PlatformSound w (runPlatform w a calls) := by
  unfold runPlatform
  induction calls generalizing a with
  | nil => exact ha
  | cons call calls ih => exact ih (ha.step call)

theorem PlatformSound.start (s : App) (ticks draws : Nat) :
    PlatformSound w (s.newGenesis ticks draws) := by
  refine ⟨boot_sound _ ticks draws, ?_, ?_⟩
  · intro id intent h
    cases h
  · intro id intent h
    cases h

/-- The step stores a card that was not there. -/
def CreatesCard (a a' : Machine App) : Prop :=
  ∃ id, a.store.runtime.cards.get? id = none ∧ a'.store.runtime.cards.get? id ≠ none

/-- The launch gets to an entry under a key that is new, and the runtime can place a card
on the entry's panel. -/
structure Launchable (s : App) (intentId : Uuid) (registryEntryId : Option Uuid)
    (intent : GenesisIntent) (entry : PatchPanelRegistryEntry) : Prop where
  selects : App.genesisService.Selects (fun s => s.registry.entries) s intentId registryEntryId
    intent entry
  newKey : s.runtime.cached (some (GenesisService.launchKey intent entry)) = none
  placed : ∃ p bucket, s.runtime.patchPanels.get? entry.patchPanelId = some p ∧
    resolveInitialBucket p = .ok bucket

theorem launch_creates_iff (ha : CardsSound w (App.runtimeMachine a)) {intentId : Uuid}
    {registryEntryId : Option Uuid} :
    CreatesCard a ((GenesisCall.launch intentId registryEntryId).step w a) ↔
      ∃ intent entry, Launchable a.store intentId registryEntryId intent entry := by
  rcases hrun : (App.genesisService.launch intentId registryEntryId).run w a with ⟨r, a'⟩
  have hstep : (GenesisCall.launch intentId registryEntryId).step w a = a' :=
    congrArg Prod.snd hrun
  rw [hstep]
  rcases GenesisService.launch_cases appRegistry_gets hrun with
    ⟨rfl, -, hnone⟩ | ⟨intent, entry, b, hselects, hcard, hafter⟩
  · constructor
    · rintro ⟨id, hbefore, hstored⟩
      exact (hstored hbefore).elim
    · rintro ⟨intent, entry, hlaunch⟩
      exact (hnone intent entry hlaunch.selects).elim
  have hcards : a'.store.runtime.cards = b.store.runtime.cards := by
    rcases hafter with ⟨rfl, -⟩ | ⟨card, -, rfl⟩
    · rfl
    · rfl
  obtain ⟨m, hm, rfl⟩ := App.runtime_cases (x := InMemoryCardRuntime.createCard _ _ _ _) hcard
  constructor
  · rintro ⟨id, hbefore, hstored⟩
    rw [hcards] at hstored
    rcases createCard_cases hm with rfl | ⟨c, e, -, hcreates⟩
    · exact (hstored hbefore).elim
    · obtain ⟨p, hp, hbucket, -⟩ := hcreates.panel
      exact ⟨intent, entry, hselects, hcreates.uncached, p, _, hp, hbucket⟩
  · rintro ⟨intent', entry', hlaunch⟩
    obtain ⟨rfl, rfl⟩ := hselects.unique hlaunch.selects
    obtain ⟨p, bucket, hp, hbucket⟩ := hlaunch.placed
    obtain ⟨e, -, -, hcreated⟩ := createCard_run (w := w) (m := App.runtimeMachine a) _ _
      hlaunch.newKey hp hbucket
    rw [hcreated] at hm
    cases hm
    refine ⟨w.uuid4 a.draws, ha.issued.unused, ?_⟩
    rw [hcards]
    change (created _ _ _ _).cards.get? _ ≠ none
    simp [created, newCard, putCard, putEvent, App.runtimeMachine]

/-! ## The condition -/

/-- A launch creates a card only for a published entry and an intent that allows it. -/
def OnlyPublished (w : World) (a : Machine App) (before : List PlatformCall) (intentId : Uuid)
    (registryEntryId : Option Uuid) : Prop :=
  CreatesCard (runPlatform w a before)
      ((GenesisCall.launch intentId registryEntryId).step w (runPlatform w a before)) →
    ∃ intent entry, App.genesisService.Selects (fun s => s.registry.entries)
        (runPlatform w a before).store intentId registryEntryId intent entry ∧
      entry.status = .published ∧ Received w a before intentId true

/-- What the code leaves to its callers: a launch that would create a card is for a
published entry and for an intent whose flag is set. -/
def LaunchAllowed (a : Machine App) : PlatformCall → Prop
  | .genesis (.launch intentId registryEntryId) => ∀ intent entry,
    Launchable a.store intentId registryEntryId intent entry →
      entry.status = .published ∧ intent.launchIfExisting = true
  | _ => True

theorem onlyPublished_iff (s : App) (ticks draws : Nat) (before : List PlatformCall)
    (intentId : Uuid) (registryEntryId : Option Uuid) :
    OnlyPublished w (s.newGenesis ticks draws) before intentId registryEntryId ↔
      LaunchAllowed (runPlatform w (s.newGenesis ticks draws) before)
        (.genesis (.launch intentId registryEntryId)) := by
  have hstart : PlatformSound w (s.newGenesis ticks draws) := .start s ticks draws
  have hsound := hstart.run before
  have hreceived : ∀ intent, (runPlatform w (s.newGenesis ticks draws)
      before).store.genesis.intents.get? intentId = some intent →
      (Received w (s.newGenesis ticks draws) before intentId true ↔
        intent.launchIfExisting = true) := by
    intro intent hintent
    have hflag := runPlatform_flag before hstart.intents intentId true
    have hnew : launchFlag (s.newGenesis ticks draws) intentId = none := rfl
    rw [hnew] at hflag
    simpa [launchFlag, hintent] using hflag.symm
  unfold OnlyPublished LaunchAllowed
  rw [launch_creates_iff hsound.cards]
  constructor
  · intro h intent entry hlaunch
    obtain ⟨intent', entry', hselects, hpublished, hflag⟩ := h ⟨intent, entry, hlaunch⟩
    obtain ⟨rfl, rfl⟩ := hlaunch.selects.unique hselects
    exact ⟨hpublished, (hreceived _ hlaunch.selects.stored).mp hflag⟩
  · rintro h ⟨intent, entry, hlaunch⟩
    obtain ⟨hpublished, hflag⟩ := h intent entry hlaunch
    exact ⟨intent, entry, hlaunch.selects, hpublished,
      (hreceived _ hlaunch.selects.stored).mpr hflag⟩

/-- Over whole runs: the launches are as documented exactly if every launch that would
create a card meets the condition. -/
theorem launches_published_iff (w : World) (s : App) (ticks draws : Nat)
    (calls : List PlatformCall) :
    Permitted (PlatformCall.step w) LaunchAllowed (s.newGenesis ticks draws) calls ↔
      ∀ before intentId registryEntryId after,
        calls = before ++ .genesis (.launch intentId registryEntryId) :: after →
          OnlyPublished w (s.newGenesis ticks draws) before intentId registryEntryId := by
  rw [Permitted.iff_steps]
  constructor
  · intro h before intentId registryEntryId after hcalls
    exact (onlyPublished_iff s ticks draws before intentId registryEntryId).mpr
      (h before _ after hcalls)
  · intro h before call after hcalls
    cases call with
    | runtime call => trivial
    | registry call => trivial
    | genesis call =>
      cases call with
      | receive request => trivial
      | propose _ _ _ _ _ _ => trivial
      | launch intentId registryEntryId =>
        exact (onlyPublished_iff s ticks draws before intentId registryEntryId).mp
          (h before intentId registryEntryId after hcalls)

end Cards

/-- A draft in the registry. -/
def draftEntry : PatchPanelRegistryEntry :=
  ⟨⟨100⟩, "orders", "1", "Orders", none, [], [], [], [], [], none, none, none, none, .draft,
    none, [], 0, 0, none⟩

/-- An intent that does not ask for a launch. -/
def searchOnlyRequest : ReceiveIntent :=
  ⟨"agent", "intent-1", "process orders", "order", [], [], ⟨none, none, false, []⟩, false, false,
    []⟩

def draftLaunchCalls : List PlatformCall :=
  [.runtime (.registerPatchPanel (PatchPanelValidator.linePanel "orders" "1")),
    .registry (.register draftEntry), .genesis (.receive searchOnlyRequest)]

theorem draft_launched :
    ¬ OnlyPublished .simple (App.init.newGenesis 0 0) draftLaunchCalls ⟨0⟩ (some ⟨100⟩) := by
  intro h
  have hcreates : CreatesCard (runPlatform .simple (App.init.newGenesis 0 0) draftLaunchCalls)
      ((GenesisCall.launch ⟨0⟩ (some ⟨100⟩)).step .simple
        (runPlatform .simple (App.init.newGenesis 0 0) draftLaunchCalls)) := ⟨⟨1⟩, rfl, by decide⟩
  obtain ⟨intent, entry, hselects, hpublished, -⟩ := h hcreates
  obtain ⟨selected, hselected, hentry⟩ := hselects.chosen
  cases hselected
  cases hentry
  cases hpublished

end GhostMesh
