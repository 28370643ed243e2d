import GhostMesh.Nodes.IngressSteps
import Mathlib.Data.List.Induction

/-!
# Ingress once

A run of source requests gives each external event one card, as long as the keys tell the
events apart: two requests have one key exactly if panel, source and value agree, and no
key is the key of another request's event.
-/

set_option autoImplicit false

namespace GhostMesh

open InMemoryCardRuntime Op

namespace Ingress

/-- Two requests report the same external event. -/
def Agrees (x y : Ingress) : Prop :=
  x.panel.id = y.panel.id ∧ x.node.id = y.node.id ∧
    ∃ value, x.value = some value ∧ y.value = some value ∧ value ≠ .null

/-- Two requests have one key exactly if they report the same event. -/
def Identified (w : World) (x y : Ingress) : Prop :=
  (∃ k, x.sourceKey w = some k ∧ y.sourceKey w = some k) ↔ x.Agrees y

/-- The key of one request is no key of the other's events. -/
def Apart (w : World) (x y : Ingress) : Prop :=
  ∀ k l, x.sourceKey w = some k → y.sourceKey w = some l →
    (l ≠ k ++ ":source" ∧ l ≠ k ++ ":event") ∧ k ≠ l ++ ":source" ∧ k ≠ l ++ ":event"

/-- The keys tell a request from an earlier one that got a card. -/
def Distinct (w : World) (s : InMemoryCardRuntime) (r r' : BoundarySourceRequest) : Prop :=
  ∀ x y, Receives w s r x → x.Enters s → Receives w s r' y →
    Identified w x y ∧ (y.Enters s → Apart w x y)

/-! ## One request -/

/-- The request is let in: its panel has a bucket for it. -/
def Accepted (w : World) (s : InMemoryCardRuntime) (r : BoundarySourceRequest) (x : Ingress) :
    Prop := Receives w s r x ∧ x.Enters s

def runSources (w : World) (a : Machine App) (requests : List BoundarySourceRequest) :
    Machine App :=
  runServices w a (requests.map .boundarySource)

/-- What holds after a run of distinct requests. -/
structure After (w : World) (a : Machine App) (done : List BoundarySourceRequest)
    (b : Machine App) : Prop where
  panels : b.store.runtime.patchPanels = a.store.runtime.patchPanels
  sound : IngressSound w (App.runtimeMachine b)
  answers : ∀ r ∈ done, ∀ x, Accepted w a.store.runtime r x →
    ∀ k, x.sourceKey w = some k → Answers b.store.runtime k
  owners : ∀ k' v, b.store.runtime.cached (some k') = some v →
    ∃ r ∈ done, ∃ x, Accepted w a.store.runtime r x ∧ ∃ k, x.sourceKey w = some k ∧ Own k k' v
  once : ∀ id, (b.store.runtime.cards.get? id).isSome = true →
    (b.store.runtime.history id).map (·.eventType) = eventTypes

section Steps
variable {w : World} {a b b' : Machine App} {done : List BoundarySourceRequest}
  {request : BoundarySourceRequest} {x y : Ingress} {s s' : InMemoryCardRuntime}

theorem Receives.of_panels (h : s'.patchPanels = s.patchPanels) (hx : Receives w s request x) :
    Receives w s' request x where
  panel := by
    rw [h]
    exact hx.panel
  node := hx.node
  contract := hx.contract
  authorized := hx.authorized
  target := hx.target
  mapped := hx.mapped
  extra := hx.extra
  value := hx.value

theorem Enters.of_panels (h : s'.patchPanels = s.patchPanels) (hx : x.Enters s) : x.Enters s' := by
  unfold Enters
  rw [h]
  exact hx

theorem Agrees.enters (h : x.Agrees y) (hx : x.Enters s) : y.Enters s := by
  unfold Enters
  rw [← h.1]
  exact hx

/-- A request that is not let in leaves everything as it was. -/
theorem After.unchanged (h : After w a done b)
    (hnone : ∀ x, ¬ Accepted w a.store.runtime request x) : After w a (done ++ [request]) b where
  panels := h.panels
  sound := h.sound
  answers r hr x hx := by
    rcases List.mem_append.mp hr with hr | hr
    · exact h.answers r hr x hx
    · rw [List.mem_singleton.mp hr] at hx
      exact absurd hx (hnone x)
  owners k' v hv := by
    obtain ⟨r, hr, howner⟩ := h.owners k' v hv
    exact ⟨r, List.mem_append_left _ hr, howner⟩
  once := h.once

/-- A request whose keys answer leaves everything as it was. -/
theorem After.answered (h : After w a done b) (hx : Receives w a.store.runtime request x)
    (hanswers : ∀ k, x.sourceKey w = some k → Answers b.store.runtime k) :
    After w a (done ++ [request]) b where
  panels := h.panels
  sound := h.sound
  answers r hr y hy := by
    rcases List.mem_append.mp hr with hr | hr
    · exact h.answers r hr y hy
    · rw [List.mem_singleton.mp hr] at hy
      rw [hx.unique hy.1]
      exact hanswers
  owners k' v hv := by
    obtain ⟨r, hr, howner⟩ := h.owners k' v hv
    exact ⟨r, List.mem_append_left _ hr, howner⟩
  once := h.once

/-- A request that gets a new card. -/
theorem After.received (h : After w a done b) (hx : Accepted w a.store.runtime request x)
    {c : Card} (hsteps : Relation.ReflTransGen (IngressStep w) (App.runtimeMachine b)
      (App.runtimeMachine b')) (hreceived : Received w b b' (x.sourceKey w) c) :
    After w a (done ++ [request]) b' where
  panels := (panels_steps hsteps).trans h.panels
  sound := h.sound.steps hsteps
  answers r hr y hy k hk := by
    rcases List.mem_append.mp hr with hr | hr
    · obtain ⟨c', e, e', hcard, hsource, hevent⟩ := h.answers r hr y hy k hk
      have heffects := steps_effects hsteps
      exact ⟨c', e, e', effects_keep_cached heffects hcard, effects_keep_cached heffects hsource,
        effects_keep_cached heffects hevent⟩
    · rw [List.mem_singleton.mp hr] at hy
      rw [hx.1.unique hy.1] at hk
      exact hreceived.answers k hk
  owners k' v hv := by
    rcases hreceived.fresh k' v hv with hold | ⟨k, hk, hown⟩
    · obtain ⟨r, hr, howner⟩ := h.owners k' v hold
      exact ⟨r, List.mem_append_left _ hr, howner⟩
    · exact ⟨request, List.mem_append_right _ List.mem_cons_self, x, hx, k, hk, hown⟩
  once id hid := by
    rw [hreceived.stored id] at hid
    split at hid
    · rename_i heq
      obtain ⟨es, hes, htypes⟩ := hreceived.own
      have hnil : b.store.runtime.history c.id = [] := by
        rw [hreceived.id]
        exact h.sound.cards.issued.history_nil (Nat.le_refl _)
      rw [heq, hes, hnil, List.nil_append]
      exact htypes
    · rename_i hne
      rw [hreceived.others id hne]
      exact h.once id hid

/-- The keys of a request that is apart from all before it are new, unless one of them has
its key. -/
theorem After.new_keys (h : After w a done b)
    (hdistinct : ∀ r ∈ done, Distinct w a.store.runtime r request)
    (hx : Accepted w a.store.runtime request x) {l : String} (hkey : x.sourceKey w = some l)
    (hnew : ∀ r ∈ done, ∀ y, Accepted w a.store.runtime r y → y.sourceKey w ≠ some l) :
    b.store.runtime.cached (some l) = none ∧
      b.store.runtime.cached (some (l ++ ":source")) = none ∧
      b.store.runtime.cached (some (l ++ ":event")) = none := by
  have hnone : ∀ k', (∀ k v, Own k k' v → (∀ r ∈ done, ∀ y, Accepted w a.store.runtime r y →
      y.sourceKey w = some k → ((l ≠ k ++ ":source" ∧ l ≠ k ++ ":event") ∧ k ≠ l ++ ":source" ∧
        k ≠ l ++ ":event") → k ≠ l → False)) → b.store.runtime.cached (some k') = none := by
    intro k' hk'
    cases hv : b.store.runtime.cached (some k') with
    | none => rfl
    | some v =>
      obtain ⟨r, hr, y, hy, k, hk, hown⟩ := h.owners k' v hv
      have hapart := (hdistinct r hr y x hy.1 hy.2 hx.1).2 hx.2 k l hk hkey
      have hne : k ≠ l := by
        rintro rfl
        exact hnew r hr y hy hk
      exact (hk' k v hown r hr y hy hk hapart hne).elim
  refine ⟨hnone l ?_, hnone _ ?_, hnone _ ?_⟩
  · rintro k v (⟨heq, -⟩ | ⟨heq | heq, -⟩) r - y - - ⟨⟨hsource, hevent⟩, -⟩ hne
    · exact hne heq.symm
    · exact hsource heq
    · exact hevent heq
  · rintro k v (⟨heq, -⟩ | ⟨heq | heq, -⟩) r - y - - ⟨-, hsource, -⟩ hne
    · exact hsource heq.symm
    · exact hne (String.append_left_inj _ |>.mp heq).symm
    · exact source_ne_event _ _ heq
  · rintro k v (⟨heq, -⟩ | ⟨heq | heq, -⟩) r - y - - ⟨-, -, hevent⟩ hne
    · exact hevent heq.symm
    · exact source_ne_event _ _ heq.symm
    · exact hne (String.append_left_inj _ |>.mp heq).symm

/-- The step lemma: a distinct request is let in exactly if it returns. -/
theorem After.step (h : After w a done b) (request : BoundarySourceRequest)
    (hdistinct : ∀ r ∈ done, Distinct w a.store.runtime r request)
    {r : Except PyErr SourceBoundaryResult}
    (hrun : (BoundaryAdapterService.executeSource App.cardRuntime request).run w b = (r, b')) :
    After w a (done ++ [request]) b' ∧
      ((∃ x, Accepted w a.store.runtime request x) ↔ ∃ result, r = .ok result) := by
  by_cases hreceives : ∃ x, Receives w b.store.runtime request x
  swap
  · obtain ⟨e, hraises⟩ := (receives_or_raises w b request).resolve_left hreceives
    rw [hraises] at hrun
    cases hrun
    have hnone : ∀ x, ¬ Accepted w a.store.runtime request x :=
      fun x hx => hreceives ⟨x, hx.1.of_panels h.panels⟩
    refine ⟨h.unchanged hnone, ?_, ?_⟩
    · rintro ⟨x, hx⟩
      exact absurd hx (hnone x)
    · rintro ⟨result, hresult⟩
      cases hresult
  obtain ⟨x, hxb⟩ := hreceives
  have hxa : Receives w a.store.runtime request x := hxb.of_panels h.panels.symm
  have hsteps := executeSource_steps hrun
  rw [run_of_receives hxb] at hrun
  by_cases henters : x.Enters a.store.runtime
  · have hx : Accepted w a.store.runtime request x := ⟨hxa, henters⟩
    have hentersb : x.Enters b.store.runtime := henters.of_panels h.panels
    suffices hdone : After w a (done ++ [request]) b' ∧ ∃ result, r = .ok result from
      ⟨hdone.1, fun _ => hdone.2, fun _ => ⟨x, hx⟩⟩
    have hfresh : b.store.runtime.cached (x.sourceKey w) = none →
        b.store.runtime.cached ((x.sourceKey w).map (· ++ ":source")) = none →
        b.store.runtime.cached ((x.sourceKey w).map (· ++ ":event")) = none →
        After w a (done ++ [request]) b' ∧ ∃ result, r = .ok result := by
      intro hcard hsource hevent
      obtain ⟨c, b₁, hnew, hreceived⟩ := receive_new request hentersb hcard hsource hevent
      rw [hnew] at hrun
      cases hrun
      exact ⟨h.received hx hsteps hreceived, _, rfl⟩
    cases hkey : x.sourceKey w with
    | none =>
      rw [hkey] at hfresh
      exact hfresh rfl rfl rfl
    | some l =>
      by_cases hknown : ∃ r ∈ done, ∃ y, Accepted w a.store.runtime r y ∧ y.sourceKey w = some l
      · obtain ⟨r₀, hr₀, y, hy, hyl⟩ := hknown
        have hanswers := h.answers r₀ hr₀ y hy l hyl
        obtain ⟨result, hanswered⟩ := receive_answered request h.sound hkey hanswers
        rw [hanswered] at hrun
        cases hrun
        refine ⟨h.answered hxa ?_, _, rfl⟩
        intro k hk
        cases hkey.symm.trans hk
        exact hanswers
      · obtain ⟨hcard, hsource, hevent⟩ := h.new_keys hdistinct hx hkey
          fun r hr y hy hyl => hknown ⟨r, hr, y, hy, hyl⟩
        rw [hkey] at hfresh
        exact hfresh hcard hsource hevent
  · have hnone : ∀ y, ¬ Accepted w a.store.runtime request y := by
      intro y hy
      rw [hxa.unique hy.1] at hy
      exact henters hy.2
    have hentersb : ¬ x.Enters b.store.runtime :=
      fun hb => henters (hb.of_panels h.panels.symm)
    have hcard : ∀ c, b.store.runtime.cached (x.sourceKey w) ≠ some (.card c) := by
      intro c hcached
      cases hkey : x.sourceKey w with
      | none =>
        rw [hkey] at hcached
        cases hcached
      | some l =>
        rw [hkey] at hcached
        obtain ⟨r₀, hr₀, y, hy, k, hk, hown⟩ := h.owners l _ hcached
        rcases hown with ⟨rfl, -⟩ | ⟨-, e, he⟩
        · have hagrees := ((hdistinct r₀ hr₀ y x hy.1 hy.2 hxa).1).mp ⟨l, hk, hkey⟩
          exact henters (hagrees.enters hy.2)
        · cases he
    obtain ⟨e, hblocked⟩ := receive_blocked request hentersb hcard
    rw [hblocked] at hrun
    cases hrun
    refine ⟨h.unchanged hnone, ?_, ?_⟩
    · rintro ⟨y, hy⟩
      exact absurd hy (hnone y)
    · rintro ⟨result, hresult⟩
      cases hresult

end Steps

/-! ## Runs -/

/-- Panels are registered, and nothing else has happened. -/
def registered (w : World) (s : App) (ticks draws : Nat) (panels : List PatchPanel) :
    Machine App :=
  runServices w (s.boot ticks draws)
    (panels.map fun p => .mesh (.runtime (.registerPatchPanel p)))

/-- Each external event is taken in once. -/
structure IngressOnce (w : World) (a : Machine App) (requests : List BoundarySourceRequest) :
    Prop where
  /-- Two requests return one card exactly if they report the same event. -/
  same : ∀ before r between r' after, requests = before ++ r :: between ++ r' :: after →
    ∀ result b result' b',
      (BoundaryAdapterService.executeSource App.cardRuntime r).run w (runSources w a before) =
        (.ok result, b) →
      (BoundaryAdapterService.executeSource App.cardRuntime r').run w
        (runSources w a (before ++ r :: between)) = (.ok result', b') →
      ∀ x y, Receives w a.store.runtime r x → Receives w a.store.runtime r' y →
        (x.Agrees y → result'.card = result.card) ∧
          (result'.card.id = result.card.id → x.Agrees y)
  /-- A request with a new value goes through if it does on its own. -/
  admitted : ∀ before r after, requests = before ++ r :: after →
    (∀ r' ∈ before, ∀ x y, Receives w a.store.runtime r' x → Receives w a.store.runtime r y →
      ¬ x.Agrees y) →
    (∃ result, ((BoundaryAdapterService.executeSource App.cardRuntime r).run w a).1 =
      .ok result) →
    ∃ result, ((BoundaryAdapterService.executeSource App.cardRuntime r).run w
      (runSources w a before)).1 = .ok result
  /-- Each card has one event of each kind. -/
  recorded : ∀ id, ((runSources w a requests).store.runtime.cards.get? id).isSome = true →
    ∀ type ∈ eventTypes,
      (((runSources w a requests).store.runtime.history id).map (·.eventType)).count type = 1

section Runs
variable {w : World} {a : Machine App} {requests : List BoundarySourceRequest}

theorem runSources_append (before after : List BoundarySourceRequest) :
    runSources w a (before ++ after) = runSources w (runSources w a before) after := by
  unfold runSources runServices
  rw [List.map_append, List.foldl_append]

theorem runSources_singleton (r : BoundarySourceRequest) : runSources w a [r] =
    ((BoundaryAdapterService.executeSource App.cardRuntime r).run w a).2 := rfl

theorem runSources_steps (requests : List BoundarySourceRequest) :
    Relation.ReflTransGen (IngressStep w) (App.runtimeMachine a)
      (App.runtimeMachine (runSources w a requests)) := by
  induction requests using List.reverseRecOn with
  | nil => exact .refl
  | append_singleton rs r ih =>
    rw [runSources_append, runSources_singleton]
    exact ih.trans (executeSource_steps rfl)

/-- The run lemma: the invariant holds after every run of distinct requests. -/
theorem after_run (ha : After w a [] a)
    (h : requests.Pairwise (Distinct w a.store.runtime)) :
    After w a requests (runSources w a requests) := by
  induction requests using List.reverseRecOn with
  | nil => exact ha
  | append_singleton rs r ih =>
    obtain ⟨hrs, -, hr⟩ := List.pairwise_append.mp h
    rw [runSources_append, runSources_singleton]
    exact ((ih hrs).step r (fun r' hr' => hr r' hr' r List.mem_cons_self) rfl).1

/-- Registrations leave the runtime without cards and keys. -/
theorem registered_empty (w : World) (s : App) (ticks draws : Nat) (panels : List PatchPanel) :
    (∀ id, (registered w s ticks draws panels).store.runtime.cards.get? id = none) ∧
      ∀ key, (registered w s ticks draws panels).store.runtime.cached key = none := by
  have hstep : ∀ (m : Machine App) (p : PatchPanel),
      (∀ id, m.store.runtime.cards.get? id = none) ∧ (∀ key, m.store.runtime.cached key = none) →
      (∀ id, (ServiceCall.step w m (.mesh (.runtime (.registerPatchPanel p)))).store.runtime.cards.get?
          id = none) ∧
        ∀ key, (ServiceCall.step w m (.mesh (.runtime (.registerPatchPanel p)))).store.runtime.cached
          key = none := by
    intro m p hm
    rcases hrun : (registerPatchPanel p).run w (App.runtimeMachine m) with ⟨r, m'⟩
    have hstore : (ServiceCall.step w m (.mesh (.runtime (.registerPatchPanel p)))).store.runtime =
        m'.store := congrArg (fun r => r.2.store) hrun
    rw [hstore]
    rcases registerPatchPanel_cases hrun with rfl | ⟨report, -, rfl⟩
    · exact hm
    · exact hm
  unfold registered runServices
  induction panels using List.reverseRecOn with
  | nil =>
    refine ⟨fun id => rfl, fun key => ?_⟩
    change InMemoryCardRuntime.init.cached key = none
    unfold cached
    cases truthyStr key <;> rfl
  | append_singleton ps p ih =>
    rw [List.map_append, List.foldl_append]
    exact hstep _ p ih

theorem After.start (w : World) (s : App) (ticks draws : Nat) (panels : List PatchPanel) :
    After w (registered w s ticks draws panels) [] (registered w s ticks draws panels) := by
  obtain ⟨hcards, hkeys⟩ := registered_empty w s ticks draws panels
  have hsound := (runServices_cardsKept (w := w)
    (panels.map fun p => .mesh (.runtime (.registerPatchPanel p)))
    (boot_sound s ticks draws)).2
  refine ⟨rfl, ⟨hsound, ?_, ?_⟩, ?_, ?_, ?_⟩
  · intro k c hc
    cases (hkeys (some k)).symm.trans hc
  · intro k k' c c' hc
    cases (hkeys (some k)).symm.trans hc
  · intro r hr
    cases hr
  · intro k v hv
    cases (hkeys (some k)).symm.trans hv
  · intro id hid
    rw [hcards id] at hid
    cases hid

theorem Agrees.sourceKey {x y : Ingress} (h : x.Agrees y) : y.sourceKey w = x.sourceKey w := by
  obtain ⟨hpanel, hnode, value, hx, hy, -⟩ := h
  unfold Ingress.sourceKey text
  rw [hpanel, hnode, hx, hy]

section Pairs
variable {before between after : List BoundarySourceRequest} {r r' : BoundarySourceRequest}
  {x y : Ingress} {result result' : SourceBoundaryResult} {b b' : Machine App}

/-- A returned card stays behind its key. -/
theorem holds_later (between : List BoundarySourceRequest)
    (hbefore : After w a before (runSources w a before))
    (hx : Receives w a.store.runtime r x)
    (hrun : (BoundaryAdapterService.executeSource App.cardRuntime r).run w
      (runSources w a before) = (.ok result, b)) :
    (runSources w a (before ++ r :: between)).store.runtime.Holds (x.sourceKey w) result.card ∧
      IngressSound w (App.runtimeMachine (runSources w a (before ++ r :: between))) := by
  have hlater : runSources w a (before ++ r :: between) = runSources w b between := by
    rw [← List.singleton_append, ← List.append_assoc, runSources_append, runSources_append,
      runSources_singleton, hrun]
  have hb := hbefore.sound.steps (executeSource_steps hrun)
  rw [run_of_receives (hx.of_panels hbefore.panels)] at hrun
  have hholds := holds_of_receive hbefore.sound hrun
  rw [hlater]
  exact ⟨hholds.steps hb (runSources_steps between), hb.steps (runSources_steps between)⟩

/-- Two requests that return return one card exactly if they have one key. -/
theorem sameCard_later (hbefore : After w a before (runSources w a before))
    (hx : Receives w a.store.runtime r x) (hy : Receives w a.store.runtime r' y)
    (hrun : (BoundaryAdapterService.executeSource App.cardRuntime r).run w
      (runSources w a before) = (.ok result, b))
    (hrun' : (BoundaryAdapterService.executeSource App.cardRuntime r').run w
      (runSources w a (before ++ r :: between)) = (.ok result', b')) :
    (result'.card.id = result.card.id → ∃ k, x.sourceKey w = some k ∧ y.sourceKey w = some k) ∧
      ∀ k, x.sourceKey w = some k → y.sourceKey w = some k → result'.card = result.card := by
  obtain ⟨hholds, hsound⟩ := holds_later between hbefore hx hrun
  have hpanels : (runSources w a (before ++ r :: between)).store.runtime.patchPanels =
      a.store.runtime.patchPanels := panels_steps (runSources_steps _)
  rw [run_of_receives (hy.of_panels hpanels)] at hrun'
  exact sameCard_iff hsound hholds hrun'

end Pairs

/-- A run of distinct requests takes each event in once. -/
theorem once_of_distinct (ha : After w a [] a)
    (h : requests.Pairwise (Distinct w a.store.runtime)) : IngressOnce w a requests where
  same := by
    rintro before r between r' after rfl result b result' b' hrun hrun' x y hx hy
    rw [List.append_assoc] at h
    obtain ⟨hb, hrest, hcross⟩ := List.pairwise_append.mp h
    have hbefore := after_run ha hb
    have hxr : ∃ x, Accepted w a.store.runtime r x :=
      ((hbefore.step r (fun r₀ hr₀ => hcross r₀ hr₀ r List.mem_cons_self) hrun).2).mpr ⟨result, rfl⟩
    obtain ⟨x', hx'⟩ := hxr
    rw [hx.unique hx'.1] at hx'
    have hpair : Distinct w a.store.runtime r r' := by
      rw [List.cons_append, List.pairwise_cons] at hrest
      exact hrest.1 r' (List.mem_append_right _ List.mem_cons_self)
    have hidentified := (hpair x y hx hx'.2 hy).1
    obtain ⟨hkeys, hcard⟩ := sameCard_later hbefore hx hy hrun hrun'
    refine ⟨?_, fun hid => hidentified.mp (hkeys hid)⟩
    intro hagrees
    obtain ⟨k, hk, hl⟩ := hidentified.mpr hagrees
    exact hcard k hk hl
  admitted := by
    rintro before r after rfl - ⟨result, hresult⟩
    obtain ⟨hb, -, hcross⟩ := List.pairwise_append.mp h
    have haccepted : ∃ x, Accepted w a.store.runtime r x :=
      ((ha.step r (by simp) rfl).2).mpr ⟨result, hresult⟩
    exact ((after_run ha hb).step r (fun r₀ hr₀ => hcross r₀ hr₀ r List.mem_cons_self) rfl).2.mp
      haccepted
  recorded := by
    intro id hid type htype
    rw [(after_run ha h).once id hid]
    revert type
    decide

/-- The next request is distinct from all before it, if it is taken in once. -/
theorem distinct_next (ha : After w a [] a) {before after : List BoundarySourceRequest}
    {r' : BoundarySourceRequest} (h : IngressOnce w a (before ++ r' :: after))
    (hb : before.Pairwise (Distinct w a.store.runtime)) :
    ∀ r ∈ before, Distinct w a.store.runtime r r' := by
  have hafter := after_run ha hb
  intro r hr x y hx henters hy
  obtain ⟨before₁, between, rfl⟩ := List.append_of_mem hr
  obtain ⟨hb₁, -, hcross⟩ := List.pairwise_append.mp hb
  have hbefore := after_run ha hb₁
  have hyb : Receives w (runSources w a (before₁ ++ r :: between)).store.runtime r' y :=
    hy.of_panels hafter.panels
  -- the earlier request went through
  rcases hrun : (BoundaryAdapterService.executeSource App.cardRuntime r).run w
    (runSources w a before₁) with ⟨res, b⟩
  obtain ⟨result, rfl⟩ := ((hbefore.step r (fun r₀ hr₀ => hcross r₀ hr₀ r List.mem_cons_self)
    hrun).2).mp ⟨x, hx, henters⟩
  have hsame : ∀ {result' b'}, (BoundaryAdapterService.executeSource App.cardRuntime r').run w
      (runSources w a (before₁ ++ r :: between)) = (.ok result', b') →
      (x.Agrees y → result'.card = result.card) ∧ (result'.card.id = result.card.id → x.Agrees y) ∧
      (result'.card.id = result.card.id → ∃ k, x.sourceKey w = some k ∧ y.sourceKey w = some k) ∧
        ∀ k, x.sourceKey w = some k → y.sourceKey w = some k → result'.card = result.card := by
    intro result' b' hrun'
    obtain ⟨hagrees, hid⟩ := h.same before₁ r between r' after rfl _ _ _ _ hrun hrun' x y hx hy
    exact ⟨hagrees, hid, sameCard_later hbefore hx hy hrun hrun'⟩
  refine ⟨⟨?_, ?_⟩, ?_⟩
  · rintro ⟨k, hk, hl⟩
    have hanswers := hafter.answers r hr x ⟨hx, henters⟩ k hk
    obtain ⟨result', hanswered⟩ := receive_answered r' hafter.sound hl hanswers
    rw [← run_of_receives hyb] at hanswered
    obtain ⟨-, hid, -, hcard⟩ := hsame hanswered
    exact hid (congrArg Card.id (hcard k hk hl))
  · intro hagrees
    cases hkey : x.sourceKey w with
    | some k => exact ⟨k, rfl, hagrees.sourceKey.trans hkey⟩
    | none =>
      have hnone : y.sourceKey w = none := hagrees.sourceKey.trans hkey
      have hentersb : y.Enters (runSources w a (before₁ ++ r :: between)).store.runtime :=
        (hagrees.enters henters).of_panels hafter.panels
      obtain ⟨c, b', hnew, -⟩ := receive_new r' (w := w) hentersb (by rw [hnone]; rfl)
        (by rw [hnone]; rfl) (by rw [hnone]; rfl)
      rw [← run_of_receives hyb] at hnew
      obtain ⟨hcard, -, hkeys, -⟩ := hsame hnew
      obtain ⟨k, hk, -⟩ := hkeys (congrArg Card.id (hcard hagrees))
      rw [hkey] at hk
      cases hk
  · intro hyenters k l hk hl
    obtain ⟨c, e, e', hcard, hsource, hevent⟩ := hafter.answers r hr x ⟨hx, henters⟩ k hk
    by_cases hknown : ∃ r₂ ∈ before₁ ++ r :: between, ∃ z, Accepted w a.store.runtime r₂ z ∧
        z.sourceKey w = some l
    · obtain ⟨r₂, hr₂, z, hz, hzl⟩ := hknown
      obtain ⟨c', f, f', hcard', hsource', hevent'⟩ := hafter.answers r₂ hr₂ z hz l hzl
      refine ⟨⟨?_, ?_⟩, ?_, ?_⟩
      · rintro rfl
        cases hcard'.symm.trans hsource
      · rintro rfl
        cases hcard'.symm.trans hevent
      · rintro rfl
        cases hcard.symm.trans hsource'
      · rintro rfl
        cases hcard.symm.trans hevent'
    · -- the value is new, so the request goes through, and its keys have no wrong answers
      have hstart : ∃ result, ((BoundaryAdapterService.executeSource App.cardRuntime r').run w
          a).1 = .ok result :=
        ((ha.step r' (by simp) rfl).2).mp ⟨y, hy, hyenters⟩
      have hnew : ∀ r₂ ∈ before₁ ++ r :: between, ∀ z y', Receives w a.store.runtime r₂ z →
          Receives w a.store.runtime r' y' → ¬ z.Agrees y' := by
        intro r₂ hr₂ z y' hz hy' hagrees
        rw [hy.unique hy'] at hagrees
        refine hknown ⟨r₂, hr₂, z, ⟨hz, ?_⟩, hagrees.sourceKey.symm.trans hl⟩
        unfold Enters
        rw [hagrees.1]
        exact hyenters
      obtain ⟨result', hresult'⟩ := h.admitted _ r' after rfl hnew hstart
      have hrun' : (y.receive w r').run w (runSources w a (before₁ ++ r :: between)) =
          (.ok result', _) := (run_of_receives hyb).symm.trans (Prod.ext hresult' rfl)
      obtain ⟨hcards, hsources, hevents⟩ := receive_ok_keys hl hrun'
      refine ⟨⟨?_, ?_⟩, ?_, ?_⟩
      · rintro rfl
        obtain ⟨c', hc'⟩ := hcards _ hsource
        cases hc'
      · rintro rfl
        obtain ⟨c', hc'⟩ := hcards _ hevent
        cases hc'
      · rintro rfl
        obtain ⟨f, hf⟩ := hsources _ hcard
        cases hf
      · rintro rfl
        obtain ⟨f, hf⟩ := hevents _ hcard
        cases hf

/-- Over whole runs: each event is taken in once exactly if the keys tell the requests
apart. -/
theorem ingress_once_iff (w : World) (s : App) (ticks draws : Nat) (panels : List PatchPanel)
    (requests : List BoundarySourceRequest) :
    IngressOnce w (registered w s ticks draws panels) requests ↔
      requests.Pairwise (Distinct w (registered w s ticks draws panels).store.runtime) := by
  have ha := After.start w s ticks draws panels
  refine ⟨?_, once_of_distinct ha⟩
  intro h
  have hprefix : ∀ before after, requests = before ++ after →
      before.Pairwise (Distinct w (registered w s ticks draws panels).store.runtime) := by
    intro before
    induction before using List.reverseRecOn with
    | nil =>
      intro after _
      exact List.Pairwise.nil
    | append_singleton rs r ih =>
      intro after hsplit
      rw [List.append_assoc, List.singleton_append] at hsplit
      have hrs := ih _ hsplit
      rw [hsplit] at h
      refine List.pairwise_append.mpr ⟨hrs, List.pairwise_singleton _ _, ?_⟩
      intro r₀ hr₀ r₁ hr₁
      rw [List.mem_singleton.mp hr₁]
      exact distinct_next ha h hrs r₀ hr₀
  exact hprefix requests [] (List.append_nil _).symm

end Runs

/-! ## Values without an event -/

/-- A line whose source deduplicates along a header. -/
def deliveryPanel : PatchPanel :=
  { PatchPanelValidator.linePanel "orders" "1" with
    nodes := [⟨"intake", .source, none, none, [], ["intake_out"], none,
        [("boundary_contract", .obj [("deduplication_key", .str "headers.delivery")])]⟩,
      ⟨"work", .worker, none, none, ["work_in"], ["work_out"], none, []⟩,
      ⟨"done", .sink, none, none, ["done_in"], [], none, []⟩]
    uniqueNodes := by simp }

def delivered (order : String) (delivery : Json) : BoundarySourceRequest :=
  ⟨"orders", "intake", [("order", .str order)], [("delivery", delivery)], none⟩

def deliveryMachine : Machine App := registered .simple App.init 0 0 [deliveryPanel]

theorem delivered_receives (order : String) (delivery : Json) :
    Receives .simple deliveryMachine.store.runtime (delivered order delivery)
      ⟨deliveryPanel, ⟨"intake", .source, none, none, [], ["intake_out"], none,
          [("boundary_contract", .obj [("deduplication_key", .str "headers.delivery")])]⟩,
        ⟨"webhook", none, Dict.empty, Dict.empty, some "headers.delivery", none⟩, [], [],
        some delivery⟩ where
  panel := rfl
  node := rfl
  contract := rfl
  authorized := rfl
  target := rfl
  mapped := rfl
  extra := rfl
  value := rfl

/-- Two orders whose delivery header is `null` become one card. -/
theorem null_delivery_identified :
    ¬ IngressOnce .simple deliveryMachine [delivered "first" .null, delivered "second" .null] := by
  intro h
  have hfirst : ((BoundaryAdapterService.executeSource App.cardRuntime
      (delivered "first" .null)).run .simple (runSources .simple deliveryMachine [])).1.toOption.map
        (·.card.id) = some ⟨0⟩ := by decide +kernel
  have hsecond : ((BoundaryAdapterService.executeSource App.cardRuntime
      (delivered "second" .null)).run .simple
        (runSources .simple deliveryMachine [delivered "first" .null])).1.toOption.map
          (·.card.id) = some ⟨0⟩ := by decide +kernel
  obtain ⟨result, hrun, hid⟩ := Exec.run_ok_of_toOption hfirst
  obtain ⟨result', hrun', hid'⟩ := Exec.run_ok_of_toOption hsecond
  have hagrees := (h.same [] (delivered "first" .null) [] (delivered "second" .null) [] rfl result _
    result' _ hrun hrun' _ _ (delivered_receives _ _) (delivered_receives _ _)).2
      (hid'.trans hid.symm)
  obtain ⟨-, -, value, hvalue, -, hnull⟩ := hagrees
  exact hnull (Option.some.inj hvalue).symm

end Ingress

end GhostMesh
