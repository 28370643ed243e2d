import Mathlib.Data.List.Induction
import GhostMesh.Nodes.ShadowSteps
import GhostMesh.PatchPanel.Validator

/-!
# Lifecycles of mutations and shadow links

A promotion asks for a validated mutation, but `validate_mutation` does not look at the
status it overwrites, and `complete_shadow` not at the one of the link. A run moves
forward exactly when its callers leave final records as they are.
-/

set_option autoImplicit false

namespace GhostMesh

open InMemoryCardRuntime Op

/-- Promoted and rejected mutations are done with. -/
def MutationStatus.isFinal : MutationStatus → Bool
  | .promoted | .rejected => true
  | .proposed | .shadowing | .validated => false

/-- The statuses that an accepted validation leads to. -/
def MutationStatus.isAccepted : MutationStatus → Bool
  | .validated | .promoted => true
  | .proposed | .shadowing | .rejected => false

/-- Final mutations keep their status, completed links their status and metrics. -/
structure KeepsFinal (s s' : ShadowStore) : Prop where
  mutations : ∀ id mu, s.mutations.get? id = some mu → mu.status.isFinal = true →
    ∃ mu', s'.mutations.get? id = some mu' ∧ mu'.status = mu.status
  links : ∀ id l, s.links.get? id = some l → l.status = "completed" →
    ∃ l', s'.links.get? id = some l' ∧ l'.status = "completed" ∧ l'.metrics = l.metrics

/-- The call leaves a final record as it is, or is not for one. -/
def ServiceCall.MovesForward (a : Machine App) : ServiceCall → Prop
  | .shadow (.validate mutationId accepted _ _) =>
    ∀ mu, a.store.shadow.mutations.get? mutationId = some mu →
      mu.status ≠ .promoted ∧ (mu.status = .rejected → accepted = false)
  | .shadow (.complete linkId metrics) =>
    ∀ l, a.store.shadow.links.get? linkId = some l → l.status = "completed" → metrics = l.metrics
  | _ => True

namespace KeepsFinal

variable {s s' s'' : ShadowStore}

theorem refl (s : ShadowStore) : KeepsFinal s s :=
  ⟨fun _ mu h _ => ⟨mu, h, rfl⟩, fun _ l h hl => ⟨l, h, hl, rfl⟩⟩

theorem trans (h : KeepsFinal s s') (h' : KeepsFinal s' s'') : KeepsFinal s s'' := by
  constructor
  · intro id mu hmu hfinal
    obtain ⟨mu', hmu', hstatus⟩ := h.mutations id mu hmu hfinal
    obtain ⟨mu'', hmu'', hstatus'⟩ := h'.mutations id mu' hmu' (by rw [hstatus]; exact hfinal)
    exact ⟨mu'', hmu'', hstatus'.trans hstatus⟩
  · intro id l hl hcompleted
    obtain ⟨l', hl', hcompleted', hmetrics⟩ := h.links id l hl hcompleted
    obtain ⟨l'', hl'', hcompleted'', hmetrics'⟩ := h'.links id l' hl' hcompleted'
    exact ⟨l'', hl'', hcompleted'', hmetrics'.trans hmetrics⟩

/-- A mutation that is written over an old one. -/
theorem putMutation_iff (s : ShadowStore) (id : Uuid) (new : ProposedMutation) :
    KeepsFinal s (s.putMutation id new) ↔
      ∀ mu, s.mutations.get? id = some mu → mu.status.isFinal = true → new.status = mu.status := by
  constructor
  · intro h mu hmu hfinal
    obtain ⟨mu', hmu', hstatus⟩ := h.mutations id mu hmu hfinal
    simp only [ShadowStore.putMutation, Dict.get?_set_self] at hmu'
    cases hmu'
    exact hstatus
  · intro h
    refine ⟨fun id' mu hmu hfinal => ?_, fun _ l hl hcompleted => ⟨l, hl, hcompleted, rfl⟩⟩
    simp only [ShadowStore.putMutation, Dict.get?_set]
    split
    · rename_i hid
      subst hid
      exact ⟨new, rfl, h mu hmu hfinal⟩
    · exact ⟨mu, hmu, rfl⟩

/-- A link that is written over an old one. -/
theorem putLink_iff (s : ShadowStore) (id : Uuid) (new : ShadowCardLink) :
    KeepsFinal s (s.putLink id new) ↔ ∀ l, s.links.get? id = some l → l.status = "completed" →
      new.status = "completed" ∧ new.metrics = l.metrics := by
  constructor
  · intro h l hl hcompleted
    obtain ⟨l', hl', hcompleted', hmetrics⟩ := h.links id l hl hcompleted
    simp only [ShadowStore.putLink, Dict.get?_set_self] at hl'
    cases hl'
    exact ⟨hcompleted', hmetrics⟩
  · intro h
    refine ⟨fun _ mu hmu _ => ⟨mu, hmu, rfl⟩, fun id' l hl hcompleted => ?_⟩
    simp only [ShadowStore.putLink, Dict.get?_set]
    split
    · rename_i hid
      subst hid
      exact ⟨new, rfl, h l hl hcompleted⟩
    · exact ⟨l, hl, hcompleted, rfl⟩

end KeepsFinal

/-! ## New records are under new identifiers -/

structure RecordsDrawn (w : World) (a : Machine App) : Prop where
  links : ∀ id l, a.store.shadow.links.get? id = some l → Drawn w a.draws id
  mutations : ∀ id mu, a.store.shadow.mutations.get? id = some mu → Drawn w a.draws id

section Drawn
variable {w : World} {a a' : Machine App}

theorem not_drawn {n i : Nat} (hi : n ≤ i) : ¬ Drawn w n (w.uuid4 i) := by
  intro ⟨j, hj, heq⟩
  have hij : i = j := w.uuid4_injective heq
  omega

theorem RecordsDrawn.of_same (ha : RecordsDrawn w a) (hdraws : a.draws ≤ a'.draws)
    (h : a'.store.shadow = a.store.shadow) : RecordsDrawn w a' := by
  constructor
  · intro id l hl
    rw [h] at hl
    exact (ha.links id l hl).mono hdraws
  · intro id mu hmu
    rw [h] at hmu
    exact (ha.mutations id mu hmu).mono hdraws

theorem RecordsDrawn.putLink (ha : RecordsDrawn w a) (hdraws : a.draws ≤ a'.draws) {id : Uuid}
    {l : ShadowCardLink} (hid : Drawn w a'.draws id)
    (h : a'.store.shadow = a.store.shadow.putLink id l) : RecordsDrawn w a' := by
  constructor
  · intro id' l' hl'
    rw [h] at hl'
    simp only [ShadowStore.putLink, Dict.get?_set] at hl'
    split at hl'
    · rename_i heq
      rw [heq]
      exact hid
    · exact (ha.links id' l' hl').mono hdraws
  · intro id' mu hmu
    rw [h] at hmu
    exact (ha.mutations id' mu hmu).mono hdraws

theorem RecordsDrawn.putMutation (ha : RecordsDrawn w a) (hdraws : a.draws ≤ a'.draws) {id : Uuid}
    {mu : ProposedMutation} (hid : Drawn w a'.draws id)
    (h : a'.store.shadow = a.store.shadow.putMutation id mu) : RecordsDrawn w a' := by
  constructor
  · intro id' l hl
    rw [h] at hl
    exact (ha.links id' l hl).mono hdraws
  · intro id' mu' hmu'
    rw [h] at hmu'
    simp only [ShadowStore.putMutation, Dict.get?_set] at hmu'
    split at hmu'
    · rename_i heq
      rw [heq]
      exact hid
    · exact (ha.mutations id' mu' hmu').mono hdraws

theorem RecordsDrawn.shadowStep (ha : RecordsDrawn w a) (call : ShadowCall) :
    RecordsDrawn w (call.step w a) := by
  have hdraws : a.draws ≤ (call.step w a).draws := ServiceCall.step_draws (.shadow call)
  have hcases := call.step_cases w a
  generalize call.result w a = r at hcases
  cases hcases with
  | raised _ same => exact ha.of_same hdraws same
  | creates shadow b h =>
    have hlater : b.draws + 1 ≤ _ := h.recorded.later.draws
    exact ha.putLink hdraws ⟨b.draws, hlater, rfl⟩ h.stored
  | completes l stored after => exact ha.putLink hdraws ((ha.links _ l stored).mono hdraws) after
  | proposes drawn after => exact ha.putMutation hdraws ⟨a.draws, drawn, rfl⟩ after
  | validates mu _ _ stored after =>
    exact ha.putMutation hdraws ((ha.mutations _ mu stored).mono hdraws) after
  | promotes mu _ stored _ after =>
    exact ha.putMutation hdraws ((ha.mutations _ mu stored).mono hdraws) after

theorem RecordsDrawn.step (ha : RecordsDrawn w a) (call : ServiceCall) :
    RecordsDrawn w (call.step w a) := by
  cases call with
  | shadow call => exact ha.shadowStep call
  | mesh call =>
    exact ha.of_same (ServiceCall.step_draws (.mesh call)) (ServiceCall.step_records rfl)
  | boundarySource request =>
    exact ha.of_same (ServiceCall.step_draws (.boundarySource request))
      (ServiceCall.step_records rfl)
  | boundarySink request =>
    exact ha.of_same (ServiceCall.step_draws (.boundarySink request))
      (ServiceCall.step_records rfl)

end Drawn

/-! ## What a step keeps -/

section Step
variable {w : World} {a : Machine App}

theorem shadow_keepsFinal_iff (ha : RecordsDrawn w a) (call : ShadowCall) :
    KeepsFinal a.store.shadow (call.step w a).store.shadow ↔
      ServiceCall.MovesForward a (.shadow call) := by
  have hcases := call.step_cases w a
  generalize call.result w a = r at hcases
  cases hcases with
  | raised missing same =>
    rw [same]
    refine ⟨fun _ => ?_, fun _ => .refl _⟩
    cases call with
    | create card candidateId policy key => trivial
    | propose mutationType proposedBy payload => trivial
    | promote mutationId p => trivial
    | complete linkId metrics =>
      intro l hl
      cases hl.symm.trans missing
    | validate mutationId accepted validatorId reason =>
      intro mu hmu
      cases hmu.symm.trans missing
  | creates shadow b h =>
    rw [h.stored, KeepsFinal.putLink_iff]
    refine ⟨fun _ => trivial, fun _ l hl => ?_⟩
    exact absurd (ha.links _ l hl) (not_drawn h.created_effect.later.draws)
  | completes old stored after =>
    rw [after, KeepsFinal.putLink_iff]
    constructor
    · intro h l hl hcompleted
      exact (h l hl hcompleted).2
    · intro h l hl hcompleted
      exact ⟨rfl, h l hl hcompleted⟩
  | proposes _ after =>
    rw [after, KeepsFinal.putMutation_iff]
    refine ⟨fun _ => trivial, fun _ mu hmu => ?_⟩
    exact absurd (ha.mutations _ mu hmu) (not_drawn (Nat.le_refl _))
  | @validates mutationId accepted validatorId reason old _ _ stored after =>
    rw [after, KeepsFinal.putMutation_iff]
    constructor
    · intro h mu hmu
      have hfinal := h mu hmu
      cases hstatus : mu.status <;> cases accepted <;>
        simp [hstatus, MutationStatus.isFinal] at hfinal ⊢
    · intro h mu hmu hfinal
      obtain ⟨hpromoted, hrejected⟩ := h mu hmu
      cases hstatus : mu.status <;> cases accepted <;>
        simp [hstatus, MutationStatus.isFinal] at hpromoted hrejected hfinal ⊢
  | promotes old _ stored validated after =>
    rw [after, KeepsFinal.putMutation_iff]
    refine ⟨fun _ => trivial, fun _ mu hmu hfinal => ?_⟩
    cases stored.symm.trans hmu
    rw [validated] at hfinal
    cases hfinal

/-- The step lemma: a step keeps final records exactly under the condition. -/
theorem step_keepsFinal_iff (ha : RecordsDrawn w a) (call : ServiceCall) :
    KeepsFinal a.store.shadow (call.step w a).store.shadow ↔ call.MovesForward a := by
  have hother : call.isShadow = false →
      KeepsFinal a.store.shadow (call.step w a).store.shadow := by
    intro hcall
    rw [ServiceCall.step_records hcall]
    exact .refl _
  cases call with
  | shadow call => exact shadow_keepsFinal_iff ha call
  | mesh call => exact ⟨fun _ => trivial, fun _ => hother rfl⟩
  | boundarySource request => exact ⟨fun _ => trivial, fun _ => hother rfl⟩
  | boundarySink request => exact ⟨fun _ => trivial, fun _ => hother rfl⟩

end Step

/-! ## Validations and promotions of a run -/

/-- The call promotes the mutation. -/
def ServiceCall.Promotes (w : World) (a : Machine App) (id : Uuid) : ServiceCall → Prop
  | .shadow (.promote mutationId p) =>
    mutationId = id ∧ ShadowCall.result w a (.promote mutationId p) = .ok ()
  | _ => False

/-- The call is a validation that accepts the mutation. -/
def ServiceCall.Accepts (w : World) (a : Machine App) (id : Uuid) : ServiceCall → Prop
  | .shadow (.validate mutationId accepted validatorId reason) =>
    mutationId = id ∧ accepted = true ∧
      ShadowCall.result w a (.validate mutationId accepted validatorId reason) = .ok ()
  | _ => False

section Runs
variable {w : World} {a : Machine App} {id : Uuid} {call : ServiceCall}

/-- A promotion finds a validated mutation and leaves a promoted one. -/
theorem ServiceCall.Promotes.statuses (h : call.Promotes w a id) :
    (∃ mu, a.store.shadow.mutations.get? id = some mu ∧ mu.status = .validated) ∧
      ∃ mu, (call.step w a).store.shadow.mutations.get? id = some mu ∧ mu.status = .promoted := by
  unfold ServiceCall.Promotes at h
  split at h
  · rename_i mutationId p
    obtain ⟨rfl, hok⟩ := h
    have hcases := ShadowCall.step_cases w a (.promote mutationId p)
    rw [hok] at hcases
    cases hcases with
    | promotes mu _ stored validated after =>
      have hstep : (ServiceCall.step w a (.shadow (.promote mutationId p))).store.shadow = _ :=
        after
      rw [hstep, ShadowStore.putMutation, Dict.get?_set_self]
      exact ⟨⟨mu, stored, validated⟩, ⟨_, rfl, rfl⟩⟩
  · exact absurd h not_false

/-- Only an accepted validation makes a mutation accepted. -/
theorem accepted_cases {mu : ProposedMutation}
    (hmu : (call.step w a).store.shadow.mutations.get? id = some mu)
    (haccepted : mu.status.isAccepted = true) : call.Accepts w a id ∨
      ∃ old, a.store.shadow.mutations.get? id = some old ∧ old.status.isAccepted = true := by
  have hsame : ∀ {s : ShadowStore}, (call.step w a).store.shadow = s →
      s.mutations = a.store.shadow.mutations →
      ∃ old, a.store.shadow.mutations.get? id = some old ∧ old.status.isAccepted = true := by
    intro s hs hmutations
    rw [hs, hmutations] at hmu
    exact ⟨mu, hmu, haccepted⟩
  have hput : ∀ {id' : Uuid} {new : ProposedMutation},
      (call.step w a).store.shadow = a.store.shadow.putMutation id' new → (id = id' ∧ new = mu) ∨
        ∃ old, a.store.shadow.mutations.get? id = some old ∧ old.status.isAccepted = true := by
    intro id' new hs
    rw [hs] at hmu
    simp only [ShadowStore.putMutation, Dict.get?_set] at hmu
    split at hmu
    · rename_i hid
      exact .inl ⟨hid, Option.some.inj hmu⟩
    · exact .inr ⟨mu, hmu, haccepted⟩
  cases call with
  | mesh call => exact .inr (hsame (ServiceCall.step_records rfl) rfl)
  | boundarySource request => exact .inr (hsame (ServiceCall.step_records rfl) rfl)
  | boundarySink request => exact .inr (hsame (ServiceCall.step_records rfl) rfl)
  | shadow call =>
    have hcases := call.step_cases w a
    generalize hresult : call.result w a = r at hcases
    cases hcases with
    | raised _ same => exact .inr (hsame same rfl)
    | creates shadow b h => exact .inr (hsame h.stored rfl)
    | completes l _ after => exact .inr (hsame after rfl)
    | proposes _ after =>
      rcases hput after with ⟨-, rfl⟩ | hold
      · cases haccepted
      · exact .inr hold
    | promotes old _ stored validated after =>
      rcases hput after with ⟨rfl, -⟩ | hold
      · refine .inr ⟨old, stored, ?_⟩
        rw [validated]
        rfl
      · exact .inr hold
    | @validates mutationId accepted _ _ old _ _ stored after =>
      rcases hput after with ⟨rfl, rfl⟩ | hold
      · left
        cases accepted with
        | true => exact ⟨rfl, rfl, hresult⟩
        | false => cases haccepted
      · exact .inr hold

/-- The run lemma: before a mutation was accepted, a validation accepted it. -/
theorem accepted_before (hstart : ∀ mu, a.store.shadow.mutations.get? id ≠ some mu)
    (calls : List ServiceCall) {mu : ProposedMutation}
    (hmu : (runServices w a calls).store.shadow.mutations.get? id = some mu)
    (haccepted : mu.status.isAccepted = true) : ∃ before call after,
      calls = before ++ call :: after ∧ call.Accepts w (runServices w a before) id := by
  induction calls using List.reverseRecOn generalizing mu with
  | nil => exact absurd hmu (hstart mu)
  | append_singleton calls call ih =>
    have hstep : runServices w a (calls ++ [call]) = call.step w (runServices w a calls) := by
      simp only [runServices, List.foldl_append, List.foldl_cons, List.foldl_nil]
    rw [hstep] at hmu
    rcases accepted_cases hmu haccepted with haccepts | ⟨old, hold, haccepted'⟩
    · exact ⟨calls, call, [], rfl, haccepts⟩
    · obtain ⟨before, call', after, hcalls, haccepts⟩ := ih hold haccepted'
      refine ⟨before, call', after ++ [call], ?_, haccepts⟩
      rw [hcalls, List.append_assoc, List.cons_append]

end Runs

/-- What holds of the lifecycles over a run from a machine: final records are kept from
any state to any later one, no mutation is promoted again, and none without an accepted
validation before. -/
structure LifecyclesForward (w : World) (a : Machine App) (calls : List ServiceCall) : Prop where
  kept : ∀ before between after, calls = before ++ (between ++ after) →
    KeepsFinal (runServices w a before).store.shadow
      (runServices w (runServices w a before) between).store.shadow
  promotedOnce : ∀ id before first between second after,
    calls = before ++ first :: (between ++ second :: after) →
    first.Promotes w (runServices w a before) id →
    ¬ second.Promotes w (runServices w a (before ++ first :: between)) id
  validatedBefore : ∀ id mu before after, calls = before ++ after →
    (runServices w a before).store.shadow.mutations.get? id = some mu → mu.status = .promoted →
    ∃ earlier call later, before = earlier ++ call :: later ∧
      call.Accepts w (runServices w a earlier) id

theorem newServices_drawn (w : World) (a : App) (ticks draws : Nat) :
    RecordsDrawn w (a.newServices ticks draws) where
  links _ _ h := nomatch h
  mutations _ _ h := nomatch h

/-- In every run from a new service: the lifecycles move forward if and only if no call
validates a promoted mutation, accepts a rejected one, or completes a completed link
with other metrics. -/
theorem lifecycles_forward_iff (w : World) (a : App) (ticks draws : Nat)
    (calls : List ServiceCall) : LifecyclesForward w (a.newServices ticks draws) calls ↔
      Permitted (ServiceCall.step w) ServiceCall.MovesForward (a.newServices ticks draws)
        calls := by
  have hkept : Permitted (ServiceCall.step w) ServiceCall.MovesForward (a.newServices ticks draws)
      calls ↔ ∀ before between after, calls = before ++ (between ++ after) →
        KeepsFinal (runServices w (a.newServices ticks draws) before).store.shadow
          (runServices w (runServices w (a.newServices ticks draws) before)
            between).store.shadow := by
    apply Permitted.iff_related (R := fun m m' => KeepsFinal m.store.shadow m'.store.shadow)
      (J := RecordsDrawn w)
    · intro m
      exact .refl _
    · intro m m' m'' h h'
      exact h.trans h'
    · intro m call hm
      exact hm.step call
    · intro m call hm
      exact step_keepsFinal_iff hm call
    · exact newServices_drawn w a ticks draws
  rw [hkept]
  refine ⟨LifecyclesForward.kept, fun hkeeps => ⟨hkeeps, ?_, ?_⟩⟩
  · intro id before first between second after hcalls hfirst hsecond
    obtain ⟨-, mu, hmu, hpromoted⟩ := hfirst.statuses
    obtain ⟨⟨mu', hmu', hvalidated⟩, -⟩ := hsecond.statuses
    -- the status after the first promotion is still there before the second
    have hlater := hkeeps (before ++ [first]) between (second :: after) (by simp [hcalls])
    have hfirstState : runServices w (a.newServices ticks draws) (before ++ [first]) =
        first.step w (runServices w (a.newServices ticks draws) before) := by
      simp only [runServices, List.foldl_append, List.foldl_cons, List.foldl_nil]
    have hsecondState : runServices w (a.newServices ticks draws) (before ++ first :: between) =
        runServices w (first.step w (runServices w (a.newServices ticks draws) before))
          between := by
      simp only [runServices, List.foldl_append, List.foldl_cons]
    rw [hfirstState, ← hsecondState] at hlater
    obtain ⟨mu'', hmu'', hstatus⟩ := hlater.mutations id mu hmu (by rw [hpromoted]; rfl)
    cases hmu'.symm.trans hmu''
    rw [hvalidated, hpromoted] at hstatus
    cases hstatus
  · intro id mu before after _ hmu hpromoted
    have hstart : ∀ mu, (a.newServices ticks draws).store.shadow.mutations.get? id ≠ some mu := by
      intro mu h
      cases h
    exact accepted_before hstart before hmu (by rw [hpromoted]; rfl)

/-- A mutation that is promoted, rejected after that, and promoted again. -/
def revisitedCalls : List ServiceCall :=
  [.shadow (.propose "topology" "agent" []),
    .shadow (.validate ⟨0⟩ true "validator" none),
    .shadow (.promote ⟨0⟩ (PatchPanelValidator.linePanel "orders" "1")),
    .shadow (.validate ⟨0⟩ false "validator" none),
    .shadow (.validate ⟨0⟩ true "validator" none),
    .shadow (.promote ⟨0⟩ (PatchPanelValidator.linePanel "orders" "2"))]

theorem lifecycles_turn_back :
    ¬ LifecyclesForward .simple (App.init.newServices 0 0) revisitedCalls := by
  intro h
  have hkept := h.kept (revisitedCalls.take 3) [.shadow (.validate ⟨0⟩ false "validator" none)]
    (revisitedCalls.drop 4) rfl
  have hpromoted : ∃ mu, (runServices .simple (App.init.newServices 0 0)
      (revisitedCalls.take 3)).store.shadow.mutations.get? ⟨0⟩ = some mu ∧
        mu.status = .promoted := ⟨_, rfl, rfl⟩
  have hrejected : ∀ mu, (runServices .simple (runServices .simple (App.init.newServices 0 0)
      (revisitedCalls.take 3)) [.shadow (.validate ⟨0⟩ false "validator"
        none)]).store.shadow.mutations.get? ⟨0⟩ = some mu → mu.status = .rejected := by
    intro mu hmu
    cases hmu
    rfl
  obtain ⟨mu, hmu, hstatus⟩ := hpromoted
  obtain ⟨mu', hmu', hsame⟩ := hkept.mutations _ mu hmu (by rw [hstatus]; rfl)
  rw [hrejected mu' hmu', hstatus] at hsame
  cases hsame

end GhostMesh
