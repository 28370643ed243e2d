import GhostMesh.Nodes.ShadowSteps
import GhostMesh.Nodes.ShadowEgress
import GhostMesh.Runtime.Idempotency

/-!
# Links and the cards they point at

A link is stored after `create_card` answered, and names whatever card it answered
with. Under a key that has been used this is the card of that time, so every link points
at a shadow exactly when a key is only used again for a shadow of the same card.
-/

set_option autoImplicit false

namespace GhostMesh

open InMemoryCardRuntime Op
open Relation (ReflTransGen)

/-- The card is marked as a shadow of the production card, and is another card. -/
structure Card.IsShadowOf (c : Card) (productionCardId : Uuid) : Prop where
  differs : c.id ≠ productionCardId
  shadow : JsonObj.get? c.metadata "shadow" = some (.bool true)
  production : JsonObj.get? c.metadata "production_card_id" = some (.str productionCardId.str)

/-- The link points at a stored shadow of its production card, which the guard of the
sinks recognises. -/
def ShadowCardLink.Proper (s : InMemoryCardRuntime) (l : ShadowCardLink) : Prop :=
  ∃ c, s.cards.get? l.shadowCardId = some c ∧ c.IsShadowOf l.productionCardId ∧ c.isShadow = true

def LinksProper (a : App) : Prop :=
  ∀ id l, a.shadow.links.get? id = some l → l.Proper a.runtime

section Cards
variable {w : World} {c : Card} {id : Uuid} {s s' : InMemoryCardRuntime} {l : ShadowCardLink}

theorem Card.IsShadowOf.isShadow (h : c.IsShadowOf id) : c.isShadow = true := by
  unfold Card.isShadow JsonObj.getD
  rw [h.shadow]
  rfl

theorem Card.IsShadowOf.moved (h : c.IsShadowOf id) (bucket : String) :
    ({ c with currentBucket := bucket } : Card).IsShadowOf id :=
  ⟨h.differs, h.shadow, h.production⟩

theorem Card.IsShadowOf.proper (h : c.IsShadowOf l.productionCardId)
    (hc : s.cards.get? l.shadowCardId = some c) : l.Proper s := ⟨c, hc, h, h.isShadow⟩

theorem ShadowCardLink.Proper.kept (h : l.Proper s) (hkept : CardsKept s s') : l.Proper s' := by
  obtain ⟨c, hc, hshadow, -⟩ := h
  obtain ⟨bucket, hbucket⟩ := hkept _ _ hc
  exact (hshadow.moved bucket).proper hbucket

/-- The metadata of `create_shadow_card` marks the card. -/
theorem shadowMetadata_marks {productionCard : Card} {candidateId : String}
    (hid : c.id ≠ productionCard.id)
    (hmetadata : c.metadata = shadowMetadata productionCard candidateId) :
    c.IsShadowOf productionCard.id where
  differs := hid
  shadow := by
    rw [hmetadata, shadowMetadata, JsonObj.get?_update]
    rfl
  production := by
    rw [hmetadata, shadowMetadata, JsonObj.get?_update]
    rfl

end Cards

/-! ## Cards behind keys -/

/-- A card that answers a key is stored, the same but for its bucket. -/
def CachedStored (s : InMemoryCardRuntime) : Prop :=
  ∀ key c, s.cached key = some (.card c) →
    ∃ bucket, s.cards.get? c.id = some { c with currentBucket := bucket }

section Cached
variable {w : World} {s s' : InMemoryCardRuntime} {m m' : Machine InMemoryCardRuntime}

theorem CachedStored.of_kept (hs : CachedStored s) (hkept : CardsKept s s')
    (hcached : ∀ key c, s'.cached key = some (.card c) → s.cached key = some (.card c) ∨
      s'.cards.get? c.id = some c) : CachedStored s' := by
  intro key c hc
  rcases hcached key c hc with hold | hnew
  · obtain ⟨bucket, hstored⟩ := hs key c hold
    obtain ⟨bucket', hkept'⟩ := hkept _ _ hstored
    exact ⟨bucket', hkept'⟩
  · exact ⟨c.currentBucket, hnew⟩

/-- The step lemma: only creations and moves store a card as an answer, the one they
wrote. -/
theorem CachedStored.effect (hsound : CardsSound w m) (hm : CachedStored m.store)
    (h : Effect w m m') : CachedStored m'.store := by
  apply hm.of_kept (Effect.cardsKept hsound.keyed hsound.issued h)
  intro key c hc
  have hother : ∀ {s : InMemoryCardRuntime} {key' : Option String} {v : Stored},
      m'.store = s.putKey key' v → s.cached key = m.store.cached key → v ≠ .card c →
      m.store.cached key = some (.card c) := by
    intro s key' v hstore hs hv
    rw [hstore] at hc
    rcases cached_putKey_cases hc with hold | heq
    · exact hs ▸ hold
    · exact absurd heq.symm hv
  have hwrites : ∀ {s : InMemoryCardRuntime} {key' : Option String} {c' : Card} {e : CardEvent},
      m'.store = s.putKey key' (.card c') → s.cached key = m.store.cached key →
      Logged m.store m'.store (some c') e →
      m.store.cached key = some (.card c) ∨ m'.store.cards.get? c.id = some c := by
    intro s key' c' e hstore hs hlogged
    rw [hstore] at hc
    rcases cached_putKey_cases hc with hold | heq
    · exact .inl (hs ▸ hold)
    · cases heq
      right
      rw [hlogged.cards, Option.elim_some, Dict.get?_set_self]
  cases h with
  | same h =>
    rw [h.store] at hc
    exact .inl hc
  | registers p _ _ h =>
    rw [h] at hc
    exact .inl hc
  | creates h => exact hwrites h.store rfl h.logged
  | claims h => exact .inl (hother h.store rfl (by simp))
  | submits h => exact .inl (hother h.store rfl (by simp))
  | renews h => exact .inl (hother h.store rfl (by simp))
  | releases h => exact .inl (hother h.store rfl (by simp))
  | expires h _ =>
    rw [cached_expires h] at hc
    exact .inl hc
  | validates h =>
    exact .inl (hother h.store (by rw [cached_putEvent, cached_routeCard]) (by simp))
  | moves h => exact hwrites h.store rfl h.logged
  | records h => exact .inl (hother h.store rfl (by simp))

/-- The run lemma: over any sequence of effects. -/
theorem effects_cachedStored (hsound : CardsSound w m) (hm : CachedStored m.store)
    (h : ReflTransGen (Effect w) m m') : CachedStored m'.store := by
  have hboth : CardsSound w m' ∧ CachedStored m'.store := by
    induction h with
    | refl => exact ⟨hsound, hm⟩
    | tail _ heffect ih => exact ⟨ih.1.effect heffect, ih.2.effect ih.1 heffect⟩
  exact hboth.2

end Cached

/-! ## What a link points at -/

/-- The panel is registered and has an initial bucket, so `create_card` returns. -/
def InMemoryCardRuntime.Starts (s : InMemoryCardRuntime) (panelId : String) : Prop :=
  ∃ p bucket, s.patchPanels.get? panelId = some p ∧ resolveInitialBucket p = .ok bucket

section Outcome
variable {w : World} {m m' : Machine InMemoryCardRuntime}

/-- Without an answer for the key, `create_card` raises exactly when it has no bucket
for the card. -/
theorem createCard_outcome {panelId : String} {payload : JsonObj} {metadata : Option JsonObj}
    {key : Option String} {r : Except PyErr Card} (hnone : m.store.cached key = none)
    (h : (createCard panelId payload metadata key).run w m = (r, m')) :
    (¬ m.store.Starts panelId ∧ ∃ e, r = .error e) ∨
      ∃ c e, r = .ok c ∧ Creates w m m' panelId payload metadata key c e := by
  have hcases := createCard_cases h
  simp only [createCard, run_idempotent, hnone, Exec.run_bind, run_getPatchPanel] at h
  cases hp : m.store.patchPanels.get? panelId with
  | none =>
    rw [hp] at h
    cases h
    refine .inl ⟨?_, _, rfl⟩
    intro hstarts
    obtain ⟨p, bucket, hp', -⟩ := hstarts
    cases hp.symm.trans hp'
  | some p =>
    simp only [hp, Op.run_ofExcept] at h
    cases hbucket : resolveInitialBucket p with
    | error e =>
      rw [hbucket] at h
      cases h
      refine .inl ⟨?_, _, rfl⟩
      intro hstarts
      obtain ⟨p', bucket, hp', hbucket'⟩ := hstarts
      cases hp.symm.trans hp'
      cases hbucket.symm.trans hbucket'
    | ok bucket =>
      rw [hbucket] at h
      rcases hcases with rfl | hcreates
      · -- the creation drew two identifiers
        have hdraws := congrArg (fun out : Except PyErr Card × Machine InMemoryCardRuntime =>
          out.2.draws) h
        change m'.draws + 1 + 1 = m'.draws at hdraws
        omega
      · exact .inr hcreates

end Outcome

/-- `create_card` answers with a shadow of the card, if at all: under a key that has an
answer with the card of the answer, and else with a new one, which the card is not. -/
def AnswersShadow (w : World) (a : Machine App) (card : Card) (key : Option String) : Prop :=
  match a.store.runtime.cached key with
  | some (.card answer) => answer.IsShadowOf card.id
  | some _ => True
  | none => card.id ≠ w.uuid4 a.draws ∨
      ¬ a.store.runtime.Starts (beforeFirstColon card.workflowVersion)

/-- A call that stores a link stores one to a shadow. -/
def ServiceCall.MakesShadow (w : World) (a : Machine App) : ServiceCall → Prop
  | .shadow (.create card _ policy key) =>
    policy.refuses a.store.shadow card.id = true ∨ AnswersShadow w a card key
  | _ => True

section Step
variable {w : World} {a a' : Machine App} {card : Card} {candidateId : String}
  {policy : ShadowPolicy} {key : Option String} {shadow : Card} {b : Machine InMemoryCardRuntime}

/-- The card of the answer is stored, and a shadow exactly under the condition. -/
theorem CreatesLink.isShadow_iff (hcached : CachedStored a.store.runtime)
    (h : CreatesLink w a a' card candidateId policy key shadow b) :
    (∃ bucket, b.store.cards.get? shadow.id = some { shadow with currentBucket := bucket }) ∧
      (shadow.IsShadowOf card.id ↔ AnswersShadow w a card key) := by
  have hcreated := h.created
  unfold shadowCard at hcreated
  unfold AnswersShadow
  rcases idempotent_cases hcreated with ⟨rfl, v, hv, hanswer⟩ | ⟨hnone, -⟩
  · have hcard : v.card? = some shadow := hanswer shadow rfl
    cases v with
    | lease l => cases hcard
    | artifacts refs => cases hcard
    | event e => cases hcard
    | card c =>
      cases hcard
      have hkey : a.store.runtime.cached key = some (.card shadow) := hv
      rw [hkey]
      exact ⟨hcached key shadow hv, Iff.rfl⟩
  · have hkey : a.store.runtime.cached key = none := hnone
    rw [hkey]
    rcases createCard_outcome hnone hcreated with ⟨-, e, he⟩ | ⟨c, e, hc, hcreates⟩
    · cases he
    · cases hc
      have hstarts : a.store.runtime.Starts (beforeFirstColon card.workflowVersion) := by
        obtain ⟨p, hp, hbucket, -⟩ := hcreates.panel
        exact ⟨p, _, hp, hbucket⟩
      refine ⟨⟨shadow.currentBucket, ?_⟩, ?_⟩
      · rw [hcreates.logged.cards, Option.elim_some, Dict.get?_set_self]
      · constructor
        · intro hshadow
          left
          intro heq
          exact hshadow.differs (hcreates.fresh.1.trans heq.symm)
        · intro hor
          have hne : card.id ≠ w.uuid4 a.draws := hor.resolve_right (not_not_intro hstarts)
          apply shadowMetadata_marks _ hcreates.metadata
          intro heq
          exact hne (heq.symm.trans hcreates.fresh.1)

/-- An exception of `create_card` leaves no link behind. -/
theorem answersShadow_of_error {e : PyErr}
    (h : (shadowCard w a card candidateId key).1 = .error e) : AnswersShadow w a card key := by
  rcases hrun : shadowCard w a card candidateId key with ⟨r, b⟩
  rw [hrun] at h
  cases h
  unfold shadowCard at hrun
  unfold AnswersShadow
  cases hkey : a.store.runtime.cached key with
  | none =>
    rcases createCard_outcome hkey hrun with ⟨hstarts, -⟩ | ⟨c, e', hc, -⟩
    · exact .inr hstarts
    · cases hc
  | some v =>
    cases v with
    | lease l => trivial
    | artifacts refs => trivial
    | event e => trivial
    | card c =>
      have hanswer : (App.runtimeMachine a).store.cached key = some (.card c) := hkey
      simp only [createCard, run_idempotent, hanswer] at hrun
      cases hrun

theorem proper_iff {s : InMemoryCardRuntime} {l : ShadowCardLink} {c : Card} {bucket : String}
    (hc : s.cards.get? c.id = some { c with currentBucket := bucket })
    (hid : l.shadowCardId = c.id) : l.Proper s ↔ c.IsShadowOf l.productionCardId := by
  rw [← hid] at hc
  constructor
  · intro hproper
    obtain ⟨c', hc', hshadow, -⟩ := hproper
    cases hc.symm.trans hc'
    exact ⟨hid ▸ hshadow.differs, hshadow.shadow, hshadow.production⟩
  · intro hshadow
    exact (hshadow.moved bucket).proper (hid ▸ hc)

/-- What a run carries along for its links. -/
structure LinksSound (w : World) (a : Machine App) : Prop where
  cards : CardsSound w (App.runtimeMachine a)
  cached : CachedStored a.store.runtime

theorem LinksSound.step (ha : LinksSound w a) (call : ServiceCall) :
    LinksSound w (call.step w a) where
  cards := (effects_cardsKept ha.cards call.step_effects).2
  cached := effects_cachedStored ha.cards ha.cached call.step_effects

/-- Other records of the service and other cards stay. -/
theorem linksProper_of_same (hlinks : LinksProper a.store)
    (hkept : CardsKept a.store.runtime a'.store.runtime)
    (hsame : a'.store.shadow.links = a.store.shadow.links) : LinksProper a'.store := by
  intro id l hl
  rw [hsame] at hl
  exact (hlinks id l hl).kept hkept

/-- A new link among old ones. -/
theorem CreatesLink.linksProper_iff (ha : LinksSound w a) (hlinks : LinksProper a.store)
    (hkept : CardsKept a.store.runtime a'.store.runtime)
    (h : CreatesLink w a a' card candidateId policy key shadow b) :
    LinksProper a'.store ↔ AnswersShadow w a card key := by
  obtain ⟨⟨bucket, hshadow⟩, hiff⟩ := h.isShadow_iff ha.cached
  have hlater : SameStore b { b with ticks := b.ticks + 1, draws := b.draws + 1 } :=
    ⟨rfl, Nat.le_succ _, Nat.le_succ _⟩
  have hb := (ha.cards.effect h.created_effect).effect (.same hlater)
  obtain ⟨bucket', hstored⟩ := Effect.cardsKept hb.keyed hb.issued h.recorded _ _ hshadow
  have hnew : (newLink w b card shadow candidateId).Proper a'.store.runtime ↔
      shadow.IsShadowOf card.id := proper_iff (c := shadow) hstored rfl
  have hlinks' : a'.store.shadow.links =
      a.store.shadow.links.set (w.uuid4 b.draws) (newLink w b card shadow candidateId) := by
    rw [h.stored]
    rfl
  rw [← hiff, ← hnew]
  constructor
  · intro hproper
    apply hproper (w.uuid4 b.draws)
    rw [hlinks', Dict.get?_set_self]
  · intro hproper id l hl
    rw [hlinks', Dict.get?_set] at hl
    split at hl
    · cases hl
      exact hproper
    · exact (hlinks id l hl).kept hkept

def ShadowCall.isCreate : ShadowCall → Bool
  | create _ _ _ _ => true
  | complete _ _ | propose _ _ _ | validate _ _ _ _ | promote _ _ => false

/-- Calls that do not create a link keep all of them. -/
theorem ShadowCall.linksProper {call : ShadowCall} (hlinks : LinksProper a.store)
    (hkept : CardsKept a.store.runtime (call.step w a).store.runtime)
    (hcall : call.isCreate = false) :
    LinksProper (call.step w a).store := by
  have hcases := call.step_cases w a
  generalize call.result w a = r at hcases
  cases hcases with
  | raised _ hsame => exact linksProper_of_same hlinks hkept (congrArg ShadowStore.links hsame)
  | creates => cases hcall
  | proposes _ after => exact linksProper_of_same hlinks hkept (by rw [after]; rfl)
  | validates mu _ _ _ after => exact linksProper_of_same hlinks hkept (by rw [after]; rfl)
  | promotes mu _ _ _ after => exact linksProper_of_same hlinks hkept (by rw [after]; rfl)
  | @completes linkId metrics _ old stored after =>
    intro id l hl
    rw [after] at hl
    simp only [ShadowStore.putLink, Dict.get?_set] at hl
    split at hl
    · cases hl
      -- the completed link has the cards of the link that was stored
      obtain ⟨c, hc, hshadow, hguard⟩ := (hlinks linkId old stored).kept hkept
      exact ⟨c, hc, hshadow, hguard⟩
    · exact (hlinks id l hl).kept hkept

/-- The step lemma: a step keeps the links proper exactly under the condition. -/
theorem step_linksProper_iff (ha : LinksSound w a) (hlinks : LinksProper a.store)
    (call : ServiceCall) : LinksProper (call.step w a).store ↔ call.MakesShadow w a := by
  have hkept := (effects_cardsKept ha.cards (call.step_effects (w := w) (a := a))).1
  have hother : LinksProper (call.step w a).store → call.MakesShadow w a →
      (LinksProper (call.step w a).store ↔ call.MakesShadow w a) :=
    fun hproper hmakes => ⟨fun _ => hmakes, fun _ => hproper⟩
  have hsame : call.isShadow = false → LinksProper (call.step w a).store := fun hcall =>
    linksProper_of_same hlinks hkept
      (congrArg ShadowStore.links (ServiceCall.step_records hcall))
  cases call with
  | mesh call => exact hother (hsame rfl) trivial
  | boundarySource request => exact hother (hsame rfl) trivial
  | boundarySink request => exact hother (hsame rfl) trivial
  | shadow c =>
    cases c with
    | create card candidateId policy key =>
      rcases hrun : (App.shadowService.createShadowCard card candidateId policy key).run w a with
        ⟨r, a'⟩
      have hstep : ServiceCall.step w a (.shadow (.create card candidateId policy key)) = a' :=
        congrArg Prod.snd hrun
      rw [hstep] at hkept ⊢
      rcases createShadowCard_cases hrun with ⟨hsame, -, hcause⟩ | ⟨shadow, b, h⟩
      · have hproper := linksProper_of_same hlinks hkept (congrArg ShadowStore.links hsame)
        refine ⟨fun _ => ?_, fun _ => hproper⟩
        rcases hcause with hrefuses | ⟨e, herror⟩
        · exact .inl hrefuses
        · exact .inr (answersShadow_of_error herror)
      · rw [h.linksProper_iff ha hlinks hkept, ServiceCall.MakesShadow, h.wanted]
        simp only [Bool.false_eq_true, false_or]
    | complete linkId metrics => exact hother (ShadowCall.linksProper hlinks hkept rfl) trivial
    | propose mutationType proposedBy payload =>
      exact hother (ShadowCall.linksProper hlinks hkept rfl) trivial
    | validate mutationId accepted validatorId reason =>
      exact hother (ShadowCall.linksProper hlinks hkept rfl) trivial
    | promote mutationId p => exact hother (ShadowCall.linksProper hlinks hkept rfl) trivial

end Step

theorem newServices_sound (w : World) (a : App) (ticks draws : Nat) :
    LinksSound w (a.newServices ticks draws) ∧ LinksProper (a.newServices ticks draws).store := by
  refine ⟨⟨boot_sound _ ticks draws, ?_⟩, ?_⟩
  · intro key c hc
    unfold cached at hc
    cases hkey : truthyStr key with
    | none =>
      rw [hkey] at hc
      cases hc
    | some k =>
      rw [hkey] at hc
      cases hc
  · intro id l hl
    cases hl

/-- In every run: every link of every state points at a shadow of its production card,
which the guard of the sinks recognises, if and only if every creation of a shadow that
is answered is answered with a shadow. -/
theorem links_proper_iff (w : World) (a : App) (ticks draws : Nat) (calls : List ServiceCall) :
    (∀ before after, calls = before ++ after →
      LinksProper (runServices w (a.newServices ticks draws) before).store) ↔
      Permitted (ServiceCall.step w) (ServiceCall.MakesShadow w) (a.newServices ticks draws)
        calls := by
  obtain ⟨hsound, hproper⟩ := newServices_sound w a ticks draws
  symm
  apply Permitted.iff_invariant (I := fun m => LinksProper m.store) (J := LinksSound w)
  · intro m call hm
    exact hm.step call
  · intro m call hm hlinks
    exact step_linksProper_iff hm hlinks call
  · exact hsound
  · exact hproper

/-- A card, and a shadow of it that is asked for under the key of the card itself. -/
def replayedCalls : List ServiceCall :=
  [.mesh (.runtime (.registerPatchPanel (PatchPanelValidator.linePanel "orders" "1"))),
    .mesh (.runtime (.createCard "orders" [] none (some "k"))),
    .shadow (.create ⟨⟨0⟩, "orders:1", "inbox", [], [], 0⟩ "candidate" ⟨.finite 1 0, 1⟩ (some "k"))]

/-- The link makes the card its own shadow. -/
theorem links_improper :
    ¬ ∀ before after, replayedCalls = before ++ after →
      LinksProper (runServices .simple (App.init.newServices 0 0) before).store := by
  intro h
  have hproper := h replayedCalls [] rfl
  have hlink : ∃ l, (runServices .simple (App.init.newServices 0 0)
      replayedCalls).store.shadow.links.get? ⟨2⟩ = some l ∧
        l.shadowCardId = ⟨0⟩ ∧ l.productionCardId = ⟨0⟩ := ⟨_, rfl, rfl, rfl⟩
  have hcard : ∀ c, (runServices .simple (App.init.newServices 0 0)
      replayedCalls).store.runtime.cards.get? ⟨0⟩ = some c → c.id = ⟨0⟩ := by
    intro c hc
    cases hc
    rfl
  obtain ⟨l, hl, hshadow, hproduction⟩ := hlink
  obtain ⟨c, hc, hc', -⟩ := hproper _ l hl
  rw [hshadow] at hc
  exact hc'.differs ((hcard c hc).trans hproduction.symm)

end GhostMesh
