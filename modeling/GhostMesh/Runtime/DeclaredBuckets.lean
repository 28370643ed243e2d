import GhostMesh.Runtime.PipeRouting
import GhostMesh.Runtime.VersionDefinition
import GhostMesh.Runtime.WorkflowVersion

/-!
# Declared buckets

The validator accepts only bindings to declared buckets, so a pipe that resolves leads
to one. Under one definition for each panel id, a card keeps the panel it was created
for, and that panel declares each bucket the card enters.
-/

set_option autoImplicit false

namespace GhostMesh

open PatchPanelValidator (accepts)
open InMemoryCardRuntime (beforeLastColon)

/-! ## Resolved buckets -/

def PatchPanel.Declares (p : PatchPanel) (bucket : String) : Prop := bucket ∈ p.buckets.map (·.id)

section Panel
variable {w : World} {p : PatchPanel} {bucket : String}

theorem resolvePipeBucket_declares {pipe node : String} {d : Direction} (h : accepts w p = true)
    (hres : resolvePipeBucket p pipe d = .ok (bucket, node)) : p.Declares bucket := by
  cases hget : p.pipeBindings.get? pipe with
  | none =>
    rw [resolvePipeBucket, hget] at hres
    cases hres
  | some binding =>
    obtain ⟨hbucket, -⟩ := resolvePipeBucket_cases hget hres
    obtain ⟨owner, d', hbound⟩ := PatchPanelValidator.accepts_binding h hget
    rw [hbucket]
    exact hbound.bucket

theorem resolveInitialBucket_declares (h : accepts w p = true)
    (hres : resolveInitialBucket p = .ok bucket) : p.Declares bucket := by
  unfold resolveInitialBucket at hres
  split at hres
  · cases hres
  · split at hres
    · cases hres
    · split at hres
      · cases hres
      · rename_i binding hget
        obtain ⟨owner, d, hbound⟩ := PatchPanelValidator.accepts_binding h hget
        cases hres
        exact hbound.bucket

theorem ensureBucketExists_declares (h : ensureBucketExists p bucket = .ok ()) :
    p.Declares bucket := by
  unfold ensureBucketExists at h
  split at h
  · assumption
  · cases h

end Panel

/-! ## Buckets that events name -/

namespace CardEvent

/-- The fields in which an event of the runtime names a bucket. A verdict has one when it
moves its card, which `moved` tells. -/
def bucketFields (moved : Bool) (e : CardEvent) : List (Option Json) :=
  if e.eventType = "card_created" then [JsonObj.get? e.payload "bucket"]
  else if e.eventType = "artifact_submitted" then [JsonObj.get? e.payload "destination_bucket"]
  else if e.eventType = "card_moved" then
    [JsonObj.get? e.payload "from_bucket", JsonObj.get? e.payload "to_bucket"]
  else if e.eventType = "card_validated" && moved then
    [JsonObj.get? e.payload "destination_bucket"]
  else []

/-- Each of these fields holds a bucket that the panel declares. -/
def DeclaredIn (moved : Bool) (e : CardEvent) (p : PatchPanel) : Prop :=
  ∀ field ∈ e.bucketFields moved, ∃ bucket, field = some (.str bucket) ∧ p.Declares bucket

section Fields
variable {moved : Bool} {e : CardEvent} {p : PatchPanel}

theorem declaredIn_created {bucket : String} (htype : e.eventType = "card_created")
    (hfield : JsonObj.get? e.payload "bucket" = some (.str bucket)) (h : p.Declares bucket) :
    e.DeclaredIn moved p := by
  intro field hmem
  simp only [bucketFields, htype, if_true, List.mem_singleton] at hmem
  exact ⟨bucket, hmem.trans hfield, h⟩

theorem declaredIn_submitted {bucket : String} (htype : e.eventType = "artifact_submitted")
    (hfield : JsonObj.get? e.payload "destination_bucket" = some (.str bucket))
    (h : p.Declares bucket) : e.DeclaredIn moved p := by
  intro field hmem
  rw [bucketFields, htype, if_neg (by decide), if_pos rfl, List.mem_singleton] at hmem
  exact ⟨bucket, hmem.trans hfield, h⟩

theorem declaredIn_moved {source target : String} (htype : e.eventType = "card_moved")
    (hsource : JsonObj.get? e.payload "from_bucket" = some (.str source))
    (htarget : JsonObj.get? e.payload "to_bucket" = some (.str target))
    (h : p.Declares source) (h' : p.Declares target) : e.DeclaredIn moved p := by
  intro field hmem
  rw [bucketFields, htype, if_neg (by decide), if_neg (by decide), if_pos rfl] at hmem
  rcases List.mem_cons.mp hmem with hmem | hmem
  · exact ⟨source, hmem.trans hsource, h⟩
  · exact ⟨target, (List.mem_singleton.mp hmem).trans htarget, h'⟩

theorem declaredIn_validated (htype : e.eventType = "card_validated")
    (h : moved = true → ∃ bucket,
      JsonObj.get? e.payload "destination_bucket" = some (.str bucket) ∧ p.Declares bucket) :
    e.DeclaredIn moved p := by
  intro field hmem
  rw [bucketFields, htype, if_neg (by decide), if_neg (by decide), if_neg (by decide)] at hmem
  cases moved with
  | true =>
    obtain ⟨bucket, hfield, hdeclares⟩ := h rfl
    rw [if_pos (by decide), List.mem_singleton] at hmem
    exact ⟨bucket, hmem.trans hfield, hdeclares⟩
  | false =>
    rw [if_neg (by decide)] at hmem
    cases hmem

/-- The types of the events that name a bucket. -/
def bucketTypes : List String :=
  ["card_created", "artifact_submitted", "card_moved", "card_validated"]

theorem bucketFields_other (htype : e.eventType ∉ bucketTypes) : e.bucketFields moved = [] := by
  simp only [bucketTypes, List.mem_cons, List.not_mem_nil, or_false, not_or] at htype
  simp [bucketFields, htype]

end Fields

end CardEvent

/-! ## One definition for each panel id -/

/-- No two definitions share a panel id, and the version string of each reads back. -/
structure OneDefinition (registered : PatchPanel → Prop) : Prop where
  unique : ∀ p q, registered p → registered q → p.id = q.id → p = q
  idPlain : ∀ p, registered p → ':' ∉ p.id.toList
  versionPlain : ∀ p, registered p → ':' ∉ p.version.toList

namespace RuntimeCall

/-- The definitions that a run registers. -/
def Registered (w : World) (calls : List RuntimeCall) (p : PatchPanel) : Prop :=
  .registerPatchPanel p ∈ calls ∧ accepts w p = true

/-- The call asks for a move of the card that it validates. -/
def movesCard : RuntimeCall → Bool
  | validateCard _ _ _ _ pipe _ _ => (truthyStr pipe).isSome
  | _ => false

/-- The event of the call is not the runtime's own. -/
def recordsEvent : RuntimeCall → Bool
  | recordEvent _ _ _ _ _ => true
  | _ => false

/-- The events that the call appended to the history of a card. -/
def appended (w : World) (m : Machine InMemoryCardRuntime) (call : RuntimeCall) (id : Uuid) :
    List CardEvent :=
  ((call.step w m).store.history id).drop (m.store.history id).length

end RuntimeCall

/-! ## In memory -/

namespace InMemoryCardRuntime

/-- The card was created for the panel, which is still stored. -/
def Belongs (s : InMemoryCardRuntime) (id : Uuid) (p : PatchPanel) : Prop :=
  s.patchPanels.get? p.id = some p ∧
    ∃ c, s.cards.get? id = some c ∧ c.workflowVersion = p.workflowVersion

/-- Panels have been registered, and each card is in a bucket of its panel. -/
structure Housed (registered : PatchPanel → Prop) (s : InMemoryCardRuntime) : Prop where
  panels : ∀ id p, s.patchPanels.get? id = some p → registered p
  cards : ∀ id c, s.cards.get? id = some c → ∃ p, s.patchPanels.get? p.id = some p ∧
    c.workflowVersion = p.workflowVersion ∧ p.Declares c.currentBucket

section Housed
variable {w : World} {m m' : Machine InMemoryCardRuntime} {registered : PatchPanel → Prop}
  {s s' : InMemoryCardRuntime} {p : PatchPanel} {id : Uuid} {c : Card}

theorem Housed.init : Housed registered InMemoryCardRuntime.init where
  panels id p h := by simp [InMemoryCardRuntime.init] at h
  cards id c h := by simp [InMemoryCardRuntime.init] at h

/-- A stored panel is the one found for its cards. -/
theorem found_of_version (hone : OneDefinition registered) (hs : Housed registered s)
    (hp : s.patchPanels.get? p.id = some p) (hc : c.workflowVersion = p.workflowVersion) :
    s.patchPanels.get? (beforeLastColon c.workflowVersion) = some p := by
  rw [hc, (beforeLastColon_iff p).mpr (hone.versionPlain p (hs.panels p.id p hp))]
  exact hp

theorem Belongs.routed_ok (hone : OneDefinition registered) (hm : Housed registered m.store)
    (h : Belongs m.store id p) :
    ∃ c, m.store.cards.get? id = some c ∧ routed w m c = .ok p := by
  obtain ⟨hp, c, hc, hversion⟩ := h
  refine ⟨c, hc, ?_⟩
  rw [routed_eq, found_of_version hone hm hp hversion]

/-- A panel found for a card is the card's own. -/
theorem Housed.found (hone : OneDefinition registered) (hs : Housed registered s)
    (hc : s.cards.get? id = some c)
    (hp : s.patchPanels.get? (beforeLastColon c.workflowVersion) = some p) :
    s.patchPanels.get? p.id = some p ∧ c.workflowVersion = p.workflowVersion ∧
      p.Declares c.currentBucket := by
  obtain ⟨q, hq, hversion, hdeclares⟩ := hs.cards id c hc
  have hfound := found_of_version hone hs hq hversion
  rw [hp] at hfound
  cases hfound
  exact ⟨hq, hversion, hdeclares⟩

/-- With one definition for each id, a registration writes over nothing else. -/
theorem putPanel_keeps (hone : OneDefinition registered) (hs : Housed registered s)
    {q : PatchPanel} (hq : registered q) (hp : s.patchPanels.get? p.id = some p) :
    (s.putPanel q).patchPanels.get? p.id = some p := by
  rw [putPanel_patchPanels, Dict.get?_set]
  split
  · rename_i hid
    rw [hone.unique p q (hs.panels p.id p hp) hq hid]
  · exact hp

/-- What a call does to the cards, as far as panels and buckets are concerned: it stores at
most one card, in a bucket of the panel that the card has, with one event. -/
inductive Housing (registered : PatchPanel → Prop) (s s' : InMemoryCardRuntime) (moved own : Bool) :
    Prop where
  | registers (q : PatchPanel) (hq : registered q) (h : s' = s.putPanel q)
  | expires {t : Instant} {ls : List Lease} (h : Expires t ls s s')
  | same (h : s' = s)
  | logs (c : Option Card) (e : CardEvent) (h : Logged s s' c e)
      (hpanels : s'.patchPanels = s.patchPanels)
      (hcard : ∀ c', c = some c' → ∃ p, s.patchPanels.get? p.id = some p ∧
        c'.workflowVersion = p.workflowVersion ∧ p.Declares c'.currentBucket)
      (hversion : ∀ c', c = some c' → ∀ old, s.cards.get? c'.id = some old →
        c'.workflowVersion = old.workflowVersion)
      (hevent : own = true → e.eventType ∉ CardEvent.bucketTypes ∨
        ∃ p, Belongs s' e.cardId p ∧ e.DeclaredIn moved p)

section Housing
variable {moved own : Bool}

theorem Expires.housed {t : Instant} {ls : List Lease} (hexp : Expires t ls s s')
    (hs : Housed registered s) : Housed registered s' :=
  hexp.invariant (fun _ _ _ _ hs => ⟨hs.panels, hs.cards⟩) hs

theorem Expires.belongs {t : Instant} {ls : List Lease} (hexp : Expires t ls s s')
    (hb : Belongs s id p) : Belongs s' id p :=
  hexp.invariant (P := fun s => Belongs s id p) (fun _ _ _ _ hb => ⟨hb.1, hb.2⟩) hb

/-- A lapse is no event that names a bucket. -/
theorem Expires.appended {t : Instant} {ls : List Lease} (hexp : Expires t ls s s') (id : Uuid) :
    ∃ new, s'.history id = s.history id ++ new ∧
      ∀ e ∈ new, e.eventType ∉ CardEvent.bucketTypes := by
  induction hexp with
  | done s => exact ⟨[], (List.append_nil _).symm, nofun⟩
  | keep _ _ ih => exact ih
  | @lapse l ls s s' e _ _ htype _ _ _ ih =>
    obtain ⟨new, hnew, hall⟩ := ih
    rw [(released_noted s l _ e).history] at hnew
    split at hnew
    · refine ⟨e :: new, by rw [hnew, List.append_assoc]; rfl, ?_⟩
      intro x hx
      rcases List.mem_cons.mp hx with heq | hx
      · rw [heq, htype]
        decide
      · exact hall x hx
    · exact ⟨new, hnew, hall⟩

theorem Logged.appended {c : Option Card} {e e' : CardEvent} (h : Logged s s' c e)
    (he : e' ∈ (s'.history id).drop (s.history id).length) : e' = e ∧ id = e.cardId := by
  rw [h.history] at he
  split at he
  · rename_i hid
    rw [List.drop_left, List.mem_singleton] at he
    exact ⟨he, hid⟩
  · rw [List.drop_length] at he
    cases he

theorem Housing.housed (hone : OneDefinition registered) (hs : Housed registered s)
    (h : Housing registered s s' moved own) : Housed registered s' := by
  cases h with
  | same h => rwa [h]
  | expires h => exact h.housed hs
  | registers q hq h =>
    rw [h]
    refine ⟨?_, ?_⟩
    · rw [putPanel_patchPanels]
      exact Dict.forall_values_set hs.panels hq
    · intro id c hc
      obtain ⟨p, hp, hrest⟩ := hs.cards id c hc
      exact ⟨p, putPanel_keeps hone hs hq hp, hrest⟩
  | logs c e h hpanels hcard hversion hevent =>
    refine ⟨hpanels ▸ hs.panels, ?_⟩
    rw [hpanels, h.cards]
    cases c with
    | none => exact hs.cards
    | some c' => exact Dict.forall_values_set hs.cards (hcard c' rfl)

theorem Housing.belongs (hone : OneDefinition registered) (hs : Housed registered s)
    (h : Housing registered s s' moved own) (hb : Belongs s id p) : Belongs s' id p := by
  obtain ⟨hp, x, hx, hxversion⟩ := hb
  cases h with
  | same h => exact h ▸ ⟨hp, x, hx, hxversion⟩
  | expires h => exact h.belongs ⟨hp, x, hx, hxversion⟩
  | registers q hq h =>
    rw [h]
    exact ⟨putPanel_keeps hone hs hq hp, x, hx, hxversion⟩
  | logs c e h hpanels hcard hversion hevent =>
    refine ⟨hpanels ▸ hp, ?_⟩
    rw [h.cards]
    cases c with
    | none => exact ⟨x, hx, hxversion⟩
    | some c' =>
      rw [Option.elim_some, Dict.get?_set]
      split
      · rename_i hid
        rw [hid] at hx
        exact ⟨c', rfl, (hversion c' rfl x hx).trans hxversion⟩
      · exact ⟨x, hx, hxversion⟩

/-- The events of the runtime's own name buckets of the panel of their card. -/
theorem Housing.appended {e : CardEvent} (h : Housing registered s s' moved own)
    (hown : own = true) (he : e ∈ (s'.history id).drop (s.history id).length) :
    e.eventType ∉ CardEvent.bucketTypes ∨ ∃ p, Belongs s' id p ∧ e.DeclaredIn moved p := by
  cases h with
  | same h =>
    rw [h, List.drop_length] at he
    cases he
  | registers q _ h =>
    rw [h] at he
    change e ∈ (s.history id).drop (s.history id).length at he
    rw [List.drop_length] at he
    cases he
  | expires h =>
    obtain ⟨new, hnew, hall⟩ := h.appended id
    rw [hnew, List.drop_left] at he
    exact .inl (hall e he)
  | logs c e' h _ _ _ hevent =>
    obtain ⟨heq, hid⟩ := h.appended he
    rw [heq, hid]
    exact hevent hown

end Housing

end Housed

end InMemoryCardRuntime

open InMemoryCardRuntime

section Step
variable {w : World} {m m' : Machine InMemoryCardRuntime} {registered : PatchPanel → Prop}

/-- A card that is stored again with another bucket keeps its panel. -/
theorem housing_of_moved {s s' : InMemoryCardRuntime} {moved own : Bool} {id : Uuid} {c : Card}
    {p : PatchPanel} {bucket : String} {e : CardEvent} (hkeyed : WellKeyed s)
    (hone : OneDefinition registered) (hs : Housed registered s) (hc : s.cards.get? id = some c)
    (hp : s.patchPanels.get? (beforeLastColon c.workflowVersion) = some p)
    (hbucket : p.Declares bucket) (h : Logged s s' (some { c with currentBucket := bucket }) e)
    (hpanels : s'.patchPanels = s.patchPanels) (hid : e.cardId = c.id)
    (hevent : p.Declares c.currentBucket → e.DeclaredIn moved p) :
    Housing registered s s' moved own := by
  obtain ⟨hstored, hversion, hdeclares⟩ := hs.found hone hc hp
  refine .logs _ e h hpanels ?_ ?_ ?_
  · intro c' hc'
    cases hc'
    exact ⟨p, hstored, hversion, hbucket⟩
  · intro c' hc' old hold
    cases hc'
    change s.cards.get? c.id = some old at hold
    rw [hkeyed.cards hc, hc] at hold
    cases hold
    rfl
  · intro _
    refine .inr ⟨p, ⟨hpanels ▸ hstored, { c with currentBucket := bucket }, ?_, hversion⟩,
      hevent hdeclares⟩
    rw [h.cards, hid]
    exact Dict.get?_set_self s.cards c.id { c with currentBucket := bucket }

/-- The step lemma, one case for each kind of effect. -/
theorem RuntimeCall.step_housing {call : RuntimeCall} (hone : OneDefinition registered)
    (hcall : ∀ q, call = .registerPatchPanel q → accepts w q = true → registered q)
    (haccepts : ∀ q, registered q → accepts w q = true) (hkeyed : WellKeyed m.store)
    (hissued : Issued w m) (hm : Housed registered m.store) :
    Housing registered m.store (call.step w m).store call.movesCard (!call.recordsEvent) := by
  have hnote : ∀ {e : CardEvent} {type : String}, e.eventType = type →
      type ∉ CardEvent.bucketTypes → Noted m.store (call.step w m).store e →
      (call.step w m).store.patchPanels = m.store.patchPanels →
      Housing registered m.store (call.step w m).store call.movesCard (!call.recordsEvent) := by
    intro e type htype hother h hpanels
    exact .logs none e h hpanels (by simp) (by simp) fun _ => .inl (htype ▸ hother)
  have hcase := call.step_cases w m
  generalize call.result w m = r at hcase
  cases hcase with
  | same h => exact .same h.store
  | @registers q report hvalid h =>
    exact .registers q (hcall q rfl (PatchPanelValidator.accepts_iff.mpr ⟨report, hvalid⟩))
      (by rw [h])
  | @creates _ _ _ _ c e h =>
    obtain ⟨p, hp, hbucket, hversion, hbody⟩ := h.panel
    obtain ⟨hid, htype, -⟩ := h.event
    have hpanels := congrArg InMemoryCardRuntime.patchPanels h.store
    simp only [created, putKey_patchPanels, putEvent_patchPanels, putCard_patchPanels] at hpanels
    have hstored : m.store.patchPanels.get? p.id = some p := by
      rw [hkeyed.panels hp]
      exact hp
    have hdeclares : p.Declares c.currentBucket :=
      resolveInitialBucket_declares (haccepts p (hm.panels _ p hp)) hbucket
    refine .logs (some c) e h.logged hpanels ?_ ?_ ?_
    · intro c' hc'
      cases hc'
      exact ⟨p, hstored, hversion, hdeclares⟩
    · intro c' hc' old hold
      cases hc'
      -- The id of a new card has not been drawn before.
      obtain ⟨j, hj, heq⟩ := hissued.cards _ old hold
      rw [h.fresh.1] at heq
      have hsame : m.draws = j := w.uuid4_injective heq
      omega
    · intro _
      refine .inr ⟨p, ⟨hpanels ▸ hstored, c, ?_, hversion⟩, ?_⟩
      · rw [h.logged.cards, hid]
        exact Dict.get?_set_self m.store.cards c.id c
      · apply CardEvent.declaredIn_created htype ?_ hdeclares
        simp [hbody, JsonObj.get?, Dict.lookupIn]
  | claims h => exact hnote h.event.2.1 (by decide) h.noted (by rw [h.store]; simp [claimed])
  | @submits _ _ _ _ l c d t e h =>
    obtain ⟨p, hok⟩ := h.checks
    obtain ⟨hid, htype, -, hbody⟩ := h.event
    have hdeclares : p.Declares d :=
      resolvePipeBucket_declares (haccepts p (hm.panels _ p hok.panel)) hok.route
    refine housing_of_moved hkeyed hone hm hok.card hok.panel hdeclares h.logged
      (by rw [h.store]; simp [submitted]) hid ?_
    intro _
    apply CardEvent.declaredIn_submitted htype ?_ hdeclares
    simp [hbody, JsonObj.get?, Dict.lookupIn]
  | renews h => exact hnote h.event.2.1 (by decide) h.noted (by rw [h.store]; simp [renewed])
  | releases h => exact hnote h.event.2.1 (by decide) h.noted (by rw [h.store]; simp [released])
  | expires h _ => exact .expires h
  | @validates card validator accepted reason pipe payload key c route e h =>
    obtain ⟨hid, htype, -, hbody⟩ := h.event
    have hpanels := congrArg InMemoryCardRuntime.patchPanels h.store
    simp only [validated, putKey_patchPanels, putEvent_patchPanels, routeCard_patchPanels] at hpanels
    have hlogged := h.logged
    have hrouted := h.routed
    cases route with
    | none =>
      have hstays : RuntimeCall.movesCard (.validateCard card validator accepted reason pipe
          payload key) = false := by
        rw [RuntimeCall.movesCard, show truthyStr pipe = none from hrouted]
        rfl
      obtain ⟨p, hp, hversion, -⟩ := hm.cards card c h.card
      refine .logs none e hlogged hpanels (by simp) (by simp) fun _ => ?_
      refine .inr ⟨p, ⟨hpanels ▸ hp, c, ?_, hversion⟩, ?_⟩
      · rw [hlogged.cards, hid, hkeyed.cards h.card]
        exact h.card
      · rw [hstays]
        exact CardEvent.declaredIn_validated htype (by simp)
    | some r =>
      obtain ⟨-, p, node, hpanel, hres⟩ := hrouted
      have hdeclares : p.Declares r.2 :=
        resolvePipeBucket_declares (haccepts p (hm.panels _ p hpanel)) hres
      refine housing_of_moved hkeyed hone hm h.card hpanel hdeclares hlogged hpanels hid ?_
      intro _
      refine CardEvent.declaredIn_validated htype fun _ => ⟨r.2, ?_, hdeclares⟩
      rw [hbody]
      exact JsonObj.get?_set_self _ _ _
  | @moves _ bucket _ _ _ c e h =>
    obtain ⟨p, hpanel, hexists⟩ := h.bucket
    obtain ⟨hid, htype, -, hbody⟩ := h.event
    have hdeclares : p.Declares bucket := ensureBucketExists_declares hexists
    refine housing_of_moved hkeyed hone hm h.card hpanel hdeclares h.logged
      (by rw [h.store]; simp [moved]) hid ?_
    intro hold
    apply CardEvent.declaredIn_moved htype ?_ ?_ hold hdeclares
    · simp [hbody, JsonObj.get?, Dict.lookupIn]
    · simp [hbody, JsonObj.get?, Dict.lookupIn]
  | records h =>
    exact .logs none _ h.noted (by rw [h.store]; simp) (by simp) (by simp) (fun h => by cases h)

end Step

/-! ## Runs in memory -/

section Runs
variable {w : World} {registered : PatchPanel → Prop}

/-- What a run under one definition for each id keeps. -/
structure HousedRun (w : World) (registered : PatchPanel → Prop) (m : Machine InMemoryCardRuntime) :
    Prop where
  keyed : WellKeyed m.store
  issued : Issued w m
  housed : Housed registered m.store

theorem HousedRun.step {m : Machine InMemoryCardRuntime} (call : RuntimeCall)
    (hone : OneDefinition registered) (haccepts : ∀ q, registered q → accepts w q = true)
    (hcall : ∀ q, call = .registerPatchPanel q → accepts w q = true → registered q)
    (h : HousedRun w registered m) :
    Housing registered m.store (call.step w m).store call.movesCard (!call.recordsEvent) ∧
      HousedRun w registered (call.step w m) := by
  have hstep := RuntimeCall.step_housing hone hcall haccepts h.keyed h.issued h.housed
  have heffect := call.step_effect w m
  exact ⟨hstep, h.keyed.effect heffect, Issued.effect h.keyed h.issued heffect,
    hstep.housed hone h.housed⟩

theorem HousedRun.run (calls : List RuntimeCall) (hone : OneDefinition registered)
    (haccepts : ∀ q, registered q → accepts w q = true)
    (hcalls : ∀ q, .registerPatchPanel q ∈ calls → accepts w q = true → registered q)
    {m : Machine InMemoryCardRuntime} (h : HousedRun w registered m) :
    HousedRun w registered (calls.foldl (RuntimeCall.step w) m) ∧
      ∀ id p, Belongs m.store id p →
        Belongs (calls.foldl (RuntimeCall.step w) m).store id p := by
  induction calls generalizing m with
  | nil => exact ⟨h, fun id p hb => hb⟩
  | cons call calls ih =>
    obtain ⟨hstep, hnext⟩ := h.step call hone haccepts
      fun q heq => hcalls q (heq ▸ List.mem_cons_self)
    obtain ⟨hrun, hbelongs⟩ := ih (fun q hq => hcalls q (List.mem_cons_of_mem _ hq)) hnext
    exact ⟨hrun, fun id p hb => hbelongs id p (hstep.belongs hone h.housed hb)⟩

end Runs

/-- Each card is in a bucket that the panel declares under which the card is routed. -/
def CardsDeclared (cards : Dict Uuid Card) (routed : Card → Except PyErr PatchPanel) : Prop :=
  ∀ id c, cards.get? id = some c → ∃ p, routed c = .ok p ∧ p.Declares c.currentBucket

/-- The bucket fields of an event hold buckets of the panel under which the card of the
event is routed. -/
def CardEvent.NamesDeclared (moved : Bool) (e : CardEvent) (cards : Dict Uuid Card)
    (routed : Card → Except PyErr PatchPanel) : Prop :=
  ∀ field ∈ e.bucketFields moved, ∃ c p bucket, cards.get? e.cardId = some c ∧
    routed c = .ok p ∧ field = some (.str bucket) ∧ p.Declares bucket

theorem memory_in_declared_buckets (w : World) (calls : List RuntimeCall)
    (hone : OneDefinition (RuntimeCall.Registered w calls)) :
    CardsDeclared (runCalls w calls).store.cards
      (InMemoryCardRuntime.routed w (runCalls w calls)) ∧
    ∀ before call after e, calls = before ++ call :: after → call.recordsEvent = false →
      e ∈ call.appended w (runCalls w before) e.cardId →
      e.NamesDeclared call.movesCard (runCalls w calls).store.cards
        (InMemoryCardRuntime.routed w (runCalls w calls)) := by
  have haccepts : ∀ q, RuntimeCall.Registered w calls q → accepts w q = true := fun q hq => hq.2
  have hstart : HousedRun w (RuntimeCall.Registered w calls) InMemoryCardRuntime.start :=
    ⟨WellKeyed.init, Issued.start w, Housed.init⟩
  constructor
  · intro id c hc
    obtain ⟨hrun, -⟩ := hstart.run calls hone haccepts fun q hq hok => ⟨hq, hok⟩
    obtain ⟨p, hp, hversion, hdeclares⟩ := hrun.housed.cards id c hc
    have hbelongs : Belongs (runCalls w calls).store id p := ⟨hp, c, hc, hversion⟩
    obtain ⟨c', hc', hrouted⟩ := hbelongs.routed_ok (w := w) hone hrun.housed
    have hsame : c' = c := Option.some.inj (hc'.symm.trans hc)
    exact ⟨p, hsame ▸ hrouted, hdeclares⟩
  · intro before call after e hsplit hown he field hfield
    -- The state before the call, after it, and at the end.
    have hmem : ∀ q, .registerPatchPanel q ∈ before ++ call :: after → accepts w q = true →
        RuntimeCall.Registered w calls q := fun q hq hok => ⟨hsplit ▸ hq, hok⟩
    obtain ⟨hbefore, -⟩ := hstart.run before hone haccepts fun q hq =>
      hmem q (List.mem_append_left _ hq)
    obtain ⟨hstep, hnext⟩ := hbefore.step call hone haccepts fun q heq =>
      hmem q (heq ▸ List.mem_append_right _ List.mem_cons_self)
    obtain ⟨hend, hbelongs⟩ := hnext.run after hone haccepts fun q hq =>
      hmem q (List.mem_append_right _ (List.mem_cons_of_mem _ hq))
    have hcalls : after.foldl (RuntimeCall.step w) (call.step w (runCalls w before)) =
        runCalls w calls := by
      rw [hsplit, runCalls, runCalls, List.foldl_append, List.foldl_cons]
    change HousedRun w _ (after.foldl (RuntimeCall.step w) (call.step w (runCalls w before))) at hend
    rw [hcalls] at hend
    rcases hstep.appended (by rw [hown]; rfl) he with hother | ⟨p, hp, hdeclared⟩
    · rw [CardEvent.bucketFields_other hother] at hfield
      cases hfield
    · have hlast := hbelongs e.cardId p hp
      change Belongs (after.foldl (RuntimeCall.step w) (call.step w (runCalls w before))).store
        e.cardId p at hlast
      rw [hcalls] at hlast
      obtain ⟨c, hc, hrouted⟩ := hlast.routed_ok (w := w) hone hend.housed
      obtain ⟨bucket, hbucket, hdeclares⟩ := hdeclared field hfield
      exact ⟨c, p, bucket, hc, hrouted, hbucket, hdeclares⟩

end GhostMesh
