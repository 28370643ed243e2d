import GhostMesh.Runtime.Calls
import GhostMesh.Runtime.ManyPanels
import GhostMesh.Runtime.WorkflowVersion

/-!
# Cards of a replaced version

A definition registered under a used id replaces the old one. Routing finds the panel
of a card by id and so follows the new definition. The claim scan compares whole version
strings and so passes the old cards by.
-/

set_option autoImplicit false

namespace GhostMesh

open InMemoryCardRuntime
open PatchPanelValidator (accepts)

/-! ## Where a call leaves a card -/

/-- The bucket of the card after a call that returned, nothing for a call that raised. -/
def landing {α : Type} (cardId : Uuid) (x : Except PyErr α × Machine InMemoryCardRuntime) :
    Option String :=
  match x.1 with
  | .ok _ => (x.2.store.cards.get? cardId).map (·.currentBucket)
  | .error _ => none

def RoutesTo (p : PatchPanel) (pipe bucket : String) : Prop :=
  ∃ nodeId, resolvePipeBucket p pipe .output = .ok (bucket, nodeId)

/-- The panel lets the node of the lease submit these artifacts to the bucket. -/
structure Takes (w : World) (p : PatchPanel) (l : Lease) (pipe bucket : String)
    (refs : List ArtifactReference) : Prop where
  routed : resolvePipeBucket p pipe .output = .ok (bucket, l.nodeId)
  accepted : ensureArtifactsAccepted w p bucket refs = .ok ()

section Landing
variable {w : World} {m m' : Machine InMemoryCardRuntime} {c : Card} {bucket : String}
  {key : Option String}

/-- A replayed or refused key leaves the card where it is. -/
theorem landing_used {α : Type} {f : Stored → Option α} {body : Rt α}
    (hkeys : m'.store.cached key = m.store.cached key) (hcards : m'.store.cards = m.store.cards)
    (hused : m.store.cached key ≠ none) :
    landing c.id ((idempotent key f body).run w m') =
      landing c.id ((idempotent key f body).run w m) := by
  obtain ⟨v, hv⟩ := Option.ne_none_iff_exists'.mp hused
  rw [run_idempotent, run_idempotent, hkeys, hv]
  cases hf : f v with
  | none => simp only [landing, hf]
  | some a => simp only [landing, hf, hcards]

theorem moveCard_lands {toBucket : String} {actor reason : Option String}
    (hkey : m.store.cached key = none) (hcard : m.store.cards.get? c.id = some c) :
    landing c.id ((moveCard c.id toBucket actor reason key).run w m) = some bucket ↔
      ∃ p, m.store.patchPanels.get? (beforeLastColon c.workflowVersion) = some p ∧
        ensureBucketExists p toBucket = .ok () ∧ toBucket = bucket := by
  rw [moveCard, run_idempotent, hkey]
  simp only [Exec.run_bind, run_getCard, hcard, getPatchPanelForCard, run_getPatchPanel]
  cases m.store.patchPanels.get? (beforeLastColon c.workflowVersion) with
  | none => simp [landing]
  | some p =>
    simp only [Op.run_ofExcept]
    cases hbucket : ensureBucketExists p toBucket with
    | error e => simp [landing, hbucket]
    | ok u => simp [landing, recordCardEvent, storeIdempotent, hbucket]

theorem validateCard_lands {validator : String} {accepted : Bool} {reason outputPipe : Option String}
    {payload : Option JsonObj} (hkey : m.store.cached key = none)
    (hcard : m.store.cards.get? c.id = some c) :
    landing c.id ((validateCard c.id validator accepted reason outputPipe payload key).run w m) =
        some bucket ↔
      match truthyStr outputPipe with
      | none => c.currentBucket = bucket
      | some pipe => ∃ p, m.store.patchPanels.get? (beforeLastColon c.workflowVersion) = some p ∧
          RoutesTo p pipe bucket := by
  rw [validateCard, run_idempotent, hkey]
  simp only [Exec.run_bind, run_getCard, hcard, validationRoute]
  cases truthyStr outputPipe with
  | none =>
    simp [landing, recordCardEvent, storeIdempotent, routeCard, hcard]
  | some pipe =>
    simp only [Exec.run_bind, getPatchPanelForCard, run_getPatchPanel]
    cases m.store.patchPanels.get? (beforeLastColon c.workflowVersion) with
    | none => simp [landing]
    | some p =>
      simp only [Op.run_ofExcept]
      cases hroute : resolvePipeBucket p pipe .output with
      | error e => simp [landing, RoutesTo, hroute]
      | ok found =>
        simp [landing, recordCardEvent, storeIdempotent, routeCard, RoutesTo, hroute, Prod.ext_iff]

theorem submitArtifact_lands {t : Instant} {l : Lease} {pipe : String}
    {refs : List ArtifactReference} (hkey : m.store.cached key = none)
    (hlease : m.store.leases.get? l.id = some l) (howner : l.cardId = c.id)
    (hcard : m.store.cards.get? c.id = some c) :
    landing c.id ((submitArtifact l.id pipe refs key).run (w.stopped t) m) = some bucket ↔
      l.activeAt t = true ∧ ensureArtifactRefsBelongToCard c.id refs = .ok () ∧
        ∃ p, m.store.patchPanels.get? (beforeLastColon c.workflowVersion) = some p ∧
          Takes (w.stopped t) p l pipe bucket refs := by
  rw [submitArtifact, run_idempotent, hkey]
  simp only [Exec.run_bind, run_getLease, hlease, run_ensureActiveLease, World.stopped_clock]
  cases hreleased : l.releasedAt.isNone with
  | false => simp [landing, Lease.activeAt, hreleased]
  | true =>
    by_cases hexpiry : t < l.expiresAt
    · have hactive : l.activeAt t = true := by simp [Lease.activeAt, hreleased, hexpiry]
      simp only [hexpiry, if_true, run_getCard, howner, hcard, getPatchPanelForCard,
        run_getPatchPanel, hactive, true_and]
      cases m.store.patchPanels.get? (beforeLastColon c.workflowVersion) with
      | none => simp [landing]
      | some p =>
        simp only [Op.run_ofExcept]
        cases hroute : resolvePipeBucket p pipe .output with
        | error e =>
          have hnot : ¬ Takes (w.stopped t) p l pipe bucket refs := by
            intro h
            rw [h.routed] at hroute
            cases hroute
          simp [landing, hnot]
        | ok found =>
          obtain ⟨destination, nodeId⟩ := found
          have htakes : Takes (w.stopped t) p l pipe bucket refs ↔
              (destination = bucket ∧ nodeId = l.nodeId) ∧
                ensureArtifactsAccepted (w.stopped t) p destination refs = .ok () := by
            constructor
            · intro h
              have hfound := h.routed
              rw [hroute] at hfound
              cases hfound
              exact ⟨⟨rfl, rfl⟩, h.accepted⟩
            · rintro ⟨⟨rfl, rfl⟩, haccepted⟩
              exact ⟨hroute, haccepted⟩
          simp only [Option.some.injEq, exists_eq_left', htakes]
          cases ensureArtifactRefsBelongToCard c.id refs with
          | error e => simp [landing]
          | ok _ =>
            simp only [Op.run_world]
            cases ensureArtifactsAccepted (w.stopped t) p destination refs with
            | error e => simp [landing]
            | ok _ =>
              by_cases hnode : nodeId = l.nodeId
              · simp [landing, recordCardEvent, storeIdempotent, hnode]
              · simp [landing, hnode]
    · simp [landing, Lease.activeAt, hexpiry]

end Landing

/-! ## Which card a claim takes -/

/-- The claim returns a lease on the card. -/
def ClaimsCard (w : World) (t : Instant) (m : Machine InMemoryCardRuntime) (c : Card)
    (a : ClaimCall) : Prop :=
  ∃ l, ((a.runOn InMemoryCardRuntime.runtime).run (w.stopped t) m).1 = .ok l ∧ l.cardId = c.id

/-- The scan of the pipe finds the card through this panel and none through the others. -/
structure OffersCard (s : InMemoryCardRuntime) (t : Instant) (pipe : String) (x : PatchPanel)
    (c : Card) : Prop where
  registered : x ∈ s.patchPanels.values
  card : ∃ found, cardOffer s t pipe x = some found ∧ found.card = some c
  alone : ∀ r ∈ s.patchPanels.values, r ≠ x → Quiet s t pipe r

section Offers
variable {w : World} {t : Instant} {m : Machine InMemoryCardRuntime} {s : InMemoryCardRuntime}
  {c : Card} {a : ClaimCall} {pipe : String} {p q x : PatchPanel}

theorem claimsCard_iff (hm : WellKeyed m.store) (hc : c ∈ m.store.cards.values)
    (hkey : m.store.cached a.idempotencyKey = none) :
    ClaimsCard w t m c a ↔
      (∃ x, OffersCard m.store t a.inputPipe x c) ∧ (t.addSeconds a.leaseSeconds).isSome = true := by
  constructor
  · rintro ⟨l, hl, hid⟩
    obtain ⟨found, y, c', e, hfound, hfilter, hy, he, rfl⟩ := (claimCard_ok_iff hkey).mp hl
    obtain ⟨x, hx, hoffer, hquiet⟩ := (offers_sole hm.panels_nodup).mp ⟨found, hfound, hfilter⟩
    obtain ⟨-, d, hd, hclaim⟩ := cardOffer_cases hoffer
    rw [hy] at hd
    cases hd
    have hsame : c' = c := Dict.eq_of_keyed (fun _ _ h => hm.cards h) hclaim.stored hc hid
    rw [hsame] at hy
    exact ⟨⟨x, hx, ⟨y, hoffer, hy⟩, hquiet⟩, by rw [he]; rfl⟩
  · rintro ⟨⟨x, hx, ⟨y, hoffer, hy⟩, hquiet⟩, hends⟩
    obtain ⟨e, he⟩ := Option.isSome_iff_exists.mp hends
    obtain ⟨found, hfound, hfilter⟩ := (offers_sole hm.panels_nodup).mpr ⟨x, hx, hoffer, hquiet⟩
    exact ⟨_, (claimCard_ok_iff hkey).mpr ⟨found, y, c, e, hfound, hfilter, hy, he, rfl⟩, rfl⟩

theorem mem_putPanel (hs : WellKeyed s) {r : PatchPanel} :
    r ∈ (s.putPanel q).patchPanels.values ↔ r = q ∨ r ∈ s.patchPanels.values ∧ r.id ≠ q.id := by
  rw [putPanel_patchPanels, Dict.mem_values_iff]
  constructor
  · rintro ⟨id, hget⟩
    rw [Dict.get?_set] at hget
    split at hget
    · cases hget
      exact .inl rfl
    · rename_i hne
      right
      rw [hs.panels hget]
      exact ⟨Dict.mem_values_of_get? hget, hne⟩
  · rintro (rfl | ⟨hr, hne⟩)
    · exact ⟨r.id, Dict.get?_set_self _ _ _⟩
    · refine ⟨r.id, ?_⟩
      rw [Dict.get?_set_ne _ _ hne]
      exact Dict.get?_of_keyed (fun _ _ h => hs.panels h) hr

/-- A card of another version than the new one is still offered exactly by a panel that
stays registered while the new one is quiet. -/
theorem offersCard_putPanel (hs : WellKeyed s) (hx : OffersCard s t pipe x c)
    (hversion : c.workflowVersion ≠ q.workflowVersion) :
    (∃ y, OffersCard (s.putPanel q) t pipe y c) ↔ x.id ≠ q.id ∧ Quiet s t pipe q := by
  have hquiets : ∀ r, Quiet (s.putPanel q) t pipe r ↔ Quiet s t pipe r :=
    fun r => quiet_withPanels
  constructor
  · rintro ⟨y, hy, ⟨found, hoffer, hfound⟩, halone⟩
    obtain ⟨-, d, hd, hclaim⟩ := cardOffer_cases hoffer
    rw [hfound] at hd
    cases hd
    rcases (mem_putPanel hs).mp hy with rfl | ⟨hmem, hid⟩
    · exact absurd hclaim.version hversion
    · have hyx : y = x := by
        by_contra hne
        have hnone := (quiet_iff.mp (hx.alone y hmem hne)).2
        have hsome : cardOffer s t pipe y = some found := hoffer
        rw [hnone] at hsome
        cases hsome
      rw [← hyx]
      refine ⟨hid, (hquiets q).mp (halone q ((mem_putPanel hs).mpr (.inl rfl)) ?_)⟩
      exact fun heq => hid (congrArg PatchPanel.id heq).symm
  · rintro ⟨hid, hquiet⟩
    refine ⟨x, (mem_putPanel hs).mpr (.inr ⟨hx.registered, hid⟩), hx.card, ?_⟩
    intro r hr hne
    rcases (mem_putPanel hs).mp hr with rfl | ⟨hmem, -⟩
    · exact (hquiets r).mpr hquiet
    · exact (hquiets r).mpr (hx.alone r hmem hne)

end Offers

/-! ## Publishing over a running version -/

/-- Every call about the card ends as it would have before: the same bucket or a failure,
and no claim of it is lost. -/
structure Undisturbed (w : World) (t : Instant) (m m' : Machine InMemoryCardRuntime) (c : Card) :
    Prop where
  submits : ∀ l ∈ m.store.leases.values, l.cardId = c.id → ∀ pipe refs key,
    landing c.id ((submitArtifact l.id pipe refs key).run (w.stopped t) m') =
      landing c.id ((submitArtifact l.id pipe refs key).run (w.stopped t) m)
  validates : ∀ validator accepted reason pipe payload key,
    landing c.id
        ((validateCard c.id validator accepted reason pipe payload key).run (w.stopped t) m') =
      landing c.id
        ((validateCard c.id validator accepted reason pipe payload key).run (w.stopped t) m)
  moves : ∀ bucket actor reason key,
    landing c.id ((moveCard c.id bucket actor reason key).run (w.stopped t) m') =
      landing c.id ((moveCard c.id bucket actor reason key).run (w.stopped t) m)
  claims : ∀ a : ClaimCall, ClaimsCard w t m c a → ClaimsCard w t m' c a

/-- Two definitions with the same buckets that route every output pipe alike. -/
structure SameRoutes (p q : PatchPanel) : Prop where
  pipes : ∀ pipe, pipe ≠ "" → ∀ bucket, RoutesTo p pipe bucket ↔ RoutesTo q pipe bucket
  buckets : ∀ bucket, ensureBucketExists p bucket = .ok () ↔ ensureBucketExists q bucket = .ok ()

/-- The new definition `q` treats the card as the old one `p` did. Only a version without
a colon leads from the card to the id of its panel. -/
structure KeepsCard (w : World) (s : InMemoryCardRuntime) (t : Instant) (p q : PatchPanel)
    (c : Card) : Prop where
  routes : ':' ∉ p.version.toList → SameRoutes p q
  submissions : ':' ∉ p.version.toList → ∀ l ∈ s.leases.values, l.cardId = c.id →
    l.activeAt t = true → ∀ pipe bucket refs, ensureArtifactRefsBelongToCard c.id refs = .ok () →
      (Takes w p l pipe bucket refs ↔ Takes w q l pipe bucket refs)
  offers : ∀ pipe seconds x, (t.addSeconds seconds).isSome = true → OffersCard s t pipe x c →
    x.id ≠ q.id ∧ Quiet s t pipe q

section Publishing
variable {w : World} {t : Instant} {m : Machine InMemoryCardRuntime} {p q : PatchPanel} {c : Card}

theorem workflowVersion_injective (hid : p.id = q.id)
    (h : p.workflowVersion = q.workflowVersion) : p.version = q.version := by
  have hlists := congrArg String.toList h
  rw [workflowVersion_toList, workflowVersion_toList, hid] at hlists
  exact String.toList_inj.mp (List.cons.inj (List.append_cancel_left hlists)).2

theorem truthyStr_ne {text : Option String} {k : String} (h : truthyStr text = some k) : k ≠ "" := by
  unfold truthyStr at h
  split at h
  · split at h
    · cases h
    · rename_i hne
      cases h
      exact hne
  · cases h

/-- What is asked of the panel of the card changes its answer exactly if the two
definitions differ in it, as long as the lookup leads to them. -/
theorem lookup_kept_iff (hold : m.store.patchPanels.get? q.id = some p) (hid : p.id = q.id)
    (hcard : c.workflowVersion = p.workflowVersion) (P : PatchPanel → Prop) :
    ((∃ r, (m.store.putPanel q).patchPanels.get? (beforeLastColon c.workflowVersion) = some r ∧
        P r) ↔
      ∃ r, m.store.patchPanels.get? (beforeLastColon c.workflowVersion) = some r ∧ P r) ↔
      (':' ∉ p.version.toList → (P p ↔ P q)) := by
  rw [putPanel_patchPanels, Dict.get?_set, hcard]
  by_cases hcolon : ':' ∈ p.version.toList
  · have hother : beforeLastColon p.workflowVersion ≠ q.id := by
      intro heq
      exact (beforeLastColon_iff p).mp (heq.trans hid.symm) hcolon
    rw [if_neg hother]
    exact iff_of_true Iff.rfl fun hfree => absurd hcolon hfree
  · have hown : beforeLastColon p.workflowVersion = q.id :=
      ((beforeLastColon_iff p).mpr hcolon).trans hid
    rw [if_pos hown, hown, hold]
    simp only [Option.some.injEq, exists_eq_left', hcolon, not_false_eq_true, true_implies]
    exact Iff.comm

/-- The claims that stand are those whose panel stays while the new one is quiet. -/
theorem claims_kept_iff (hm : WellKeyed m.store) (hc : c ∈ m.store.cards.values)
    (hversion : c.workflowVersion ≠ q.workflowVersion) :
    (∀ a : ClaimCall, ClaimsCard w t m c a →
        ClaimsCard w t { m with store := m.store.putPanel q } c a) ↔
      ∀ pipe seconds x, (t.addSeconds seconds).isSome = true → OffersCard m.store t pipe x c →
        x.id ≠ q.id ∧ Quiet m.store t pipe q := by
  have hm' : WellKeyed ({ m with store := m.store.putPanel q } : Machine _).store := hm.putPanel q
  constructor
  · intro h pipe seconds x hends hx
    have hclaims := h ⟨pipe, "", seconds, none⟩
      ((claimsCard_iff hm hc rfl).mpr ⟨⟨x, hx⟩, hends⟩)
    have hafter := (claimsCard_iff hm' hc rfl).mp hclaims
    exact (offersCard_putPanel hm hx hversion).mp hafter.1
  · intro h a hclaims
    by_cases hkey : m.store.cached a.idempotencyKey = none
    · obtain ⟨⟨x, hx⟩, hends⟩ := (claimsCard_iff hm hc hkey).mp hclaims
      exact (claimsCard_iff hm' hc hkey).mpr
        ⟨(offersCard_putPanel hm hx hversion).mpr (h _ _ x hends hx), hends⟩
    · -- A used key answers from the map, which no registration changes.
      obtain ⟨v, hv⟩ := Option.ne_none_iff_exists'.mp hkey
      obtain ⟨l, hl, hid⟩ := hclaims
      refine ⟨l, ?_, hid⟩
      change ((claimCard _ _ _ _).run _ _).1 = _ at hl ⊢
      have hv' : (m.store.putPanel q).cached a.idempotencyKey = some v := hv
      rw [claimCard, run_idempotent, hv] at hl
      rw [claimCard, run_idempotent, hv']
      exact hl

theorem move_kept_iff (hold : m.store.patchPanels.get? q.id = some p) (hid : p.id = q.id)
    (hc : m.store.cards.get? c.id = some c) (hcard : c.workflowVersion = p.workflowVersion)
    {bucket : String} {actor reason key : Option String} (hkey : m.store.cached key = none) :
    landing c.id ((moveCard c.id bucket actor reason key).run w
        { m with store := m.store.putPanel q }) =
      landing c.id ((moveCard c.id bucket actor reason key).run w m) ↔
        (':' ∉ p.version.toList →
          (ensureBucketExists p bucket = .ok () ↔ ensureBucketExists q bucket = .ok ())) := by
  have hafter : ∀ b, landing c.id ((moveCard c.id bucket actor reason key).run w
      { m with store := m.store.putPanel q }) = some b ↔ _ :=
    fun b => moveCard_lands (m := { m with store := m.store.putPanel q }) hkey hc
  rw [Option.ext_iff]
  simp only [hafter, moveCard_lands hkey hc, lookup_kept_iff hold hid hcard]
  constructor
  · intro h hcolon
    simpa using h bucket hcolon
  · intro h b hcolon
    rw [h hcolon]

theorem validate_kept_iff (hold : m.store.patchPanels.get? q.id = some p) (hid : p.id = q.id)
    (hc : m.store.cards.get? c.id = some c) (hcard : c.workflowVersion = p.workflowVersion)
    {validator : String} {accepted : Bool} {reason outputPipe key : Option String}
    {payload : Option JsonObj} (hkey : m.store.cached key = none) :
    landing c.id ((validateCard c.id validator accepted reason outputPipe payload key).run w
        { m with store := m.store.putPanel q }) =
      landing c.id ((validateCard c.id validator accepted reason outputPipe payload key).run w m) ↔
        (':' ∉ p.version.toList → ∀ pipe, truthyStr outputPipe = some pipe →
          ∀ bucket, RoutesTo p pipe bucket ↔ RoutesTo q pipe bucket) := by
  have hafter : ∀ b, landing c.id ((validateCard c.id validator accepted reason outputPipe payload
      key).run w { m with store := m.store.putPanel q }) = some b ↔ _ :=
    fun b => validateCard_lands (m := { m with store := m.store.putPanel q }) hkey hc
  rw [Option.ext_iff]
  simp only [hafter, validateCard_lands hkey hc]
  cases truthyStr outputPipe with
  | none => simp
  | some pipe =>
    simp only [lookup_kept_iff hold hid hcard, Option.some.injEq, forall_eq']
    exact ⟨fun h hcolon b => h b hcolon, fun h b hcolon => h hcolon b⟩

theorem submit_kept_iff (hold : m.store.patchPanels.get? q.id = some p) (hid : p.id = q.id)
    (hc : m.store.cards.get? c.id = some c) (hcard : c.workflowVersion = p.workflowVersion)
    {l : Lease} (hl : m.store.leases.get? l.id = some l) (howner : l.cardId = c.id)
    {pipe : String} {refs : List ArtifactReference} {key : Option String}
    (hkey : m.store.cached key = none) :
    landing c.id ((submitArtifact l.id pipe refs key).run (w.stopped t)
        { m with store := m.store.putPanel q }) =
      landing c.id ((submitArtifact l.id pipe refs key).run (w.stopped t) m) ↔
        (':' ∉ p.version.toList → l.activeAt t = true →
          ensureArtifactRefsBelongToCard c.id refs = .ok () → ∀ bucket,
            (Takes (w.stopped t) p l pipe bucket refs ↔ Takes (w.stopped t) q l pipe bucket refs)) := by
  have hafter : ∀ b, landing c.id ((submitArtifact l.id pipe refs key).run (w.stopped t)
      { m with store := m.store.putPanel q }) = some b ↔ _ :=
    fun b => submitArtifact_lands (m := { m with store := m.store.putPanel q }) hkey hl howner hc
  rw [Option.ext_iff]
  simp only [hafter, submitArtifact_lands hkey hl howner hc, and_congr_right_iff,
    lookup_kept_iff hold hid hcard]
  constructor
  · exact fun h hcolon hactive hrefs b => h b hactive hrefs hcolon
  · exact fun h b hactive hrefs hcolon => h hcolon hactive hrefs b

theorem undisturbed_iff (hm : WellKeyed m.store) (hold : m.store.patchPanels.get? q.id = some p)
    (hversion : p.version ≠ q.version) (hmem : c ∈ m.store.cards.values)
    (hcard : c.workflowVersion = p.workflowVersion) :
    Undisturbed w t m { m with store := m.store.putPanel q } c ↔
      KeepsCard (w.stopped t) m.store t p q c := by
  have hid : p.id = q.id := hm.panels hold
  have hc : m.store.cards.get? c.id = some c := Dict.get?_of_keyed (fun _ _ h => hm.cards h) hmem
  have hlease : ∀ l ∈ m.store.leases.values, m.store.leases.get? l.id = some l :=
    fun l hl => Dict.get?_of_keyed (fun _ _ h => hm.leases h) hl
  have hclaims := claims_kept_iff (w := w) (t := t) (q := q) hm hmem
    (fun heq => hversion (workflowVersion_injective hid (hcard.symm.trans heq)))
  constructor
  · intro h
    refine ⟨fun hcolon => ⟨?_, ?_⟩, ?_, hclaims.mp h.claims⟩
    · intro pipe hpipe
      exact (validate_kept_iff hold hid hc hcard rfl).mp
        (h.validates "" true none (some pipe) none none) hcolon pipe (if_neg hpipe)
    · intro bucket
      exact (move_kept_iff hold hid hc hcard rfl).mp (h.moves bucket none none none) hcolon
    · intro hcolon l hl howner hactive pipe bucket refs hrefs
      exact (submit_kept_iff hold hid hc hcard (hlease l hl) howner rfl).mp
        (h.submits l hl howner pipe refs none) hcolon hactive hrefs bucket
  · intro h
    refine ⟨?_, ?_, ?_, hclaims.mpr h.offers⟩
    · intro l hl howner pipe refs key
      by_cases hkey : m.store.cached key = none
      · exact (submit_kept_iff hold hid hc hcard (hlease l hl) howner hkey).mpr
          fun hcolon hactive hrefs bucket =>
            h.submissions hcolon l hl howner hactive pipe bucket refs hrefs
      · exact landing_used rfl rfl hkey
    · intro validator accepted reason outputPipe payload key
      by_cases hkey : m.store.cached key = none
      · refine (validate_kept_iff hold hid hc hcard hkey).mpr fun hcolon pipe hpipe bucket => ?_
        exact (h.routes hcolon).pipes pipe (truthyStr_ne hpipe) bucket
      · exact landing_used rfl rfl hkey
    · intro bucket actor reason key
      by_cases hkey : m.store.cached key = none
      · exact (move_kept_iff hold hid hc hcard hkey).mpr fun hcolon => (h.routes hcolon).buckets bucket
      · exact landing_used rfl rfl hkey

/-- A validated definition over another version of its id leaves the cards of that version
undisturbed exactly if it treats each of them alike. -/
theorem runningCards_undisturbed_iff (w : World) (t : Instant) (calls : List RuntimeCall)
    (hold : (runCalls w calls).store.patchPanels.get? q.id = some p)
    (hversion : p.version ≠ q.version) (haccepts : accepts w q = true) :
    (∀ c ∈ (runCalls w calls).store.cards.values, c.workflowVersion = p.workflowVersion →
        Undisturbed w t (runCalls w calls) (runCalls w (calls ++ [.registerPatchPanel q])) c) ↔
      ∀ c ∈ (runCalls w calls).store.cards.values, c.workflowVersion = p.workflowVersion →
        KeepsCard (w.stopped t) (runCalls w calls).store t p q c := by
  have hregister : runCalls w (calls ++ [.registerPatchPanel q]) =
      { runCalls w calls with store := (runCalls w calls).store.putPanel q } := by
    obtain ⟨report, hvalid⟩ := PatchPanelValidator.accepts_iff.mp haccepts
    rw [runCalls, List.foldl_append]
    change ((registerPatchPanel q).run w (runCalls w calls)).2 = _
    simp only [registerPatchPanel, Exec.run_bind, Op.run_world, Op.run_ofExcept, hvalid,
      Op.run_modify, Exec.run_pure]
  rw [hregister]
  refine forall₂_congr fun c hc => forall_congr' fun hcard => ?_
  exact undisturbed_iff (runCalls_wellKeyed w calls) hold hversion hc hcard

end Publishing

/-! One order waits in the inbox when the second version is published. -/

section Waiting

open PatchPanelValidator (linePanel)

def waitingCalls : List RuntimeCall :=
  [.registerPatchPanel (linePanel "orders" "1"), .createCard "orders" [] none none]

def waitingMachine : Machine InMemoryCardRuntime := runCalls .simple waitingCalls

def publishedMachine : Machine InMemoryCardRuntime :=
  runCalls .simple (waitingCalls ++ [.registerPatchPanel (linePanel "orders" "2")])

theorem runningCards_undisturbed_iff_waiting :
    (∀ c ∈ waitingMachine.store.cards.values,
        c.workflowVersion = (linePanel "orders" "1").workflowVersion →
          Undisturbed .simple 0 waitingMachine publishedMachine c) ↔
      ∀ c ∈ waitingMachine.store.cards.values,
        c.workflowVersion = (linePanel "orders" "1").workflowVersion →
          KeepsCard (World.simple.stopped 0) waitingMachine.store 0 (linePanel "orders" "1")
            (linePanel "orders" "2") c :=
  runningCards_undisturbed_iff (p := linePanel "orders" "1") (q := linePanel "orders" "2") .simple 0
    waitingCalls rfl (by decide) (by decide +kernel)

/-- The card that a claim of the work pipe takes. -/
def claimedCard (m : Machine InMemoryCardRuntime) : Option Uuid :=
  ((InMemoryCardRuntime.claimCard "work_in" "w1" 300 none).run
    (World.simple.stopped 0) m).1.toOption.map (·.cardId)

theorem claimsCard_iff_claimed {m : Machine InMemoryCardRuntime} {c : Card} :
    ClaimsCard .simple 0 m c ⟨"work_in", "w1", 300, none⟩ ↔ claimedCard m = some c.id := by
  change (∃ l, ((InMemoryCardRuntime.claimCard "work_in" "w1" 300 none).run
    (World.simple.stopped 0) m).1 = .ok l ∧ l.cardId = c.id) ↔ _
  unfold claimedCard
  cases ((InMemoryCardRuntime.claimCard "work_in" "w1" 300 none).run
    (World.simple.stopped 0) m).1 <;> simp [Except.toOption]

/-- The waiting card can be claimed before the second version is published and not after. -/
theorem waiting_disturbed :
    ¬ ∀ (w : World) (t : Instant) (calls : List RuntimeCall) (p q : PatchPanel),
      (runCalls w calls).store.patchPanels.get? q.id = some p → p.version ≠ q.version →
      accepts w q = true →
      ∀ c ∈ (runCalls w calls).store.cards.values, c.workflowVersion = p.workflowVersion →
        Undisturbed w t (runCalls w calls) (runCalls w (calls ++ [.registerPatchPanel q])) c := by
  intro h
  have hcard : (waitingMachine.store.cards.get? ⟨0⟩).map (·.workflowVersion) = some "orders:1" := by
    decide +kernel
  have hbefore : claimedCard waitingMachine = some ⟨0⟩ := by decide +kernel
  have hafter : claimedCard publishedMachine = none := by decide +kernel
  obtain ⟨c, hget, hversion⟩ := Option.map_eq_some_iff.mp hcard
  have hid : c.id = ⟨0⟩ := (runCalls_wellKeyed .simple waitingCalls).cards hget
  have hkept := h .simple 0 waitingCalls (linePanel "orders" "1") (linePanel "orders" "2") rfl
    (by decide) (by decide +kernel) c (Dict.mem_values_of_get? hget) hversion
  have hclaims := hkept.claims ⟨"work_in", "w1", 300, none⟩
    (claimsCard_iff_claimed.mpr (hid ▸ hbefore))
  have hclaimed : claimedCard publishedMachine = some c.id := claimsCard_iff_claimed.mp hclaims
  rw [hafter] at hclaimed
  cases hclaimed

end Waiting

end GhostMesh
