import GhostMesh.Runtime.Memory

/-!
# What one call of the in-memory runtime can do

One lemma for each operation: either the store is as before, or the call returned
and the store is the old one with exactly these writes. Everything proved about
runs starts from these lemmas and unfolds no operation again.
-/

set_option autoImplicit false

namespace GhostMesh.InMemoryCardRuntime

open Op (SameStore)
open Exec (bind_cases bind_ok bind_same)

/-! ## The writes -/

section Writes
variable (s : InMemoryCardRuntime)

@[simp] theorem putCard_patchPanels (c : Card) : (s.putCard c).patchPanels = s.patchPanels := rfl
@[simp] theorem putCard_leases (c : Card) : (s.putCard c).leases = s.leases := rfl
@[simp] theorem putCard_events (c : Card) : (s.putCard c).events = s.events := rfl
@[simp] theorem putCard_history (c : Card) (x : Uuid) : (s.putCard c).history x = s.history x := rfl
@[simp] theorem putCard_cards (c : Card) : (s.putCard c).cards = s.cards.set c.id c := rfl

@[simp] theorem putLease_patchPanels (l : Lease) : (s.putLease l).patchPanels = s.patchPanels := rfl
@[simp] theorem putLease_cards (l : Lease) : (s.putLease l).cards = s.cards := rfl
@[simp] theorem putLease_events (l : Lease) : (s.putLease l).events = s.events := rfl
@[simp] theorem putLease_history (l : Lease) (x : Uuid) :
    (s.putLease l).history x = s.history x := rfl
@[simp] theorem putLease_leases (l : Lease) : (s.putLease l).leases = s.leases.set l.id l := rfl

@[simp] theorem putArtifacts_patchPanels (refs : List ArtifactReference) :
    (s.putArtifacts refs).patchPanels = s.patchPanels := rfl
@[simp] theorem putArtifacts_cards (refs : List ArtifactReference) :
    (s.putArtifacts refs).cards = s.cards := rfl
@[simp] theorem putArtifacts_leases (refs : List ArtifactReference) :
    (s.putArtifacts refs).leases = s.leases := rfl
@[simp] theorem putArtifacts_history (refs : List ArtifactReference) (x : Uuid) :
    (s.putArtifacts refs).history x = s.history x := rfl

@[simp] theorem putEvent_patchPanels (e : CardEvent) :
    (s.putEvent e).patchPanels = s.patchPanels := rfl
@[simp] theorem putEvent_cards (e : CardEvent) : (s.putEvent e).cards = s.cards := rfl
@[simp] theorem putEvent_leases (e : CardEvent) : (s.putEvent e).leases = s.leases := rfl

theorem putEvent_history (e : CardEvent) (x : Uuid) :
    (s.putEvent e).history x = if x = e.cardId then s.history x ++ [e] else s.history x := by
  by_cases h : x = e.cardId
  · simp [history, putEvent, h]
  · simp [history, putEvent, Dict.get?_set, h]

@[simp] theorem putKey_patchPanels (key : Option String) (v : Stored) :
    (s.putKey key v).patchPanels = s.patchPanels := by unfold putKey; split <;> rfl
@[simp] theorem putKey_cards (key : Option String) (v : Stored) :
    (s.putKey key v).cards = s.cards := by unfold putKey; split <;> rfl
@[simp] theorem putKey_leases (key : Option String) (v : Stored) :
    (s.putKey key v).leases = s.leases := by unfold putKey; split <;> rfl
@[simp] theorem putKey_history (key : Option String) (v : Stored) (x : Uuid) :
    (s.putKey key v).history x = s.history x := by unfold putKey; split <;> rfl

@[simp] theorem putPanel_cards (p : PatchPanel) : (s.putPanel p).cards = s.cards := rfl
@[simp] theorem putPanel_leases (p : PatchPanel) : (s.putPanel p).leases = s.leases := rfl
@[simp] theorem putPanel_history (p : PatchPanel) (x : Uuid) :
    (s.putPanel p).history x = s.history x := rfl
@[simp] theorem putPanel_patchPanels (p : PatchPanel) :
    (s.putPanel p).patchPanels = s.patchPanels.set p.id p := rfl

@[simp] theorem routeCard_patchPanels (c : Card) (r : Option (String × String)) :
    (s.routeCard c r).patchPanels = s.patchPanels := by cases r <;> rfl
@[simp] theorem routeCard_leases (c : Card) (r : Option (String × String)) :
    (s.routeCard c r).leases = s.leases := by cases r <;> rfl
@[simp] theorem routeCard_history (c : Card) (r : Option (String × String)) (x : Uuid) :
    (s.routeCard c r).history x = s.history x := by cases r <;> rfl

end Writes

/-! ## Running the helpers -/

section Helpers
variable (w : World) (m : Machine InMemoryCardRuntime)

theorem run_getPatchPanel (id : String) : (getPatchPanel id).run w m =
    (match m.store.patchPanels.get? id with
      | some p => .ok p
      | none => .error (.notFound s!"Patch Panel '{id}' is not registered"), m) := by
  simp only [getPatchPanel, Exec.run_bind, Op.run_get]
  cases m.store.patchPanels.get? id <;> rfl

theorem run_getCard (id : Uuid) : (getCard id).run w m =
    (match m.store.cards.get? id with
      | some c => .ok c
      | none => .error (.notFound s!"card '{id.str}' does not exist"), m) := by
  simp only [getCard, Exec.run_bind, Op.run_get]
  cases m.store.cards.get? id <;> rfl

theorem run_getLease (id : Uuid) : (getLease id).run w m =
    (match m.store.leases.get? id with
      | some l => .ok l
      | none => .error (.notFound s!"lease '{id.str}' does not exist"), m) := by
  simp only [getLease, Exec.run_bind, Op.run_get]
  cases m.store.leases.get? id <;> rfl

theorem run_idempotent {α : Type} (key : Option String) (f : Stored → Option α) (body : Rt α) :
    (idempotent key f body).run w m = match m.store.cached key with
      | some c => (match f c with
        | some a => .ok a
        | none => .error (.conflict "idempotency key was already used for a different operation"), m)
      | none => body.run w m := by
  simp only [idempotent, getIdempotent, Exec.run_bind, Op.run_get, Exec.run_pure]
  cases m.store.cached key with
  | none => rfl
  | some c => cases hf : f c <;> simp [typed, hf]

@[simp] theorem run_newEvent {σ : Type} (cardId : Uuid) (type : String) (actor : Option String)
    (payload : JsonObj) (w : World) (m : Machine σ) :
    (newEvent cardId type actor payload).run w m =
      (.ok ⟨w.uuid4 m.draws, cardId, type, actor, payload, w.clock m.ticks⟩,
        ⟨m.store, m.ticks + 1, m.draws + 1⟩) := rfl

theorem run_ensureActiveLease {σ : Type} (l : Lease) (w : World) (m : Machine σ) :
    (ensureActiveLease l).run w m =
      if l.releasedAt.isNone then
        (if w.clock m.ticks < l.expiresAt then .ok ()
          else .error (.conflict s!"lease '{l.id.str}' has expired"),
          { m with ticks := m.ticks + 1 })
      else (.error (.conflict s!"lease '{l.id.str}' has already been released"), m) := by
  cases h : l.releasedAt <;> simp [ensureActiveLease, Exec.run_bind, h]

theorem run_expiryAfter {σ : Type} (n : Int) (w : World) (m : Machine σ) :
    (expiryAfter n : Op σ Instant).run w m =
      (match (w.clock m.ticks).addSeconds n with
        | some e => .ok e
        | none => .error .overflow, { m with ticks := m.ticks + 1 }) := by
  simp only [expiryAfter, Exec.run_bind, Op.run_now]
  cases (w.clock m.ticks).addSeconds n <;> rfl

variable {w m} {m' : Machine InMemoryCardRuntime}

/-- A lookup that returned has found its record. -/
theorem getPatchPanel_ok {id : String} {p : PatchPanel}
    (h : (getPatchPanel id).run w m = (.ok p, m')) :
    m' = m ∧ m.store.patchPanels.get? id = some p := by
  rw [run_getPatchPanel] at h
  cases hp : m.store.patchPanels.get? id with
  | none =>
    rw [hp] at h
    cases h
  | some q =>
    rw [hp] at h
    cases h
    exact ⟨rfl, rfl⟩

theorem getCard_ok {id : Uuid} {c : Card} (h : (getCard id).run w m = (.ok c, m')) :
    m' = m ∧ m.store.cards.get? id = some c := by
  rw [run_getCard] at h
  cases hc : m.store.cards.get? id with
  | none =>
    rw [hc] at h
    cases h
  | some d =>
    rw [hc] at h
    cases h
    exact ⟨rfl, rfl⟩

theorem getLease_ok {id : Uuid} {l : Lease} (h : (getLease id).run w m = (.ok l, m')) :
    m' = m ∧ m.store.leases.get? id = some l := by
  rw [run_getLease] at h
  cases hl : m.store.leases.get? id with
  | none =>
    rw [hl] at h
    cases h
  | some k =>
    rw [hl] at h
    cases h
    exact ⟨rfl, rfl⟩

theorem ofExcept_ok {α : Type} {x : Except PyErr α} {a : α}
    (h : (Op.ofExcept x : Rt α).run w m = (.ok a, m')) : m' = m ∧ x = .ok a := by
  rw [Op.run_ofExcept] at h
  cases h
  exact ⟨rfl, rfl⟩

/-- Inversion of a lookup in front of the rest of an operation. -/
theorem getPatchPanel_bind {β : Type} {id : String} {f : PatchPanel → Rt β} {r : Except PyErr β}
    (h : (getPatchPanel id >>= f).run w m = (r, m')) :
    m' = m ∨ ∃ p, m.store.patchPanels.get? id = some p ∧ (f p).run w m = (r, m') :=
  (Exec.bind_lookup (fun p hp => by rw [run_getPatchPanel, hp])
    (fun hp => ⟨_, by rw [run_getPatchPanel, hp]⟩) h).imp_left And.left

theorem getCard_bind {β : Type} {id : Uuid} {f : Card → Rt β} {r : Except PyErr β}
    (h : (getCard id >>= f).run w m = (r, m')) :
    m' = m ∨ ∃ c, m.store.cards.get? id = some c ∧ (f c).run w m = (r, m') :=
  (Exec.bind_lookup (fun c hc => by rw [run_getCard, hc])
    (fun hc => ⟨_, by rw [run_getCard, hc]⟩) h).imp_left And.left

theorem getLease_bind {β : Type} {id : Uuid} {f : Lease → Rt β} {r : Except PyErr β}
    (h : (getLease id >>= f).run w m = (r, m')) :
    m' = m ∨ ∃ l, m.store.leases.get? id = some l ∧ (f l).run w m = (r, m') :=
  (Exec.bind_lookup (fun l hl => by rw [run_getLease, hl])
    (fun hl => ⟨_, by rw [run_getLease, hl]⟩) h).imp_left And.left

theorem ofExcept_bind {α β : Type} {x : Except PyErr α} {f : α → Rt β} {r : Except PyErr β}
    (h : (Op.ofExcept x >>= f).run w m = (r, m')) :
    m' = m ∨ ∃ a, x = .ok a ∧ (f a).run w m = (r, m') :=
  (bind_same (Op.run_ofExcept x w m) h).imp_left And.left

theorem ensure_bind {β : Type} {c : Bool} {e : PyErr} {f : Unit → Rt β} {r : Except PyErr β}
    (h : (Op.ensure c e >>= f).run w m = (r, m')) :
    m' = m ∨ c = true ∧ (f ()).run w m = (r, m') := by
  rcases bind_same (Op.run_ensure c e w m) h with ⟨rfl, -⟩ | ⟨⟨⟩, hc, h⟩
  · exact .inl rfl
  · refine .inr ⟨?_, h⟩
    cases c
    · cases hc
    · rfl

theorem ensureActiveLease_cases {l : Lease} {r : Except PyErr Unit}
    (h : (ensureActiveLease l : Rt Unit).run w m = (r, m')) :
    SameStore m m' ∧ (r = .ok () → m.ticks < m'.ticks ∧ l.activeAt (w.clock m.ticks) = true) := by
  rw [run_ensureActiveLease] at h
  split at h
  · rename_i hrel
    cases h
    refine ⟨⟨rfl, Nat.le_succ _, Nat.le_refl _⟩, ?_⟩
    intro hr
    split at hr
    · rename_i hlt
      exact ⟨Nat.lt_succ_self _, by simp [Lease.activeAt, hrel, hlt]⟩
    · cases hr
  · cases h
    exact ⟨.refl _, by simp⟩

theorem expiryAfter_cases {n : Int} {r : Except PyErr Instant}
    (h : (expiryAfter n : Rt Instant).run w m = (r, m')) : SameStore m m' := by
  rw [run_expiryAfter] at h
  cases h
  exact ⟨rfl, Nat.le_succ _, Nat.le_refl _⟩

end Helpers

/-! ## The claim scan -/

/-- What the scan checks of a card before it offers it, with the lease check made
at instant `t`. -/
structure Claimable (s : InMemoryCardRuntime) (t : Instant) (p : PatchPanel) (bucket : String)
    (c : Card) : Prop where
  stored : c ∈ s.cards.values
  version : c.workflowVersion = p.workflowVersion
  bucket : c.currentBucket = bucket
  free : ∀ l ∈ s.leases.values, l.cardId = c.id → l.activeAt t = false

section Scan
variable {w : World} {m m' : Machine InMemoryCardRuntime}

theorem run_hasActiveLease (cardId : Uuid) (w : World) (m : Machine InMemoryCardRuntime) :
    (hasActiveLease cardId).run w m =
      (.ok (m.store.leases.values.any
        (fun l => l.cardId = cardId && l.activeAt (w.clock m.ticks))),
        { m with ticks := m.ticks + 1 }) := rfl

theorem firstClaimable_cases {p : PatchPanel} {bucket : String} {cs : List Card}
    {r : Except PyErr (Option Card)} (hcs : ∀ c ∈ cs, c ∈ m.store.cards.values)
    (h : (firstClaimable p bucket cs).run w m = (r, m')) :
    SameStore m m' ∧ ∃ found, r = .ok found ∧ ∀ c, found = some c →
      ∃ i, m.ticks ≤ i ∧ i < m'.ticks ∧ Claimable m.store (w.clock i) p bucket c := by
  induction cs generalizing m with
  | nil =>
    cases h
    exact ⟨.refl _, none, rfl, by simp⟩
  | cons c cs ih =>
    have htail : ∀ x ∈ cs, x ∈ m.store.cards.values :=
      fun x hx => hcs x (List.mem_cons_of_mem c hx)
    simp only [firstClaimable] at h
    split at h
    · rename_i hc
      rw [Exec.run_bind, run_hasActiveLease] at h
      simp only at h
      split at h
      · obtain ⟨hsame, found, hr, hfound⟩ := ih (m := { m with ticks := m.ticks + 1 }) htail h
        refine ⟨⟨hsame.store, Nat.le_of_succ_le hsame.ticks, hsame.draws⟩, found, hr, ?_⟩
        intro x hx
        obtain ⟨i, hlo, hhi, hcl⟩ := hfound x hx
        exact ⟨i, Nat.le_of_succ_le hlo, hhi, hcl⟩
      · rename_i hfree
        cases h
        refine ⟨⟨rfl, Nat.le_succ _, Nat.le_refl _⟩, some c, rfl, ?_⟩
        intro x hx
        cases hx
        refine ⟨m.ticks, Nat.le_refl _, Nat.lt_succ_self _,
          hcs c List.mem_cons_self, hc.1, hc.2, ?_⟩
        intro l hl hcard
        by_contra hact
        exact hfree (List.any_eq_true.mpr ⟨l, hl, by simpa [hcard] using hact⟩)
    · exact ih htail h

/-- What the scan establishes of one panel's entry in its list of matches. -/
def MatchOk (w : World) (m m' : Machine InMemoryCardRuntime) (inputPipe : String)
    (x : ClaimMatch) : Prop :=
  x.panel ∈ m.store.patchPanels.values ∧
    resolvePipeBucket x.panel inputPipe .input = .ok (x.bucket, x.nodeId) ∧
    ∀ c, x.card = some c →
      ∃ i, m.ticks ≤ i ∧ i < m'.ticks ∧ Claimable m.store (w.clock i) x.panel x.bucket c

theorem claimMatches_cases {inputPipe : String} {ps : List PatchPanel}
    {r : Except PyErr (List ClaimMatch)} (hps : ∀ p ∈ ps, p ∈ m.store.patchPanels.values)
    (h : (claimMatches inputPipe ps).run w m = (r, m')) :
    SameStore m m' ∧ ∀ found, r = .ok found → ∀ x ∈ found, MatchOk w m m' inputPipe x := by
  induction ps generalizing m m' r with
  | nil =>
    cases h
    refine ⟨.refl _, ?_⟩
    rintro found hf x hx
    cases hf
    cases hx
  | cons p ps ih =>
    have htail : ∀ x ∈ ps, x ∈ m.store.patchPanels.values :=
      fun x hx => hps x (List.mem_cons_of_mem p hx)
    simp only [claimMatches] at h
    split at h
    · exact ih htail h
    · cases h
      exact ⟨.refl _, by simp⟩
    · rename_i bucket nodeId hres
      rw [Exec.run_bind, Op.run_get] at h
      simp only at h
      rcases h1 : (firstClaimable p bucket m.store.cards.values).run w m with ⟨r1, m1⟩
      obtain ⟨hsame1, card, rfl, hcard⟩ := firstClaimable_cases (fun _ hc => hc) h1
      rw [Exec.run_bind_ok h1] at h
      have htail1 : ∀ x ∈ ps, x ∈ m1.store.patchPanels.values := by
        rw [hsame1.store]
        exact htail
      rcases h2 : (claimMatches inputPipe ps).run w m1 with ⟨r2, m2⟩
      obtain ⟨hsame2, hrest⟩ := ih htail1 h2
      cases r2 with
      | error e =>
        rw [Exec.run_bind_error h2] at h
        cases h
        exact ⟨hsame1.trans hsame2, by simp⟩
      | ok rest =>
        rw [Exec.run_bind_ok h2] at h
        cases h
        refine ⟨hsame1.trans hsame2, ?_⟩
        rintro found hf x hx
        cases hf
        rcases List.mem_cons.mp hx with rfl | hx
        · refine ⟨hps p List.mem_cons_self, hres, ?_⟩
          intro c hc
          obtain ⟨i, hlo, hhi, hcl⟩ := hcard c hc
          exact ⟨i, hlo, Nat.lt_of_lt_of_le hhi hsame2.ticks, hcl⟩
        · obtain ⟨hpanel, hbind, hfree⟩ := hrest rest rfl x hx
          rw [hsame1.store] at hpanel
          refine ⟨hpanel, hbind, ?_⟩
          intro c hc
          obtain ⟨i, hlo, hhi, hcl⟩ := hfree c hc
          rw [hsame1.store] at hcl
          exact ⟨i, Nat.le_trans hsame1.ticks hlo, hhi, hcl⟩

/-- The panel binds the pipe as an input and has a card there that no reading from
now on finds leased. -/
def Offers (w : World) (m : Machine InMemoryCardRuntime) (inputPipe : String) (p : PatchPanel) :
    Prop :=
  ∃ bucket nodeId c, resolvePipeBucket p inputPipe .input = .ok (bucket, nodeId) ∧
    c ∈ m.store.cards.values ∧ c.workflowVersion = p.workflowVersion ∧
    c.currentBucket = bucket ∧
    ∀ l ∈ m.store.leases.values, l.cardId = c.id → ∀ i, m.ticks ≤ i →
      l.activeAt (w.clock i) = false

theorem Offers.of_same {inputPipe : String} {p : PatchPanel} (h : Offers w m inputPipe p)
    (hsame : SameStore m m') : Offers w m' inputPipe p := by
  obtain ⟨bucket, nodeId, c, hres, hc, hver, hbucket, hfree⟩ := h
  refine ⟨bucket, nodeId, c, hres, by rw [hsame.store]; exact hc, hver, hbucket, ?_⟩
  rw [hsame.store]
  exact fun l hl hcard i hi => hfree l hl hcard i (Nat.le_trans hsame.ticks hi)

/-- The scan of a panel finds a card when one is free at every reading it can make. -/
theorem firstClaimable_finds {p : PatchPanel} {bucket : String} {cs : List Card} {c : Card}
    (hc : c ∈ cs) (hver : c.workflowVersion = p.workflowVersion) (hbucket : c.currentBucket = bucket)
    (hfree : ∀ l ∈ m.store.leases.values, l.cardId = c.id → ∀ i, m.ticks ≤ i →
      l.activeAt (w.clock i) = false) :
    ∃ x, ((firstClaimable p bucket cs).run w m).1 = .ok (some x) := by
  induction cs generalizing m with
  | nil => cases hc
  | cons d ds ih =>
    simp only [firstClaimable]
    split
    · rename_i hd
      rw [Exec.run_bind, run_hasActiveLease]
      simp only
      split
      · rename_i hheld
        rcases List.mem_cons.mp hc with rfl | hc
        · obtain ⟨l, hl, hact⟩ := List.any_eq_true.mp hheld
          simp only [Bool.and_eq_true, decide_eq_true_eq] at hact
          rw [hfree l hl hact.1 m.ticks (Nat.le_refl _)] at hact
          cases hact.2
        · exact ih hc fun l hl hcard i hi => hfree l hl hcard i (Nat.le_of_succ_le hi)
      · exact ⟨d, rfl⟩
    · rename_i hd
      rcases List.mem_cons.mp hc with rfl | hc
      · exact absurd ⟨hver, hbucket⟩ hd
      · exact ih hc hfree

/-- Every panel that offers a card contributes a match with one. -/
theorem claimMatches_finds {inputPipe : String} {ps : List PatchPanel} {found : List ClaimMatch}
    {p : PatchPanel} (hp : p ∈ ps) (hoffer : Offers w m inputPipe p)
    (h : (claimMatches inputPipe ps).run w m = (.ok found, m')) :
    ∃ x ∈ found, x.panel = p ∧ x.card.isSome = true := by
  induction ps generalizing m found m' with
  | nil => cases hp
  | cons q qs ih =>
    simp only [claimMatches] at h
    split at h
    · rename_i hres
      rcases List.mem_cons.mp hp with rfl | hp
      · obtain ⟨_, _, _, hok, -⟩ := hoffer
        rw [hok] at hres
        cases hres
      · exact ih hp hoffer h
    · cases h
    · rename_i bucket nodeId hres
      rw [Exec.run_bind, Op.run_get] at h
      simp only at h
      rcases h1 : (firstClaimable q bucket m.store.cards.values).run w m with ⟨r1, m1⟩
      obtain ⟨hsame1, card, rfl, -⟩ := firstClaimable_cases (fun _ hc => hc) h1
      rw [Exec.run_bind_ok h1] at h
      obtain ⟨rest, m2, h2, h⟩ := bind_ok h
      cases h
      rcases List.mem_cons.mp hp with rfl | hp
      · obtain ⟨bucket', nodeId', c, hok, hc, hver, hbucket, hfree⟩ := hoffer
        rw [hok] at hres
        cases hres
        obtain ⟨x, hx⟩ := firstClaimable_finds hc hver hbucket hfree
        rw [h1] at hx
        cases hx
        exact ⟨_, List.mem_cons_self, rfl, rfl⟩
      · obtain ⟨x, hx, hpanel, hcard⟩ := ih hp (hoffer.of_same hsame1) h2
        exact ⟨x, List.mem_cons_of_mem _ hx, hpanel, hcard⟩

/-- The chosen match is one of those found, possibly with its card withheld. -/
theorem chooseMatch_mem {inputPipe : String} {found : List ClaimMatch} {x : ClaimMatch}
    (h : chooseMatch inputPipe found = .ok x) :
    ∃ y ∈ found, x.panel = y.panel ∧ x.bucket = y.bucket ∧ x.nodeId = y.nodeId ∧
      (x.card = y.card ∨ x.card = none) := by
  unfold chooseMatch at h
  split at h
  · cases h
  · rename_i found _ _ y _ hy
    cases h
    have hmem : x ∈ found.filter (fun m => m.card.isSome) := by
      rw [hy]
      exact List.mem_singleton.mpr rfl
    exact ⟨x, (List.mem_filter.mp hmem).1, rfl, rfl, rfl, .inl rfl⟩
  · cases h
    exact ⟨x, List.mem_singleton.mpr rfl, rfl, rfl, rfl, .inl rfl⟩
  · rename_i y rest _ _
    cases h
    exact ⟨y, List.mem_cons_self, rfl, rfl, rfl, .inr rfl⟩
  · cases h

/-- A chosen card is the only one found. -/
theorem chooseMatch_sole {inputPipe : String} {found : List ClaimMatch} {x y : ClaimMatch}
    (h : chooseMatch inputPipe found = .ok x) (hx : x.card.isSome = true) (hy : y ∈ found)
    (hcard : y.card.isSome = true) : y = x := by
  have hmem : y ∈ found.filter (fun m => m.card.isSome) := List.mem_filter.mpr ⟨hy, hcard⟩
  unfold chooseMatch at h
  split at h
  · cases h
  · rename_i hfilter
    cases h
    rw [hfilter] at hmem
    exact List.mem_singleton.mp hmem
  · cases h
    exact List.mem_singleton.mp hy
  · cases h
    cases hx
  · cases h

theorem claimTarget_cases {inputPipe : String} {r : Except PyErr ClaimMatch}
    (h : (claimTarget inputPipe).run w m = (r, m')) :
    SameStore m m' ∧ ∀ target, r = .ok target → MatchOk w m m' inputPipe target ∧
      (target.card.isSome = true → ∀ p ∈ m.store.patchPanels.values, Offers w m inputPipe p →
        p = target.panel) := by
  simp only [claimTarget] at h
  rw [Exec.run_bind, Op.run_get] at h
  simp only at h
  rcases h1 : (claimMatches inputPipe m.store.patchPanels.values).run w m with ⟨r1, m1⟩
  obtain ⟨hsame, hfound⟩ := claimMatches_cases (fun _ hp => hp) h1
  cases r1 with
  | error e =>
    rw [Exec.run_bind_error h1] at h
    cases h
    exact ⟨hsame, by simp⟩
  | ok found =>
    rw [Exec.run_bind_ok h1, Op.run_ofExcept] at h
    cases h
    refine ⟨hsame, ?_⟩
    intro target ht
    obtain ⟨y, hy, hpanel, hbucket, hnode, hcard⟩ := chooseMatch_mem ht
    obtain ⟨hmem, hres, hfree⟩ := hfound found rfl y hy
    refine ⟨⟨hpanel ▸ hmem, by rw [hpanel, hbucket, hnode]; exact hres, ?_⟩, ?_⟩
    · intro c hc
      rcases hcard with hcard | hcard
      · rw [hpanel, hbucket]
        exact hfree c (hcard ▸ hc)
      · rw [hcard] at hc
        cases hc
    · intro hsome p hp hoffer
      obtain ⟨z, hz, hzp, hzc⟩ := claimMatches_finds hp hoffer h1
      rw [← hzp, chooseMatch_sole ht hsome hz hzc]

end Scan

/-! ## Operations -/

section Operations
variable {w : World} {m m' : Machine InMemoryCardRuntime}

/-- An operation behind the idempotency check either answers from the map, and then
nothing has changed, or runs its body. -/
theorem idempotent_cases {α : Type} {key : Option String} {f : Stored → Option α}
    {body : Rt α} {r : Except PyErr α} (h : (idempotent key f body).run w m = (r, m')) :
    (m' = m ∧ ∃ v, m.store.cached key = some v ∧ ∀ a, r = .ok a → f v = some a) ∨
      (m.store.cached key = none ∧ body.run w m = (r, m')) := by
  rw [run_idempotent] at h
  cases hkey : m.store.cached key with
  | none =>
    rw [hkey] at h
    exact .inr ⟨rfl, h⟩
  | some v =>
    rw [hkey] at h
    cases h
    refine .inl ⟨rfl, v, rfl, ?_⟩
    intro a ha
    cases hf : f v <;> simp_all

theorem registerPatchPanel_cases {p : PatchPanel} {r : Except PyErr PatchPanel}
    (h : (registerPatchPanel p).run w m = (r, m')) :
    m' = m ∨ ∃ report, PatchPanelValidator.validate w p = .ok report ∧
      m' = { m with store := m.store.putPanel p } := by
  simp only [registerPatchPanel, Exec.run_bind, Op.run_world, Op.run_ofExcept] at h
  cases hv : PatchPanelValidator.validate w p with
  | error e =>
    rw [hv] at h
    cases h
    exact .inl rfl
  | ok report =>
    rw [hv] at h
    cases h
    exact .inr ⟨report, rfl, rfl⟩

/-- The clock and the id supply never go back. -/
structure Later (m m' : Machine InMemoryCardRuntime) : Prop where
  ticks : m.ticks ≤ m'.ticks
  draws : m.draws ≤ m'.draws

/-- The writes of a successful claim. -/
def claimed (s : InMemoryCardRuntime) (key : Option String) (l : Lease) (e : CardEvent) :
    InMemoryCardRuntime :=
  ((s.putLease l).putEvent e).putKey key (.lease l)

structure Claims (w : World) (m m' : Machine InMemoryCardRuntime) (inputPipe workerId : String)
    (key : Option String) (l : Lease) (e : CardEvent) : Prop where
  store : m'.store = m.store.claimed key l e
  later : Later m m'
  uncached : m.store.cached key = none
  target : ∃ p bucket c i, p ∈ m.store.patchPanels.values ∧
    resolvePipeBucket p inputPipe .input = .ok (bucket, l.nodeId) ∧
    m.ticks ≤ i ∧ i < m'.ticks ∧ Claimable m.store (w.clock i) p bucket c ∧ c.id = l.cardId ∧
    ∀ q ∈ m.store.patchPanels.values, Offers w m inputPipe q → q = p
  fresh : ∃ i, m.draws ≤ i ∧ i < m'.draws ∧ l.id = w.uuid4 i
  worker : l.workerId = workerId
  pipe : l.inputPipe = inputPipe
  unreleased : l.releasedAt = none
  event : e.cardId = l.cardId ∧ e.eventType = "card_claimed" ∧ e.actorId = some workerId ∧
    e.payload = [("lease_id", .str l.id.str), ("input_pipe", .str inputPipe)]

theorem newLease_cases {c : Card} {nodeId workerId inputPipe : String} {seconds : Int}
    {r : Except PyErr Lease} (h : (newLease c nodeId workerId inputPipe seconds).run w m = (r, m')) :
    SameStore m m' ∧ ∀ l, r = .ok l → l.cardId = c.id ∧ l.nodeId = nodeId ∧
      l.workerId = workerId ∧ l.inputPipe = inputPipe ∧ l.releasedAt = none ∧
      l.id = w.uuid4 m.draws := by
  simp only [newLease, Exec.run_bind, run_expiryAfter] at h
  cases hexp : (w.clock m.ticks).addSeconds seconds with
  | none =>
    rw [hexp] at h
    cases h
    exact ⟨⟨rfl, Nat.le_succ _, Nat.le_refl _⟩, by simp⟩
  | some expiresAt =>
    rw [hexp] at h
    cases h
    refine ⟨⟨rfl, Nat.le_add_right _ 2, Nat.le_succ _⟩, ?_⟩
    rintro l hl
    cases hl
    exact ⟨rfl, rfl, rfl, rfl, rfl, rfl⟩

theorem claimCard_cases {inputPipe workerId : String} {seconds : Int} {key : Option String}
    {r : Except PyErr Lease} (h : (claimCard inputPipe workerId seconds key).run w m = (r, m')) :
    (SameStore m m' ∧ ∀ l, r = .ok l → ∃ v, m.store.cached key = some v ∧ v.lease? = some l) ∨
      ∃ l e, r = .ok l ∧ Claims w m m' inputPipe workerId key l e := by
  rcases idempotent_cases h with ⟨rfl, v, hv, hr⟩ | ⟨hkey, h⟩
  · exact .inl ⟨.refl _, fun l hl => ⟨v, hv, hr l hl⟩⟩
  rcases bind_cases h with ⟨err, h1, rfl⟩ | ⟨target, m1, h1, h⟩
  · exact .inl ⟨(claimTarget_cases h1).1, by simp⟩
  obtain ⟨hsame1, htarget⟩ := claimTarget_cases h1
  obtain ⟨⟨hpanel, hres, hcard⟩, hsole⟩ := htarget target rfl
  cases hc : target.card with
  | none =>
    rw [hc] at h
    cases h
    exact .inl ⟨hsame1, by simp⟩
  | some c =>
    obtain ⟨i, hlo, hhi, hclaim⟩ := hcard c hc
    simp only [hc] at h
    rcases bind_cases h with ⟨err, h2, rfl⟩ | ⟨l, m2, h2, h⟩
    · exact .inl ⟨hsame1.trans (newLease_cases h2).1, by simp⟩
    obtain ⟨hsame2, hlease⟩ := newLease_cases h2
    obtain ⟨hlc, hln, hlw, hlp, hlr, hlid⟩ := hlease l rfl
    have hsame := hsame1.trans hsame2
    cases h
    refine .inr ⟨l, ⟨w.uuid4 m2.draws, c.id, "card_claimed", some workerId,
      [("lease_id", .str l.id.str), ("input_pipe", .str inputPipe)], w.clock m2.ticks⟩, rfl, ?_⟩
    exact {
      store := by rw [claimed, ← hsame.store]
      later := ⟨Nat.le_succ_of_le hsame.ticks, Nat.le_succ_of_le hsame.draws⟩
      uncached := hkey
      target := ⟨target.panel, target.bucket, c, i, hpanel, by rw [hln]; exact hres, hlo,
        Nat.lt_succ_of_lt (Nat.lt_of_lt_of_le hhi hsame2.ticks), hclaim, hlc.symm,
        hsole (by rw [hc]; rfl)⟩
      fresh := ⟨m1.draws, hsame1.draws, Nat.lt_succ_of_le hsame2.draws, hlid⟩
      worker := hlw
      pipe := hlp
      unreleased := hlr
      event := ⟨hlc.symm, rfl, rfl, rfl⟩ }

/-- The writes of a card creation. -/
def created (s : InMemoryCardRuntime) (key : Option String) (c : Card) (e : CardEvent) :
    InMemoryCardRuntime :=
  ((s.putCard c).putEvent e).putKey key (.card c)

structure Creates (w : World) (m m' : Machine InMemoryCardRuntime) (patchPanelId : String)
    (payload : JsonObj) (metadata : Option JsonObj) (key : Option String) (c : Card)
    (e : CardEvent) : Prop where
  store : m'.store = m.store.created key c e
  later : Later m m'
  uncached : m.store.cached key = none
  panel : ∃ p, m.store.patchPanels.get? patchPanelId = some p ∧
    resolveInitialBucket p = .ok c.currentBucket ∧ c.workflowVersion = p.workflowVersion ∧
    e.payload = [("patch_panel_id", .str p.id), ("version", .str p.version),
      ("bucket", .str c.currentBucket)]
  fresh : c.id = w.uuid4 m.draws ∧ m.draws < m'.draws
  payload : c.payload = payload
  metadata : c.metadata = metadata.getD []
  event : e.cardId = c.id ∧ e.eventType = "card_created" ∧ e.actorId = none

theorem createCard_cases {patchPanelId : String} {payload : JsonObj} {metadata : Option JsonObj}
    {key : Option String} {r : Except PyErr Card}
    (h : (createCard patchPanelId payload metadata key).run w m = (r, m')) :
    m' = m ∨ ∃ c e, r = .ok c ∧ Creates w m m' patchPanelId payload metadata key c e := by
  rcases idempotent_cases h with ⟨rfl, -⟩ | ⟨hkey, h⟩
  · exact .inl rfl
  rcases getPatchPanel_bind h with rfl | ⟨p, hp, h⟩
  · exact .inl rfl
  rcases ofExcept_bind h with rfl | ⟨bucket, hbucket, h⟩
  · exact .inl rfl
  cases h
  exact .inr ⟨_, ⟨w.uuid4 (m.draws + 1), w.uuid4 m.draws, "card_created", none,
    [("patch_panel_id", .str p.id), ("version", .str p.version), ("bucket", .str bucket)],
    w.clock (m.ticks + 1)⟩, rfl,
    { store := rfl
      later := ⟨Nat.le_add_right _ 2, Nat.le_add_right _ 2⟩
      uncached := hkey
      panel := ⟨p, hp, hbucket, rfl, rfl⟩
      fresh := ⟨rfl, Nat.lt_add_of_pos_right Nat.two_pos⟩
      payload := rfl
      metadata := rfl
      event := ⟨rfl, rfl, rfl⟩ }⟩

/-- The writes of a submission. -/
def submitted (s : InMemoryCardRuntime) (key : Option String) (c : Card) (destination : String)
    (l : Lease) (t : Instant) (e : CardEvent) (refs : List ArtifactReference) :
    InMemoryCardRuntime :=
  let stored := refs.map fun ref => { ref with cardId := c.id, eventId := some e.id }
  ((((s.putCard { c with currentBucket := destination }).putLease
    { l with releasedAt := some t }).putArtifacts stored).putEvent e).putKey key (.artifacts stored)

/-- Everything the checks of a submission establish about its lease and card. -/
structure SubmitOk (w : World) (s : InMemoryCardRuntime) (leaseId : Uuid) (outputPipe : String)
    (refs : List ArtifactReference) (l : Lease) (c : Card) (p : PatchPanel)
    (destination : String) : Prop where
  lease : s.leases.get? leaseId = some l
  card : s.cards.get? l.cardId = some c
  panel : s.patchPanels.get? (beforeLastColon c.workflowVersion) = some p
  route : resolvePipeBucket p outputPipe .output = .ok (destination, l.nodeId)
  belong : ensureArtifactRefsBelongToCard c.id refs = .ok ()
  accepted : ensureArtifactsAccepted w p destination refs = .ok ()

structure Submits (w : World) (m m' : Machine InMemoryCardRuntime) (leaseId : Uuid)
    (outputPipe : String) (refs : List ArtifactReference) (key : Option String) (l : Lease)
    (c : Card) (destination : String) (t : Instant) (e : CardEvent) : Prop where
  store : m'.store = m.store.submitted key c destination l t e refs
  later : Later m m'
  uncached : m.store.cached key = none
  checks : ∃ p, SubmitOk w m.store leaseId outputPipe refs l c p destination
  active : m.ticks < m'.ticks ∧ l.activeAt (w.clock m.ticks) = true
  event : e.cardId = c.id ∧ e.eventType = "artifact_submitted" ∧ e.actorId = some l.workerId ∧
    e.payload = [("artifact_ids", .list (refs.map fun ref => .str ref.id.str)),
      ("artifact_refs", .list (refs.map artifactJson)), ("lease_id", .str l.id.str),
      ("output_pipe", .str outputPipe), ("destination_bucket", .str destination)]

def submitEvent (w : World) (m : Machine InMemoryCardRuntime) (l : Lease) (c : Card)
    (outputPipe destination : String) (refs : List ArtifactReference) : CardEvent :=
  ⟨w.uuid4 m.draws, c.id, "artifact_submitted", some l.workerId,
    [("artifact_ids", .list (refs.map fun ref => .str ref.id.str)),
      ("artifact_refs", .list (refs.map artifactJson)), ("lease_id", .str l.id.str),
      ("output_pipe", .str outputPipe), ("destination_bucket", .str destination)],
    w.clock (m.ticks + 2)⟩

/-- A submission whose checks all pass is made. -/
theorem run_submitArtifact_of_ok {leaseId : Uuid} {outputPipe : String}
    {refs : List ArtifactReference} {key : Option String} (hkey : m.store.cached key = none)
    {l : Lease} {c : Card} {p : PatchPanel} {destination : String}
    (h : SubmitOk w m.store leaseId outputPipe refs l c p destination)
    (hactive : l.activeAt (w.clock m.ticks) = true) :
    (submitArtifact leaseId outputPipe refs key).run w m =
      (.ok (refs.map fun ref =>
          { ref with cardId := c.id, eventId := some (w.uuid4 m.draws) }),
        ⟨m.store.submitted key c destination l (w.clock (m.ticks + 1))
          (submitEvent w m l c outputPipe destination refs) refs, m.ticks + 3, m.draws + 1⟩) := by
  obtain ⟨hl, hc, hp, hroute, hbelong, haccepted⟩ := h
  simp only [Lease.activeAt, Bool.and_eq_true, decide_eq_true_eq] at hactive
  rw [submitArtifact, run_idempotent, hkey]
  simp only [Exec.run_bind, run_getLease, hl, run_ensureActiveLease, hactive, run_getCard, hc,
    getPatchPanelForCard, run_getPatchPanel, hp, Op.run_ofExcept, hroute, hbelong, haccepted,
    Op.run_world, Op.run_ensure, decide_true, if_true]
  rfl

/-- A submission under an unused key that returned has passed all checks. -/
theorem submitArtifact_ok {leaseId : Uuid} {outputPipe : String} {refs : List ArtifactReference}
    {key : Option String} {stored : List ArtifactReference} (hkey : m.store.cached key = none)
    (h : (submitArtifact leaseId outputPipe refs key).run w m = (.ok stored, m')) :
    ∃ l c p destination, SubmitOk w m.store leaseId outputPipe refs l c p destination ∧
      l.activeAt (w.clock m.ticks) = true := by
  rcases idempotent_cases h with ⟨-, v, hv, -⟩ | ⟨-, hbody⟩
  · rw [hkey] at hv
    cases hv
  obtain ⟨l, _, h1, hbody1⟩ := bind_ok hbody
  obtain ⟨hm1, hl⟩ := getLease_ok h1
  rw [hm1] at hbody1
  obtain ⟨_, m2, h2, hbody2⟩ := bind_ok hbody1
  obtain ⟨hsame, hact⟩ := ensureActiveLease_cases h2
  obtain ⟨c, _, h3, hbody3⟩ := bind_ok hbody2
  obtain ⟨hm3, hc⟩ := getCard_ok h3
  rw [hm3] at hbody3
  obtain ⟨p, _, h4, hbody4⟩ := bind_ok hbody3
  obtain ⟨hm4, hp⟩ := getPatchPanel_ok h4
  rw [hm4] at hbody4
  obtain ⟨⟨destination, nodeId⟩, _, h5, hbody5⟩ := bind_ok hbody4
  obtain ⟨hm5, hroute⟩ := ofExcept_ok h5
  rw [hm5] at hbody5
  obtain ⟨_, _, h6, hbody6⟩ := bind_ok hbody5
  obtain ⟨hm6, hbelong⟩ := ofExcept_ok h6
  rw [hm6, Exec.run_bind, Op.run_world] at hbody6
  obtain ⟨_, _, h7, hbody7⟩ := bind_ok hbody6
  obtain ⟨hm7, haccepted⟩ := ofExcept_ok h7
  rw [hm7] at hbody7
  obtain ⟨_, _, h8, -⟩ := bind_ok hbody7
  rw [Op.run_ensure] at h8
  have hnode : nodeId = l.nodeId := by
    by_contra hne
    simp [hne] at h8
  rw [hsame.store] at hc hp
  rw [hnode] at hroute
  exact ⟨l, c, p, destination, ⟨hl, hc, hp, hroute, hbelong, haccepted⟩, (hact rfl).2⟩

/-- A submission that raised has not been made. -/
theorem submitArtifact_same {leaseId : Uuid} {outputPipe : String} {refs : List ArtifactReference}
    {key : Option String} {err : PyErr}
    (h : (submitArtifact leaseId outputPipe refs key).run w m = (.error err, m')) :
    SameStore m m' := by
  rcases idempotent_cases h with ⟨rfl, -⟩ | ⟨-, h⟩
  · exact .refl _
  rcases getLease_bind h with rfl | ⟨l, -, h⟩
  · exact .refl _
  rcases bind_cases h with ⟨_, h1, -⟩ | ⟨_, m1, h1, h⟩
  · exact (ensureActiveLease_cases h1).1
  have hsame := (ensureActiveLease_cases h1).1
  rcases getCard_bind h with rfl | ⟨c, -, h⟩
  · exact hsame
  rcases getPatchPanel_bind h with rfl | ⟨p, -, h⟩
  · exact hsame
  rcases ofExcept_bind h with rfl | ⟨⟨destination, nodeId⟩, -, h⟩
  · exact hsame
  rcases ofExcept_bind h with rfl | ⟨_, -, h⟩
  · exact hsame
  rw [Exec.run_bind, Op.run_world] at h
  rcases ofExcept_bind h with rfl | ⟨_, -, h⟩
  · exact hsame
  rcases ensure_bind h with rfl | ⟨-, h⟩
  · exact hsame
  cases h

/-- A submission under an unused key that returned has been made. -/
theorem submitArtifact_made {leaseId : Uuid} {outputPipe : String} {refs : List ArtifactReference}
    {key : Option String} {stored : List ArtifactReference} (hkey : m.store.cached key = none)
    (h : (submitArtifact leaseId outputPipe refs key).run w m = (.ok stored, m')) :
    ∃ l c destination t e,
      stored = refs.map (fun ref => { ref with cardId := c.id, eventId := some e.id }) ∧
      Submits w m m' leaseId outputPipe refs key l c destination t e := by
  obtain ⟨l, c, p, destination, hok, hactive⟩ := submitArtifact_ok hkey h
  obtain ⟨hstored, hmachine⟩ :=
    Prod.mk.inj (h.symm.trans (run_submitArtifact_of_ok hkey hok hactive))
  refine ⟨l, c, destination, w.clock (m.ticks + 1),
    submitEvent w m l c outputPipe destination refs, Except.ok.inj hstored, ?_⟩
  rw [hmachine]
  exact {
    store := rfl
    later := ⟨Nat.le_add_right _ 3, Nat.le_succ _⟩
    uncached := hkey
    checks := ⟨p, hok⟩
    active := ⟨Nat.lt_add_of_pos_right (by decide), hactive⟩
    event := ⟨rfl, rfl, rfl, rfl⟩ }

theorem submitArtifact_cases {leaseId : Uuid} {outputPipe : String}
    {refs : List ArtifactReference} {key : Option String}
    {r : Except PyErr (List ArtifactReference)}
    (h : (submitArtifact leaseId outputPipe refs key).run w m = (r, m')) :
    SameStore m m' ∨ ∃ l c destination t e,
      r = .ok (refs.map fun ref => { ref with cardId := c.id, eventId := some e.id }) ∧
      Submits w m m' leaseId outputPipe refs key l c destination t e := by
  cases r with
  | error err => exact .inl (submitArtifact_same h)
  | ok stored =>
    rcases idempotent_cases h with ⟨rfl, -⟩ | ⟨hkey, -⟩
    · exact .inl (.refl _)
    · obtain ⟨l, c, destination, t, e, rfl, hsubmits⟩ := submitArtifact_made hkey h
      exact .inr ⟨l, c, destination, t, e, rfl, hsubmits⟩

/-- The writes of a renewal. -/
def renewed (s : InMemoryCardRuntime) (key : Option String) (l : Lease) (e : CardEvent) :
    InMemoryCardRuntime :=
  ((s.putLease l).putEvent e).putKey key (.lease l)

structure Renews (w : World) (m m' : Machine InMemoryCardRuntime) (leaseId : Uuid)
    (key : Option String) (l : Lease) (t : Instant) (e : CardEvent) : Prop where
  store : m'.store = m.store.renewed key { l with expiresAt := t } e
  later : Later m m'
  uncached : m.store.cached key = none
  lease : m.store.leases.get? leaseId = some l
  active : m.ticks < m'.ticks ∧ l.activeAt (w.clock m.ticks) = true
  event : e.cardId = l.cardId ∧ e.eventType = "lease_renewed" ∧ e.actorId = some l.workerId ∧
    e.payload = [("lease_id", .str l.id.str), ("expires_at", .str t.isoformat)]

theorem renewLease_cases {leaseId : Uuid} {seconds : Int} {key : Option String}
    {r : Except PyErr Lease} (h : (renewLease leaseId seconds key).run w m = (r, m')) :
    SameStore m m' ∨
      ∃ l t e, r = .ok { l with expiresAt := t } ∧ Renews w m m' leaseId key l t e := by
  rcases idempotent_cases h with ⟨rfl, -⟩ | ⟨hkey, h⟩
  · exact .inl (.refl _)
  rcases getLease_bind h with rfl | ⟨l, hl, h⟩
  · exact .inl (.refl _)
  rcases bind_cases h with ⟨err, h1, rfl⟩ | ⟨_, m1, h1, h⟩
  · exact .inl (ensureActiveLease_cases h1).1
  obtain ⟨hsame, hact⟩ := ensureActiveLease_cases h1
  rcases bind_cases h with ⟨err, h2, rfl⟩ | ⟨t, m2, h2, h⟩
  · exact .inl (hsame.trans (expiryAfter_cases h2))
  have hsame2 := hsame.trans (expiryAfter_cases h2)
  cases h
  refine .inr ⟨l, t, ⟨w.uuid4 m2.draws, l.cardId, "lease_renewed", some l.workerId,
    [("lease_id", .str l.id.str), ("expires_at", .str t.isoformat)], w.clock m2.ticks⟩, rfl, ?_⟩
  exact {
    store := by rw [renewed, ← hsame2.store]
    later := ⟨Nat.le_succ_of_le hsame2.ticks, Nat.le_succ_of_le hsame2.draws⟩
    uncached := hkey
    lease := hl
    active := ⟨Nat.lt_succ_of_le hsame2.ticks, (hact rfl).2⟩
    event := ⟨rfl, rfl, rfl, rfl⟩ }

/-- The writes of a release; the released lease carries its release instant. -/
def released (s : InMemoryCardRuntime) (l : Lease) (t : Instant) (e : CardEvent) :
    InMemoryCardRuntime :=
  (s.putLease { l with releasedAt := some t }).putEvent e

structure Releases (m m' : Machine InMemoryCardRuntime) (leaseId : Uuid)
    (actorId key : Option String) (l : Lease) (t : Instant) (e : CardEvent) : Prop where
  store : m'.store =
    (m.store.released l t e).putKey key (.lease { l with releasedAt := some t })
  later : Later m m'
  uncached : m.store.cached key = none
  lease : m.store.leases.get? leaseId = some l
  unreleased : l.releasedAt = none
  event : e.cardId = l.cardId ∧ e.eventType = "lease_released" ∧
    e.actorId = some ((truthyStr actorId).getD l.workerId) ∧
    e.payload = [("lease_id", .str l.id.str)]

theorem releaseLease_cases {leaseId : Uuid} {actorId key : Option String}
    {r : Except PyErr Lease} (h : (releaseLease leaseId actorId key).run w m = (r, m')) :
    m' = m ∨ ∃ l t e, r = .ok { l with releasedAt := some t } ∧
      Releases m m' leaseId actorId key l t e := by
  rcases idempotent_cases h with ⟨rfl, -⟩ | ⟨hkey, h⟩
  · exact .inl rfl
  rcases getLease_bind h with rfl | ⟨l, hl, h⟩
  · exact .inl rfl
  cases hrel : l.releasedAt with
  | some t =>
    rw [hrel] at h
    cases h
    exact .inl rfl
  | none =>
    rw [hrel] at h
    cases h
    exact .inr ⟨l, w.clock m.ticks, ⟨w.uuid4 m.draws, l.cardId, "lease_released",
      some ((truthyStr actorId).getD l.workerId), [("lease_id", .str l.id.str)],
      w.clock (m.ticks + 1)⟩, rfl,
      { store := rfl
        later := ⟨Nat.le_add_right _ 2, Nat.le_succ _⟩
        uncached := hkey
        lease := hl
        unreleased := hrel
        event := ⟨rfl, rfl, rfl, rfl⟩ }⟩

/-- The leases that `expire_leases` releases at instant `t`. -/
def lapsedAt (l : Lease) (t : Instant) : Bool :=
  l.releasedAt.isNone && decide (l.expiresAt ≤ t)

/-- One loop turn of `expire_leases`, related to the next store. -/
inductive Expires (t : Instant) : List Lease → InMemoryCardRuntime → InMemoryCardRuntime → Prop where
  | done (s : InMemoryCardRuntime) : Expires t [] s s
  | keep {l : Lease} {ls : List Lease} {s s' : InMemoryCardRuntime} :
      lapsedAt l t = false → Expires t ls s s' → Expires t (l :: ls) s s'
  | lapse {l : Lease} {ls : List Lease} {s s' : InMemoryCardRuntime} {e : CardEvent} :
      lapsedAt l t = true → e.cardId = l.cardId → e.eventType = "lease_expired" →
      e.actorId = some l.workerId → e.payload = [("lease_id", .str l.id.str)] →
      Expires t ls (s.released l t e) s' → Expires t (l :: ls) s s'

section Sweep
variable {t : Instant} {ls : List Lease} {s s' : InMemoryCardRuntime}

/-- The induction over the leases: what every lapse keeps, the sweep keeps. -/
theorem Expires.invariant {P : InMemoryCardRuntime → Prop} (h : Expires t ls s s')
    (hlapse : ∀ s l e, e.eventType = "lease_expired" → P s → P (s.released l t e))
    (hs : P s) : P s' := by
  induction h with
  | done s => exact hs
  | keep _ _ ih => exact ih hs
  | @lapse l ls s s' e _ _ htype _ _ _ ih => exact ih (hlapse s l e htype hs)

theorem Expires.within {R : InMemoryCardRuntime → InMemoryCardRuntime → Prop}
    (h : Expires t ls s s') (hrefl : R s s) (htrans : ∀ {a b c}, R a b → R b c → R a c)
    (hlapse : ∀ s l e, e.eventType = "lease_expired" → R s (s.released l t e)) : R s s' :=
  h.invariant (fun s₁ l e he h₁ => htrans h₁ (hlapse s₁ l e he)) hrefl

/-- What no lapse changes, the sweep leaves. -/
theorem Expires.keeps {β : Type} (f : InMemoryCardRuntime → β) (h : Expires t ls s s')
    (hf : ∀ s l e, f (s.released l t e) = f s) : f s' = f s :=
  h.invariant (fun s₁ l e _ h₁ => (hf s₁ l e).trans h₁) rfl

theorem Expires.cards (h : Expires t ls s s') : s'.cards = s.cards :=
  h.keeps InMemoryCardRuntime.cards fun _ _ _ => rfl

theorem Expires.patchPanels (h : Expires t ls s s') : s'.patchPanels = s.patchPanels :=
  h.keeps InMemoryCardRuntime.patchPanels fun _ _ _ => rfl

end Sweep

theorem expireEach_cases {t : Instant} {ls : List Lease} {r : Except PyErr (List Lease)}
    (h : (expireEach t ls).run w m = (r, m')) :
    Expires t ls m.store m'.store ∧ Later m m' ∧
      r = .ok ((ls.filter (lapsedAt · t)).map fun l => { l with releasedAt := some t }) := by
  induction ls generalizing m m' r with
  | nil =>
    cases h
    exact ⟨.done _, ⟨Nat.le_refl _, Nat.le_refl _⟩, rfl⟩
  | cons l ls ih =>
    simp only [expireEach] at h
    split at h
    · rename_i hlapse
      have hl : lapsedAt l t = true := by simp [lapsedAt, hlapse.1, hlapse.2]
      simp only [Exec.run_bind, Op.run_modify, run_newEvent, recordCardEvent] at h
      rcases hrest : (expireEach t ls).run w _ with ⟨r1, m1⟩
      rw [hrest] at h
      obtain ⟨hexp, hlater, rfl⟩ := ih hrest
      cases h
      refine ⟨.lapse hl rfl rfl rfl rfl hexp, ⟨?_, ?_⟩, by simp [hl]⟩
      · exact Nat.le_of_succ_le hlater.ticks
      · exact Nat.le_of_succ_le hlater.draws
    · rename_i hlapse
      have hl : lapsedAt l t = false := by
        simp only [lapsedAt]
        simpa using hlapse
      obtain ⟨hexp, hlater, rfl⟩ := ih h
      exact ⟨.keep hl hexp, hlater, by simp [hl]⟩

theorem expireLeases_cases {r : Except PyErr (List Lease)}
    (h : expireLeases.run w m = (r, m')) :
    Expires (w.clock m.ticks) m.store.leases.values m.store m'.store ∧ Later m m' := by
  simp only [expireLeases, Exec.run_bind, Op.run_now, Op.run_get] at h
  obtain ⟨hexp, hlater, -⟩ := expireEach_cases h
  exact ⟨hexp, ⟨Nat.le_of_succ_le hlater.ticks, hlater.draws⟩⟩

/-- The writes of a validation. -/
def validated (s : InMemoryCardRuntime) (key : Option String) (c : Card)
    (route : Option (String × String)) (e : CardEvent) : InMemoryCardRuntime :=
  ((s.routeCard c route).putEvent e).putKey key (.event e)

/-- The destination of a validation, resolved against the panel that is registered
under the id in the card's version string. -/
def RouteOk (s : InMemoryCardRuntime) (c : Card) (outputPipe : Option String) :
    Option (String × String) → Prop
  | none => truthyStr outputPipe = none
  | some (pipe, destination) => truthyStr outputPipe = some pipe ∧ ∃ p nodeId,
      s.patchPanels.get? (beforeLastColon c.workflowVersion) = some p ∧
      resolvePipeBucket p pipe .output = .ok (destination, nodeId)

structure Validates (w : World) (m m' : Machine InMemoryCardRuntime) (cardId : Uuid)
    (validatorId : String) (accepted : Bool) (reason outputPipe : Option String)
    (payload : Option JsonObj) (key : Option String) (c : Card)
    (route : Option (String × String)) (e : CardEvent) : Prop where
  store : m'.store = m.store.validated key c route e
  later : Later m m'
  uncached : m.store.cached key = none
  card : m.store.cards.get? cardId = some c
  routed : RouteOk m.store c outputPipe route
  event : e.cardId = c.id ∧ e.eventType = "card_validated" ∧ e.actorId = some validatorId ∧
    e.payload = routedPayload (validationPayload accepted reason payload) route

theorem validationRoute_cases {c : Card} {outputPipe : Option String}
    {r : Except PyErr (Option (String × String))}
    (h : (validationRoute c outputPipe).run w m = (r, m')) :
    m' = m ∧ ∀ route, r = .ok route → RouteOk m.store c outputPipe route := by
  simp only [validationRoute] at h
  split at h
  · rename_i hpipe
    cases h
    refine ⟨rfl, ?_⟩
    rintro route hr
    cases hr
    exact hpipe
  · rename_i pipe hpipe
    have hsame : ∀ x : Except PyErr (Option (String × String)), (x, m) = (r, m') → m' = m :=
      fun x hx => (Prod.mk.inj hx).2.symm
    simp only [getPatchPanelForCard, Exec.run_bind, run_getPatchPanel, Op.run_ofExcept] at h
    cases hp : m.store.patchPanels.get? (beforeLastColon c.workflowVersion) with
    | none =>
      rw [hp] at h
      cases h
      exact ⟨rfl, by simp⟩
    | some p =>
      rw [hp] at h
      cases hres : resolvePipeBucket p pipe .output with
      | error e =>
        simp only [hres] at h
        cases h
        exact ⟨rfl, by simp⟩
      | ok found =>
        simp only [hres] at h
        cases h
        refine ⟨rfl, ?_⟩
        rintro route hr
        cases hr
        exact ⟨hpipe, p, found.2, hp, hres⟩

theorem validateCard_cases {cardId : Uuid} {validatorId : String} {accepted : Bool}
    {reason outputPipe : Option String} {payload : Option JsonObj} {key : Option String}
    {r : Except PyErr CardEvent}
    (h : (validateCard cardId validatorId accepted reason outputPipe payload key).run w m =
      (r, m')) :
    m' = m ∨ ∃ c route e, r = .ok e ∧
      Validates w m m' cardId validatorId accepted reason outputPipe payload key c route e := by
  rcases idempotent_cases h with ⟨rfl, -⟩ | ⟨hkey, h⟩
  · exact .inl rfl
  rcases getCard_bind h with rfl | ⟨c, hc, h⟩
  · exact .inl rfl
  rcases bind_cases h with ⟨err, h1, rfl⟩ | ⟨route, m1, h1, h⟩
  · exact .inl (validationRoute_cases h1).1
  obtain ⟨hsame, hroute⟩ := validationRoute_cases h1
  rw [hsame] at h
  cases h
  exact .inr ⟨c, route, ⟨w.uuid4 m.draws, c.id, "card_validated", some validatorId,
    routedPayload (validationPayload accepted reason payload) route, w.clock m.ticks⟩, rfl,
    { store := rfl
      later := ⟨Nat.le_succ _, Nat.le_succ _⟩
      uncached := hkey
      card := hc
      routed := hroute route rfl
      event := ⟨rfl, rfl, rfl, rfl⟩ }⟩

/-- The writes of a move. -/
def moved (s : InMemoryCardRuntime) (key : Option String) (c : Card) (e : CardEvent) :
    InMemoryCardRuntime :=
  ((s.putCard c).putEvent e).putKey key (.card c)

structure Moves (m m' : Machine InMemoryCardRuntime) (cardId : Uuid) (toBucket : String)
    (actorId reason key : Option String) (c : Card) (e : CardEvent) : Prop where
  store : m'.store = m.store.moved key { c with currentBucket := toBucket } e
  later : Later m m'
  uncached : m.store.cached key = none
  card : m.store.cards.get? cardId = some c
  bucket : ∃ p, m.store.patchPanels.get? (beforeLastColon c.workflowVersion) = some p ∧
    ensureBucketExists p toBucket = .ok ()
  event : e.cardId = c.id ∧ e.eventType = "card_moved" ∧ e.actorId = actorId ∧
    e.payload = [("from_bucket", .str c.currentBucket), ("to_bucket", .str toBucket),
      ("reason", Json.ofOptionStr reason)]

theorem moveCard_cases {cardId : Uuid} {toBucket : String} {actorId reason key : Option String}
    {r : Except PyErr Card}
    (h : (moveCard cardId toBucket actorId reason key).run w m = (r, m')) :
    m' = m ∨ ∃ c e, r = .ok { c with currentBucket := toBucket } ∧
      Moves m m' cardId toBucket actorId reason key c e := by
  rcases idempotent_cases h with ⟨rfl, -⟩ | ⟨hkey, h⟩
  · exact .inl rfl
  rcases getCard_bind h with rfl | ⟨c, hc, h⟩
  · exact .inl rfl
  rcases getPatchPanel_bind h with rfl | ⟨p, hp, h⟩
  · exact .inl rfl
  rcases ofExcept_bind h with rfl | ⟨_, hbucket, h⟩
  · exact .inl rfl
  cases h
  exact .inr ⟨c, ⟨w.uuid4 m.draws, c.id, "card_moved", actorId,
    [("from_bucket", .str c.currentBucket), ("to_bucket", .str toBucket),
      ("reason", Json.ofOptionStr reason)], w.clock m.ticks⟩, rfl,
    { store := rfl
      later := ⟨Nat.le_succ _, Nat.le_succ _⟩
      uncached := hkey
      card := hc
      bucket := ⟨p, hp, hbucket⟩
      event := ⟨rfl, rfl, rfl, rfl⟩ }⟩

structure Records (m m' : Machine InMemoryCardRuntime) (cardId : Uuid) (eventType : String)
    (actorId : Option String) (payload : Option JsonObj) (key : Option String)
    (e : CardEvent) : Prop where
  store : m'.store = (m.store.putEvent e).putKey key (.event e)
  later : Later m m'
  uncached : m.store.cached key = none
  card : (m.store.cards.get? cardId).isSome
  event : e.cardId = cardId ∧ e.eventType = eventType ∧ e.actorId = actorId ∧
    e.payload = payload.getD []

theorem recordEvent_cases {cardId : Uuid} {eventType : String} {actorId : Option String}
    {payload : Option JsonObj} {key : Option String} {r : Except PyErr CardEvent}
    (h : (recordEvent cardId eventType actorId payload key).run w m = (r, m')) :
    m' = m ∨ ∃ e, r = .ok e ∧ Records m m' cardId eventType actorId payload key e := by
  rcases idempotent_cases h with ⟨rfl, -⟩ | ⟨hkey, h⟩
  · exact .inl rfl
  rcases getCard_bind h with rfl | ⟨c, hc, h⟩
  · exact .inl rfl
  cases h
  exact .inr ⟨⟨w.uuid4 m.draws, cardId, eventType, actorId, payload.getD [], w.clock m.ticks⟩, rfl,
    { store := rfl
      later := ⟨Nat.le_succ _, Nat.le_succ _⟩
      uncached := hkey
      card := by rw [hc]; rfl
      event := ⟨rfl, rfl, rfl, rfl⟩ }⟩

end Operations

end GhostMesh.InMemoryCardRuntime
