import GhostMesh.Defaults.SystemPanels
import GhostMesh.Runtime.ClaimScan
import GhostMesh.Runtime.PipeRouting
import GhostMesh.Runtime.PostgresSteps

/-!
# Claims with several panels

The in-memory runtime looks for the pipe in every panel, the Postgres runtime takes
the only panel there is. Both are called at one instant, on stores with the same
panels, cards and leases.
-/

set_option autoImplicit false

namespace GhostMesh

open PatchPanelValidator (accepts)

/-! ## The scan at one instant -/

namespace InMemoryCardRuntime

section Scan
variable (s : InMemoryCardRuntime) (t : Instant) (inputPipe : String)

/-- The lease check and the two comparisons of the scan. -/
def isFree (p : PatchPanel) (bucket : String) (c : Card) : Bool :=
  c.workflowVersion = p.workflowVersion && c.currentBucket = bucket &&
    !s.leases.values.any fun l => l.cardId = c.id && l.activeAt t

/-- What the scan makes of one panel. -/
def panelOffer (p : PatchPanel) : Except PyErr (Option ClaimMatch) :=
  match resolvePipeBucket p inputPipe .input with
  | .error (.invalidOperation _) => .ok none
  | .error e => .error e
  | .ok (bucket, nodeId) =>
    .ok (some ⟨p, bucket, nodeId, s.cards.values.find? (isFree s t p bucket)⟩)

def offers : List PatchPanel → Except PyErr (List ClaimMatch)
  | [] => .ok []
  | p :: ps => do
    match ← panelOffer s t inputPipe p with
    | none => offers ps
    | some found => do
      let rest ← offers ps
      return found :: rest

/-- The match with a card that the scan gets from the panel. -/
def cardOffer (p : PatchPanel) : Option ClaimMatch :=
  match panelOffer s t inputPipe p with
  | .ok (some found) => if found.card.isSome then some found else none
  | _ => none

/-- The panel does not stop the scan and offers no card. -/
def Quiet (p : PatchPanel) : Prop :=
  match resolvePipeBucket p inputPipe .input with
  | .error e => ∃ message, e = .invalidOperation message
  | .ok (bucket, _) => ∀ c, ¬ Claimable s t p bucket c

end Scan

section Runs
variable {s : InMemoryCardRuntime} {t : Instant} {inputPipe : String} {w : World}
  {m : Machine InMemoryCardRuntime}

theorem isFree_iff {p : PatchPanel} {bucket : String} {c : Card} (hc : c ∈ s.cards.values) :
    isFree s t p bucket c = true ↔ Claimable s t p bucket c := by
  simp only [isFree, Bool.and_eq_true, decide_eq_true_eq, Bool.not_eq_true',
    List.any_eq_false, not_and, Bool.not_eq_true]
  constructor
  · rintro ⟨⟨hver, hbucket⟩, hfree⟩
    exact ⟨hc, hver, hbucket, hfree⟩
  · intro h
    exact ⟨⟨h.version, h.bucket⟩, h.free⟩

/-- With a stopped clock the scan of a bucket is a search. -/
theorem firstFree_stopped (p : PatchPanel) (bucket : String) (cs : List Card) (i : Nat) :
    (s.firstFree (fun _ => t) p bucket cs i).1 = cs.find? (isFree s t p bucket) := by
  induction cs generalizing i with
  | nil => rfl
  | cons c cs ih =>
    have hfree : isFree s t p bucket c = (decide (c.workflowVersion = p.workflowVersion ∧
        c.currentBucket = bucket) && !s.leasedAt t c.id) := by
      simp only [isFree, leasedAt, Bool.decide_and]
    simp only [firstFree, List.find?_cons, hfree]
    by_cases hhere : c.workflowVersion = p.workflowVersion ∧ c.currentBucket = bucket
    · cases s.leasedAt t c.id <;> simp [hhere, ih]
    · simp [hhere, ih]

theorem inputMatches_stopped (ps : List PatchPanel) (i : Nat) :
    (s.inputMatches (fun _ => t) inputPipe ps i).1 = offers s t inputPipe ps := by
  induction ps generalizing i with
  | nil => rfl
  | cons p ps ih =>
    simp only [inputMatches, offers, panelOffer]
    cases hres : resolvePipeBucket p inputPipe .input with
    | error e =>
      cases e
      case invalidOperation message => exact ih i
      all_goals rfl
    | ok found =>
      simp only [firstFree_stopped, ih]
      cases offers s t inputPipe ps <;> rfl

theorem offers_ok {ps : List PatchPanel} {found : List ClaimMatch}
    (h : offers s t inputPipe ps = .ok found) :
    (∀ p ∈ ps, ∃ o, panelOffer s t inputPipe p = .ok o) ∧
      found.filter (·.card.isSome) = ps.filterMap (cardOffer s t inputPipe) := by
  induction ps generalizing found with
  | nil =>
    cases h
    exact ⟨by simp, rfl⟩
  | cons p ps ih =>
    rw [List.forall_mem_cons, List.filterMap_cons, cardOffer]
    rw [offers] at h
    cases hoffer : panelOffer s t inputPipe p with
    | error e =>
      rw [hoffer] at h
      cases h
    | ok o =>
      rw [hoffer] at h
      cases o with
      | none =>
        obtain ⟨hall, hfilter⟩ := ih h
        exact ⟨⟨⟨none, rfl⟩, hall⟩, hfilter⟩
      | some x =>
        cases hrest : offers s t inputPipe ps with
        | error e =>
          rw [hrest] at h
          cases h
        | ok rest =>
          rw [hrest] at h
          cases h
          obtain ⟨hall, hfilter⟩ := ih hrest
          refine ⟨⟨⟨some x, rfl⟩, hall⟩, ?_⟩
          rw [List.filter_cons, hfilter]
          cases hcard : x.card <;> simp [hcard]

theorem offers_of {ps : List PatchPanel}
    (h : ∀ p ∈ ps, ∃ o, panelOffer s t inputPipe p = .ok o) :
    ∃ found, offers s t inputPipe ps = .ok found := by
  induction ps with
  | nil => exact ⟨[], rfl⟩
  | cons p ps ih =>
    obtain ⟨⟨o, ho⟩, hall⟩ := List.forall_mem_cons.mp h
    obtain ⟨rest, hrest⟩ := ih hall
    rw [offers, ho, hrest]
    cases o with
    | none => exact ⟨rest, rfl⟩
    | some x => exact ⟨x :: rest, rfl⟩

theorem quiet_iff {p : PatchPanel} : Quiet s t inputPipe p ↔
    (∃ o, panelOffer s t inputPipe p = .ok o) ∧ cardOffer s t inputPipe p = none := by
  unfold Quiet cardOffer panelOffer
  cases resolvePipeBucket p inputPipe .input with
  | error e =>
    cases e
    case invalidOperation message => simp
    all_goals simp
  | ok found =>
    obtain ⟨bucket, nodeId⟩ := found
    have hcard : (∀ c, ¬ Claimable s t p bucket c) ↔
        s.cards.values.find? (isFree s t p bucket) = none := by
      rw [List.find?_eq_none]
      constructor
      · exact fun h c hc hfree => h c ((isFree_iff hc).mp hfree)
      · exact fun h c hc => h c hc.stored ((isFree_iff hc.stored).mpr hc)
    simp only [hcard]
    cases s.cards.values.find? (isFree s t p bucket) <;> simp

/-- A match with a card names the bucket of the pipe and a claimable card there. -/
theorem cardOffer_cases {p : PatchPanel} {x : ClaimMatch}
    (h : cardOffer s t inputPipe p = some x) :
    resolvePipeBucket p inputPipe .input = .ok (x.bucket, x.nodeId) ∧
      ∃ c, x.card = some c ∧ Claimable s t p x.bucket c := by
  unfold cardOffer panelOffer at h
  cases hres : resolvePipeBucket p inputPipe .input with
  | error e =>
    rw [hres] at h
    cases e <;> cases h
  | ok found =>
    obtain ⟨bucket, nodeId⟩ := found
    rw [hres] at h
    cases hfind : s.cards.values.find? (isFree s t p bucket) with
    | none => simp [hfind] at h
    | some c =>
      simp only [hfind, Option.isSome_some, if_true, Option.some.injEq] at h
      subst h
      have hmem : c ∈ s.cards.values := List.mem_of_find?_eq_some hfind
      exact ⟨rfl, c, rfl, (isFree_iff hmem).mp (List.find?_some hfind)⟩

theorem cardOffer_of {p : PatchPanel} {bucket nodeId : String} {c : Card}
    (hres : resolvePipeBucket p inputPipe .input = .ok (bucket, nodeId))
    (hc : Claimable s t p bucket c) : ∃ x, cardOffer s t inputPipe p = some x ∧
      x.bucket = bucket := by
  have hfind : (s.cards.values.find? (isFree s t p bucket)).isSome = true :=
    List.find?_isSome.mpr ⟨c, hc.stored, (isFree_iff hc.stored).mpr hc⟩
  refine ⟨⟨p, bucket, nodeId, s.cards.values.find? (isFree s t p bucket)⟩, ?_, rfl⟩
  simp only [cardOffer, panelOffer, hres, hfind, if_true]

/-- The scan ends with one card exactly if one panel offers it and the others are quiet. -/
theorem offers_sole {ps : List PatchPanel} (hnodup : ps.Nodup) {x : ClaimMatch} :
    (∃ found, offers s t inputPipe ps = .ok found ∧ found.filter (·.card.isSome) = [x]) ↔
      ∃ p ∈ ps, cardOffer s t inputPipe p = some x ∧ ∀ r ∈ ps, r ≠ p → Quiet s t inputPipe r := by
  constructor
  · rintro ⟨found, hfound, hfilter⟩
    obtain ⟨hall, hcards⟩ := offers_ok hfound
    rw [hcards] at hfilter
    obtain ⟨before, p, after, hps, hbefore, hp, hafter⟩ := List.filterMap_eq_cons_iff.mp hfilter
    rw [List.filterMap_eq_nil_iff] at hafter
    have hmem : ∀ r, r ∈ ps ↔ r ∈ before ∨ r = p ∨ r ∈ after := by
      intro r
      rw [hps, List.mem_append, List.mem_cons]
    refine ⟨p, (hmem p).mpr (.inr (.inl rfl)), hp, ?_⟩
    intro r hr hne
    refine quiet_iff.mpr ⟨hall r hr, ?_⟩
    rcases (hmem r).mp hr with hr | hr | hr
    · exact hbefore r hr
    · exact absurd hr hne
    · exact hafter r hr
  · rintro ⟨p, hp, hoffer, hquiet⟩
    obtain ⟨before, after, hps⟩ := List.append_of_mem hp
    rw [hps, List.nodup_middle, List.nodup_cons] at hnodup
    have hall : ∀ r ∈ ps, ∃ o, panelOffer s t inputPipe r = .ok o := by
      intro r hr
      by_cases hne : r = p
      · rw [hne]
        revert hoffer
        unfold cardOffer
        cases panelOffer s t inputPipe p with
        | error e => exact fun h => by cases h
        | ok o => exact fun _ => ⟨o, rfl⟩
      · exact (quiet_iff.mp (hquiet r hr hne)).1
    have hnone : ∀ r ∈ before ++ after, cardOffer s t inputPipe r = none := by
      intro r hr
      have hne : r ≠ p := fun heq => hnodup.1 (heq ▸ hr)
      have hmem : r ∈ ps := by
        rw [hps]
        exact List.mem_append.mpr ((List.mem_append.mp hr).imp id (List.mem_cons_of_mem p))
      exact (quiet_iff.mp (hquiet r hmem hne)).2
    obtain ⟨found, hfound⟩ := offers_of hall
    refine ⟨found, hfound, ?_⟩
    rw [(offers_ok hfound).2, hps]
    refine List.filterMap_eq_cons_iff.mpr ⟨before, p, after, rfl, ?_, hoffer, ?_⟩
    · exact fun r hr => hnone r (List.mem_append_left _ hr)
    · exact List.filterMap_eq_nil_iff.mpr fun r hr => hnone r (List.mem_append_right _ hr)

theorem chooseMatch_card {found : List ClaimMatch} {x : ClaimMatch} (hx : x.card.isSome = true) :
    chooseMatch inputPipe found = .ok x ↔ found.filter (·.card.isSome) = [x] := by
  constructor
  · intro h
    unfold chooseMatch at h
    split at h
    · cases h
    · rename_i hfilter
      cases h
      exact hfilter
    · cases h
      exact List.filter_cons_of_pos hx
    · cases h
      cases hx
    · cases h
  · intro h
    unfold chooseMatch
    rw [h]
    cases found with
    | nil => cases h
    | cons y rest => rfl

theorem run_claimTarget (inputPipe : String) : ∃ k, (claimTarget inputPipe).run (w.stopped t) m =
    ((offers m.store t inputPipe m.store.patchPanels.values).bind (chooseMatch inputPipe),
      { m with ticks := k }) := by
  rw [run_claimTarget_at, ← inputMatches_stopped _ m.ticks]
  exact ⟨_, rfl⟩

/-- What a claim makes of the chosen match. -/
def claimFrom (w : World) (m : Machine InMemoryCardRuntime) (t : Instant)
    (inputPipe workerId : String) (seconds : Int) (x : ClaimMatch) : Except PyErr Lease :=
  match x.card with
  | none => .error (.notFound s!"no claimable cards in bucket '{x.bucket}'")
  | some c => match t.addSeconds seconds with
    | none => .error .overflow
    | some e => .ok ⟨w.uuid4 m.draws, c.id, x.nodeId, workerId, inputPipe, t, e, none⟩

theorem claimCard_result {workerId : String} {seconds : Int} {key : Option String}
    (hkey : m.store.cached key = none) :
    ((claimCard inputPipe workerId seconds key).run (w.stopped t) m).1 =
      ((offers m.store t inputPipe m.store.patchPanels.values).bind (chooseMatch inputPipe)).bind
        (claimFrom w m t inputPipe workerId seconds) := by
  obtain ⟨k, hk⟩ := run_claimTarget (w := w) (t := t) (m := m) inputPipe
  rw [claimCard, run_idempotent, hkey]
  simp only [Exec.run_bind, hk]
  cases (offers m.store t inputPipe m.store.patchPanels.values).bind (chooseMatch inputPipe) with
  | error e => rfl
  | ok x =>
    simp only [Except.bind, claimFrom]
    cases x.card with
    | none => rfl
    | some c =>
      simp only [newLease, Exec.run_bind, run_expiryAfter, World.stopped_clock]
      cases t.addSeconds seconds <;> rfl

/-- What a claim under an unused key returns. -/
theorem claimCard_ok_iff {workerId : String} {seconds : Int} {key : Option String} {l : Lease}
    (hkey : m.store.cached key = none) :
    ((claimCard inputPipe workerId seconds key).run (w.stopped t) m).1 = .ok l ↔
      ∃ found x c e, offers m.store t inputPipe m.store.patchPanels.values = .ok found ∧
        found.filter (·.card.isSome) = [x] ∧ x.card = some c ∧ t.addSeconds seconds = some e ∧
        l = ⟨w.uuid4 m.draws, c.id, x.nodeId, workerId, inputPipe, t, e, none⟩ := by
  rw [claimCard_result hkey]
  constructor
  · intro h
    obtain ⟨x, hchosen, hlease⟩ := Exec.ok_of_bind h
    obtain ⟨found, hfound, hchoice⟩ := Exec.ok_of_bind hchosen
    unfold claimFrom at hlease
    cases hcard : x.card with
    | none =>
      rw [hcard] at hlease
      cases hlease
    | some c =>
      have hfilter := (chooseMatch_card (by rw [hcard]; rfl)).mp hchoice
      cases he : t.addSeconds seconds with
      | none =>
        rw [hcard, he] at hlease
        cases hlease
      | some e =>
        rw [hcard, he] at hlease
        exact ⟨found, x, c, e, hfound, hfilter, hcard, rfl, (Except.ok.inj hlease).symm⟩
  · rintro ⟨found, x, c, e, hfound, hfilter, hcard, he, rfl⟩
    have hchoice : chooseMatch inputPipe found = .ok x :=
      (chooseMatch_card (by rw [hcard]; rfl)).mpr hfilter
    simp only [hfound, Except.bind, hchoice, claimFrom, hcard, he]

end Runs

end InMemoryCardRuntime

/-! ## The claim of the Postgres runtime -/

namespace PostgresCardRuntime

section Claim
variable {engine : Engine} {t : Instant} {w : World} {m : Machine Tables} {inputPipe workerId : String}
  {seconds : Int} {key : Option String} {l : Lease}

open Op (inside)

/-- What a claim under an unused key returns when one panel is registered. -/
theorem claimCard_ok_iff {row : Stamped PatchPanel} (hpanel : m.store.patchPanels.values = [row])
    (hkeyed : ∀ id c, m.store.cards.get? id = some c → c.id = id)
    (hkey : recorded m.store key = none)
    (hlease : m.store.leases.contains (w.uuid4 m.draws) = false)
    (hevent : m.store.cardEvents.contains (w.uuid4 (m.draws + 1)) = false) :
    (((runtime engine).claimCard inputPipe workerId seconds key).run (w.stopped t) m).1 = .ok l ↔
      ∃ bucket nodeId c e,
        resolvePipeBucket row.definition inputPipe .input = .ok (bucket, nodeId) ∧
        (engine.rows m.store
          (m.store.cards.values.filter (claimable m.store bucket t))).head? = some c ∧
        t.addSeconds seconds = some e ∧
        l = ⟨w.uuid4 m.draws, c.id, nodeId, workerId, inputPipe, t, e, none⟩ := by
  change ((Op.atomically (claimCard engine inputPipe workerId seconds key)).run _ _).1 = _ ↔ _
  rw [Op.atomically_run, claimCard, run_idempotent, hkey]
  simp only
  rw [Op.run_inside_bind, run_singlePatchPanel, hpanel]
  simp only
  rw [Op.run_inside_bind, Op.inside_ofExcept, Op.run_ofExcept]
  cases hres : resolvePipeBucket row.definition inputPipe .input with
  | error e =>
    simp
  | ok found =>
    obtain ⟨bucket, nodeId⟩ := found
    have hselect := run_selectClaimable (w.stopped t) ⟨m.store, m.ticks + 1, m.draws⟩ engine bucket
      t hkeyed
    simp only
    rw [Op.run_clock]
    simp only [World.stopped_clock]
    rw [Op.run_inside_bind, hselect]
    simp only
    cases hcard : (engine.rows m.store
        (m.store.cards.values.filter (claimable m.store bucket t))).head? with
    | none =>
      simp [hcard]
    | some c =>
      simp only
      rw [Op.run_inside_bind, run_newLease]
      simp only [World.stopped_clock]
      cases hends : t.addSeconds seconds with
      | none => simp
      | some e =>
        simp only
        rw [Op.run_bind_ok (insertLease_ok engine hlease), Op.run_bind_ok (run_newEvent _ _ _ _ _ _),
          Op.run_bind_ok (insertEvent_ok engine hevent)]
        rw [Op.run_inside_bind, run_storeIdempotency]
        swap
        · exact hkey
        constructor
        · intro h
          cases h
          exact ⟨bucket, nodeId, c, e, rfl, hcard, rfl, rfl⟩
        · rintro ⟨_, _, d, _, ⟨⟩, hd, ⟨⟩, rfl⟩
          rw [hcard] at hd
          cases hd
          rfl

/-- With several panels every claim under an unused key conflicts. -/
theorem claimCard_conflicts {row row' : Stamped PatchPanel} {rows : List (Stamped PatchPanel)}
    (hpanels : m.store.patchPanels.values = row :: row' :: rows)
    (hkey : recorded m.store key = none) :
    (((runtime engine).claimCard inputPipe workerId seconds key).run w m).1 =
      .error (.conflict
        "operation requires an explicit Patch Panel when multiple are registered") := by
  change ((Op.atomically (claimCard engine inputPipe workerId seconds key)).run _ _).1 = _
  rw [Op.atomically_run, claimCard, run_idempotent, hkey]
  simp only
  rw [Op.run_inside_bind, run_singlePatchPanel, hpanels]

end Claim

end PostgresCardRuntime

open InMemoryCardRuntime (Claimable Quiet claimCard_ok_iff offers_sole cardOffer_cases cardOffer_of)

/-! ## Claims of one pipe -/

/-- A call of `claim_card`. -/
structure ClaimCall where
  inputPipe : String
  workerId : String
  leaseSeconds : Int
  idempotencyKey : Option String

def ClaimCall.runOn {σ : Type} (a : ClaimCall) (R : CardRuntime σ) : Op σ Lease :=
  R.claimCard a.inputPipe a.workerId a.leaseSeconds a.idempotencyKey

/-- The result is a lease on a card of the panel that lies in the bucket. -/
def LeaseFrom (cards : List Card) (p : PatchPanel) (bucket : String) (r : Except PyErr Lease) :
    Prop :=
  ∃ l, r = .ok l ∧ ∃ c ∈ cards, c.id = l.cardId ∧ c.workflowVersion = p.workflowVersion ∧
    c.currentBucket = bucket

/-- Both stores hold exactly these panels, and the same cards and leases, all under their
keys; every card belongs to one of the panels. -/
structure SameMesh (ps : List PatchPanel) (s : InMemoryCardRuntime) (d : Tables) : Prop where
  memory : s.patchPanels.values.Perm ps
  postgres : (d.patchPanels.values.map (·.definition)).Perm ps
  cards : ∀ c, c ∈ d.cards.values ↔ c ∈ s.cards.values
  leases : ∀ l, l ∈ d.leases.values ↔ l ∈ s.leases.values
  owned : ∀ c ∈ s.cards.values, ∃ p ∈ ps, c.workflowVersion = p.workflowVersion
  panelKeys : ∀ id p, s.patchPanels.get? id = some p → p.id = id
  cardKeys : ∀ id c, s.cards.get? id = some c → c.id = id
  panelRows : ∀ k row, d.patchPanels.get? k = some row →
    (row.definition.id, row.definition.version) = k
  cardRows : ∀ id c, d.cards.get? id = some c → c.id = id

/-- The scan of the in-memory runtime gets to its end with one card: a panel routes the
pipe to the bucket, the others stay quiet, and the lease ends within the calendar. The
panel is the one that declares the pipe, unless another has the same version string. -/
structure OffersAlone (ps : List PatchPanel) (s : InMemoryCardRuntime) (t : Instant)
    (p : PatchPanel) (bucket : String) (a : ClaimCall) : Prop where
  routed : ∃ x ∈ ps, x.workflowVersion = p.workflowVersion ∧
    (∃ nodeId, resolvePipeBucket x a.inputPipe .input = .ok (bucket, nodeId)) ∧
    ∀ r ∈ ps, r ≠ x → Quiet s t a.inputPipe r
  ends : (t.addSeconds a.leaseSeconds).isSome = true

section Claims
variable {ps : List PatchPanel} {s : InMemoryCardRuntime} {d : Tables} {t : Instant}
  {p : PatchPanel} {bucket : String} {a : ClaimCall} {w : World} {engine : Engine}
  {m : Machine InMemoryCardRuntime} {n : Machine Tables}

theorem memory_claims_iff (hpanels : m.store.patchPanels.values.Perm ps) (hnodup : ps.Nodup)
    (hkeyed : ∀ id c, m.store.cards.get? id = some c → c.id = id)
    (hkey : m.store.cached a.idempotencyKey = none)
    (hcard : ∃ c, Claimable m.store t p bucket c) :
    LeaseFrom m.store.cards.values p bucket
      ((a.runOn InMemoryCardRuntime.runtime).run (w.stopped t) m).1 ↔
        OffersAlone ps m.store t p bucket a := by
  have hvalues : m.store.patchPanels.values.Nodup := hpanels.nodup_iff.mpr hnodup
  have hmem : ∀ r, r ∈ m.store.patchPanels.values ↔ r ∈ ps := fun r => hpanels.mem_iff
  constructor
  · rintro ⟨l, hl, c, hc, hid, hver, hbucket⟩
    obtain ⟨found, x, c', e, hfound, hfilter, hx, he, rfl⟩ := (claimCard_ok_iff hkey).mp hl
    obtain ⟨q, hq, hoffer, hquiet⟩ := (offers_sole hvalues).mp ⟨found, hfound, hfilter⟩
    obtain ⟨hres, c'', hx', hclaim⟩ := cardOffer_cases hoffer
    rw [hx] at hx'
    cases hx'
    have hcard : c = c' := Dict.eq_of_keyed hkeyed hc hclaim.stored hid
    rw [← hcard] at hclaim
    refine ⟨⟨q, (hmem q).mp hq, hclaim.version.symm.trans hver, ⟨x.nodeId, ?_⟩, ?_⟩, by rw [he]; rfl⟩
    · rw [hres, ← hclaim.bucket, hbucket]
    · exact fun r hr => hquiet r ((hmem r).mpr hr)
  · rintro ⟨⟨q, hq, hver, ⟨nodeId, hres⟩, hquiet⟩, hends⟩
    obtain ⟨e, he⟩ := Option.isSome_iff_exists.mp hends
    obtain ⟨c, hc⟩ := hcard
    have hfree : Claimable m.store t q bucket c := ⟨hc.stored, hver ▸ hc.version, hc.bucket, hc.free⟩
    obtain ⟨x, hoffer, rfl⟩ := cardOffer_of hres hfree
    obtain ⟨-, c', hx, hclaim⟩ := cardOffer_cases hoffer
    obtain ⟨found, hfound, hfilter⟩ := (offers_sole hvalues).mpr
      ⟨q, (hmem q).mpr hq, hoffer, fun r hr => hquiet r ((hmem r).mp hr)⟩
    exact ⟨_, (claimCard_ok_iff hkey).mpr ⟨found, x, c', e, hfound, hfilter, hx, he, rfl⟩, c',
      hclaim.stored, rfl, hclaim.version.trans hver, hclaim.bucket⟩

/-- With one panel the Postgres claim succeeds on the same stores. -/
theorem SameMesh.postgres_claims_iff (h : SameMesh [p] m.store n.store) {binding : PipeBinding}
    (hbinding : p.pipeBindings.get? a.inputPipe = some binding)
    (hkey : PostgresCardRuntime.recorded n.store a.idempotencyKey = none)
    (hlease : n.store.leases.contains (w.uuid4 n.draws) = false)
    (hevent : n.store.cardEvents.contains (w.uuid4 (n.draws + 1)) = false)
    (hcard : ∃ c, Claimable m.store t p binding.bucket c) :
    LeaseFrom n.store.cards.values p binding.bucket
      ((a.runOn (PostgresCardRuntime.runtime engine)).run (w.stopped t) n).1 ↔
        OffersAlone [p] m.store t p binding.bucket a := by
  obtain ⟨row, hrow, hdef⟩ := List.map_eq_singleton_iff.mp (List.perm_singleton.mp h.postgres)
  constructor
  · rintro ⟨l, hl, -⟩
    obtain ⟨bucket, nodeId, c, e, hres, -, he, -⟩ :=
      (PostgresCardRuntime.claimCard_ok_iff hrow h.cardRows hkey hlease hevent).mp hl
    rw [hdef] at hres
    obtain ⟨rfl, -⟩ := resolvePipeBucket_cases hbinding hres
    refine ⟨⟨p, List.mem_singleton.mpr rfl, rfl, ⟨nodeId, hres⟩, ?_⟩, by rw [he]; rfl⟩
    exact fun r hr hne => absurd (List.mem_singleton.mp hr) hne
  · rintro ⟨⟨x, hx, -, ⟨nodeId, hres⟩, -⟩, hends⟩
    rw [List.mem_singleton.mp hx] at hres
    obtain ⟨e, he⟩ := Option.isSome_iff_exists.mp hends
    obtain ⟨c, hc⟩ := hcard
    have hclaimable : PostgresCardRuntime.claimable n.store binding.bucket t c = true := by
      simp only [PostgresCardRuntime.claimable, Bool.and_eq_true, decide_eq_true_eq,
        Bool.not_eq_true', List.any_eq_false, not_and, Bool.not_eq_true]
      exact ⟨hc.bucket, fun l hl => hc.free l ((h.leases l).mp hl)⟩
    have hmem : c ∈ engine.rows n.store (n.store.cards.values.filter
        (PostgresCardRuntime.claimable n.store binding.bucket t)) := by
      rw [Engine.mem_rows, List.mem_filter]
      exact ⟨(h.cards c).mpr hc.stored, hclaimable⟩
    obtain ⟨c', hhead⟩ := Option.isSome_iff_exists.mp
      (List.isSome_head?.mpr (List.ne_nil_of_mem hmem))
    have hc' := List.mem_of_head? hhead
    rw [Engine.mem_rows, List.mem_filter] at hc'
    obtain ⟨q, hq, hver⟩ := h.owned c' ((h.cards c').mp hc'.1)
    rw [List.mem_singleton.mp hq] at hver
    have hbucket : c'.currentBucket = binding.bucket := by
      simpa using (Bool.and_eq_true_iff.mp hc'.2).1
    rw [← hdef] at hres
    exact ⟨_, (PostgresCardRuntime.claimCard_ok_iff hrow h.cardRows hkey hlease hevent).mpr
      ⟨binding.bucket, nodeId, c', e, hres, hhead, he, rfl⟩, c', hc'.1, rfl, hver, hbucket⟩

/-- With several panels no Postgres claim succeeds. -/
theorem postgres_claims_not (hrows : 2 ≤ n.store.patchPanels.values.length)
    (hkey : PostgresCardRuntime.recorded n.store a.idempotencyKey = none) {cards : List Card} :
    ¬ LeaseFrom cards p bucket ((a.runOn (PostgresCardRuntime.runtime engine)).run w n).1 := by
  rintro ⟨l, hl, -⟩
  match hvalues : n.store.patchPanels.values with
  | [] | [_] =>
    rw [hvalues] at hrows
    simp at hrows
  | _ :: _ :: _ =>
    have hraises : ((a.runOn (PostgresCardRuntime.runtime engine)).run w n).1 = .error _ :=
      PostgresCardRuntime.claimCard_conflicts hvalues hkey
    rw [hl] at hraises
    cases hraises

end Claims

/-! ## Further panels -/

def registerEach {σ : Type} (R : CardRuntime σ) (ps : List PatchPanel) : Op σ Unit :=
  Exec.forEach (fun p => do let _ ← R.registerPatchPanel p; pure ()) ps

section Registering
variable {w : World} {engine : Engine} {p : PatchPanel}

/-- The in-memory runtime takes accepted panels with new ids. -/
theorem registerEach_memory {ps further : List PatchPanel} {m : Machine InMemoryCardRuntime}
    (hpanels : m.store.patchPanels.values.Perm ps)
    (hkeys : ∀ id p, m.store.patchPanels.get? id = some p → p.id = id)
    (haccepted : ∀ r ∈ further, accepts w r = true)
    (hids : ((ps ++ further).map (·.id)).Nodup) :
    ∃ panels, (registerEach InMemoryCardRuntime.runtime further).run w m =
      (.ok (), { m with store := { m.store with patchPanels := panels } }) ∧
      panels.values.Perm (ps ++ further) := by
  induction further generalizing ps m with
  | nil => exact ⟨m.store.patchPanels, rfl, by simpa using hpanels⟩
  | cons r rs ih =>
    obtain ⟨report, hvalid⟩ := PatchPanelValidator.accepts_iff.mp (haccepted r List.mem_cons_self)
    have hnew : m.store.patchPanels.get? r.id = none := by
      by_contra hsome
      obtain ⟨q, hq⟩ := Option.ne_none_iff_exists'.mp hsome
      have hmem : q ∈ ps := hpanels.mem_iff.mp (Dict.mem_values_of_get? hq)
      rw [List.map_append, List.nodup_append] at hids
      exact hids.2.2 q.id (List.mem_map_of_mem hmem) r.id (by simp) (hkeys _ _ hq)
    have hput : (m.store.putPanel r).patchPanels.values.Perm (ps ++ [r]) := by
      rw [InMemoryCardRuntime.putPanel_patchPanels, Dict.values_set_of_new hnew]
      exact hpanels.append_right [r]
    have hkeys' : ∀ id p, (m.store.putPanel r).patchPanels.get? id = some p → p.id = id :=
      Dict.forall_values_set hkeys rfl
    obtain ⟨panels, hrun, hperm⟩ := ih (m := { m with store := m.store.putPanel r }) hput hkeys'
      (fun q hq => haccepted q (List.mem_cons_of_mem r hq)) (by simpa using hids)
    refine ⟨panels, ?_, by simpa using hperm⟩
    have hregister : (InMemoryCardRuntime.runtime.registerPatchPanel r).run w m =
        (.ok r, { m with store := m.store.putPanel r }) := by
      simp only [InMemoryCardRuntime.runtime, InMemoryCardRuntime.registerPatchPanel,
        Exec.run_bind, Op.run_world, Op.run_ofExcept, hvalid, Op.run_modify, Exec.run_pure]
    simp only [registerEach, Exec.forEach, Exec.run_bind, hregister, Exec.run_pure]
    exact hrun

/-- The rows of panels that were registered. -/
structure RowsKept (d d' : Tables) : Prop where
  panels : ∀ k, d.patchPanels.contains k = true → d'.patchPanels.contains k = true
  keys : d'.idempotencyRecords = d.idempotencyRecords

theorem registerEach_postgres {further : List PatchPanel} {n n' : Machine Tables}
    (h : (registerEach (PostgresCardRuntime.runtime engine) further).run w n = (.ok (), n')) :
    RowsKept n.store n'.store ∧
      ∀ r ∈ further, n'.store.patchPanels.contains (r.id, r.version) = true := by
  induction further generalizing n with
  | nil =>
    cases h
    exact ⟨⟨fun _ hk => hk, rfl⟩, fun r hr => by cases hr⟩
  | cons r rs ih =>
    simp only [registerEach, Exec.forEach] at h
    obtain ⟨_, n1, h1, h⟩ := Exec.bind_ok h
    obtain ⟨q, n2, h2, h1⟩ := Exec.bind_ok h1
    cases h1
    rcases PostgresCardRuntime.runtime_registerPatchPanel_cases engine h2 with
      ⟨⟨e, he⟩, -⟩ | ⟨-, -, hregisters⟩
    · cases he
    obtain ⟨hkept, hrs⟩ := ih h
    have hcontains : ∀ k, n1.store.patchPanels.contains k = true ↔
        k = (r.id, r.version) ∨ n.store.patchPanels.contains k = true := by
      intro k
      rw [hregisters.patchPanels]
      split
      · rename_i hthere
        exact ⟨.inr, fun h => h.elim (fun heq => heq ▸ hthere) id⟩
      · rw [Dict.contains_set]
    refine ⟨⟨fun k hk => hkept.panels k ((hcontains k).mpr (.inr hk)), ?_⟩, ?_⟩
    · rw [hkept.keys, hregisters.rest]
    · rw [List.forall_mem_cons]
      exact ⟨hkept.panels _ ((hcontains _).mpr (.inl rfl)), hrs⟩

end Registering

/-! ## The two runtimes -/

section TwoRuntimes
variable (w : World) (t : Instant) (engine : Engine) (ps further : List PatchPanel)
  (p : PatchPanel) (binding : PipeBinding) (a : ClaimCall) (m m' : Machine InMemoryCardRuntime)
  (n n' : Machine Tables)

/-- The setting of one claim: panels that both runtimes hold, one of which declares the
pipe as an input and has a claimable card in its bucket, and the stores after further
panels that do not declare it are registered. The key of the call is unused and the
identifiers still to be drawn are new to the tables. -/
structure ClaimSetting : Prop where
  mesh : SameMesh ps m.store n.store
  accepted : ∀ r ∈ ps ++ further, accepts (w.stopped t) r = true
  ids : ((ps ++ further).map (·.id)).Nodup
  member : p ∈ ps
  declares : ∃ node ∈ p.nodes, a.inputPipe ∈ node.inputPipes
  sole : ∀ r ∈ ps, r ≠ p → ∀ node ∈ r.nodes, a.inputPipe ∉ node.inputPipes
  silent : ∀ r ∈ further, ∀ node ∈ r.nodes, ∀ d, a.inputPipe ∉ node.pipes d
  bound : p.pipeBindings.get? a.inputPipe = some binding
  card : ∃ c, Claimable m.store t p binding.bucket c
  memoryKey : m.store.cached a.idempotencyKey = none
  postgresKey : PostgresCardRuntime.recorded n.store a.idempotencyKey = none
  fresh : ∀ i, n.draws ≤ i → n.store.leases.contains (w.uuid4 i) = false ∧
    n.store.cardEvents.contains (w.uuid4 i) = false
  memoryRegisters :
    (registerEach InMemoryCardRuntime.runtime further).run (w.stopped t) m = (.ok (), m')
  postgresRegisters :
    (registerEach (PostgresCardRuntime.runtime engine) further).run (w.stopped t) n = (.ok (), n')

/-- The claim takes a card of the panel from the bucket of the pipe. -/
def memoryClaims (m : Machine InMemoryCardRuntime) : Prop :=
  LeaseFrom m.store.cards.values p binding.bucket
    ((a.runOn InMemoryCardRuntime.runtime).run (w.stopped t) m).1

def postgresClaims (n : Machine Tables) : Prop :=
  LeaseFrom n.store.cards.values p binding.bucket
    ((a.runOn (PostgresCardRuntime.runtime engine)).run (w.stopped t) n).1

/-- Both runtimes claim or neither does, and neither loses its claim to the panels that
are registered later. -/
structure ClaimsAgree : Prop where
  same : postgresClaims w t engine p binding a n ↔ memoryClaims w t p binding a m
  memory : memoryClaims w t p binding a m → memoryClaims w t p binding a m'
  postgres : postgresClaims w t engine p binding a n → postgresClaims w t engine p binding a n'

variable {w t engine ps further p binding a m m' n n'}

theorem ClaimSetting.memory_iff (h : ClaimSetting w t engine ps further p binding a m m' n n') :
    memoryClaims w t p binding a m ↔ OffersAlone ps m.store t p binding.bucket a := by
  have hids := h.ids
  rw [List.map_append, List.nodup_append] at hids
  exact memory_claims_iff h.mesh.memory (List.Nodup.of_map _ hids.1) h.mesh.cardKeys h.memoryKey
    h.card

theorem SameMesh.contains_row {s : InMemoryCardRuntime} {d : Tables} (h : SameMesh ps s d)
    (hp : p ∈ ps) : d.patchPanels.contains (p.id, p.version) = true := by
  obtain ⟨row, hrow, hdef⟩ := List.mem_map.mp (h.postgres.mem_iff.mpr hp)
  obtain ⟨k, hk⟩ := (Dict.mem_values_iff _ _).mp hrow
  have hkey := h.panelRows k row hk
  rw [hdef] at hkey
  rw [hkey]
  exact Dict.contains_of_get? hk

theorem claimable_withPanels {s : InMemoryCardRuntime} {panels : Dict String PatchPanel}
    {q : PatchPanel} {bucket : String} {c : Card} :
    Claimable { s with patchPanels := panels } t q bucket c ↔ Claimable s t q bucket c :=
  ⟨fun h => ⟨h.stored, h.version, h.bucket, h.free⟩,
    fun h => ⟨h.stored, h.version, h.bucket, h.free⟩⟩

theorem quiet_withPanels {s : InMemoryCardRuntime} {panels : Dict String PatchPanel}
    {q : PatchPanel} {pipe : String} :
    Quiet { s with patchPanels := panels } t pipe q ↔ Quiet s t pipe q := by
  unfold Quiet
  simp only [claimable_withPanels]

/-- A panel that does not declare the pipe is skipped. -/
theorem quiet_of_undeclared {s : InMemoryCardRuntime} {r : PatchPanel}
    (haccepted : accepts w r = true)
    (hsilent : ∀ node ∈ r.nodes, ∀ d, a.inputPipe ∉ node.pipes d) : Quiet s t a.inputPipe r := by
  have hunbound : r.pipeBindings.get? a.inputPipe = none := by
    cases hget : r.pipeBindings.get? a.inputPipe with
    | none => rfl
    | some b =>
      obtain ⟨node, d, hbound⟩ := PatchPanelValidator.accepts_binding haccepted hget
      exact absurd hbound.declares (hsilent node hbound.node d)
  unfold Quiet resolvePipeBucket
  rw [hunbound]
  exact ⟨_, rfl⟩

/-- In memory no claim is lost to panels that do not declare the pipe. -/
theorem ClaimSetting.memory_keeps (h : ClaimSetting w t engine ps further p binding a m m' n n')
    (hclaims : memoryClaims w t p binding a m) : memoryClaims w t p binding a m' := by
  obtain ⟨panels, hrun, hperm⟩ := registerEach_memory (w := w.stopped t) h.mesh.memory
    h.mesh.panelKeys (fun r hr => h.accepted r (List.mem_append_right _ hr)) h.ids
  rw [h.memoryRegisters] at hrun
  cases hrun
  obtain ⟨⟨x, hx, hver, hres, hquiet⟩, hends⟩ := h.memory_iff.mp hclaims
  obtain ⟨c, hc⟩ := h.card
  refine (memory_claims_iff (m := { m with store := { m.store with patchPanels := panels } }) hperm
    (List.Nodup.of_map _ h.ids) h.mesh.cardKeys h.memoryKey
    ⟨c, claimable_withPanels.mpr hc⟩).mpr ⟨⟨x, List.mem_append_left _ hx, hver, hres, ?_⟩, hends⟩
  intro r hr hne
  rcases List.mem_append.mp hr with hr | hr
  · exact quiet_withPanels.mpr (hquiet r hr hne)
  · exact quiet_of_undeclared (h.accepted r (List.mem_append_right _ hr)) (h.silent r hr)

/-- The claim agreement holds where one panel is registered in all, and where no claim
succeeds. -/
theorem claimsAgree_iff (h : ClaimSetting w t engine ps further p binding a m m' n n') :
    ClaimsAgree w t engine p binding a m m' n n' ↔
      ps.length + further.length = 1 ∨ ¬ OffersAlone ps m.store t p binding.bucket a := by
  have hkept := registerEach_postgres h.postgresRegisters
  have hrows : n.store.patchPanels.values.length = ps.length := by
    simpa using h.mesh.postgres.length_eq
  -- Without further panels the store is the one before.
  have hnone : further = [] → n' = n := by
    rintro rfl
    have hrun := h.postgresRegisters
    cases hrun
    rfl
  have hnewkey : PostgresCardRuntime.recorded n'.store a.idempotencyKey = none := by
    have hkey := h.postgresKey
    unfold PostgresCardRuntime.recorded at hkey ⊢
    rw [hkept.1.keys]
    exact hkey
  have hsingle : ps.length = 1 →
      (postgresClaims w t engine p binding a n ↔ OffersAlone ps m.store t p binding.bucket a) := by
    intro hone
    obtain ⟨x, hx⟩ := List.length_eq_one_iff.mp hone
    have hp := h.member
    rw [hx, List.mem_singleton] at hp
    rw [hx, ← hp]
    have hmesh := h.mesh
    rw [hx, ← hp] at hmesh
    exact hmesh.postgres_claims_iff h.bound h.postgresKey (h.fresh _ (Nat.le_refl _)).1
      (h.fresh _ (Nat.le_succ _)).2 h.card
  have hpos : 0 < ps.length := List.length_pos_of_mem h.member
  constructor
  · intro hagree
    by_contra hnot
    obtain ⟨hmany, hoffers⟩ := not_or.mp hnot
    have hmemory := h.memory_iff.mpr (not_not.mp hoffers)
    have hpostgres := hagree.same.mpr hmemory
    by_cases hone : ps.length = 1
    · -- A further panel is a second row.
      obtain ⟨r, hr⟩ := List.exists_mem_of_length_pos (l := further) (by omega)
      have hne : (p.id, p.version) ≠ (r.id, r.version) := by
        intro heq
        have hids := h.ids
        rw [List.map_append, List.nodup_append] at hids
        exact hids.2.2 p.id (List.mem_map_of_mem h.member) r.id (List.mem_map_of_mem hr)
          (congrArg Prod.fst heq)
      have htwo := Dict.two_values (hkept.1.panels _ (h.mesh.contains_row h.member)) (hkept.2 r hr) hne
      exact postgres_claims_not htwo hnewkey (hagree.postgres hpostgres)
    · exact postgres_claims_not (by omega) h.postgresKey hpostgres
  · intro hcondition
    have hsame : postgresClaims w t engine p binding a n ↔ memoryClaims w t p binding a m := by
      rw [h.memory_iff]
      by_cases hone : ps.length = 1
      · exact hsingle hone
      · refine iff_of_false (postgres_claims_not (by omega) h.postgresKey) ?_
        exact hcondition.resolve_left (by omega)
    refine ⟨hsame, h.memory_keeps, fun hclaims => ?_⟩
    rcases hcondition with hone | hoffers
    · rw [hnone (List.eq_nil_of_length_eq_zero (by omega))]
      exact hclaims
    · exact absurd (h.memory_iff.mp (hsame.mp hclaims)) hoffers

end TwoRuntimes

/-! After a bootstrap: a designer's panel beside a system panel, one card in the first. -/

section Bootstrapped

def designerPanel : PatchPanel := PatchPanelValidator.linePanel "orders" "1"

def systemPanel : PatchPanel := registrationPanel systemAgentRegistrationId

def designerCard : Card := ⟨⟨100⟩, "orders:1", "inbox", [], [], 0⟩

def bootstrappedMemory : Machine InMemoryCardRuntime where
  store := { InMemoryCardRuntime.init with
    patchPanels := ⟨[("orders", designerPanel), (systemAgentRegistrationId, systemPanel)], by decide⟩
    cards := ⟨[(⟨100⟩, designerCard)], by decide⟩ }
  ticks := 0
  draws := 0

def bootstrappedTables : Machine Tables where
  store := { Tables.init with
    patchPanels := ⟨[(("orders", "1"), ⟨designerPanel, 0⟩),
      ((systemAgentRegistrationId, "1.0.0"), ⟨systemPanel, 0⟩)], by decide⟩
    workflowVersions := ⟨[("orders:1", ⟨"orders", "1", true, 0⟩),
      ("system_agent_registration:1.0.0", ⟨systemAgentRegistrationId, "1.0.0", true, 0⟩)],
      by decide⟩
    cards := ⟨[(⟨100⟩, designerCard)], by decide⟩ }
  ticks := 0
  draws := 0

def designerClaim : ClaimCall := ⟨"work_in", "w1", 300, none⟩

theorem bootstrappedMesh :
    SameMesh [designerPanel, systemPanel] bootstrappedMemory.store bootstrappedTables.store where
  memory := .refl _
  postgres := .refl _
  cards c := Iff.rfl
  leases l := Iff.rfl
  owned c hc := by
    rw [List.mem_singleton.mp (show c ∈ [designerCard] from hc)]
    exact ⟨designerPanel, List.mem_cons_self, by decide⟩
  panelKeys := Dict.forall_of_entries (by decide)
  cardKeys := Dict.forall_of_entries (by decide)
  panelRows := Dict.forall_of_entries (by decide)
  cardRows := Dict.forall_of_entries (by decide)

theorem bootstrapped : ClaimSetting .simple 0 .simple [designerPanel, systemPanel] []
    designerPanel ⟨"inbox", some "work", some .input⟩ designerClaim bootstrappedMemory
    bootstrappedMemory bootstrappedTables bootstrappedTables where
  mesh := bootstrappedMesh
  accepted := by decide +kernel
  ids := by decide
  member := List.mem_cons_self
  declares := by decide
  sole := by
    intro r hr hne
    rcases List.mem_cons.mp hr with rfl | hr
    · exact absurd rfl hne
    · rw [List.mem_singleton.mp hr]
      decide
  silent r hr := by cases hr
  bound := rfl
  card := ⟨designerCard, List.mem_cons_self, by decide, rfl, fun l hl => by cases hl⟩
  memoryKey := rfl
  postgresKey := rfl
  fresh i _ := ⟨rfl, rfl⟩
  memoryRegisters := rfl
  postgresRegisters := rfl

theorem claimsAgree_iff_bootstrapped :
    ClaimsAgree .simple 0 .simple designerPanel ⟨"inbox", some "work", some .input⟩ designerClaim
        bootstrappedMemory bootstrappedMemory bootstrappedTables bootstrappedTables ↔
      2 + 0 = 1 ∨ ¬ OffersAlone [designerPanel, systemPanel] bootstrappedMemory.store 0
        designerPanel "inbox" designerClaim :=
  claimsAgree_iff bootstrapped

theorem bootstrapped_offers : OffersAlone [designerPanel, systemPanel] bootstrappedMemory.store 0
    designerPanel "inbox" designerClaim where
  routed := by
    refine ⟨designerPanel, List.mem_cons_self, rfl, ⟨"work", rfl⟩, ?_⟩
    intro r hr hne
    rcases List.mem_cons.mp hr with rfl | hr
    · exact absurd rfl hne
    · rw [List.mem_singleton.mp hr]
      exact ⟨_, rfl⟩
  ends := by decide

/-- In memory the claim takes the card, on Postgres it conflicts. -/
theorem bootstrapped_disagrees :
    ¬ ∀ (w : World) (t : Instant) (engine : Engine) (ps further : List PatchPanel)
      (p : PatchPanel) (binding : PipeBinding) (a : ClaimCall)
      (m m' : Machine InMemoryCardRuntime) (n n' : Machine Tables),
      ClaimSetting w t engine ps further p binding a m m' n n' →
        ClaimsAgree w t engine p binding a m m' n n' := by
  intro h
  have hagree := h _ _ _ _ _ _ _ _ _ _ _ _ bootstrapped
  have hpostgres := hagree.same.mpr (bootstrapped.memory_iff.mpr bootstrapped_offers)
  exact postgres_claims_not (n := bootstrappedTables) (Nat.le_refl 2) rfl hpostgres

end Bootstrapped

end GhostMesh
