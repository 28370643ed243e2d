import GhostMesh.Runtime.Calls

/-!
# What a claim picks

The scan of a claim reads the stores and the clock and writes nothing. It is a function
of the two and of the number of readings made before, and answers with the number of
readings made in all.
-/

set_option autoImplicit false

namespace GhostMesh.InMemoryCardRuntime

section Scan
variable (s : InMemoryCardRuntime) (clock : Nat → Instant)

def leasedAt (t : Instant) (cardId : Uuid) : Bool :=
  s.leases.values.any fun l => l.cardId = cardId && l.activeAt t

def firstFree (p : PatchPanel) (bucket : String) : List Card → Nat → Option Card × Nat
  | [], i => (none, i)
  | c :: cs, i =>
    if c.workflowVersion = p.workflowVersion ∧ c.currentBucket = bucket then
      if s.leasedAt (clock i) c.id then firstFree p bucket cs (i + 1) else (some c, i + 1)
    else firstFree p bucket cs i

def inputMatches (inputPipe : String) :
    List PatchPanel → Nat → Except PyErr (List ClaimMatch) × Nat
  | [], i => (.ok [], i)
  | p :: ps, i => match resolvePipeBucket p inputPipe .input with
    | .error (.invalidOperation _) => inputMatches inputPipe ps i
    | .error e => (.error e, i)
    | .ok (bucket, nodeId) =>
      let card := s.firstFree clock p bucket s.cards.values i
      let rest := inputMatches inputPipe ps card.2
      (rest.1.map (⟨p, bucket, nodeId, card.1⟩ :: ·), rest.2)

def pick (inputPipe : String) (i : Nat) : Except PyErr ClaimMatch × Nat :=
  let found := s.inputMatches clock inputPipe s.patchPanels.values i
  (found.1.bind (chooseMatch inputPipe), found.2)

end Scan

section Runs
variable {w : World} {m : Machine InMemoryCardRuntime}

theorem run_firstClaimable_at (p : PatchPanel) (bucket : String) (cs : List Card) :
    (firstClaimable p bucket cs).run w m =
      (.ok (m.store.firstFree w.clock p bucket cs m.ticks).1,
        { m with ticks := (m.store.firstFree w.clock p bucket cs m.ticks).2 }) := by
  induction cs generalizing m with
  | nil => rfl
  | cons c cs ih =>
    simp only [firstClaimable, firstFree]
    split
    · rw [Exec.run_bind, run_hasActiveLease]
      by_cases hheld : m.store.leasedAt (w.clock m.ticks) c.id = true
      · have hany : m.store.leases.values.any
            (fun l => l.cardId = c.id && l.activeAt (w.clock m.ticks)) = true := hheld
        simp only [hany, hheld, if_true]
        exact ih (m := { m with ticks := m.ticks + 1 })
      · have hany : m.store.leases.values.any
            (fun l => l.cardId = c.id && l.activeAt (w.clock m.ticks)) = false :=
          Bool.eq_false_iff.mpr hheld
        simp only [hany, hheld]
        rfl
    · exact ih

theorem run_claimMatches_at (inputPipe : String) (ps : List PatchPanel) :
    (claimMatches inputPipe ps).run w m =
      ((m.store.inputMatches w.clock inputPipe ps m.ticks).1,
        { m with ticks := (m.store.inputMatches w.clock inputPipe ps m.ticks).2 }) := by
  induction ps generalizing m with
  | nil => rfl
  | cons p ps ih =>
    simp only [claimMatches, inputMatches]
    cases hres : resolvePipeBucket p inputPipe .input with
    | error e =>
      cases e
      case invalidOperation message => exact ih
      all_goals rfl
    | ok found =>
      obtain ⟨bucket, nodeId⟩ := found
      simp only [Exec.run_bind, Op.run_get, run_firstClaimable_at]
      rw [ih]
      cases hrest : (m.store.inputMatches w.clock inputPipe ps
        (m.store.firstFree w.clock p bucket m.store.cards.values m.ticks).2).1 <;> rfl

/-- The scan of a claim only reads the clock. -/
theorem run_claimTarget_at (inputPipe : String) : (claimTarget inputPipe).run w m =
    ((m.store.pick w.clock inputPipe m.ticks).1,
      { m with ticks := (m.store.pick w.clock inputPipe m.ticks).2 }) := by
  simp only [claimTarget, pick, Exec.run_bind, Op.run_get, run_claimMatches_at]
  cases hfound : (m.store.inputMatches w.clock inputPipe m.store.patchPanels.values m.ticks).1
  · rfl
  · simp only [Op.run_ofExcept]
    rfl

/-- The scan picks a card and the expiry of a lease on it can be represented. -/
structure Picks (w : World) (m : Machine InMemoryCardRuntime) (inputPipe : String)
    (seconds : Int) (x : ClaimMatch) (c : Card) (e : Instant) (i : Nat) : Prop where
  pick : m.store.pick w.clock inputPipe m.ticks = (.ok x, i)
  card : x.card = some c
  expiry : (w.clock i).addSeconds seconds = some e

/-- The lease that a claim makes of its pick. -/
def leaseOf (w : World) (m : Machine InMemoryCardRuntime) (inputPipe workerId : String)
    (x : ClaimMatch) (c : Card) (e : Instant) (i : Nat) : Lease :=
  ⟨w.uuid4 m.draws, c.id, x.nodeId, workerId, inputPipe, w.clock (i + 1), e, none⟩

def claimEvent (w : World) (m : Machine InMemoryCardRuntime) (inputPipe workerId : String)
    (c : Card) (i : Nat) : CardEvent :=
  ⟨w.uuid4 (m.draws + 1), c.id, "card_claimed", some workerId,
    [("lease_id", .str (w.uuid4 m.draws).str), ("input_pipe", .str inputPipe)], w.clock (i + 2)⟩

variable {inputPipe workerId : String} {seconds : Int} {key : Option String}

theorem run_claimCard_of_picks (hkey : m.store.cached key = none) {x : ClaimMatch} {c : Card}
    {e : Instant} {i : Nat} (h : Picks w m inputPipe seconds x c e i) :
    (claimCard inputPipe workerId seconds key).run w m =
      (.ok (leaseOf w m inputPipe workerId x c e i),
        ⟨m.store.claimed key (leaseOf w m inputPipe workerId x c e i)
          (claimEvent w m inputPipe workerId c i), i + 3, m.draws + 2⟩) := by
  rw [claimCard, run_idempotent, hkey]
  simp only [Exec.run_bind, run_claimTarget_at, h.pick, h.card, newLease, run_expiryAfter, h.expiry]
  rfl

theorem picks_of_claimCard (hkey : m.store.cached key = none) {l : Lease}
    {m' : Machine InMemoryCardRuntime}
    (h : (claimCard inputPipe workerId seconds key).run w m = (.ok l, m')) :
    ∃ x c e i, Picks w m inputPipe seconds x c e i := by
  rw [claimCard, run_idempotent, hkey] at h
  obtain ⟨x, m1, hx, hrest⟩ := Exec.bind_ok h
  rw [run_claimTarget_at] at hx
  obtain ⟨hpick, hm1⟩ := Prod.mk.inj hx
  cases hcard : x.card with
  | none =>
    simp only [hcard] at hrest
    cases hrest
  | some c =>
    simp only [hcard] at hrest
    obtain ⟨l', m2, hlease, -⟩ := Exec.bind_ok hrest
    rw [newLease, Exec.run_bind, run_expiryAfter, ← hm1] at hlease
    cases hexp : (w.clock (m.store.pick w.clock inputPipe m.ticks).2).addSeconds seconds with
    | none =>
      simp only [hexp] at hlease
      cases hlease
    | some e => exact ⟨x, c, e, _, Prod.ext hpick rfl, hcard, hexp⟩

/-- The picked card is stored. -/
theorem Picks.stored (hkeyed : WellKeyed m.store) {x : ClaimMatch} {c : Card} {e : Instant}
    {i : Nat} (h : Picks w m inputPipe seconds x c e i) :
    m.store.cards.get? c.id = some c := by
  have hrun : (claimTarget inputPipe).run w m = (.ok x, { m with ticks := i }) := by
    rw [run_claimTarget_at, h.pick]
  obtain ⟨-, htarget⟩ := claimTarget_cases hrun
  obtain ⟨⟨-, -, hcard⟩, -⟩ := htarget x rfl
  obtain ⟨j, -, -, hclaimable⟩ := hcard c h.card
  exact Dict.get?_of_keyed (fun _ _ => hkeyed.cards) hclaimable.stored

end Runs

/-! ## What a claim raises -/

section Raises
variable {w : World}

/-- The errors that the runtime defines. -/
def RuntimeError : PyErr → Prop
  | .notFound _ | .conflict _ | .invalidOperation _ => True
  | _ => False

/-- An error of the runtime, or an expiry that cannot be represented. -/
def ClaimError : PyErr → Prop
  | .notFound _ | .conflict _ | .invalidOperation _ | .overflow => True
  | _ => False

theorem RuntimeError.claim {e : PyErr} (h : RuntimeError e) : ClaimError e := by
  cases e <;> first | exact h | trivial

theorem ensureDirection_raises {pipe : String} {declared : Option Direction} {d : Direction}
    {e : PyErr} (h : ensureDirection pipe declared d = .error e) : RuntimeError e := by
  unfold ensureDirection at h
  split at h
  · cases h
  · split at h <;> cases h
    trivial

theorem findNodeForPipe_raises {p : PatchPanel} {pipe : String} {d : Direction} {e : PyErr}
    (h : findNodeForPipe p pipe d = .error e) : RuntimeError e := by
  unfold findNodeForPipe at h
  split at h <;> cases h
  trivial

theorem resolvePipeBucket_raises {p : PatchPanel} {pipe : String} {d : Direction} {e : PyErr}
    (h : resolvePipeBucket p pipe d = .error e) : RuntimeError e := by
  unfold resolvePipeBucket at h
  cases hb : p.pipeBindings.get? pipe with
  | none =>
    rw [hb] at h
    cases h
    trivial
  | some binding =>
    simp only [hb] at h
    rcases Exec.error_of_bind h with hdir | ⟨u, -, h⟩
    · exact ensureDirection_raises hdir
    · cases hnode : truthyStr binding.node with
      | some node =>
        rw [hnode] at h
        cases h
      | none =>
        rw [hnode] at h
        rcases Exec.error_of_bind h with hfind | ⟨node, -, h⟩
        · exact findNodeForPipe_raises hfind
        · cases h

theorem chooseMatch_raises {inputPipe : String} {found : List ClaimMatch} {e : PyErr}
    (h : chooseMatch inputPipe found = .error e) : ClaimError e := by
  unfold chooseMatch at h
  split at h <;> cases h <;> trivial

theorem claimMatches_raises (inputPipe : String) (ps : List PatchPanel) :
    Exec.Raises ClaimError w (claimMatches inputPipe ps) := by
  induction ps with
  | nil => exact Exec.Raises.pure _
  | cons p ps ih =>
    unfold claimMatches
    cases hres : resolvePipeBucket p inputPipe .input with
    | error e =>
      have he := (resolvePipeBucket_raises hres).claim
      cases e
      case invalidOperation message => exact ih
      all_goals exact Exec.Raises.raise he
    | ok found =>
      simp only
      refine Exec.Raises.bind (Exec.Raises.of_ok fun m => ⟨_, m, rfl⟩) fun s => ?_
      refine Exec.Raises.bind ?_ fun card => ?_
      · exact Exec.Raises.of_ok fun m => ⟨_, _, run_firstClaimable_at _ _ _⟩
      · exact Exec.Raises.bind ih fun rest => Exec.Raises.pure _

theorem newLease_raises (card : Card) (nodeId workerId inputPipe : String) (seconds : Int) :
    Exec.Raises ClaimError w (newLease card nodeId workerId inputPipe seconds : Rt Lease) := by
  refine Exec.Raises.bind ?_ fun e => Exec.Raises.of_ok fun m => ⟨_, _, rfl⟩
  refine Exec.Raises.bind (Exec.Raises.of_ok fun m => ⟨_, _, rfl⟩) fun t => ?_
  split
  · exact Exec.Raises.pure _
  · exact Exec.Raises.raise trivial

theorem claimCard_raises (inputPipe workerId : String) (seconds : Int) (key : Option String) :
    Exec.Raises ClaimError w (claimCard inputPipe workerId seconds key) := by
  unfold claimCard idempotent
  refine Exec.Raises.bind (Exec.Raises.of_ok fun m => ⟨_, m, rfl⟩) fun cached => ?_
  cases cached with
  | some v =>
    simp only [typed]
    split
    · exact Exec.Raises.pure _
    · exact Exec.Raises.raise trivial
  | none =>
    apply Exec.Raises.bind
    · refine Exec.Raises.bind (Exec.Raises.of_ok fun m => ⟨_, m, rfl⟩) fun s => ?_
      refine Exec.Raises.bind (claimMatches_raises _ _) fun found => ?_
      exact Exec.Raises.ofExcept fun e he => chooseMatch_raises he
    · intro target
      split
      · exact Exec.Raises.raise trivial
      · refine Exec.Raises.bind (newLease_raises _ _ _ _ _) fun l => ?_
        exact Exec.Raises.of_ok fun m => ⟨_, _, rfl⟩

end Raises

end GhostMesh.InMemoryCardRuntime
