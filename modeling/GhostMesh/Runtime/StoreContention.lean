import GhostMesh.Runtime.ClaimRace
import GhostMesh.Runtime.SqlalchemyStore

/-!
# Contention for a card in the stand-alone lease store

An acquisition holds the row of its card from before it looks for active leases until it
commits. What it has seen, that none of them is active from its reading on, stays so: a
release ends leases, and another acquisition for the card needs the row.
-/

set_option autoImplicit false

namespace GhostMesh

open ReadCommitted PostgresLeaseStore

/-- None of the card's leases is active from an instant on. -/
def idleFacts : LockFacts postgres (Uuid × Instant) where
  lock r := .card r.1
  fact d r := ∀ id l, d.leases.get? id = some l → l.cardId = r.1 → l.activeAt r.2 = false
  clean log _ := LeasesUntouched log

/-- What a call of the store has done to the leases at its end. -/
inductive StoreDone (log : Log postgres) : Prop where
  | untouched (h : LeasesUntouched log)
  | acquired (l : Lease) (t₀ : Instant) (h : leaseWrites log = [.lease l])
      (hidle : idleFacts.SeenUnder log (l.cardId, t₀)) (hlater : t₀ ≤ l.claimedAt)
  | released (id : Uuid) (t : Instant) (h : leaseWrites log = [.leaseReleased id t])

theorem StoreDone.keep : Log.Kept OffLeases StoreDone := by
  intro o log ho h
  have hsame := leaseWrites_keep ho log
  cases h with
  | untouched h => exact .untouched (hsame.trans h)
  | acquired l t₀ h hidle hlater => exact .acquired l t₀ (hsame.trans h) (hidle.keep o) hlater
  | released id t h => exact .released id t (hsame.trans h)

/-- A reading comes after the readings before it. -/
def ClockOrdered (log : Log postgres) (o : Obs postgres) : Prop :=
  ∀ t, o = .clock t → ∀ t' ∈ log.times, t' ≤ t

/-- The transaction holds the card's row and has not written a lease. -/
structure HoldsCard (cardId : Uuid) (log : Log postgres) : Prop where
  untouched : LeasesUntouched log
  locked : RowLock.card cardId ∈ log.locks

theorem mem_locks_keep {log : Log postgres} {l : RowLock} (o : Obs postgres) (h : l ∈ log.locks) :
    l ∈ Log.locks (o :: log) := by
  obtain ⟨d, hlocked⟩ := Log.mem_locks_iff.mp h
  exact Log.mem_locks_iff.mpr ⟨d, List.mem_cons_of_mem _ hlocked⟩

theorem HoldsCard.keep {cardId : Uuid} : Log.Kept OffLeases (HoldsCard cardId) := fun o log ho h =>
  ⟨LeasesUntouched.keep o log ho h.untouched, mem_locks_keep o h.locked⟩

/-- With the row in hand it has found no lease of the card that is active at `t₀`. -/
structure FoundIdle (cardId : Uuid) (t₀ : Instant) (log : Log postgres) : Prop where
  untouched : LeasesUntouched log
  read : t₀ ∈ log.times
  idle : idleFacts.SeenUnder log (cardId, t₀)

theorem FoundIdle.keep {cardId : Uuid} {t₀ : Instant} :
    Log.Kept OffLeases (FoundIdle cardId t₀) := fun o log ho h =>
  ⟨LeasesUntouched.keep o log ho h.untouched, mem_times_keep o h.read, h.idle.keep o⟩

namespace PostgresLeaseStore

section Programs
variable {log : Log postgres} (engine : Engine)

/-- A card that was found is locked. -/
theorem lockCard_spec (cardId : Uuid) (hlog : LeasesUntouched log) :
    (lockCard cardId).Spec ClockOrdered Always (fun found log' =>
      LeasesUntouched log' ∧ (found ≠ none → HoldsCard cardId log')) log := by
  unfold lockCard Txn.lockFirst
  refine (Txn.Spec.query (Q := fun (_ : Tables) log' => LeasesUntouched log') trivial fun d _ =>
    ⟨trivial, LeasesUntouched.keep _ log trivial hlog⟩).bind fun snapshot log _ hlog => ?_
  beta_reduce
  split
  · refine (Txn.Spec.lockRow (Q := fun (_ : Tables) log' => HoldsCard cardId log') trivial
      fun d _ => ⟨trivial, LeasesUntouched.keep _ log trivial hlog, List.mem_cons_self⟩).bind
      fun latest log _ hlog => ?_
    split
    · exact ⟨trivial, hlog.untouched, fun _ => hlog⟩
    · exact ⟨trivial, hlog.untouched, fun _ => hlog⟩
  · exact ⟨trivial, hlog, fun hfound => absurd rfl hfound⟩

theorem activeLease_spec {cardId : Uuid} (hlog : HoldsCard cardId log) :
    (activeLease engine cardId).Spec ClockOrdered Always (fun found log' =>
      found = none → ∃ t₀, FoundIdle cardId t₀ log') log := by
  unfold activeLease
  refine (Txn.Spec.now (Q := fun t log' => HoldsCard cardId log' ∧ t ∈ log'.times) trivial
    fun t _ => ⟨trivial, HoldsCard.keep _ log trivial hlog, List.mem_cons_self⟩).bind
    fun now log _ hread => ?_
  obtain ⟨hlog, hread⟩ := hread
  refine (Txn.Spec.query (Q := fun (d : Tables) log' =>
    log' = .saw (.activeLease cardId now) d :: log) trivial fun d _ => ⟨trivial, rfl⟩).bind ?_
  rintro d _ - rfl
  refine ⟨trivial, fun hnone => ⟨now, LeasesUntouched.keep _ log trivial hlog.untouched, hread, ?_⟩⟩
  refine .now rfl hlog.locked hlog.untouched fun id l hl hcard => ?_
  rw [Option.map_eq_none_iff, List.head?_eq_none_iff] at hnone
  cases hactive : l.activeAt now with
  | false => rfl
  | true =>
    have hmem : l ∈ engine.rows d (d.leases.values.filter
        fun l => l.cardId = cardId && l.activeAt now) := by
      rw [Engine.mem_rows, List.mem_filter]
      exact ⟨Dict.mem_values_of_get? hl, by simp [hcard, hactive]⟩
    rw [hnone] at hmem
    cases hmem

theorem acquireNew_spec (cardId : Uuid) (nodeId worker pipe : String) (seconds : Int)
    (key : Option String) (hlog : LeasesUntouched log) :
    (acquireNew engine cardId nodeId worker pipe seconds key).Spec ClockOrdered Always
      (fun _ => StoreDone) log := by
  unfold acquireNew
  refine (lockCard_spec cardId hlog).bind fun found log _ hlocked => ?_
  cases found with
  | none => trivial
  | some id =>
    refine (activeLease_spec engine (hlocked.2 (Option.some_ne_none id))).bind
      fun active log _ hidle => ?_
    cases active with
    | some l => trivial
    | none =>
      obtain ⟨t₀, hlog⟩ := hidle rfl
      refine .after_kept FoundIdle.keep .fresh hlog fun leaseId log hlog => ?_
      refine (Txn.Spec.now (Q := fun t log' => FoundIdle cardId t₀ log' ∧ t₀ ≤ t) trivial
        fun t ht => ⟨trivial, FoundIdle.keep _ log trivial hlog, ht t rfl t₀ hlog.read⟩).bind
        fun claimedAt log _ hclaimed => ?_
      obtain ⟨hlog, hlater⟩ := hclaimed
      refine .after_kept FoundIdle.keep (PostgresCardRuntime.expiryAfter_writes seconds) hlog
        fun expiresAt log hlog => ?_
      refine Txn.Spec.bind (Q := fun _ => StoreDone) ?_ fun _ log _ hdone => ?_
      · refine .insert trivial (fun _ => trivial) fun d _ _ => ⟨trivial, ?_⟩
        refine .acquired ⟨leaseId, cardId, nodeId, worker, pipe, claimedAt, expiresAt, none⟩ t₀ ?_
          ((hlog.idle.keep _).keep _) hlater
        rw [leaseWrites_wrote]
        change _ :: leaseWrites log = _
        rw [show leaseWrites log = [] from hlog.untouched]
      refine .after_kept StoreDone.keep
        (PostgresCardRuntime.storeIdempotency_writes key _ _ fun _ _ => rfl) hdone
        fun _ log hdone => ⟨trivial, hdone⟩

theorem acquireLease_spec (cardId : Uuid) (nodeId worker pipe : String) (seconds : Int)
    (key : Option String) (hlog : LeasesUntouched log) :
    (acquireLease engine cardId nodeId worker pipe seconds key).Spec ClockOrdered Always
      (fun _ => StoreDone) log := by
  unfold acquireLease
  cases truthyStr key with
  | none => exact acquireNew_spec engine cardId nodeId worker pipe seconds key hlog
  | some k =>
    refine .after_kept LeasesUntouched.keep (.bind (.query _) fun _ => .ret _) hlog
      fun record log hlog => ?_
    cases record with
    | none => exact acquireNew_spec engine cardId nodeId worker pipe seconds key hlog
    | some record =>
      cases hid : record.leaseId? with
      | none =>
        simp only [hid]
        trivial
      | some id =>
        simp only [hid]
        exact ⟨trivial, .untouched hlog⟩

theorem releaseLease_spec (leaseId : Uuid) (hlog : LeasesUntouched log) :
    (releaseLease leaseId).Spec ClockOrdered Always (fun _ => StoreDone) log := by
  unfold releaseLease
  refine .after_kept LeasesUntouched.keep .now hlog fun releasedAt log hlog => ?_
  refine Txn.Spec.bind (Q := fun _ => StoreDone) ?_ fun rowcount log _ hdone => ?_
  · unfold updateReleased Txn.updateCount
    refine .after_kept LeasesUntouched.keep (.query _) hlog fun snapshot log hlog => ?_
    beta_reduce
    split
    · refine .after_kept LeasesUntouched.keep (.lockRow _) hlog fun latest log hlog => ?_
      split
      · refine ⟨trivial, trivial, .released leaseId releasedAt ?_⟩
        rw [leaseWrites_wrote, show leaseWrites log = [] from hlog]
        rfl
      · exact ⟨trivial, .untouched hlog⟩
    · exact ⟨trivial, .untouched hlog⟩
  · split
    · trivial
    · exact ⟨trivial, hdone⟩

end Programs

end PostgresLeaseStore

theorem LeaseStoreCall.spec (engine : Engine) (call : LeaseStoreCall) :
    (call.program engine).Spec ClockOrdered Always (fun _ => StoreDone) [] := by
  have hstart : LeasesUntouched [] := rfl
  cases call with
  | acquireLease cardId nodeId worker pipe seconds key =>
    exact (acquireLease_spec engine cardId nodeId worker pipe seconds key hstart).bind
      fun _ _ hlog hdone => ⟨hlog, hdone⟩
  | releaseLease leaseId => exact releaseLease_spec leaseId hstart

/-! ## Runs -/

abbrev StoreSession := Session postgres LeaseStoreCall Unit

abbrev StoreSystem := System postgres LeaseStoreCall Unit

def StoreSystem.init (d : Tables) : StoreSystem := ⟨d, 0, 0, []⟩

def StoreSystem.step (engine : Engine) (w : World) (σ : StoreSystem) (a : Action LeaseStoreCall) :
    StoreSystem := System.step w.supply (LeaseStoreCall.program engine) σ a

def StoreSystem.run (engine : Engine) (w : World) (d : Tables)
    (actions : List (Action LeaseStoreCall)) : StoreSystem :=
  actions.foldl (StoreSystem.step engine w) (StoreSystem.init d)

structure StoreState (w : World) (σ : StoreSystem) : Prop where
  past : System.Past w.supply σ
  orderly : σ.Orderly ClockOrdered (fun _ => Always) fun _ => StoreDone
  idle : idleFacts.UnderState σ
  exclusive : σ.data.LeasesExclusive

section Runs
variable {engine : Engine} {w : World} {σ σ' : StoreSystem}

theorem StoreState.start {d : Tables} (h : d.LeasesExclusive) :
    StoreState w (StoreSystem.init d) where
  past i s hs := by cases hs
  orderly := .start rfl
  idle := .start rfl
  exclusive := h

/-- The leases after a commit of the store. -/
theorem StoreState.committed (h : StoreState w σ) {i : Nat} {s : StoreSession}
    (hcommits : Commits σ σ' i s) : StoreDone s.log ∧
      σ'.data.leases = ((leaseWrites s.log).foldr postgres.apply σ.data).leases := by
  obtain ⟨a, hrest⟩ := hcommits.rest
  refine ⟨h.orderly.result hcommits.session hrest, ?_⟩
  rw [hcommits.data]
  exact view_leases s.log σ.data

/-- A card whose row another transaction holds stays idle. -/
theorem StoreState.idle_kept (h : StoreState w σ) {i : Nat} {s : StoreSession} {r : Uuid × Instant}
    (hcommits : Commits σ σ' i s) (hlock : RowLock.card r.1 ∉ s.log.locks)
    (hidle : idleFacts.fact σ.data r) : idleFacts.fact σ'.data r := by
  obtain ⟨hdone, hleases⟩ := h.committed hcommits
  intro id l hl hcard
  rw [hleases] at hl
  cases hdone with
  | untouched huntouched =>
    rw [show leaseWrites s.log = [] from huntouched] at hl
    exact hidle id l hl hcard
  | acquired l₁ t₀ hwrites hseen hlater =>
    have hother : l₁.cardId ≠ r.1 := by
      intro heq
      have hheld : RowLock.card l₁.cardId ∈ s.log.locks := hseen.mem_locks
      rw [heq] at hheld
      exact hlock hheld
    rw [hwrites] at hl
    change (σ.data.leases.set l₁.id l₁).get? id = some l at hl
    rw [Dict.get?_set] at hl
    split at hl
    · cases hl
      exact absurd hcard hother
    · exact hidle id l hl hcard
  | released id₁ t hwrites =>
    rw [hwrites] at hl
    change (σ.data.leases.modify id₁ _).get? id = some l at hl
    rw [Dict.get?_modify] at hl
    split at hl
    · obtain ⟨l₀, -, rfl⟩ := Option.map_eq_some_iff.mp hl
      rfl
    · exact hidle id l hl hcard

/-- The lease that is acquired is the only active one of its card. -/
theorem Tables.LeasesExclusive.acquired {d d' : Tables} {l : Lease} {t₀ : Instant}
    (h : d.LeasesExclusive) (hleases : d'.leases = d.leases.set l.id l)
    (hidle : idleFacts.fact d (l.cardId, t₀)) (hlater : t₀ ≤ l.claimedAt) :
    d'.LeasesExclusive := by
  -- The others of the card are over when it is claimed.
  have hover : ∀ {b : Uuid} {lb : Lease} {t : Instant}, d.leases.get? b = some lb →
      lb.cardId = l.cardId → l.claimedAt ≤ t → lb.activeAt t = true → False := by
    intro b lb t hlb hcard ht hactive
    have hdead : lb.activeAt t₀ = false := hidle b lb hlb hcard
    rw [Lease.activeAt_anti (le_trans hlater ht) hactive] at hdead
    cases hdead
  intro a b la lb hla hlb hne hcard t hta htb hactive
  rw [hleases, Dict.get?_set] at hla hlb
  split at hla
  · rename_i ha
    cases hla
    rw [if_neg fun hb => hne (ha.trans hb.symm)] at hlb
    exact hover hlb hcard.symm hta hactive.2
  · split at hlb
    · cases hlb
      exact hover hla hcard htb hactive.1
    · exact h a b la lb hla hlb hne hcard t hta htb hactive

theorem Tables.LeasesExclusive.released {d d' : Tables} {id : Uuid} {t : Instant}
    (h : d.LeasesExclusive)
    (hleases : d'.leases = d.leases.modify id fun l => { l with releasedAt := some t }) :
    d'.LeasesExclusive := by
  have hold : ∀ {b : Uuid} {lb : Lease} {t' : Instant}, d'.leases.get? b = some lb →
      lb.activeAt t' = true → d.leases.get? b = some lb := by
    intro b lb t' hlb hactive
    rw [hleases, Dict.get?_modify] at hlb
    split at hlb
    · obtain ⟨l₀, -, rfl⟩ := Option.map_eq_some_iff.mp hlb
      cases hactive
    · exact hlb
  intro a b la lb hla hlb hne hcard t' hta htb hactive
  exact h a b la lb (hold hla hactive.1) (hold hlb hactive.2) hne hcard t' hta htb hactive

theorem StoreState.exclusive_kept (h : StoreState w σ) {i : Nat} {s : StoreSession}
    (hcommits : Commits σ σ' i s) : σ'.data.LeasesExclusive := by
  obtain ⟨hdone, hleases⟩ := h.committed hcommits
  cases hdone with
  | untouched huntouched =>
    rw [show leaseWrites s.log = [] from huntouched] at hleases
    unfold Tables.LeasesExclusive
    rw [hleases]
    exact h.exclusive
  | acquired l t₀ hwrites hseen hlater =>
    rw [hwrites] at hleases
    exact h.exclusive.acquired hleases
      (h.idle i s _ hcommits.session hcommits.opened hseen) hlater
  | released id t hwrites =>
    rw [hwrites] at hleases
    exact h.exclusive.released hleases

theorem StoreState.step (hclock : Monotone w.clock) (h : StoreState w σ)
    (a : Action LeaseStoreCall) : StoreState w (σ.step engine w a) := by
  have hmove : Move w.supply (LeaseStoreCall.program engine) σ (σ.step engine w a) :=
    System.step_move w.supply (LeaseStoreCall.program engine) σ a
  refine ⟨h.past.moves hclock hmove, ?_, ?_, ?_⟩
  · refine h.orderly.moves (fun i n s o rest hs _ ho => ?_) (fun s _ => s.call.spec engine) hmove
    rintro t rfl t' ht'
    rw [ho.clock_eq]
    exact h.past i s hs t' ht'
  · refine h.idle.moves h.orderly.apart (fun i s r _ _ hclean hidle => ?_)
      (fun i s r hcommits hlock hidle => h.idle_kept hcommits hlock hidle) hmove
    have hsame : (s.log.view σ.data).leases = σ.data.leases := LeasesUntouched.view hclean σ.data
    intro id l hl
    exact hidle id l (hsame ▸ hl)
  · rcases hmove.data with hdata | ⟨i, s, hcommits⟩
    · rw [hdata]
      exact h.exclusive
    · exact h.exclusive_kept hcommits

theorem StoreState.run (hclock : Monotone w.clock) {d : Tables} (h : d.LeasesExclusive)
    (actions : List (Action LeaseStoreCall)) :
    StoreState w (StoreSystem.run engine w d actions) := by
  have hreach : Reaches (StoreSystem.step engine w) (fun _ _ => True) (StoreSystem.init d)
      (StoreSystem.run engine w d actions) := .of_foldl _ _ actions
  exact hreach.invariant (.start h) fun σ a hσ _ => hσ.step hclock a

end Runs

/-- Acquisitions and releases in any interleaving: no card has two leases that are active at
one instant. -/
theorem acquireLease_exclusive (engine : Engine) (w : World) (hclock : Monotone w.clock)
    (d : Tables) (hexclusive : d.LeasesExclusive) (actions : List (Action LeaseStoreCall)) :
    (StoreSystem.run engine w d actions).data.LeasesExclusive :=
  (StoreState.run hclock hexclusive actions).exclusive

def acquireOfLine (worker : String) : LeaseStoreCall :=
  .acquireLease ⟨100⟩ "work" worker "work_in" 300 (some worker)

/-- Two workers ask for the only card at once; the lease of the first is released, and the
card acquired again. -/
def contendingCalls : List (Action LeaseStoreCall) :=
  List.flatten
    [[.begin (acquireOfLine "w1"), .begin (acquireOfLine "w2")],
      (List.replicate 18 [.advance 0, .advance 1]).flatten,
      [.begin (.releaseLease ⟨0⟩)], List.replicate 5 (.advance 2),
      [.begin (acquireOfLine "w3")], List.replicate 14 (.advance 3)]

theorem acquireLease_exclusive_contending :
    (StoreSystem.run .simple .simple .line contendingCalls).sessions.map (·.status) =
      [.committed, .aborted, .committed, .committed] ∧
    ((StoreSystem.run .simple .simple .line contendingCalls).data.leases.get? ⟨1⟩).any
      (·.heldAt ⟨100⟩ 50) = true ∧
    (StoreSystem.run .simple .simple .line contendingCalls).data.LeasesExclusive :=
  ⟨by decide +kernel, by decide +kernel,
    acquireLease_exclusive .simple .simple World.simple_monotone .line
      (fun a _ la _ hla => (Tables.line_leases a la hla).elim) contendingCalls⟩

end GhostMesh
