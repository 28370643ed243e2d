import GhostMesh.Runtime.CloseOnce

/-!
# Claims and renewals that race

A claim looks for active leases in the snapshot of its SELECT and locks the card only;
a renewal reads its lease and writes it later by id. What is proved is that claims and
renewals whose card has kept its leases until the commit give no card two active leases.
The proof keeps, for each two leases of a card, one that no transaction can find active
any more.
-/

set_option autoImplicit false

namespace GhostMesh

open ReadCommitted PostgresCardRuntime

/-! ## Leases in the tables -/

namespace Tables

/-- No two leases of a card are active at one instant after both were claimed. -/
def LeasesExclusive (d : Tables) : Prop :=
  ∀ (a b : Uuid) (la lb : Lease), d.leases.get? a = some la → d.leases.get? b = some lb → a ≠ b →
    la.cardId = lb.cardId → ∀ t, la.claimedAt ≤ t → lb.claimedAt ≤ t →
      ¬ (la.activeAt t = true ∧ lb.activeAt t = true)

def leasesOf (d : Tables) (cardId : Uuid) : List Lease :=
  d.leases.values.filter fun l => l.cardId = cardId

theorem mem_leasesOf {d : Tables} {cardId : Uuid} {l : Lease} :
    l ∈ d.leasesOf cardId ↔ (∃ id, d.leases.get? id = some l) ∧ l.cardId = cardId := by
  simp only [leasesOf, List.mem_filter, Dict.mem_values_iff, decide_eq_true_eq]

/-- When the younger of the two leases was claimed, `a` was not active. -/
def Lapsed (d : Tables) (a b : Uuid) : Prop :=
  ∀ la lb, d.leases.get? a = some la → d.leases.get? b = some lb → la.cardId = lb.cardId →
    la.activeAt (max la.claimedAt lb.claimedAt) = false

/-- Of two leases that are not active together one has lapsed. -/
theorem LeasesExclusive.lapsed {d : Tables} (h : d.LeasesExclusive) {a b : Uuid} (hne : a ≠ b) :
    d.Lapsed a b ∨ d.Lapsed b a := by
  by_contra hboth
  simp only [not_or, Lapsed, not_forall, Bool.not_eq_false] at hboth
  obtain ⟨⟨la, lb, hla, hlb, hcard, hacta⟩, lb', la', hlb', hla', -, hactb⟩ := hboth
  rw [hla] at hla'
  rw [hlb] at hlb'
  cases hla'
  cases hlb'
  rw [max_comm] at hactb
  exact h a b la lb hla hlb hne hcard _ (le_max_left _ _) (le_max_right _ _) ⟨hacta, hactb⟩

theorem LeasesExclusive.of_lapsed {d : Tables}
    (h : ∀ a b, a ≠ b → d.Lapsed a b ∨ d.Lapsed b a) : d.LeasesExclusive := by
  intro a b la lb hla hlb hne hcard t hta htb ⟨hacta, hactb⟩
  rcases h a b hne with hlapsed | hlapsed
  · have hdead := hlapsed la lb hla hlb hcard
    rw [Lease.activeAt_anti (max_le hta htb) hacta] at hdead
    cases hdead
  · have hdead := hlapsed lb la hlb hla hcard.symm
    rw [Lease.activeAt_anti (max_le htb hta) hactb] at hdead
    cases hdead

end Tables

/-! ## The leases in a log -/

def RowWrite.isLeaseWrite : RowWrite → Bool
  | lease _ | leaseExpiry _ _ | leaseReleased _ _ => true
  | _ => false

def OffLeases (x : RowWrite) : Prop := x.isLeaseWrite = false

/-- The writes of the log to leases. -/
def leaseWrites (log : Log postgres) : List RowWrite := log.writesOn RowWrite.isLeaseWrite

theorem leaseWrites_wrote (x : RowWrite) (log : Log postgres) :
    leaseWrites (.wrote x :: log) =
      if x.isLeaseWrite then x :: leaseWrites log else leaseWrites log :=
  Log.writesOn_wrote (S := postgres) RowWrite.isLeaseWrite x log

theorem leaseWrites_keep {o : Obs postgres} (ho : o.Within OffLeases) (log : Log postgres) :
    leaseWrites (o :: log) = leaseWrites log := Log.writesOn_keep ho

theorem view_leases (log : Log postgres) (d : Tables) :
    (log.view d).leases = ((leaseWrites log).foldr postgres.apply d).leases := by
  refine Log.view_writesOn (S := postgres) (p := RowWrite.isLeaseWrite)
    (fun d : Tables => d.leases) (fun x d hx => ?_) (fun x d d' h => ?_) log d
  · cases x <;> first | rfl | cases hx
  · cases x <;> simp only [RowWrite.apply, h]

/-- The transaction has not written a lease yet. -/
def LeasesUntouched (log : Log postgres) : Prop := leaseWrites log = []

theorem LeasesUntouched.view {log : Log postgres} (h : LeasesUntouched log) (d : Tables) :
    (log.view d).leases = d.leases := by
  rw [view_leases, show leaseWrites log = [] from h]
  rfl

/-- A lease id that is not taken. -/
def newLeaseFacts : LockFacts postgres Uuid where
  lock := RowLock.lease
  fact d id := ¬ d.leases.contains id = true
  clean _ _ := True

/-- What a claim or renewal has done to the leases at its end. -/
inductive LeaseDone (log : Log postgres) : Prop where
  | untouched (h : LeasesUntouched log)
  | claimed (l : Lease) (bucket : String) (t₀ : Instant) (seen : Tables)
      (h : leaseWrites log = [.lease l]) (hsaw : .saw (.claimable bucket t₀) seen ∈ log)
      (hfree : ∀ id l', seen.leases.get? id = some l' → l'.cardId = l.cardId →
        l'.activeAt t₀ = false)
      (hlater : t₀ ≤ l.claimedAt) (hread : l.claimedAt ∈ log.times)
      (hnew : newLeaseFacts.Holds log l.id)
  | renewed (id : Uuid) (e t : Instant) (seen : Tables) (row : Lease)
      (h : leaseWrites log = [.leaseExpiry id e]) (hsaw : .saw (.lease id) seen ∈ log)
      (hclean : log.SawFrom LeasesUntouched seen) (hrow : seen.leases.get? id = some row)
      (hactive : row.activeAt t = true)
      (hpast : ∀ id' l', seen.leases.get? id' = some l' → l'.claimedAt ≤ t)

/-- Readings come after everything that was read and seen before, and what is seen from a
clean log lies under its keys. -/
structure LeaseTimes (log : Log postgres) (o : Obs postgres) : Prop where
  ordered : ∀ t, o = .clock t → ∀ t' ∈ log.times, t' ≤ t
  claimed : ∀ t, o = .clock t → ∀ d, log.SawFrom LeasesUntouched d →
    ∀ id l, d.leases.get? id = some l → l.claimedAt ≤ t
  keyed : LeasesUntouched log → ∀ d, o.data = some d → d.LeasesKeyed

theorem LeasesUntouched.keep : Log.Kept OffLeases LeasesUntouched :=
  fun _ log ho h => (leaseWrites_keep ho log).trans h

theorem mem_times_keep {log : Log postgres} {t : Instant} (o : Obs postgres) (h : t ∈ log.times) :
    t ∈ Log.times (o :: log) := by
  cases o <;> first | exact h | exact List.mem_cons_of_mem _ h

theorem LeaseDone.keep : Log.Kept OffLeases LeaseDone := by
  intro o log ho h
  have hsame := leaseWrites_keep ho log
  cases h with
  | untouched h => exact .untouched (hsame.trans h)
  | claimed l bucket t₀ seen h hsaw hfree hlater hread hnew =>
    exact .claimed l bucket t₀ seen (hsame.trans h) (List.mem_cons_of_mem _ hsaw) hfree hlater
      (mem_times_keep o hread) (hnew.keep o)
  | renewed id e t seen row h hsaw hclean hrow hactive hpast =>
    exact .renewed id e t seen row (hsame.trans h) (List.mem_cons_of_mem _ hsaw) (hclean.keep o)
      hrow hactive hpast

/-- A claim has looked for a card at `t₀`. -/
structure Searched (bucket : String) (t₀ : Instant) (seen : Tables) (log : Log postgres) :
    Prop where
  untouched : LeasesUntouched log
  read : t₀ ∈ log.times
  saw : .saw (.claimable bucket t₀) seen ∈ log

theorem Searched.keep {bucket : String} {t₀ : Instant} {seen : Tables} :
    Log.Kept OffLeases (Searched bucket t₀ seen) := fun o log ho h =>
  ⟨LeasesUntouched.keep o log ho h.untouched, mem_times_keep o h.read, List.mem_cons_of_mem _ h.saw⟩

/-- A renewal has read its lease. -/
structure ReadLease (row : Lease) (log : Log postgres) : Prop where
  untouched : LeasesUntouched log
  read : ∃ seen, .saw (.lease row.id) seen ∈ log ∧ log.SawFrom LeasesUntouched seen ∧
    seen.leases.get? row.id = some row

theorem ReadLease.keep {row : Lease} : Log.Kept OffLeases (ReadLease row) := by
  intro o log ho h
  obtain ⟨seen, hsaw, hclean, hrow⟩ := h.read
  exact ⟨LeasesUntouched.keep o log ho h.untouched, seen, List.mem_cons_of_mem _ hsaw,
    hclean.keep o, hrow⟩

/-- It was active at a reading that came after all claims that were seen with it. -/
structure ReadActive (row : Lease) (log : Log postgres) : Prop where
  untouched : LeasesUntouched log
  read : ∃ seen t, .saw (.lease row.id) seen ∈ log ∧ log.SawFrom LeasesUntouched seen ∧
    seen.leases.get? row.id = some row ∧ row.activeAt t = true ∧
      ∀ id l, seen.leases.get? id = some l → l.claimedAt ≤ t

theorem ReadActive.keep {row : Lease} : Log.Kept OffLeases (ReadActive row) := by
  intro o log ho h
  obtain ⟨seen, t, hsaw, hclean, hread⟩ := h.read
  exact ⟨LeasesUntouched.keep o log ho h.untouched, seen, t, List.mem_cons_of_mem _ hsaw,
    hclean.keep o, hread⟩

namespace PostgresCardRuntime

section Bodies
variable {log : Log postgres}

variable (engine : Engine)

/-- The card that a claim has found had no active lease in the snapshot. -/
theorem selectClaimable_spec (bucket : String) {t₀ : Instant} (hlog : LeasesUntouched log)
    (hread : t₀ ∈ log.times) :
    (selectClaimable engine bucket t₀).Spec LeaseTimes Always (fun found log' =>
      ∃ seen, Searched bucket t₀ seen log' ∧
        ∀ c, found = some c → claimable seen bucket t₀ c = true) log := by
  unfold selectClaimable Txn.lockFirst
  refine (Txn.Spec.query (Q := fun (seen : Tables) log' => Searched bucket t₀ seen log') trivial
    fun seen _ => ⟨trivial, LeasesUntouched.keep _ log trivial hlog, hread,
      List.mem_cons_self⟩).bind fun seen log' _ hsearched => ?_
  refine (Txn.Spec.firstLocked (I := Searched bucket t₀ seen)
    (fun _ _ log h => Searched.keep _ log trivial h) _ hsearched).mono fun found log _ hfound => ?_
  refine ⟨seen, hfound.1, fun c hc => ?_⟩
  obtain ⟨d, id, hrow⟩ := hfound.2 c hc
  exact (Option.filter_eq_some_iff.mp hrow).2

/-- A new lease is claimed at a reading after the search. -/
theorem newLease_spec {bucket : String} {t₀ : Instant} {seen : Tables} (card : Card)
    (nodeId worker pipe : String) (seconds : Int) (hlog : Searched bucket t₀ seen log) :
    (newLease card nodeId worker pipe seconds).Spec LeaseTimes Always (fun l log' =>
      Searched bucket t₀ seen log' ∧ l.cardId = card.id ∧ t₀ ≤ l.claimedAt ∧
        l.claimedAt ∈ log'.times) log := by
  unfold newLease
  refine .after_kept Searched.keep (expiryAfter_writes seconds) hlog fun expiresAt log hlog => ?_
  refine .after_kept Searched.keep .fresh hlog fun id log hlog => ?_
  refine (Txn.Spec.now (Q := fun t log' => log' = .clock t :: log ∧ t₀ ≤ t) trivial fun t ht =>
    ⟨trivial, rfl, ht.ordered t rfl t₀ hlog.read⟩).bind ?_
  rintro t _ - ⟨rfl, hlater⟩
  exact ⟨trivial, Searched.keep _ log trivial hlog, rfl, hlater, List.mem_cons_self⟩

theorem claimCard_lease (pipe worker : String) (seconds : Int) (key : Option String)
    (hlog : LeasesUntouched log) :
    (claimCard engine pipe worker seconds key).Spec LeaseTimes Always (fun _ => LeaseDone)
      log := by
  refine idempotent_kept LeasesUntouched.keep LeaseDone.keep cachedLease_writes
    (fun _ => .untouched) (fun log hlog => ?_) hlog
  refine .after_kept LeasesUntouched.keep singlePatchPanel_writes hlog fun p log hlog => ?_
  refine .after_kept LeasesUntouched.keep (.ofExcept _) hlog fun target log hlog => ?_
  refine (Txn.Spec.now (Q := fun t log' => log' = .clock t :: log) trivial fun t _ =>
    ⟨trivial, rfl⟩).bind ?_
  rintro now _ - rfl
  refine (selectClaimable_spec engine _ (LeasesUntouched.keep (.clock now) log trivial hlog)
    List.mem_cons_self).bind fun found log _ hfound => ?_
  obtain ⟨seen, hlog, hclaimable⟩ := hfound
  cases found with
  | none => trivial
  | some card =>
    refine (newLease_spec card _ _ _ _ hlog).bind fun l log _ hlease => ?_
    obtain ⟨hlog, hcard, hlater, hread⟩ := hlease
    have hfree : ∀ id l', seen.leases.get? id = some l' → l'.cardId = l.cardId →
        l'.activeAt now = false := by
      intro id l' hl' hsame
      have hnone := hclaimable card rfl
      simp only [claimable, Bool.and_eq_true, Bool.not_eq_true', List.any_eq_false,
        decide_eq_true_eq, not_and, Bool.not_eq_true] at hnone
      exact hnone.2 l' (Dict.mem_values_of_get? hl') (hsame.trans hcard)
    refine Txn.Spec.bind (Q := fun _ => LeaseDone) ?_ fun _ log _ hdone => ?_
    · refine .insert trivial (fun _ => trivial) fun d _ htaken => ⟨trivial, ?_⟩
      refine .claimed l _ now seen ?_ (List.mem_cons_of_mem _ (List.mem_cons_of_mem _ hlog.saw))
        hfree hlater hread ?_
      · rw [leaseWrites_wrote]
        change _ :: leaseWrites log = _
        rw [show leaseWrites log = [] from hlog.untouched]
      · exact (LockFacts.Holds.now (F := newLeaseFacts) (r := l.id) trivial
          (ne_true_of_eq_false htaken)).keep _
    refine .after_kept LeaseDone.keep (newEvent_writes _ _ _ _) hdone fun event log hdone => ?_
    refine .after_kept LeaseDone.keep (insertEvent_writes engine rfl) hdone fun _ log hdone => ?_
    refine .after_kept LeaseDone.keep (storeIdempotency_writes key _ _ fun _ _ => rfl) hdone
      fun _ log hdone => ?_
    exact ⟨trivial, hdone⟩

theorem getLease_read (id : Uuid) (hlog : LeasesUntouched log) :
    (getLease id).Spec LeaseTimes Always (fun row => ReadLease row) log := by
  unfold getLease
  refine (Txn.Spec.query (Q := fun (d : Tables) log' => log' = .saw (.lease id) d :: log ∧
    d.LeasesKeyed) trivial fun d hd => ⟨trivial, rfl, hd.keyed hlog d rfl⟩).bind ?_
  rintro d _ - ⟨rfl, hkeyed⟩
  cases hget : d.leases.get? id with
  | none => trivial
  | some row =>
    have hid : row.id = id := hkeyed id row hget
    refine ⟨trivial, LeasesUntouched.keep _ log trivial hlog, d, ?_, .now rfl hlog, ?_⟩
    · rw [hid]
      exact List.mem_cons_self
    · rw [hid]
      exact hget

theorem ensureActiveLease_read {row : Lease} (hlog : ReadLease row log) :
    (ensureActiveLease row).Spec LeaseTimes Always (fun _ => ReadActive row) log := by
  unfold ensureActiveLease
  cases hreleased : row.releasedAt with
  | some t => exact trivial
  | none =>
    refine (Txn.Spec.now (Q := fun t log' => log' = .clock t :: log ∧
      LeaseTimes log (.clock t)) trivial fun t ht => ⟨trivial, rfl, ht⟩).bind ?_
    rintro t _ - ⟨rfl, htimes⟩
    cases hlt : decide (t < row.expiresAt) with
    | false => exact trivial
    | true =>
      obtain ⟨seen, hsaw, hclean, hrow⟩ := hlog.read
      refine ⟨trivial, LeasesUntouched.keep _ log trivial hlog.untouched, seen, t,
        List.mem_cons_of_mem _ hsaw, hclean.keep _, hrow, ?_, htimes.claimed t rfl seen hclean⟩
      simp only [Lease.activeAt, hreleased, Option.isNone_none, hlt, Bool.and_self]

theorem updateLease_read {row : Lease} (e : Instant) (hlog : ReadActive row log) :
    (updateLease row.id (.leaseExpiry row.id e)).Spec LeaseTimes Always (fun _ => LeaseDone)
      log := by
  unfold updateLease Txn.update
  refine (Txn.Spec.query (Q := fun (_ : Tables) log' => ReadActive row log') trivial fun d _ =>
    ⟨trivial, ReadActive.keep _ log trivial hlog⟩).bind fun d log _ hlog => ?_
  beta_reduce
  split
  · simp only [Txn.forEach, Txn.updateRow]
    refine Txn.Spec.bind (Q := fun _ => LeaseDone) ?_ fun _ _ _ hdone => ⟨trivial, hdone⟩
    refine (Txn.Spec.lockRow (Q := fun (_ : Tables) log' => ReadActive row log') trivial fun d _ =>
      ⟨trivial, ReadActive.keep _ log trivial hlog⟩).bind fun d' log _ hlog => ?_
    split
    · obtain ⟨seen, t, hsaw, hclean, hrow, hactive, hpast⟩ := hlog.read
      refine .put trivial trivial (.renewed row.id e t seen row ?_ (List.mem_cons_of_mem _ hsaw)
        (hclean.keep _) hrow hactive hpast)
      rw [leaseWrites_wrote, show leaseWrites log = [] from hlog.untouched]
      rfl
    · exact ⟨trivial, .untouched hlog.untouched⟩
  · exact ⟨trivial, .untouched hlog.untouched⟩

theorem renewLease_lease (leaseId : Uuid) (seconds : Int) (key : Option String)
    (hlog : LeasesUntouched log) :
    (renewLease engine leaseId seconds key).Spec LeaseTimes Always (fun _ => LeaseDone) log := by
  refine idempotent_kept LeasesUntouched.keep LeaseDone.keep cachedLease_writes
    (fun _ => .untouched) (fun log hlog => ?_) hlog
  refine (getLease_read leaseId hlog).bind fun row log _ hlog => ?_
  refine (ensureActiveLease_read hlog).bind fun _ log _ hlog => ?_
  refine .after_kept ReadActive.keep (expiryAfter_writes seconds) hlog fun e log hlog => ?_
  refine (updateLease_read e hlog).bind fun _ log _ hdone => ?_
  refine .after_kept LeaseDone.keep (newEvent_writes _ _ _ _) hdone fun event log hdone => ?_
  refine .after_kept LeaseDone.keep (insertEvent_writes engine rfl) hdone fun _ log hdone => ?_
  refine .after_kept LeaseDone.keep (storeIdempotency_writes key _ _ fun _ _ => rfl) hdone
    fun _ log hdone => ?_
  exact ⟨trivial, hdone⟩

end Bodies

end PostgresCardRuntime

/-- Claims and renewals. -/
def Transaction.claimsOrRenews : Transaction → Bool
  | keyed (.claimCard _ _ _) _ | keyed (.renewLease _ _) _ => true
  | _ => false

theorem Transaction.lease_spec (engine : Engine) (w : World) {c : Transaction}
    (hc : c.claimsOrRenews = true) :
    (c.program engine w).Spec LeaseTimes Always (fun _ => LeaseDone) [] := by
  have hreturn : ∀ {α : Type} {x : Tx α},
      x.Spec LeaseTimes Always (fun _ => LeaseDone) [] →
      (x >>= fun _ => pure ()).Spec LeaseTimes Always (fun _ => LeaseDone) [] :=
    fun hx => hx.bind fun _ _ hlog' hdone => ⟨hlog', hdone⟩
  cases c with
  | registerPatchPanel p => cases hc
  | expireLeases => cases hc
  | keyed call key =>
    cases call with
    | claimCard pipe worker seconds =>
      exact hreturn (PostgresCardRuntime.claimCard_lease engine pipe worker seconds key rfl)
    | renewLease lease seconds =>
      exact hreturn (PostgresCardRuntime.renewLease_lease engine lease seconds key rfl)
    | _ => cases hc

/-! ## Runs -/

/-- What the transaction has read of the leases of its card is still so: for a claim all
of them, for a renewal which there are. -/
def keptLeases (d : Tables) (log : Log postgres) : Obs postgres → Bool
  | .saw (.claimable _ _) seen => log.writes.all fun
    | .lease l => seen.leasesOf l.cardId = d.leasesOf l.cardId
    | _ => true
  | .saw (.lease id) seen => log.writes.all fun
    | .leaseExpiry id' _ => id' ≠ id || (seen.leases.get? id).all fun row =>
        (seen.leasesOf row.cardId).map (·.id) = (d.leasesOf row.cardId).map (·.id)
    | _ => true
  | _ => true

/-- At the commit of a claim or renewal its card has kept its leases. -/
def PgSystem.keepsLeases (σ : PgSystem) : Action Transaction → Bool
  | .advance i => match σ.sessions[i]? with
    | some s => !(s.status = .opened && s.rest.returns) || s.log.all (keptLeases σ.data s.log)
    | none => true
  | _ => true

/-- Of the two leases `a` has not been active since both are there, so that no transaction
can have found it active together with the other one. -/
def PgSystem.NeverActive (σ : PgSystem) (a b : Uuid) : Prop :=
  ∀ d, System.Version LeasesUntouched σ d → d.Lapsed a b

/-- What is known of the leases that open transactions have seen. -/
structure SeenLeases (w : World) (σ : PgSystem) (d : Tables) : Prop where
  keyed : d.LeasesKeyed
  stay : d.LeasesStay σ.data
  claimed : ∀ id l, d.leases.get? id = some l → l.claimedAt ≤ w.clock σ.ticks

structure RacingState (w : World) (σ : PgSystem) : Prop where
  calls : ∀ s ∈ σ.sessions, s.call.claimsOrRenews = true
  past : System.Past w.supply σ
  orderly : σ.Orderly LeaseTimes (fun _ => Always) fun _ => LeaseDone
  facts : newLeaseFacts.State σ
  versions : ∀ d, System.Version LeasesUntouched σ d → SeenLeases w σ d
  pairs : ∀ a b, a ≠ b → σ.NeverActive a b ∨ σ.NeverActive b a

section Runs
variable {engine : Engine} {w : World} {σ σ' : PgSystem}

theorem Tables.Lapsed.of_leases {d d' : Tables} {a b : Uuid} (h : d.Lapsed a b)
    (heq : d'.leases = d.leases) : d'.Lapsed a b := by
  unfold Tables.Lapsed
  rw [heq]
  exact h

theorem PgSystem.NeverActive.moves {a b : Uuid} (h : σ.NeverActive a b)
    (hmove : Move w.supply (Transaction.program engine w) σ σ')
    (hcommits : ∀ i s, Commits σ σ' i s → σ'.data.Lapsed a b) : σ'.NeverActive a b := by
  intro d hd
  rcases hd.before hmove with hold | ⟨rfl, i, s, hc⟩ | ⟨-, s, hclean, rfl⟩
  · exact h d hold
  · exact hcommits i s hc
  · exact (h σ.data (.inl rfl)).of_leases (LeasesUntouched.view hclean σ.data)

/-- A renewal has found its lease active, so that the other one never is. -/
theorem RacingState.renewed (hm : RacingState w σ) {i : Nat} {s : PgSession}
    (hs : σ.sessions[i]? = some s) (hopen : s.status = .opened)
    (hkept : ∀ o ∈ s.log, keptLeases σ.data s.log o = true) {id : Uuid} {e t : Instant}
    {seen : Tables} {row : Lease} (h : leaseWrites s.log = [.leaseExpiry id e])
    (hsaw : .saw (.lease id) seen ∈ s.log) (hclean : s.log.SawFrom LeasesUntouched seen)
    (hrow : seen.leases.get? id = some row) (hactive : row.activeAt t = true)
    (hpast : ∀ id' l', seen.leases.get? id' = some l' → l'.claimedAt ≤ t) {a b : Uuid}
    (hnever : σ.NeverActive a b) : Tables.Lapsed (s.log.view σ.data) a b := by
  have hseen : System.Version LeasesUntouched σ seen := .inr ⟨i, s, hs, hopen, hclean⟩
  have hkeyed : σ.data.LeasesKeyed := (hm.versions σ.data (.inl rfl)).keyed
  have hkeyedSeen : seen.LeasesKeyed := (hm.versions seen hseen).keyed
  have hview : (s.log.view σ.data).leases =
      σ.data.leases.modify id fun l => { l with expiresAt := e } := by
    rw [view_leases, h]
    rfl
  have hids : (seen.leasesOf row.cardId).map (·.id) = (σ.data.leasesOf row.cardId).map (·.id) := by
    have hwrote : RowWrite.leaseExpiry id e ∈ s.log.writes := by
      have hmem : RowWrite.leaseExpiry id e ∈ leaseWrites s.log := by
        rw [h]
        exact List.mem_singleton_self _
      exact (List.mem_filter.mp hmem).1
    have hall := List.all_eq_true.mp (hkept _ hsaw) _ hwrote
    simpa [hrow] using hall
  -- A lease of the card that is committed was there when the renewal read its own.
  have hthere : ∀ {x : Uuid} {l : Lease}, σ.data.leases.get? x = some l → l.cardId = row.cardId →
      ∃ l', seen.leases.get? x = some l' ∧ l'.cardId = row.cardId := by
    intro x l hl hcard
    have hmem : x ∈ (σ.data.leasesOf row.cardId).map (·.id) :=
      List.mem_map.mpr ⟨l, Tables.mem_leasesOf.mpr ⟨⟨x, hl⟩, hcard⟩, hkeyed x l hl⟩
    rw [← hids] at hmem
    obtain ⟨l', hl', hid⟩ := List.mem_map.mp hmem
    obtain ⟨⟨x', hx'⟩, hcard'⟩ := Tables.mem_leasesOf.mp hl'
    rw [← hid, hkeyedSeen x' l' hx']
    exact ⟨l', hx', hcard'⟩
  have hrowThere : ∃ l, σ.data.leases.get? id = some l ∧ l.cardId = row.cardId := by
    have hmem : id ∈ (seen.leasesOf row.cardId).map (·.id) :=
      List.mem_map.mpr ⟨row, Tables.mem_leasesOf.mpr ⟨⟨id, hrow⟩, rfl⟩, hkeyedSeen id row hrow⟩
    rw [hids] at hmem
    obtain ⟨l, hl, hid⟩ := List.mem_map.mp hmem
    obtain ⟨⟨x, hx⟩, hcard⟩ := Tables.mem_leasesOf.mp hl
    rw [← hid, hkeyed x l hx]
    exact ⟨l, hx, hcard⟩
  intro la lb hla hlb hcard
  rw [hview, Dict.get?_modify] at hla hlb
  split at hla
  · -- `a` is the renewed lease: it was active when both were there.
    rename_i ha
    exfalso
    obtain ⟨la₀, hla₀, rfl⟩ := Option.map_eq_some_iff.mp hla
    obtain ⟨l, hl, hlcard⟩ := hrowThere
    rw [hla₀] at hl
    cases hl
    have hlb₀ : ∃ lb₀, σ.data.leases.get? b = some lb₀ ∧ lb₀.cardId = row.cardId := by
      split at hlb
      · rename_i hb
        rw [hb]
        exact ⟨la₀, hla₀, hlcard⟩
      · exact ⟨lb, hlb, hcard.symm.trans hlcard⟩
    obtain ⟨lb₀, hlb₀, hlbcard⟩ := hlb₀
    obtain ⟨lb', hlb', hcard'⟩ := hthere hlb₀ hlbcard
    rw [← ha] at hrow
    have hdead := hnever seen hseen row lb' hrow hlb' hcard'.symm
    rw [Lease.activeAt_anti (max_le (hpast a row hrow) (hpast b lb' hlb')) hactive] at hdead
    cases hdead
  · split at hlb
    · rename_i hb
      obtain ⟨lb₀, hlb₀, rfl⟩ := Option.map_eq_some_iff.mp hlb
      rw [← hb] at hlb₀
      exact hnever σ.data (.inl rfl) la lb₀ hla hlb₀ hcard
    · exact hnever σ.data (.inl rfl) la lb hla hlb hcard

/-- The lease of a claim comes after all that its card has: none of them was active when
the claim looked. -/
theorem RacingState.claimed (hm : RacingState w σ)
    (hmove : Move w.supply (Transaction.program engine w) σ σ') {i : Nat} {s : PgSession}
    (hcommits : Commits σ σ' i s) (hkept : ∀ o ∈ s.log, keptLeases σ.data s.log o = true)
    {l : Lease} {bucket : String} {t₀ : Instant} {seen : Tables}
    (h : leaseWrites s.log = [.lease l]) (hsaw : .saw (.claimable bucket t₀) seen ∈ s.log)
    (hfree : ∀ id l', seen.leases.get? id = some l' → l'.cardId = l.cardId →
      l'.activeAt t₀ = false)
    (hlater : t₀ ≤ l.claimedAt) (hnew : newLeaseFacts.Holds s.log l.id) {b : Uuid} (hb : b ≠ l.id) :
    σ'.NeverActive b l.id := by
  have hview : σ'.data.leases = σ.data.leases.set l.id l := by
    rw [hcommits.data, view_leases, h]
    rfl
  have hfresh : ¬ σ.data.leases.contains l.id = true :=
    hm.facts i s l.id hcommits.session hcommits.opened hnew
  have hall : seen.leasesOf l.cardId = σ.data.leasesOf l.cardId := by
    have hmem : RowWrite.lease l ∈ leaseWrites s.log := by
      rw [h]
      exact List.mem_singleton_self _
    have hwrote := List.all_eq_true.mp (hkept _ hsaw) _ (List.mem_filter.mp hmem).1
    exact of_decide_eq_true hwrote
  intro d hd lb l' hlb hl' hcard
  rcases hd.before hmove with hold | ⟨rfl, -⟩ | ⟨-, s', hclean, rfl⟩
  · exact (hfresh ((hm.versions d hold).stay l.id (Dict.contains_of_get? hl'))).elim
  · rw [hview, Dict.get?_set] at hlb hl'
    rw [if_pos rfl] at hl'
    rw [if_neg hb] at hlb
    cases hl'
    have hmem : lb ∈ seen.leasesOf l.cardId := by
      rw [hall]
      exact Tables.mem_leasesOf.mpr ⟨⟨b, hlb⟩, hcard⟩
    obtain ⟨⟨x, hx⟩, -⟩ := Tables.mem_leasesOf.mp hmem
    cases hact : lb.activeAt (max lb.claimedAt l.claimedAt) with
    | false => rfl
    | true =>
      have hactive := Lease.activeAt_anti (le_trans hlater (le_max_right _ _)) hact
      rw [hfree x lb hx hcard] at hactive
      cases hactive
  · rw [LeasesUntouched.view hclean] at hl'
    exact (hfresh (Dict.contains_of_get? hl')).elim

theorem PgSystem.kept_of_commits {a : Action Transaction} {i : Nat} {s : PgSession}
    (ha : σ.keepsLeases a = true) (h : Commits σ (σ.step engine w a) i s) :
    ∀ o ∈ s.log, keptLeases σ.data s.log o = true := by
  have haction : a = .advance i := Commits.action h
  rw [haction] at ha
  simpa only [keepsLeases, h.session, h.opened, h.returns, decide_true, Bool.and_self,
    Bool.not_true, Bool.false_or, List.all_eq_true] using ha

/-- Of each two leases one stays inactive. -/
theorem RacingState.pairs_moves (hm : RacingState w σ)
    (hmove : Move w.supply (Transaction.program engine w) σ σ')
    (hkept : ∀ i s, Commits σ σ' i s → ∀ o ∈ s.log, keptLeases σ.data s.log o = true)
    {a b : Uuid} (hne : a ≠ b) : σ'.NeverActive a b ∨ σ'.NeverActive b a := by
  -- A move that leaves the pair alone.
  have hold : (∀ x y, σ.NeverActive x y → σ'.data.Lapsed x y) →
      σ'.NeverActive a b ∨ σ'.NeverActive b a := fun hdata =>
    (hm.pairs a b hne).imp (fun h => h.moves hmove fun _ _ _ => hdata a b h)
      fun h => h.moves hmove fun _ _ _ => hdata b a h
  rcases hmove.data with hdata | ⟨i, s, hcommits⟩
  · exact hold fun x y h => hdata ▸ h σ.data (.inl rfl)
  · obtain ⟨r, hrest⟩ := hcommits.rest
    cases hm.orderly.result hcommits.session hrest with
    | untouched h =>
      refine hold fun x y hxy => (hxy σ.data (.inl rfl)).of_leases ?_
      rw [hcommits.data]
      exact h.view σ.data
    | renewed id e t seen row h hsaw hclean hrow hactive hpast =>
      refine hold fun x y hxy => ?_
      rw [hcommits.data]
      exact hm.renewed hcommits.session hcommits.opened (hkept i s hcommits) h hsaw hclean hrow
        hactive hpast hxy
    | claimed l bucket t₀ seen h hsaw hfree hlater hread hnew =>
      have hclaimed : ∀ {x : Uuid}, x ≠ l.id → σ'.NeverActive x l.id :=
        hm.claimed hmove hcommits (hkept i s hcommits) h hsaw hfree hlater hnew
      by_cases ha : a = l.id
      · rw [ha] at hne ⊢
        exact .inr (hclaimed fun heq => hne heq.symm)
      · by_cases hb : b = l.id
        · rw [hb]
          exact .inl (hclaimed ha)
        · -- The rows of the others are as they were.
          have hother : ∀ x, x ≠ l.id → σ'.data.leases.get? x = σ.data.leases.get? x := by
            intro x hx
            rw [hcommits.data, view_leases, h]
            exact Dict.get?_set_ne _ _ hx
          have hlapsed : ∀ x y, x ≠ l.id → y ≠ l.id → σ.NeverActive x y → σ'.data.Lapsed x y := by
            intro x y hx hy hxy la lb hla hlb
            rw [hother x hx] at hla
            rw [hother y hy] at hlb
            exact hxy σ.data (.inl rfl) la lb hla hlb
          exact (hm.pairs a b hne).imp (fun hab => hab.moves hmove fun _ _ _ => hlapsed a b ha hb hab)
            fun hba => hba.moves hmove fun _ _ _ => hlapsed b a hb ha hba

/-- Every committed lease was claimed at a reading. -/
theorem RacingState.claimed_moves (hm : RacingState w σ)
    (hmove : Move w.supply (Transaction.program engine w) σ σ') (hclock : Monotone w.clock)
    {id : Uuid} {l : Lease} (hl : σ'.data.leases.get? id = some l) :
    l.claimedAt ≤ w.clock σ'.ticks := by
  have hlater : w.clock σ.ticks ≤ w.clock σ'.ticks := hclock hmove.ticks_le
  have hbefore : ∀ {id' : Uuid} {l' : Lease}, σ.data.leases.get? id' = some l' →
      l'.claimedAt ≤ w.clock σ'.ticks :=
    fun h => le_trans ((hm.versions σ.data (.inl rfl)).claimed _ _ h) hlater
  rcases hmove.data with hdata | ⟨i, s, hcommits⟩
  · rw [hdata] at hl
    exact hbefore hl
  · rw [hcommits.data, view_leases] at hl
    obtain ⟨r, hrest⟩ := hcommits.rest
    cases hm.orderly.result hcommits.session hrest with
    | untouched h =>
      rw [show leaseWrites s.log = [] from h] at hl
      exact hbefore hl
    | claimed l₁ bucket t₀ seen h hsaw hfree _ hread hnew =>
      rw [h] at hl
      change (σ.data.leases.set l₁.id l₁).get? id = some l at hl
      rw [Dict.get?_set] at hl
      split at hl
      · cases hl
        exact le_trans (hm.past i s hcommits.session _ hread) hlater
      · exact hbefore hl
    | renewed id' e t seen row h =>
      rw [h] at hl
      change (σ.data.leases.modify id' _).get? id = some l at hl
      rw [Dict.get?_modify] at hl
      split at hl
      · obtain ⟨l₀, hl₀, rfl⟩ := Option.map_eq_some_iff.mp hl
        have hclaimed : l₀.claimedAt ≤ w.clock σ'.ticks := hbefore hl₀
        exact hclaimed
      · exact hbefore hl

theorem RacingState.start {d : Tables} (hkeyed : d.LeasesKeyed) (hexclusive : d.LeasesExclusive)
    (hpast : ∀ id l, d.leases.get? id = some l → l.claimedAt ≤ w.clock 0) :
    RacingState w (PgSystem.init d) where
  calls s hs := by cases hs
  past i s hs := (PgSystem.init_none d i s hs).elim
  orderly := .start rfl
  facts := .start rfl
  versions d' hd' := by
    have heq : d' = d := hd'.start rfl
    rw [heq]
    exact ⟨hkeyed, fun _ h => h, hpast⟩
  pairs a b hne := by
    have hversion : ∀ d', System.Version LeasesUntouched (PgSystem.init d) d' → d' = d :=
      fun d' hd' => hd'.start rfl
    exact (hexclusive.lapsed hne).imp (fun h d' hd' => hversion d' hd' ▸ h)
      fun h d' hd' => hversion d' hd' ▸ h

theorem RacingState.step {a : Action Transaction} (hclock : Monotone w.clock)
    (h : RacingState w σ) (hcall : ∀ call, a = .begin call → call.claimsOrRenews = true)
    (ha : σ.keepsLeases a = true) : RacingState w (σ.step engine w a) := by
  have hmove : Move w.supply (Transaction.program engine w) σ (σ.step engine w a) :=
    System.step_move w.supply (Transaction.program engine w) σ a
  have hcalls : ∀ s ∈ (σ.step engine w a).sessions, s.call.claimsOrRenews = true :=
    System.step_calls h.calls hcall
  have hgrows : σ.data.LeasesStay (σ.step engine w a).data := by
    rcases hmove.data with hdata | ⟨i, s, hcommits⟩
    · rw [hdata]
      exact fun _ hid => hid
    · rw [hcommits.data]
      exact leases_growth.view s.log (h.versions σ.data (.inl rfl)).keyed
  refine ⟨hcalls, h.past.moves hclock hmove, ?_, ?_, fun d hd => ?_, fun a b hne => ?_⟩
  · refine h.orderly.moves (fun i n s o rest hs hopen ho => ?_) (fun s hs => ?_) hmove
    · refine ⟨?_, ?_, ?_⟩
      · rintro t rfl t' ht'
        rw [ho.clock_eq]
        exact h.past i s hs t' ht'
      · rintro t rfl d hd id l hl
        rw [ho.clock_eq]
        exact (h.versions d (.inr ⟨i, s, hs, hopen, hd⟩)).claimed id l hl
      · intro hclean d hd id l hl
        rw [ho.data_eq hd, LeasesUntouched.view hclean] at hl
        exact (h.versions σ.data (.inl rfl)).keyed id l hl
    · exact Transaction.lease_spec engine w (hcalls s hs)
  · refine h.facts.moves h.orderly.apart ?_ ?_ hmove
    · intro i s id _ _ _ hfresh hcontains
      exact hfresh (leases_growth.view s.log (h.versions σ.data (.inl rfl)).keyed id hcontains)
    · intro i s id hcommits hlock hfresh hcontains
      obtain ⟨r, hrest⟩ := hcommits.rest
      rw [hcommits.data] at hcontains
      unfold Dict.contains at hcontains
      rw [view_leases] at hcontains
      cases h.orderly.result hcommits.session hrest with
      | untouched hnone =>
        rw [show leaseWrites s.log = [] from hnone] at hcontains
        exact hfresh hcontains
      | claimed l bucket t₀ seen hwrites _ _ _ _ hnew =>
        have hne : id ≠ l.id := fun heq => hlock (by rw [heq]; exact hnew.mem_locks)
        rw [hwrites] at hcontains
        change ((σ.data.leases.set l.id l).get? id).isSome = true at hcontains
        rw [Dict.get?_set_ne _ _ hne] at hcontains
        exact hfresh hcontains
      | renewed id' e t seen row hwrites =>
        rw [hwrites] at hcontains
        exact hfresh ((Dict.contains_modify _ _ _ _).symm.trans hcontains)
  · have hlater : w.clock σ.ticks ≤ w.clock (σ.step engine w a).ticks := hclock hmove.ticks_le
    rcases hd.before hmove with hold | ⟨rfl, i, s, hcommits⟩ | ⟨hdata, s, hclean, rfl⟩
    · have hseen := h.versions d hold
      exact ⟨hseen.keyed, fun id hid => hgrows id (hseen.stay id hid),
        fun id l hl => le_trans (hseen.claimed id l hl) hlater⟩
    · refine ⟨?_, fun _ hid => hid, fun id l hl => h.claimed_moves hmove hclock hl⟩
      rw [hcommits.data]
      exact leases_growth.view_keeps s.log (h.versions σ.data (.inl rfl)).keyed
    · have hseen := h.versions σ.data (.inl rfl)
      have hsame := LeasesUntouched.view hclean σ.data
      refine ⟨fun id l hl => hseen.keyed id l (hsame ▸ hl), fun id hid => ?_, fun id l hl =>
        le_trans (hseen.claimed id l (hsame ▸ hl)) hlater⟩
      rw [hdata]
      unfold Dict.contains at hid ⊢
      rwa [hsame] at hid
  · exact h.pairs_moves hmove (fun i s hc => PgSystem.kept_of_commits ha hc) hne

end Runs

/-- Claims and renewals in any interleaving, where each commit finds the leases of its card
as they were read: no card has two leases that are active at one instant. -/
theorem leases_exclusive_of_kept (engine : Engine) (w : World) (hclock : Monotone w.clock)
    (d : Tables) (hkeyed : d.LeasesKeyed) (hexclusive : d.LeasesExclusive)
    (hpast : ∀ id l, d.leases.get? id = some l → l.claimedAt ≤ w.clock 0)
    (actions : List (Action Transaction))
    (hcalls : ∀ call, .begin call ∈ actions → call.claimsOrRenews = true)
    (hok : Permitted (PgSystem.step engine w) (fun σ a => σ.keepsLeases a = true)
      (PgSystem.init d) actions) :
    (PgSystem.run engine w d actions).data.LeasesExclusive := by
  have hcalls' : ∀ a ∈ actions, ∀ call, a = .begin call → call.claimsOrRenews = true :=
    fun a ha call heq => hcalls call (heq ▸ ha)
  have hstate : RacingState w (PgSystem.run engine w d actions) :=
    (hok.and_of_mem hcalls').reaches.invariant (.start hkeyed hexclusive hpast)
      fun σ a hσ ha => hσ.step hclock ha.2 ha.1
  exact .of_lapsed fun a b hne => (hstate.pairs a b hne).imp
    (fun h => h _ (.inl rfl)) fun h => h _ (.inl rfl)

/-! Two workers claim the only card. -/

theorem World.simple_monotone : Monotone World.simple.clock := fun _ _ h => Int.ofNat_le.mpr h

theorem Tables.line_leases (id : Uuid) (l : Lease) : Tables.line.leases.get? id ≠ some l := nofun

def claimOfLine (worker : String) : Transaction := .keyed (.claimCard "work_in" worker 300) none

/-- Both have searched before either commits. -/
def racingClaims : List (Action Transaction) :=
  [.begin (claimOfLine "w1"), .begin (claimOfLine "w2")] ++ List.replicate 3 (.advance 1) ++
    List.replicate 20 (.advance 0) ++ List.replicate 20 (.advance 1)

def Lease.heldAt (l : Lease) (cardId : Uuid) (t : Instant) : Bool :=
  l.cardId = cardId && decide (l.claimedAt ≤ t) && l.activeAt t

theorem Tables.not_leasesExclusive {d : Tables} {a b cardId : Uuid} {t : Instant} (hne : a ≠ b)
    (ha : (d.leases.get? a).any (·.heldAt cardId t) = true)
    (hb : (d.leases.get? b).any (·.heldAt cardId t) = true) : ¬ d.LeasesExclusive := by
  intro h
  simp only [Option.any_eq_true, Lease.heldAt, Bool.and_eq_true, decide_eq_true_eq] at ha hb
  obtain ⟨la, hla, ⟨hcarda, hta⟩, hacta⟩ := ha
  obtain ⟨lb, hlb, ⟨hcardb, htb⟩, hactb⟩ := hb
  exact h a b la lb hla hlb hne (hcarda.trans hcardb.symm) t hta htb ⟨hacta, hactb⟩

theorem racingClaims_both_active : Monotone World.simple.clock ∧
    Tables.line.patchPanels.size = 1 ∧ (∀ id l, Tables.line.leases.get? id ≠ some l) ∧
    (∀ call, .begin call ∈ racingClaims → call.claimsOrRenews = true) ∧
    ¬ (PgSystem.run .simple .simple .line racingClaims).data.LeasesExclusive := by
  refine ⟨World.simple_monotone, by decide +kernel, Tables.line_leases,
    Action.forall_begin (by decide +kernel), ?_⟩
  have hfirst : ((PgSystem.run .simple .simple .line racingClaims).data.leases.get? ⟨0⟩).any
      (·.heldAt ⟨100⟩ 50) = true := by decide +kernel
  have hsecond : ((PgSystem.run .simple .simple .line racingClaims).data.leases.get? ⟨2⟩).any
      (·.heldAt ⟨100⟩ 50) = true := by decide +kernel
  exact Tables.not_leasesExclusive (show (⟨0⟩ : Uuid) ≠ ⟨2⟩ by decide) hfirst hsecond

/-- A claim, a renewal of its lease, and a claim that finds no card. -/
def serialClaims : List (Action Transaction) :=
  .begin (claimOfLine "w1") :: List.replicate 20 (.advance 0) ++
    .begin (.keyed (.renewLease ⟨0⟩ 600) none) :: List.replicate 20 (.advance 1) ++
    .begin (claimOfLine "w2") :: List.replicate 20 (.advance 2)

theorem leases_exclusive_of_kept_serial :
    ((PgSystem.run .simple .simple .line serialClaims).data.leases.get? ⟨0⟩).any
      (·.heldAt ⟨100⟩ 50) = true ∧
    (PgSystem.run .simple .simple .line serialClaims).data.LeasesExclusive := by
  have hcalls : ∀ call, .begin call ∈ serialClaims → call.claimsOrRenews = true :=
    Action.forall_begin (by decide +kernel)
  refine ⟨by decide +kernel, leases_exclusive_of_kept .simple .simple World.simple_monotone .line
    (fun id l hl => (Tables.line_leases id l hl).elim)
    (fun a _ la _ hla => (Tables.line_leases a la hla).elim)
    (fun id l hl => (Tables.line_leases id l hl).elim) serialClaims hcalls (by decide +kernel)⟩

end GhostMesh
