import GhostMesh.Runtime.KeyOnce
import GhostMesh.Runtime.LeaseLife

/-!
# Closing a lease under concurrency

Submission, release and expiry read the lease without a lock and later update it by
its id alone. The second of two such transactions waits for the row and then writes
over the first, unless it looks again: what is proved is that the commits whose lease
rows were still unreleased under their locks close each lease once.
-/

set_option autoImplicit false

namespace GhostMesh

open ReadCommitted

/-! ## Leases in the tables -/

namespace Tables

/-- The lease is stored and not released. -/
def leaseOpen (d : Tables) (id : Uuid) : Bool := (d.leases.get? id).any (·.releasedAt.isNone)

/-- The rows of the leases lie under their primary keys. -/
def LeasesKeyed (d : Tables) : Prop := ∀ id l, d.leases.get? id = some l → l.id = id

/-- No lease goes away. -/
def LeasesStay (d d' : Tables) : Prop :=
  ∀ id, d.leases.contains id = true → d'.leases.contains id = true

end Tables

theorem RowWrite.leasesKeyed (x : RowWrite) (d : Tables) (hd : d.LeasesKeyed) :
    (x.apply d).LeasesKeyed := by
  have hmodify : ∀ (id : Uuid) (f : Lease → Lease), (∀ l, (f l).id = l.id) →
      ∀ id' l, (d.leases.modify id f).get? id' = some l → l.id = id' := by
    intro id f hf id' l hl
    rw [Dict.get?_modify] at hl
    split at hl
    · rename_i hid
      obtain ⟨l₀, hl₀, rfl⟩ := Option.map_eq_some_iff.mp hl
      rw [hf, hid]
      exact hd id l₀ hl₀
    · exact hd id' l hl
  cases x with
  | lease row => exact fun id l hl => WellKeyed.set (fun h => hd _ _ h) row hl
  | leaseExpiry id t => exact hmodify id _ fun _ => rfl
  | leaseReleased id t => exact hmodify id _ fun _ => rfl
  | _ => exact hd

theorem RowWrite.contains_lease (x : RowWrite) (d : Tables) (id : Uuid) :
    (x.apply d).leases.contains id = true ↔
      (∃ row, x = .lease row ∧ row.id = id) ∨ d.leases.contains id = true := by
  cases x with
  | lease row =>
    have hset := d.leases.contains_set row.id id row
    simp only [RowWrite.apply, hset, RowWrite.lease.injEq, exists_eq_left']
    exact ⟨.imp_left Eq.symm, .imp_left Eq.symm⟩
  | leaseExpiry id t => simp [RowWrite.apply, Dict.contains_modify]
  | leaseReleased id t => simp [RowWrite.apply, Dict.contains_modify]
  | _ => simp [RowWrite.apply]

theorem leases_growth : Growth postgres Tables.LeasesKeyed Tables.LeasesStay where
  refl _ _ h := h
  trans h h' id hid := h' id (h id hid)
  apply x d _ id hid := (x.contains_lease d id).mpr (.inr hid)
  mono x d d' h id hid := by
    rw [RowWrite.contains_lease] at hid ⊢
    exact hid.imp_right (h id)
  keeps := RowWrite.leasesKeyed

/-! ## What closes a lease -/

/-- The session has committed an event that closes the lease. -/
def PgSession.ClosesLease (s : PgSession) (id : Uuid) : Prop :=
  s.status = .committed ∧ ∃ e : CardEvent, .wrote (.cardEvent e) ∈ s.log ∧ e.closes id = true

/-- A write that neither inserts nor releases a lease and records no closing event. -/
def OffClosing : RowWrite → Prop
  | .lease _ | .leaseReleased _ _ => False
  | .cardEvent e => e.isClosing = false
  | _ => True

/-- What the log of a closing transaction shows. -/
structure CloseLog (log : Log postgres) : Prop where
  inserts : ∀ l, .wrote (.lease l) ∉ log
  locks : ∀ id t, .wrote (.leaseReleased id t) ∈ log → ∃ d, .locked (.lease id) d ∈ log
  closes : ∀ (e : CardEvent) (id : Uuid), .wrote (.cardEvent e) ∈ log → e.closes id = true →
    (∃ d, .locked (.lease id) d ∈ log ∧ d.leases.contains id = true) ∧
      ∃ t, .wrote (.leaseReleased id t) ∈ log

/-- A statement of the log has seen these leases. -/
def SawLeases (ids : List Uuid) (log : Log postgres) : Prop :=
  ∀ id ∈ ids, ∃ o ∈ log, ∃ d, o.data = some d ∧ d.leases.contains id = true

abbrev LeaseFits : Log postgres → Obs postgres → Prop :=
  fun log o => o.Follows Tables.LeasesKeyed Tables.LeasesStay log

section Logs
variable {log : Log postgres}

theorem CloseLog.nil : CloseLog [] where
  inserts _ h := List.not_mem_nil h
  locks _ _ h := (List.not_mem_nil h).elim
  closes _ _ h := (List.not_mem_nil h).elim

theorem CloseLog.of_noWrites (h : NoWrites log) : CloseLog log where
  inserts _ hl := h _ hl
  locks _ _ hx := (h _ hx).elim
  closes _ _ hx := (h _ hx).elim

theorem SawLeases.keep {ids : List Uuid} (h : SawLeases ids log) (o : Obs postgres) :
    SawLeases ids (o :: log) := by
  intro id hid
  obtain ⟨o', ho', d, hd, hcontains⟩ := h id hid
  exact ⟨o', List.mem_cons_of_mem _ ho', d, hd, hcontains⟩

theorem CloseLog.cons (h : CloseLog log) {o : Obs postgres}
    (hinserts : ∀ l, o ≠ .wrote (.lease l))
    (hlocks : ∀ id t, o = .wrote (.leaseReleased id t) → ∃ d, .locked (.lease id) d ∈ log)
    (hcloses : ∀ (e : CardEvent) (id : Uuid), o = .wrote (.cardEvent e) → e.closes id = true →
      (∃ d, .locked (.lease id) d ∈ log ∧ d.leases.contains id = true) ∧
        ∃ t, .wrote (.leaseReleased id t) ∈ log) : CloseLog (o :: log) where
  inserts l hl := by
    rcases List.mem_cons.mp hl with heq | hl
    · exact hinserts l heq.symm
    · exact h.inserts l hl
  locks id t hx := by
    have hold : ∃ d, .locked (.lease id) d ∈ log := by
      rcases List.mem_cons.mp hx with heq | hx
      · exact hlocks id t heq.symm
      · exact h.locks id t hx
    obtain ⟨d, hd⟩ := hold
    exact ⟨d, List.mem_cons_of_mem _ hd⟩
  closes e id hx hclose := by
    have hold : (∃ d, .locked (.lease id) d ∈ log ∧ d.leases.contains id = true) ∧
        ∃ t, .wrote (.leaseReleased id t) ∈ log := by
      rcases List.mem_cons.mp hx with heq | hx
      · exact hcloses e id heq.symm hclose
      · exact h.closes e id hx hclose
    obtain ⟨⟨d, hd, hcontains⟩, t, ht⟩ := hold
    exact ⟨⟨d, List.mem_cons_of_mem _ hd, hcontains⟩, t, List.mem_cons_of_mem _ ht⟩

theorem CloseLog.keep (h : CloseLog log) (o : Obs postgres) (ho : o.Within OffClosing) :
    CloseLog (o :: log) := by
  refine h.cons ?_ ?_ ?_
  · rintro l rfl
    exact ho
  · rintro id t rfl
    exact ho.elim
  · rintro e id rfl hclose
    rw [CardEvent.closes_false ho id] at hclose
    cases hclose

/-- The release of a locked lease. -/
theorem CloseLog.release (h : CloseLog log) {id : Uuid} {d : Tables} (t : Instant)
    (hd : .locked (.lease id) d ∈ log) : CloseLog (.wrote (.leaseReleased id t) :: log) := by
  refine h.cons (by rintro l ⟨⟩) ?_ (by rintro e id' ⟨⟩)
  rintro id' t' heq
  cases heq
  exact ⟨d, hd⟩

/-- The event of a lease that was locked and released. -/
theorem CloseLog.event (h : CloseLog log) {id : Uuid} {d : Tables} {t : Instant} {e : CardEvent}
    (hd : .locked (.lease id) d ∈ log) (hcontains : d.leases.contains id = true)
    (ht : .wrote (.leaseReleased id t) ∈ log) (hid : e.leaseId = some id.str) :
    CloseLog (.wrote (.cardEvent e) :: log) := by
  refine h.cons (by rintro l ⟨⟩) (by rintro id' t' ⟨⟩) ?_
  rintro e' id' heq hclose
  cases heq
  have hsame : id = id' := by
    simp only [CardEvent.closes, hid, Bool.and_eq_true, decide_eq_true_eq,
      Option.some.injEq] at hclose
    exact Uuid.str_injective hclose.2
  rw [← hsame]
  exact ⟨⟨d, hd, hcontains⟩, t, ht⟩

end Logs

namespace PostgresCardRuntime

section Bodies
variable {α β : Type} {log : Log postgres} {ids : List Uuid} {Q : β → Log postgres → Prop}

/-- The log of a closing transaction that knows these leases. -/
structure Knows (ids : List Uuid) (log : Log postgres) : Prop where
  close : CloseLog log
  saw : SawLeases ids log

theorem Knows.keep (h : Knows ids log) (o : Obs postgres) (ho : o.Within OffClosing) :
    Knows ids (o :: log) := ⟨h.close.keep o ho, h.saw.keep o⟩

/-- The rest of an operation behind a step that closes no lease. -/
theorem after_offClosing {x : Tx α} {f : α → Tx β} (hx : x.Writes OffClosing)
    (hlog : Knows ids log)
    (hf : ∀ a log', Knows ids log' → (f a).Spec LeaseFits (Knows ids) Q log') :
    (x >>= f).Spec LeaseFits (Knows ids) Q log :=
  .after (fun o _ ho h => h.keep o ho) hx hlog hf

/-- `_get_lease` returns the row under the id that was asked for. -/
theorem getLease_spec (id : Uuid) (hlog : CloseLog log) : (getLease id).Spec LeaseFits
    CloseLog (fun l log' => l.id = id ∧ SawLeases [l.id] log') log := by
  unfold getLease
  refine (Txn.Spec.query (Q := fun d log' => log' = .saw (.lease id) d :: log ∧ d.LeasesKeyed) hlog
    fun d hd => ⟨hlog.keep _ trivial, rfl, (hd d rfl).1⟩).bind ?_
  rintro d log' hlog' ⟨rfl, hkeyed⟩
  cases hget : d.leases.get? id with
  | none => exact hlog'
  | some l =>
    have hid : l.id = id := hkeyed id l hget
    refine ⟨hlog', hid, fun id' hid' => ?_⟩
    rw [List.mem_singleton.mp hid', hid]
    exact ⟨_, List.mem_cons_self, d, rfl, Dict.contains_of_get? hget⟩

/-- The update of a known lease waits for its row and writes it. -/
theorem updateLease_spec {id : Uuid} (t : Instant) (hid : id ∈ ids) (hlog : Knows ids log) :
    (updateLease id (.leaseReleased id t)).Spec LeaseFits (Knows ids) (fun _ log' =>
      ∃ d, .locked (.lease id) d ∈ log' ∧ d.leases.contains id = true ∧
        .wrote (.leaseReleased id t) ∈ log') log := by
  obtain ⟨o₀, ho₀, d₀, hd₀, hcontains⟩ := hlog.saw id hid
  unfold updateLease Txn.update
  refine (Txn.Spec.query (Q := fun d log' => log' = .saw (.lease id) d :: log ∧
    d.leases.contains id = true) hlog fun d hd => ⟨hlog.keep _ trivial, rfl,
      (hd d rfl).2 o₀ ho₀ d₀ hd₀ id hcontains⟩).bind ?_
  rintro d log' hlog' ⟨rfl, hcontains'⟩
  simp only [hcontains', if_true, Txn.forEach, Txn.updateRow]
  refine Txn.Spec.bind (Q := fun _ log' => ∃ d, .locked (.lease id) d ∈ log' ∧
    d.leases.contains id = true ∧ .wrote (.leaseReleased id t) ∈ log') ?_
    fun _ log' hlog' hdone => ⟨hlog', hdone⟩
  refine (Txn.Spec.lockRow (Q := fun (d' : Tables) log' => d'.leases.contains id = true ∧
    log' = .locked (.lease id) d' :: .saw (.lease id) d :: log) hlog' fun d' hd' =>
      ⟨hlog'.keep _ trivial, (hd' d' rfl).2 _ List.mem_cons_self d rfl id hcontains', rfl⟩).bind ?_
  rintro d' log' hlog' ⟨hcontains'', rfl⟩
  rw [if_pos hcontains'']
  exact .put hlog' ⟨hlog'.close.release t List.mem_cons_self, hlog'.saw.keep _⟩
    ⟨d', List.mem_cons_of_mem _ List.mem_cons_self, hcontains'', List.mem_cons_self⟩

variable (engine : Engine)

/-- A known lease is released and its closing event recorded, before the rest. -/
theorem close_spec {id cardId : Uuid} {t : Instant} {type : String} {actor : Option String}
    {payload : JsonObj} {f : CardEvent → Tx β} (hid : id ∈ ids)
    (hpayload : JsonObj.get? payload "lease_id" = some (.str id.str)) (hlog : Knows ids log)
    (hf : ∀ (event : CardEvent) log', Knows ids log' → .wrote (.cardEvent event) ∈ log' →
      event.eventType = type → event.leaseId = some id.str →
      (f event).Spec LeaseFits (Knows ids) Q log') :
    (updateLease id (.leaseReleased id t) >>= fun _ => newEvent cardId type actor payload >>=
      fun event => insertEvent engine event >>= fun _ => f event).Spec LeaseFits (Knows ids) Q
        log := by
  refine (updateLease_spec t hid hlog).bind ?_
  rintro _ log₁ hlog₁ ⟨d, hd, hcontains, ht⟩
  refine (newEvent_spec cardId type actor payload hlog₁ (fun u => hlog₁.keep (.ident u) trivial)
    fun u t' => (hlog₁.keep (.ident u) trivial).keep (.clock t') trivial).bind ?_
  rintro _ _ hlog₂ ⟨u, t', rfl, rfl⟩
  have hold : ∀ {o : Obs postgres}, o ∈ log₁ → o ∈ (.clock t' :: .ident u :: log₁ : Log postgres) :=
    fun ho => List.mem_cons_of_mem _ (List.mem_cons_of_mem _ ho)
  have hleaseId : (⟨u, cardId, type, actor, payload, t'⟩ : CardEvent).leaseId = some id.str := by
    simp only [CardEvent.leaseId, hpayload]
  refine Txn.Spec.bind (Q := fun _ log' => .wrote (.cardEvent ⟨u, cardId, type, actor, payload, t'⟩)
    ∈ log') ?_ fun _ log' hlog' hevent => hf _ log' hlog' hevent rfl hleaseId
  refine .insert hlog₂ (fun d' => hlog₂.keep _ trivial) fun d' _ _ => ?_
  have hlog₃ := hlog₂.keep (.locked (.cardEvent u) d') trivial
  have hclose := hlog₃.close.event (List.mem_cons_of_mem _ (hold hd)) hcontains
    (List.mem_cons_of_mem _ (hold ht)) hleaseId
  exact ⟨⟨hclose, hlog₃.saw.keep _⟩, List.mem_cons_self⟩

/-- The move of a submission records no event of its own. -/
theorem moveCardRow_quiet (card : Card) (toBucket : String) (actorId reason : Option String) :
    (moveCardRow engine card toBucket actorId reason false).Writes OffClosing := by
  refine .bind .now fun now => ?_
  refine .bind (exitLocations_writes engine card.id now fun _ => trivial) fun _ => ?_
  refine .bind .fresh fun id => ?_
  refine .bind (insertLocation_writes engine trivial) fun _ => ?_
  exact .bind (updateCardBucket_writes card.id toBucket fun _ => trivial) fun _ => .ret _

/-- An operation behind its key: a replay writes nothing. -/
theorem idempotent_close {key : Option String} {replay : ResponseRef → Tx α} {body : Tx α}
    {Q : Log postgres → Prop} (hreplay : ∀ ref, (replay ref).Writes fun _ => False)
    (hquiet : ∀ log, NoWrites log → Q log)
    (hbody : ∀ log', CloseLog log' → NoWrites log' →
      body.Spec LeaseFits CloseLog (fun _ => Q) log')
    (hnone : NoWrites log) :
    (idempotent key replay body).Spec LeaseFits CloseLog (fun _ => Q) log := by
  have hquietly : ∀ {β : Type} {x : Tx β} {log' : Log postgres}, x.Writes (fun _ => False) →
      NoWrites log' → x.Spec LeaseFits CloseLog (fun _ => NoWrites) log' := by
    intro β x log' hx hlog'
    have hspec : x.Spec LeaseFits NoWrites (fun _ => NoWrites) log' :=
      .of_writes (fun o _ ho h => h.keep o ho) hx hlog'
    exact hspec.weaken fun _ h => .of_noWrites h
  refine (hquietly (getIdempotency_writes key) hnone).bind fun found log' hlog' hnone' => ?_
  cases found with
  | none => exact hbody log' hlog' hnone'
  | some ref => exact (hquietly (hreplay ref) hnone').mono fun _ log _ h => hquiet log h

/-- A submission that wrote at all has recorded the closing of its lease. -/
def Submitted (leaseId : Uuid) (log : Log postgres) : Prop :=
  NoWrites log ∨ ∃ e : CardEvent, .wrote (.cardEvent e) ∈ log ∧ e.closes leaseId = true

theorem submitArtifact_close (w : World) (leaseId : Uuid) (pipe : String)
    (refs : List ArtifactReference) (key : Option String) (hlog : NoWrites log) :
    (submitArtifact engine w leaseId pipe refs key).Spec LeaseFits CloseLog
      (fun _ => Submitted leaseId) log := by
  refine idempotent_close cachedArtifacts_writes (fun _ => .inl) (fun log hlog _ => ?_) hlog
  refine (getLease_spec leaseId hlog).bind fun lease log hlog hsaw => ?_
  obtain ⟨hid, hsaw⟩ := hsaw
  refine Txn.Spec.weaken (P := Knows [lease.id]) ?_ fun _ h => h.close
  replace hlog : Knows [lease.id] log := ⟨hlog, hsaw⟩
  refine after_offClosing (ensureActiveLease_writes lease) hlog fun _ log hlog => ?_
  refine after_offClosing (getCard_writes lease.cardId) hlog fun card log hlog => ?_
  refine after_offClosing (getPatchPanelForCard_writes card) hlog fun p log hlog => ?_
  refine after_offClosing (.ofExcept _) hlog fun target log hlog => ?_
  refine after_offClosing (.ofExcept _) hlog fun _ log hlog => ?_
  refine after_offClosing (.ofExcept _) hlog fun _ log hlog => ?_
  refine after_offClosing (.ensure _ _) hlog fun _ log hlog => ?_
  refine after_offClosing (moveCardRow_quiet engine card _ _ _) hlog fun _ log hlog => ?_
  refine after_offClosing .now hlog fun releasedAt log hlog => ?_
  refine close_spec engine List.mem_cons_self rfl hlog fun event log hlog hevent htype hlease => ?_
  have hcloses : event.closes leaseId = true := by
    have hclosing : event.isClosing = true := by
      simp [CardEvent.isClosing, closingTypes, htype]
    simp only [CardEvent.closes, hclosing, hlease, hid, decide_true, Bool.and_self]
  -- What follows only adds to the log.
  refine (Txn.Spec.extends_log (Q := fun _ _ => True) ?_).mono fun _ _ _ hlog' =>
    .inr ⟨event, hlog'.2.subset hevent, hcloses⟩
  refine after_offClosing (.forEach (fun ref => insertArtifact_writes engine trivial) _) hlog
    fun _ log hlog => ?_
  refine after_offClosing (storeIdempotency_writes key _ _ fun _ _ => trivial) hlog
    fun _ log hlog => ?_
  exact ⟨hlog, trivial⟩

theorem releaseLease_close (leaseId : Uuid) (actorId key : Option String) (hlog : NoWrites log) :
    (releaseLease engine leaseId actorId key).Spec LeaseFits CloseLog (fun _ _ => True) log := by
  refine idempotent_close cachedLease_writes (fun _ _ => trivial) (fun log hlog _ => ?_) hlog
  refine (getLease_spec leaseId hlog).bind fun lease log hlog hsaw => ?_
  cases lease.releasedAt with
  | some t => exact ⟨hlog, trivial⟩
  | none =>
    refine Txn.Spec.weaken (P := Knows [lease.id]) ?_ fun _ h => h.close
    replace hlog : Knows [lease.id] log := ⟨hlog, hsaw.2⟩
    refine after_offClosing .now hlog fun releasedAt log hlog => ?_
    refine close_spec engine List.mem_cons_self rfl hlog fun event log hlog _ _ _ => ?_
    refine after_offClosing (storeIdempotency_writes key _ _ fun _ _ => trivial) hlog
      fun _ log hlog => ?_
    exact ⟨hlog, trivial⟩

theorem expireEach_close (now : Instant) {ls : List Lease} (hids : ∀ l ∈ ls, l.id ∈ ids)
    (hlog : Knows ids log) :
    (expireEach engine now ls).Spec LeaseFits (Knows ids) (fun _ _ => True) log := by
  induction ls generalizing log with
  | nil => exact ⟨hlog, trivial⟩
  | cons lease rest ih =>
    have hrest : ∀ l ∈ rest, l.id ∈ ids := fun l hl => hids l (List.mem_cons_of_mem _ hl)
    refine close_spec engine (hids lease List.mem_cons_self) rfl hlog fun event log hlog _ _ _ => ?_
    exact (ih hrest hlog).bind fun _ _ hlog _ => ⟨hlog, trivial⟩

theorem expireLeases_close (now : Instant) (hlog : CloseLog log) :
    (expireLeases engine now).Spec LeaseFits CloseLog (fun _ _ => True) log := by
  unfold expireLeases
  refine (Txn.Spec.query (Q := fun d log' => log' = .saw (.lapsedLeases now) d :: log ∧
    d.LeasesKeyed) hlog fun d hd => ⟨hlog.keep _ trivial, rfl, (hd d rfl).1⟩).bind ?_
  rintro d log' hlog' ⟨rfl, hkeyed⟩
  have hfound : ∀ l ∈ engine.rows d (d.leases.values.filter (lapsed now)),
      d.leases.contains l.id = true := by
    intro l hl
    rw [Engine.mem_rows] at hl
    obtain ⟨id, hid⟩ := (Dict.mem_values_iff _ _).mp (List.mem_filter.mp hl).1
    rw [hkeyed id l hid]
    exact Dict.contains_of_get? hid
  refine Txn.Spec.weaken (P := Knows ((engine.rows d (d.leases.values.filter
    (lapsed now))).map (·.id))) ?_ fun _ h => h.close
  refine expireEach_close engine now (fun l hl => List.mem_map_of_mem hl) ⟨hlog', ?_⟩
  intro id hid
  obtain ⟨l, hl, rfl⟩ := List.mem_map.mp hid
  exact ⟨_, List.mem_cons_self, d, rfl, hfound l hl⟩

end Bodies

end PostgresCardRuntime

/-- The transactions that close leases. -/
def Transaction.closesLeases : Transaction → Bool
  | keyed (.submitArtifact _ _ _) _ | keyed (.releaseLease _ _) _ | expireLeases => true
  | _ => false

/-- The lease that a submission is made on. -/
def Transaction.submits : Transaction → Option Uuid
  | keyed (.submitArtifact lease _ _) _ => some lease
  | _ => none

/-- What a closing transaction has done at its commit. -/
def CloseDone (c : Transaction) (log : Log postgres) : Prop :=
  ∀ id, c.submits = some id → PostgresCardRuntime.Submitted id log

theorem Transaction.close_spec (engine : Engine) (w : World) {c : Transaction}
    (hc : c.closesLeases = true) :
    (c.program engine w).Spec LeaseFits CloseLog (fun _ => CloseDone c) [] := by
  have hnil : NoWrites [] := fun x hx => List.not_mem_nil hx
  have hreturn : ∀ {α : Type} {x : Tx α} {log : Log postgres} {Q : Log postgres → Prop},
      x.Spec LeaseFits CloseLog (fun _ => Q) log →
      (x >>= fun _ => pure ()).Spec LeaseFits CloseLog (fun _ => Q) log :=
    fun hx => hx.bind fun _ _ hlog' hq => ⟨hlog', hq⟩
  cases c with
  | registerPatchPanel p => cases hc
  | expireLeases =>
    refine .after (W := OffClosing) (fun o _ ho h => h.keep o ho) .now .nil fun now log hlog => ?_
    refine (hreturn (PostgresCardRuntime.expireLeases_close engine now hlog)).mono
      fun _ _ _ _ id hid => ?_
    cases hid
  | keyed call key =>
    cases call with
    | submitArtifact lease pipe refs =>
      refine (hreturn (PostgresCardRuntime.submitArtifact_close engine w lease pipe refs key
        hnil)).mono fun _ _ _ hdone id hid => ?_
      cases hid
      exact hdone
    | releaseLease lease actor =>
      refine (hreturn (PostgresCardRuntime.releaseLease_close engine lease actor key hnil)).mono
        fun _ _ _ _ id hid => ?_
      cases hid
    | _ => cases hc

/-! ## Runs -/

theorem RowWrite.leaseOpen_apply {x : RowWrite} (hx : ∀ l, x ≠ .lease l) (d : Tables) (id : Uuid) :
    (x.apply d).leaseOpen id = true ↔ d.leaseOpen id = true ∧ ∀ t, x ≠ .leaseReleased id t := by
  have hmodify : ∀ (id' : Uuid) (f : Lease → Lease), (d.leases.modify id' f).get? id =
      if id = id' then (d.leases.get? id').map f else d.leases.get? id :=
    fun id' f => Dict.get?_modify _ _ _ _
  cases x with
  | lease l => exact (hx l rfl).elim
  | leaseExpiry id' t =>
    simp only [RowWrite.apply, Tables.leaseOpen, hmodify]
    split
    · rename_i hid
      rw [hid]
      cases d.leases.get? id' <;> simp
    · simp
  | leaseReleased id' t =>
    simp only [RowWrite.apply, Tables.leaseOpen, hmodify]
    split
    · rename_i hid
      rw [hid]
      cases d.leases.get? id' <;> simp
    · rename_i hid
      simp [Ne.symm hid]
  | _ => simp [RowWrite.apply, Tables.leaseOpen]

theorem leaseOpen_view {log : Log postgres} (hlog : ∀ l, .wrote (.lease l) ∉ log) (d : Tables)
    (id : Uuid) : (log.view d).leaseOpen id = true ↔
      d.leaseOpen id = true ∧ ∀ t, .wrote (.leaseReleased id t) ∉ log := by
  induction log with
  | nil => simp [Log.view]
  | cons o log ih =>
    have htail := ih fun l hl => hlog l (List.mem_cons_of_mem _ hl)
    cases o with
    | wrote x =>
      have hx : ∀ l, x ≠ .lease l := fun l heq => hlog l (heq ▸ List.mem_cons_self)
      change (x.apply (Log.view log d)).leaseOpen id = true ↔ _
      rw [RowWrite.leaseOpen_apply hx, htail]
      simp only [List.mem_cons, Obs.wrote.injEq, not_or, and_assoc, forall_and, ne_eq]
      refine and_congr_right fun _ => and_comm.trans (and_congr_left fun _ => ?_)
      exact forall_congr' fun t => not_congr eq_comm
    | _ => simpa [Log.view] using htail

/-- An unreleased lease is there for one transaction to close. -/
def leaseTokens : Tokens postgres Transaction Uuid where
  lock := RowLock.lease
  free d id := d.leaseOpen id = true
  takes _ log id := ∃ e : CardEvent, .wrote (.cardEvent e) ∈ log ∧ e.closes id = true

theorem leaseTokens_sound : leaseTokens.Sound (fun _ => CloseLog) CloseDone where
  stays _ _ d id hlog hopen := ((leaseOpen_view hlog.inserts d id).mp hopen).1
  keeps _ log d id hlog hlock hopen := by
    refine (leaseOpen_view hlog.inserts d id).mpr ⟨hopen, fun t ht => hlock ?_⟩
    exact Log.mem_locks_iff.mpr (hlog.locks id t ht)
  taken _ log d id hlog _ htakes hopen := by
    obtain ⟨e, he, hclose⟩ := htakes
    obtain ⟨t, ht⟩ := (hlog.closes e id he hclose).2
    exact ((leaseOpen_view hlog.inserts d id).mp hopen).2 t ht

/-- What the session locked was not a lease that had been released. -/
def lockedOpen : Obs postgres → Bool
  | .locked (.lease id) d => d.leaseOpen id
  | _ => true

/-- At a commit, every lease that the transaction updates was unreleased when it got
the lock on its row. -/
def PgSystem.closesUnreleased (σ : PgSystem) : Action Transaction → Bool
  | .advance i => match σ.sessions[i]? with
    | some s => !(s.status = .opened && s.rest.returns) || s.log.all lockedOpen
    | none => true
  | _ => true

section Runs
variable {engine : Engine} {w : World} {σ σ' : PgSystem}

theorem PgSystem.lockedOpen_of_commits {a : Action Transaction} {i : Nat} {s : PgSession}
    (ha : σ.closesUnreleased a = true) (h : Commits σ (σ.step engine w a) i s) :
    ∀ o ∈ s.log, lockedOpen o = true := by
  have haction : a = .advance i := Commits.action h
  rw [haction] at ha
  simp only [closesUnreleased, h.session, h.opened, h.returns, decide_true, Bool.and_self,
    Bool.not_true, Bool.false_or, List.all_eq_true] at ha
  exact ha

/-- What a run of closing transactions keeps. -/
structure ClosingState (σ : PgSystem) : Prop where
  calls : ∀ s ∈ σ.sessions, s.call.closesLeases = true
  grown : σ.Grown Tables.LeasesKeyed Tables.LeasesStay
  orderly : σ.Orderly LeaseFits (fun _ => CloseLog) CloseDone
  tokens : leaseTokens.State σ

theorem ClosingState.start {d : Tables} (hkeyed : d.LeasesKeyed) :
    ClosingState (PgSystem.init d) where
  calls s hs := by cases hs
  grown := .start hkeyed rfl
  orderly := .start rfl
  tokens := .start rfl

theorem ClosingState.step {a : Action Transaction} (h : ClosingState σ)
    (hcall : ∀ call, a = .begin call → call.closesLeases = true)
    (ha : σ.closesUnreleased a = true) : ClosingState (σ.step engine w a) := by
  have hmove := System.step_move w.supply (Transaction.program engine w) σ a
  have hcalls : ∀ s ∈ (σ.step engine w a).sessions, s.call.closesLeases = true :=
    System.step_calls h.calls hcall
  refine ⟨hcalls, h.grown.moves leases_growth hmove, ?_, ?_⟩
  · refine h.orderly.moves (fun i n s o rest hs hopen ho => ?_) (fun s hs => ?_) hmove
    · exact h.grown.follows leases_growth hs hopen ho
    · exact Transaction.close_spec engine w (hcalls s hs)
  · refine h.tokens.moves leaseTokens_sound h.orderly (fun i s id hcommits htakes => ?_) hmove
    obtain ⟨e, he, hclose⟩ := htakes
    obtain ⟨d, hd, -⟩ := ((h.orderly.log hcommits.session).closes e id he hclose).1
    exact Tokens.holds_of_mem hd (PgSystem.lockedOpen_of_commits ha hcommits _ hd)

end Runs

/-- The session has committed the artifacts and the card move of a submission. -/
def PgSession.AppliesSubmission (s : PgSession) (id : Uuid) : Prop :=
  s.TookEffect ∧ s.call.submits = some id

/-- Submissions, releases and expiries in any interleaving, where every commit had the
leases that it closes unreleased under its locks: each lease is closed once, and one
submission of it is applied. -/
theorem closed_at_most_once (engine : Engine) (w : World) (d : Tables) (hkeyed : d.LeasesKeyed)
    (actions : List (Action Transaction))
    (hcalls : ∀ call, .begin call ∈ actions → call.closesLeases = true)
    (hok : Permitted (PgSystem.step engine w) (fun σ a => σ.closesUnreleased a = true)
      (PgSystem.init d) actions) {id : Uuid} {i j : Nat} {s s' : PgSession}
    (hi : (PgSystem.run engine w d actions).sessions[i]? = some s)
    (hj : (PgSystem.run engine w d actions).sessions[j]? = some s') :
    (s.ClosesLease id → s'.ClosesLease id → i = j) ∧
      (s.AppliesSubmission id → s'.AppliesSubmission id → i = j) := by
  have hcalls' : ∀ a ∈ actions, ∀ call, a = .begin call → call.closesLeases = true :=
    fun a ha call heq => hcalls call (heq ▸ ha)
  have hstate : ClosingState (PgSystem.run engine w d actions) :=
    (hok.and_of_mem hcalls').reaches.invariant (.start hkeyed) fun σ a hσ ha => hσ.step ha.2 ha.1
  have honce : s.ClosesLease id → s'.ClosesLease id → i = j := by
    rintro ⟨hstatus, htakes⟩ ⟨hstatus', htakes'⟩
    exact hstate.tokens.once i j s s' id hi hj hstatus hstatus' htakes htakes'
  have happlies : ∀ {k : Nat} {s : PgSession},
      (PgSystem.run engine w d actions).sessions[k]? = some s → s.AppliesSubmission id →
      s.ClosesLease id := by
    rintro k s hk ⟨⟨hstatus, x, hx⟩, hsubmits⟩
    rcases hstate.orderly.committed hk hstatus id hsubmits with hnone | hclosed
    · exact (hnone x hx).elim
    · exact ⟨hstatus, hclosed⟩
  exact ⟨honce, fun h h' => honce (happlies hi h) (happlies hj h')⟩

/-! The lease of a card is released by two workers. -/

/-- `Tables.line` with a lease on its card. -/
def Tables.leasedLine : Tables :=
  { Tables.line with
    leases := Dict.empty.set ⟨102⟩ ⟨⟨102⟩, ⟨100⟩, "work", "w", "work_in", 0, 1000000000, none⟩ }

theorem Tables.leasedLine_keyed : Tables.leasedLine.LeasesKeyed := by
  have hempty : ∀ id l, (Dict.empty : Dict Uuid Lease).get? id = some l → l.id = id := nofun
  exact fun id l hl => WellKeyed.set (hempty _ _) ⟨⟨102⟩, _, _, _, _, _, _, _⟩ hl

def releaseOfLine : Transaction := .keyed (.releaseLease ⟨102⟩ none) none

/-- The session has recorded the closing of the lease. -/
def PgSession.recordsClosing (id : Uuid) (s : PgSession) : Bool :=
  s.status = .committed && s.log.writes.any fun x => match x with
    | .cardEvent e => e.closes id
    | _ => false

theorem PgSession.closesLease_of_records {s : PgSession} {id : Uuid}
    (h : s.recordsClosing id = true) : s.ClosesLease id := by
  simp only [recordsClosing, Bool.and_eq_true, decide_eq_true_eq] at h
  obtain ⟨x, hx, hclose⟩ := List.any_eq_true.mp h.2
  cases x with
  | cardEvent e => exact ⟨h.1, e, Log.mem_writes_iff.mp hx, hclose⟩
  | _ => cases hclose

/-- Both have read the lease before either releases it. -/
def racingReleases : List (Action Transaction) :=
  [.begin releaseOfLine, .begin releaseOfLine, .advance 0, .advance 1] ++
    List.replicate 10 (.advance 0) ++ List.replicate 10 (.advance 1)

theorem racingReleases_close_twice :
    Tables.leasedLine.LeasesKeyed ∧ (∀ call, .begin call ∈ racingReleases →
      call.closesLeases = true) ∧ ∃ s s' : PgSession, (PgSystem.run .simple .simple .leasedLine
        racingReleases).sessions[0]? = some s ∧ (PgSystem.run .simple .simple .leasedLine
          racingReleases).sessions[1]? = some s' ∧ s.ClosesLease ⟨102⟩ ∧ s'.ClosesLease ⟨102⟩ := by
  refine ⟨Tables.leasedLine_keyed, Action.forall_begin (by decide +kernel), ?_⟩
  have h0 : ((PgSystem.run .simple .simple .leasedLine racingReleases).sessions[0]?).map
      (PgSession.recordsClosing ⟨102⟩) = some true := by decide +kernel
  have h1 : ((PgSystem.run .simple .simple .leasedLine racingReleases).sessions[1]?).map
      (PgSession.recordsClosing ⟨102⟩) = some true := by decide +kernel
  obtain ⟨s, hs, hclose⟩ := Option.map_eq_some_iff.mp h0
  obtain ⟨s', hs', hclose'⟩ := Option.map_eq_some_iff.mp h1
  exact ⟨s, s', hs, hs', PgSession.closesLease_of_records hclose,
    PgSession.closesLease_of_records hclose'⟩

/-- One release after the other. -/
def serialReleases : List (Action Transaction) :=
  .begin releaseOfLine :: List.replicate 10 (.advance 0) ++
    .begin releaseOfLine :: List.replicate 10 (.advance 1)

theorem closed_at_most_once_serial :
    ∃ s s' : PgSession,
      (PgSystem.run .simple .simple .leasedLine serialReleases).sessions[0]? = some s ∧
      (PgSystem.run .simple .simple .leasedLine serialReleases).sessions[1]? = some s' ∧
      s.ClosesLease ⟨102⟩ ∧ ¬ s'.ClosesLease ⟨102⟩ := by
  have h0 : ((PgSystem.run .simple .simple .leasedLine serialReleases).sessions[0]?).map
      (PgSession.recordsClosing ⟨102⟩) = some true := by decide +kernel
  obtain ⟨s, hs, hrecords⟩ := Option.map_eq_some_iff.mp h0
  obtain ⟨s', hs'⟩ := Option.isSome_iff_exists.mp (show
    ((PgSystem.run .simple .simple .leasedLine serialReleases).sessions[1]?).isSome = true by
      decide +kernel)
  have hclose : s.ClosesLease ⟨102⟩ := PgSession.closesLease_of_records hrecords
  refine ⟨s, s', hs, hs', hclose, fun hclose' => ?_⟩
  have hcalls : ∀ call, .begin call ∈ serialReleases → call.closesLeases = true :=
    Action.forall_begin (by decide +kernel)
  have heq : 0 = 1 := (closed_at_most_once .simple .simple .leasedLine Tables.leasedLine_keyed
    serialReleases hcalls (by decide +kernel) hs hs').1 hclose hclose'
  cases heq

end GhostMesh
