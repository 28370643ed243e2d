import GhostMesh.Lib.Tally
import GhostMesh.Runtime.Accounting
import GhostMesh.Runtime.OnePlace

/-!
# The committed ledger

However the transactions of the Postgres runtime interleave, the events in the order of
their commits are a ledger: the last event that brings a card into a bucket names the
bucket of its row, and there are as many creations as cards and as many claims as leases.
A transaction posts a row only together with its event, so that what it has done at its
commit is one of a few postings.
-/

set_option autoImplicit false

namespace GhostMesh

open ReadCommitted PostgresCardRuntime

/-! ## The ledger -/

namespace CardEvent

/-- The bucket that the event brings its card into. A verdict that routes its card has a
move beside it. -/
def entered (e : CardEvent) : Option Json :=
  if e.eventType = "card_created" then JsonObj.get? e.payload "bucket"
  else if e.eventType = "artifact_submitted" then JsonObj.get? e.payload "destination_bucket"
  else if e.eventType = "card_moved" then JsonObj.get? e.payload "to_bucket"
  else none

def bookedTypes : List String := ["card_created", "artifact_submitted", "card_moved", "card_claimed"]

def booked (e : CardEvent) : Bool := e.eventType ∈ bookedTypes

/-- The bucket that the events lead to. -/
def lastEntered (events : List CardEvent) : Option Json :=
  events.foldl (fun before e => e.entered.or before) none

theorem entered_of_unbooked {e : CardEvent} (h : e.booked = false) : e.entered = none := by
  have hnot : e.eventType ∉ bookedTypes := of_decide_eq_false h
  simp only [bookedTypes, List.mem_cons, List.not_mem_nil, or_false, not_or] at hnot
  simp [entered, hnot]

/-- Only booked events count. -/
theorem lastEntered_booked (events : List CardEvent) :
    lastEntered events = lastEntered (events.filter booked) := by
  have hfold : ∀ before : Option Json, events.foldl (fun before e => e.entered.or before) before =
      (events.filter booked).foldl (fun before e => e.entered.or before) before := by
    induction events with
    | nil => exact fun _ => rfl
    | cons e events ih =>
      intro before
      cases hbooked : e.booked with
      | true => rw [List.filter_cons_of_pos hbooked, List.foldl_cons, List.foldl_cons, ih]
      | false =>
        rw [List.filter_cons_of_neg (Bool.eq_false_iff.mp hbooked), List.foldl_cons,
          entered_of_unbooked hbooked, Option.none_or, ih]
  exact hfold none

theorem lastEntered_append (events : List CardEvent) {e : CardEvent} {bucket : Json}
    (h : e.entered = some bucket) : lastEntered (events ++ [e]) = some bucket := by
  rw [lastEntered, List.foldl_append, List.foldl_cons, List.foldl_nil, h, Option.some_or]

theorem lastEntered_append_none (events : List CardEvent) {e : CardEvent} (h : e.entered = none) :
    lastEntered (events ++ [e]) = lastEntered events := by
  rw [lastEntered, List.foldl_append, List.foldl_cons, List.foldl_nil, h, Option.none_or, lastEntered]

end CardEvent

namespace Tables

/-- Every card is stored under its own id. -/
def CardsKeyed (d : Tables) : Prop := ∀ id c, d.cards.get? id = some c → c.id = id

/-- The committed events, in the order of their commits, agree with the rows. -/
structure Booked (d : Tables) : Prop where
  keys : d.CardsKeyed
  places : ∀ id c, d.cards.get? id = some c →
    CardEvent.lastEntered (d.cardEvents.values.filter fun e => e.cardId = id) =
      some (.str c.currentBucket)
  created : d.cardEvents.values.countP (·.isCreation) = d.cards.values.length
  claimed : d.cardEvents.values.countP (·.isClaim) = d.leases.values.length

/-- The events that count. -/
def book (d : Tables) : List CardEvent := d.cardEvents.values.filter (·.booked)

theorem lastEntered_book (d : Tables) (id : Uuid) :
    CardEvent.lastEntered (d.cardEvents.values.filter fun e => e.cardId = id) =
      CardEvent.lastEntered (d.book.filter fun e => e.cardId = id) := by
  rw [CardEvent.lastEntered_booked, List.filter_filter, book, List.filter_filter]
  congr 2
  funext e
  exact Bool.and_comm _ _

theorem countP_book {P : CardEvent → Bool} (hP : ∀ e, P e = true → e.booked = true) (d : Tables) :
    d.cardEvents.values.countP P = d.book.countP P := by
  rw [book, List.countP_filter]
  apply List.countP_congr
  intro e _
  simp only [Bool.and_eq_true]
  exact ⟨fun h => ⟨h, hP e h⟩, And.left⟩

end Tables

theorem CardEvent.booked_of_isCreation (e : CardEvent) (h : e.isCreation = true) :
    e.booked = true := by
  have htype : e.eventType = "card_created" := of_decide_eq_true h
  simp [booked, bookedTypes, htype]

theorem CardEvent.booked_of_isClaim (e : CardEvent) (h : e.isClaim = true) : e.booked = true := by
  have htype : e.eventType = "card_claimed" := of_decide_eq_true h
  simp [booked, bookedTypes, htype]

/-! ## New rows -/

/-- A primary key that a transaction has found free. -/
inductive NewKey where
  | card (id : Uuid)
  | lease (id : Uuid)
  | event (id : Uuid)

def Tables.has (d : Tables) : NewKey → Bool
  | .card id => d.cards.contains id
  | .lease id => d.leases.contains id
  | .event id => d.cardEvents.contains id

def bookFacts : LockFacts postgres NewKey where
  lock
    | .card id => .card id
    | .lease id => .lease id
    | .event id => .cardEvent id
  fact d r := d.has r = false
  clean _ _ := True

namespace RowWrite

/-- The key under which the write inserts a card, a lease or an event. -/
def newKey : RowWrite → Option NewKey
  | card c => some (.card c.id)
  | lease l => some (.lease l.id)
  | cardEvent e => some (.event e.id)
  | _ => none

/-- A card, its bucket, a lease or an event that counts. -/
def booked : RowWrite → Bool
  | card _ | cardBucket _ _ | lease _ => true
  | cardEvent e => e.booked
  | _ => false

def event? : RowWrite → Option CardEvent
  | cardEvent e => some e
  | _ => none

theorem has_apply (x : RowWrite) (d : Tables) (r : NewKey) :
    (x.apply d).has r = true ↔ x.newKey = some r ∨ d.has r = true := by
  cases x with
  | card c =>
    cases r <;> simp [apply, Tables.has, newKey, Dict.contains_set, @eq_comm Uuid c.id]
  | cardBucket id bucket => cases r <;> simp [apply, Tables.has, newKey, Dict.contains_modify]
  | lease l =>
    cases r <;> simp [apply, Tables.has, newKey, Dict.contains_set, @eq_comm Uuid l.id]
  | leaseExpiry id t => cases r <;> simp [apply, Tables.has, newKey, Dict.contains_modify]
  | leaseReleased id t => cases r <;> simp [apply, Tables.has, newKey, Dict.contains_modify]
  | cardEvent e =>
    cases r <;> simp [apply, Tables.has, newKey, Dict.contains_set, @eq_comm Uuid e.id]
  | _ => cases r <;> simp [apply, Tables.has, newKey]

theorem has_foldr (xs : List RowWrite) (d : Tables) (r : NewKey) :
    (xs.foldr postgres.apply d).has r = true ↔
      (∃ x ∈ xs, x.newKey = some r) ∨ d.has r = true := by
  induction xs with
  | nil => simp
  | cons x xs ih =>
    have happly := has_apply x (xs.foldr postgres.apply d) r
    rw [ih] at happly
    simp only [List.foldr_cons, List.mem_cons, exists_eq_or_imp, or_assoc]
    exact happly

/-- The events of some writes, the newest first, under new keys of their own. -/
theorem values_foldr (xs : List RowWrite) (d : Tables)
    (hnodup : ((xs.filterMap event?).map (·.id)).Nodup)
    (hnew : ∀ e ∈ xs.filterMap event?, d.has (.event e.id) = false) :
    (xs.foldr postgres.apply d).cardEvents.values =
      d.cardEvents.values ++ (xs.filterMap event?).reverse := by
  induction xs with
  | nil => simp
  | cons x xs ih =>
    cases hx : x.event? with
    | none =>
      rw [List.filterMap_cons_none hx] at hnodup hnew ⊢
      rw [← ih hnodup hnew, List.foldr_cons]
      cases x with
      | cardEvent e => cases hx
      | _ => rfl
    | some e =>
      rw [List.filterMap_cons_some hx] at hnodup hnew ⊢
      obtain ⟨hfresh, hrest⟩ := List.nodup_cons.mp hnodup
      have hvalues := ih hrest fun e' he' => hnew e' (List.mem_cons_of_mem e he')
      have hfree : (xs.foldr postgres.apply d).cardEvents.get? e.id = none := by
        have hnot : ¬ (xs.foldr postgres.apply d).has (.event e.id) = true := by
          rw [has_foldr]
          rintro (⟨y, hy, hkey⟩ | hold)
          · cases y with
            | cardEvent e' =>
              have hid : e'.id = e.id := by simpa [newKey] using hkey
              refine hfresh (List.mem_map.mpr ⟨e', ?_, hid⟩)
              exact List.mem_filterMap.mpr ⟨_, hy, rfl⟩
            | _ => simp [newKey] at hkey
          · rw [hnew e List.mem_cons_self] at hold
            cases hold
        exact Option.not_isSome_iff_eq_none.mp hnot
      cases x with
      | cardEvent e' =>
        cases hx
        rw [List.foldr_cons, List.reverse_cons, ← List.append_assoc, ← hvalues]
        exact Dict.values_set_of_new hfree
      | _ => cases hx

end RowWrite

/-! ## What a transaction has booked -/

def bookings (log : Log postgres) : List RowWrite := log.writesOn RowWrite.booked

def eventsIn (log : Log postgres) : List CardEvent := log.writes.filterMap RowWrite.event?

/-- A write that books nothing and inserts no event. -/
def OffBook (x : RowWrite) : Prop := x.booked = false ∧ x.newKey = none

/-- The transaction has booked exactly these writes, the newest first, and every card,
lease and event of it has a new key. -/
structure Booking (ws : List RowWrite) (log : Log postgres) : Prop where
  writes : bookings log = ws
  ids : ((eventsIn log).map (·.id)).Nodup
  fresh : ∀ x, .wrote x ∈ log → ∀ r, x.newKey = some r → bookFacts.Holds log r

/-- What a statement sees: rows that develop, with the transaction's own events. -/
abbrev BookFits : Log postgres → Obs postgres → Prop := fun log o =>
  o.Follows Tables.CardsKeyed Tables.PlacesStay log ∧
    ∀ d : Tables, o.data = some d → ∀ e ∈ eventsIn log, d.has (.event e.id) = true

section Logs
variable {log : Log postgres} {ws : List RowWrite}

theorem mem_eventsIn_iff {e : CardEvent} : e ∈ eventsIn log ↔ .wrote (.cardEvent e) ∈ log := by
  rw [eventsIn, List.mem_filterMap]
  constructor
  · rintro ⟨x, hx, hevent⟩
    cases x with
    | cardEvent e' =>
      cases hevent
      exact Log.mem_writes_iff.mp hx
    | _ => cases hevent
  · intro h
    exact ⟨_, Log.mem_writes_iff.mpr h, rfl⟩

theorem Booking.nil : Booking [] [] := ⟨rfl, List.nodup_nil, nofun⟩

theorem Booking.keep : Log.Kept OffBook (Booking ws) := by
  intro o log ho h
  have hevents : eventsIn (o :: log) = eventsIn log := by
    cases o with
    | wrote x =>
      cases x with
      | cardEvent e => cases ho.2
      | _ => rfl
    | _ => rfl
  have hbooked : o.Within fun x : RowWrite => x.booked = false := by
    cases o with
    | wrote x => exact ho.1
    | _ => trivial
  refine ⟨(Log.writesOn_keep (S := postgres) hbooked).trans h.writes, hevents ▸ h.ids, ?_⟩
  intro x hx r hr
  rcases List.mem_cons.mp hx with rfl | hx
  · rw [ho.2] at hr
    cases hr
  · exact (h.fresh x hx r hr).keep o

/-- A row is inserted under a key that was free. -/
theorem Booking.insert (h : Booking ws log) {x : RowWrite} {r : NewKey} {d : Tables}
    (hkey : x.newKey = some r) (hfree : d.has r = false)
    (hown : ∀ e ∈ eventsIn log, d.has (.event e.id) = true) :
    Booking (if x.booked then x :: ws else ws) (.wrote x :: .locked (bookFacts.lock r) d :: log) := by
  refine ⟨?_, ?_, ?_⟩
  · have hwrites := Log.writesOn_wrote (S := postgres) RowWrite.booked x
      (.locked (bookFacts.lock r) d :: log)
    have hsame : Log.writesOn (S := postgres) RowWrite.booked (.locked (bookFacts.lock r) d :: log) =
        ws := h.writes
    rw [hsame] at hwrites
    exact hwrites
  · cases x with
    | cardEvent e =>
      refine List.nodup_cons.mpr ⟨fun hmem => ?_, h.ids⟩
      obtain ⟨e', he', hid⟩ := List.mem_map.mp hmem
      have hheld := hown e' he'
      cases hkey
      rw [show e'.id = e.id from hid, hfree] at hheld
      cases hheld
    | _ => exact h.ids
  · intro y hy r' hr'
    rcases List.mem_cons.mp hy with heq | hy
    · cases heq
      rw [hkey] at hr'
      cases hr'
      exact (LockFacts.Holds.now (F := bookFacts) trivial hfree).keep _
    · rcases List.mem_cons.mp hy with heq | hy
      · cases heq
      · exact ((h.fresh y hy r' hr').keep _).keep _

/-- A card's bucket is written. -/
theorem Booking.bucket (h : Booking ws log) (id : Uuid) (bucket : String) :
    Booking (.cardBucket id bucket :: ws) (.wrote (.cardBucket id bucket) :: log) := by
  refine ⟨?_, h.ids, ?_⟩
  · have hwrites := Log.writesOn_wrote (S := postgres) RowWrite.booked (.cardBucket id bucket) log
    have hsame : Log.writesOn (S := postgres) RowWrite.booked log = ws := h.writes
    rw [hsame] at hwrites
    exact hwrites
  · intro y hy r hr
    rcases List.mem_cons.mp hy with heq | hy
    · cases heq
      cases hr
    · exact (h.fresh y hy r hr).keep _

end Logs

/-- What one transaction may post: nothing, or a row together with its event. -/
inductive Posting : List RowWrite → Prop where
  | nothing : Posting []
  | created (c : Card) (e : CardEvent) (card : e.cardId = c.id) (type : e.eventType = "card_created")
      (bucket : e.entered = some (.str c.currentBucket)) : Posting [.cardEvent e, .card c]
  | moved (id : Uuid) (bucket : String) (e : CardEvent) (card : e.cardId = id)
      (type : e.eventType = "card_moved" ∨ e.eventType = "artifact_submitted")
      (entered : e.entered = some (.str bucket)) : Posting [.cardEvent e, .cardBucket id bucket]
  | claimed (l : Lease) (e : CardEvent) (type : e.eventType = "card_claimed") :
      Posting [.cardEvent e, .lease l]

def Posted (log : Log postgres) : Prop := ∃ ws, Posting ws ∧ Booking ws log

theorem Posted.keep : Log.Kept OffBook Posted := by
  rintro o log ho ⟨ws, hws, h⟩
  exact ⟨ws, hws, Booking.keep o log ho h⟩

theorem Booking.posted {log : Log postgres} (h : Booking [] log) : Posted log := ⟨[], .nothing, h⟩

/-- Nothing booked so far, and the card has been seen. -/
structure HasSeen (id : Uuid) (log : Log postgres) : Prop where
  booking : Booking [] log
  saw : SawCard id log

theorem HasSeen.keep {id : Uuid} : Log.Kept OffBook (HasSeen id) :=
  fun o log ho h => ⟨Booking.keep o log ho h.booking, h.saw.keep o⟩

namespace PostgresCardRuntime

section Bodies
variable {log : Log postgres} {ws : List RowWrite} {α β : Type} {w : World}
variable (engine : Engine)

/-- An event is drawn up and inserted. -/
theorem after_bookedEvent {cardId : Uuid} {type : String} {actor : Option String}
    {payload : JsonObj} {f : CardEvent → Tx β} {R : β → Log postgres → Prop}
    (hlog : Booking ws log)
    (hf : ∀ e log', e.cardId = cardId → e.eventType = type → e.payload = payload →
      Booking (if e.booked then .cardEvent e :: ws else ws) log' →
      (f e).Spec BookFits Always R log') :
    (newEvent cardId type actor payload >>= fun e => insertEvent engine e >>= fun _ => f e).Spec
      BookFits Always R log := by
  refine (newEvent_spec (P := Always) cardId type actor payload trivial (fun _ => trivial)
    fun _ _ => trivial).bind ?_
  rintro e log' - ⟨u, t, rfl, rfl⟩
  have hnext : Booking ws (.clock t :: .ident u :: log) :=
    Booking.keep _ _ trivial (Booking.keep _ _ trivial hlog)
  refine Txn.Spec.bind (Q := fun _ => Booking (if CardEvent.booked ⟨u, cardId, type, actor, payload,
    t⟩ then .cardEvent ⟨u, cardId, type, actor, payload, t⟩ :: ws else ws)) ?_
      fun _ log' _ hbooking => hf _ log' rfl rfl rfl hbooking
  refine .insert trivial (fun _ => trivial) fun d hd hfree => ⟨trivial, ?_⟩
  exact hnext.insert (x := .cardEvent ⟨u, cardId, type, actor, payload, t⟩) (r := .event u) rfl
    hfree (hd.2 d rfl)

/-- An event that does not count. -/
theorem after_note {cardId : Uuid} {type : String} {actor : Option String}
    {payload : JsonObj} {f : CardEvent → Tx β} {R : β → Log postgres → Prop}
    (hlog : Booking ws log) (htype : type ∉ CardEvent.bookedTypes)
    (hf : ∀ e log', Booking ws log' → (f e).Spec BookFits Always R log') :
    (newEvent cardId type actor payload >>= fun e => insertEvent engine e >>= fun _ => f e).Spec
      BookFits Always R log := by
  refine after_bookedEvent engine hlog fun e log' _ htype' _ hbooking => hf e log' ?_
  have hbooked : e.booked = false := by
    rw [CardEvent.booked, htype']
    exact decide_eq_false htype
  rwa [hbooked, if_neg Bool.false_ne_true] at hbooking

/-- An event that counts. -/
theorem after_entry {cardId : Uuid} {type : String} {actor : Option String}
    {payload : JsonObj} {f : CardEvent → Tx β} {R : β → Log postgres → Prop}
    (hlog : Booking ws log) (htype : type ∈ CardEvent.bookedTypes)
    (hf : ∀ e log', e.cardId = cardId → e.eventType = type → e.payload = payload →
      Booking (.cardEvent e :: ws) log' → (f e).Spec BookFits Always R log') :
    (newEvent cardId type actor payload >>= fun e => insertEvent engine e >>= fun _ => f e).Spec
      BookFits Always R log := by
  refine after_bookedEvent engine hlog fun e log' hid htype' hbody hbooking =>
    hf e log' hid htype' hbody ?_
  have hbooked : e.booked = true := by
    rw [CardEvent.booked, htype']
    exact decide_eq_true htype
  rwa [hbooked, if_pos rfl] at hbooking

/-- The answer is stored, and the transaction returns. -/
theorem finish_posted {key : Option String} {operation : String} {ref : ResponseRef} (a : α)
    (hlog : Posted log) :
    (storeIdempotency key operation ref >>= fun _ => pure a).Spec BookFits Always
      (fun _ => Posted) log := by
  refine .after_kept (W := OffBook) Posted.keep
    (storeIdempotency_writes key _ _ fun _ _ => ⟨rfl, rfl⟩) hlog fun _ log hlog => ?_
  exact ⟨trivial, hlog⟩

/-- What an operation does behind its key. -/
theorem idempotent_posted {key : Option String} {replay : ResponseRef → Tx α} {body : Tx α}
    (hreplay : ∀ ref, (replay ref).Writes OffBook)
    (hbody : ∀ log, Booking [] log → body.Spec BookFits Always (fun _ => Posted) log)
    (hlog : Booking [] log) :
    (idempotent key replay body).Spec BookFits Always (fun _ => Posted) log :=
  idempotent_kept Booking.keep Posted.keep hreplay (fun _ => Booking.posted) hbody hlog

theorem getCard_seen (id : Uuid) (hlog : Booking [] log) :
    (getCard id).Spec BookFits Always (fun c log' => c.id = id ∧ HasSeen c.id log') log := by
  unfold getCard
  refine (Txn.Spec.query (Q := fun (d : Tables) log' => log' = .saw (.card id) d :: log ∧
    ∀ x c, d.cards.get? x = some c → c.id = x) trivial fun d hd =>
      ⟨trivial, rfl, (hd.1 d rfl).1⟩).bind ?_
  rintro d log' - ⟨rfl, hkeys⟩
  cases hget : d.cards.get? id with
  | none => trivial
  | some c =>
    have hid : c.id = id := hkeys id c hget
    refine ⟨trivial, hid, Booking.keep _ _ trivial hlog, _, List.mem_cons_self, d, rfl, ?_⟩
    rw [hid]
    exact Dict.contains_of_get? hget

/-- The card that was seen is still there for the UPDATE, which waits for its row. -/
theorem updateCardBucket_booked {id : Uuid} (bucket : String) (hlog : HasSeen id log) :
    (updateCardBucket id bucket).Spec BookFits Always
      (fun _ => Booking [.cardBucket id bucket]) log := by
  have hstays : ∀ {log : Log postgres} {o : Obs postgres} {d : Tables}, SawCard id log →
      BookFits log o → o.data = some d → d.cards.contains id = true := by
    intro log o d hsaw ho hd
    obtain ⟨o', ho', d', hd', hcontains⟩ := hsaw
    exact ((ho.1 d hd).2 o' ho' d' hd').cards id hcontains
  unfold updateCardBucket Txn.update
  refine (Txn.Spec.query (Q := fun (d : Tables) log' => log' = .saw (.card id) d :: log ∧
    d.cards.contains id = true) trivial fun d hd => ⟨trivial, rfl, hstays hlog.saw hd rfl⟩).bind ?_
  rintro d log' - ⟨rfl, hcontains⟩
  simp only [hcontains, if_true, Txn.forEach, Txn.updateRow]
  refine Txn.Spec.bind (Q := fun _ => Booking [.cardBucket id bucket]) ?_
    fun _ _ _ hbooking => ⟨trivial, hbooking⟩
  refine (Txn.Spec.lockRow (Q := fun (d' : Tables) log' => log' = .locked (.card id) d' ::
    .saw (.card id) d :: log ∧ d'.cards.contains id = true) trivial fun d' hd' =>
      ⟨trivial, rfl, hstays (hlog.saw.keep _) hd' rfl⟩).bind ?_
  rintro d' log' - ⟨rfl, hcontains'⟩
  rw [if_pos hcontains']
  have hlocked : Booking [] (.locked (.card id) d' :: .saw (.card id) d :: log) :=
    Booking.keep _ _ trivial (Booking.keep _ _ trivial hlog.booking)
  exact .put trivial trivial (hlocked.bucket id bucket)

/-- A card is moved, by the event that belongs to the move or by one that follows. -/
theorem moveCardRow_booked (c : Card) (bucket : String) (actor reason : Option String)
    (emitEvent : Bool) (hlog : HasSeen c.id log) :
    (moveCardRow engine c bucket actor reason emitEvent).Spec BookFits Always (fun _ log' =>
      if emitEvent then Posted log' else Booking [.cardBucket c.id bucket] log') log := by
  refine .after_kept (W := OffBook) HasSeen.keep .now hlog fun now log hlog => ?_
  refine .after_kept (W := OffBook) HasSeen.keep
    (exitLocations_writes engine c.id now fun _ => ⟨rfl, rfl⟩) hlog fun _ log hlog => ?_
  refine .after_kept (W := OffBook) HasSeen.keep .fresh hlog fun id log hlog => ?_
  refine .after_kept (W := OffBook) HasSeen.keep (insertLocation_writes engine ⟨rfl, rfl⟩) hlog
    fun _ log hlog => ?_
  refine (updateCardBucket_booked bucket hlog).bind fun _ log _ hbooking => ?_
  cases emitEvent with
  | false => exact ⟨trivial, hbooking⟩
  | true =>
    refine after_entry engine hbooking (by decide) fun e log hid htype hbody hentry => ?_
    have hentered : e.entered = some (.str bucket) := by
      simp [CardEvent.entered, htype, hbody, JsonObj.get?, Dict.lookupIn]
    exact ⟨trivial, _, .moved c.id bucket e hid (.inl htype) hentered, hentry⟩

/-! The operations. -/

theorem createCard_posted (panel : String) (payload : JsonObj) (metadata : Option JsonObj)
    (key : Option String) (hlog : Booking [] log) :
    (createCard engine panel payload metadata key).Spec BookFits Always (fun _ => Posted) log := by
  refine idempotent_posted cachedCard_writes (fun log hlog => ?_) hlog
  refine .after_kept (W := OffBook) Booking.keep (getActivePatchPanel_writes engine panel) hlog
    fun p log hlog => ?_
  refine .after_kept (W := OffBook) Booking.keep (.ofExcept _) hlog fun bucket log hlog => ?_
  refine .after_kept (W := OffBook) Booking.keep .fresh hlog fun id log hlog => ?_
  refine .after_kept (W := OffBook) Booking.keep .now hlog fun createdAt log hlog => ?_
  let c : Card := ⟨id, p.workflowVersion, bucket, payload, metadata.getD [], createdAt⟩
  refine Txn.Spec.bind (Q := fun _ => Booking [.card c]) ?_ fun _ log _ hbooking => ?_
  · refine .insert trivial (fun _ => trivial) fun d hd hfree => ⟨trivial, ?_⟩
    exact hlog.insert (x := .card c) (r := .card id) rfl hfree (hd.2 d rfl)
  · refine .after_kept (W := OffBook) Booking.keep .fresh hbooking fun locationId log hbooking => ?_
    refine .after_kept (W := OffBook) Booking.keep (insertLocation_writes engine ⟨rfl, rfl⟩)
      hbooking fun _ log hbooking => ?_
    refine after_entry engine hbooking (by decide) fun e log hid htype hbody hentry => ?_
    have hentered : e.entered = some (.str c.currentBucket) := by
      simp [CardEvent.entered, htype, hbody, JsonObj.get?, Dict.lookupIn, c]
    exact finish_posted _ ⟨_, .created c e hid htype hentered, hentry⟩

theorem claimCard_posted (pipe worker : String) (seconds : Int) (key : Option String)
    (hlog : Booking [] log) :
    (claimCard engine pipe worker seconds key).Spec BookFits Always (fun _ => Posted) log := by
  refine idempotent_posted cachedLease_writes (fun log hlog => ?_) hlog
  refine .after_kept (W := OffBook) Booking.keep singlePatchPanel_writes hlog fun p log hlog => ?_
  refine .after_kept (W := OffBook) Booking.keep (.ofExcept _) hlog fun target log hlog => ?_
  refine .after_kept (W := OffBook) Booking.keep .now hlog fun now log hlog => ?_
  refine .after_kept (W := OffBook) Booking.keep (selectClaimable_writes engine _ now) hlog
    fun found log hlog => ?_
  cases found with
  | none => trivial
  | some card =>
    refine .after_kept (W := OffBook) Booking.keep (newLease_writes card _ _ _ _) hlog
      fun lease log hlog => ?_
    refine Txn.Spec.bind (Q := fun _ => Booking [.lease lease]) ?_ fun _ log _ hbooking => ?_
    · refine .insert trivial (fun _ => trivial) fun d hd hfree => ⟨trivial, ?_⟩
      exact hlog.insert (x := .lease lease) (r := .lease lease.id) rfl hfree (hd.2 d rfl)
    · refine after_entry engine hbooking (by decide) fun e log _ htype _ hentry => ?_
      exact finish_posted _ ⟨_, .claimed lease e htype, hentry⟩

theorem submitArtifact_posted (leaseId : Uuid) (pipe : String) (refs : List ArtifactReference)
    (key : Option String) (hlog : Booking [] log) :
    (submitArtifact engine w leaseId pipe refs key).Spec BookFits Always (fun _ => Posted) log := by
  refine idempotent_posted cachedArtifacts_writes (fun log hlog => ?_) hlog
  refine .after_kept (W := OffBook) Booking.keep (getLease_writes leaseId) hlog
    fun lease log hlog => ?_
  refine .after_kept (W := OffBook) Booking.keep (ensureActiveLease_writes lease) hlog
    fun _ log hlog => ?_
  refine (getCard_seen lease.cardId hlog).bind fun c log _ hseen => ?_
  obtain ⟨-, hlog⟩ := hseen
  refine .after_kept (W := OffBook) HasSeen.keep (getPatchPanelForCard_writes c) hlog
    fun p log hlog => ?_
  refine .after_kept (W := OffBook) HasSeen.keep (.ofExcept _) hlog fun target log hlog => ?_
  refine .after_kept (W := OffBook) HasSeen.keep (.ofExcept _) hlog fun _ log hlog => ?_
  refine .after_kept (W := OffBook) HasSeen.keep (.ofExcept _) hlog fun _ log hlog => ?_
  refine .after_kept (W := OffBook) HasSeen.keep (.ensure _ _) hlog fun _ log hlog => ?_
  refine (moveCardRow_booked engine c _ _ _ false hlog).bind fun _ log _ hbooking => ?_
  rw [if_neg Bool.false_ne_true] at hbooking
  refine .after_kept (W := OffBook) Booking.keep .now hbooking fun releasedAt log hbooking => ?_
  refine .after_kept (W := OffBook) Booking.keep (updateLease_writes lease.id ⟨rfl, rfl⟩) hbooking
    fun _ log hbooking => ?_
  refine after_entry engine hbooking (by decide) fun e log hid htype hbody hentry => ?_
  have hentered : e.entered = some (.str target.1) := by
    simp [CardEvent.entered, htype, hbody, JsonObj.get?, Dict.lookupIn]
  have hposted : Posted log := ⟨_, .moved c.id target.1 e hid (.inr htype) hentered, hentry⟩
  refine .after_kept (W := OffBook) Posted.keep (.forEach (fun ref => insertArtifact_writes
    (W := OffBook) engine ⟨rfl, rfl⟩) _) hposted fun _ log hposted => ?_
  exact finish_posted _ hposted

theorem renewLease_posted (leaseId : Uuid) (seconds : Int) (key : Option String)
    (hlog : Booking [] log) :
    (renewLease engine leaseId seconds key).Spec BookFits Always (fun _ => Posted) log := by
  refine idempotent_posted cachedLease_writes (fun log hlog => ?_) hlog
  refine .after_kept (W := OffBook) Booking.keep (getLease_writes leaseId) hlog
    fun lease log hlog => ?_
  refine .after_kept (W := OffBook) Booking.keep (ensureActiveLease_writes lease) hlog
    fun _ log hlog => ?_
  refine .after_kept (W := OffBook) Booking.keep (expiryAfter_writes seconds) hlog
    fun expiresAt log hlog => ?_
  refine .after_kept (W := OffBook) Booking.keep (updateLease_writes lease.id ⟨rfl, rfl⟩) hlog
    fun _ log hlog => ?_
  exact after_note engine hlog (by decide) fun _ log hlog => finish_posted _ hlog.posted

theorem releaseLease_posted (leaseId : Uuid) (actor key : Option String) (hlog : Booking [] log) :
    (releaseLease engine leaseId actor key).Spec BookFits Always (fun _ => Posted) log := by
  refine idempotent_posted cachedLease_writes (fun log hlog => ?_) hlog
  refine .after_kept (W := OffBook) Booking.keep (getLease_writes leaseId) hlog
    fun lease log hlog => ?_
  split
  · exact ⟨trivial, hlog.posted⟩
  · refine .after_kept (W := OffBook) Booking.keep .now hlog fun releasedAt log hlog => ?_
    refine .after_kept (W := OffBook) Booking.keep (updateLease_writes lease.id ⟨rfl, rfl⟩) hlog
      fun _ log hlog => ?_
    exact after_note engine hlog (by decide) fun _ log hlog => finish_posted _ hlog.posted

theorem expireEach_booked (now : Instant) (ls : List Lease) (hlog : Booking [] log) :
    (expireEach engine now ls).Spec BookFits Always (fun _ => Booking []) log := by
  induction ls generalizing log with
  | nil => exact ⟨trivial, hlog⟩
  | cons lease rest ih =>
    refine .after_kept (W := OffBook) Booking.keep (updateLease_writes lease.id ⟨rfl, rfl⟩) hlog
      fun _ log hlog => ?_
    refine after_note engine hlog (by decide) fun _ log hlog => ?_
    exact (ih hlog).bind fun _ _ _ hlog => ⟨trivial, hlog⟩

theorem expireLeases_posted (now : Instant) (hlog : Booking [] log) :
    (expireLeases engine now).Spec BookFits Always (fun _ => Posted) log := by
  refine .after_kept (W := OffBook) Booking.keep (.query _) hlog fun d log hlog => ?_
  exact (expireEach_booked engine now _ hlog).mono fun _ _ _ h => h.posted

/-- Along its output pipe a verdict posts a move, without one it posts nothing. -/
theorem validationRoute_posted (c : Card) (validator : String) (pipe : Option String)
    (hlog : HasSeen c.id log) :
    (validationRoute engine c validator pipe).Spec BookFits Always (fun _ => Posted) log := by
  unfold validationRoute
  split
  · exact ⟨trivial, hlog.booking.posted⟩
  · refine .after_kept (W := OffBook) HasSeen.keep (getPatchPanelForCard_writes c) hlog
      fun p log hlog => ?_
    refine .after_kept (W := OffBook) HasSeen.keep (.ofExcept _) hlog fun target log hlog => ?_
    exact (moveCardRow_booked engine c _ _ _ true hlog).bind fun _ _ _ hposted =>
      ⟨trivial, hposted⟩

theorem validateCard_posted (cardId : Uuid) (validator : String) (accepted : Bool)
    (reason pipe : Option String) (payload : Option JsonObj) (key : Option String)
    (hlog : Booking [] log) :
    (validateCard engine cardId validator accepted reason pipe payload key).Spec BookFits Always
      (fun _ => Posted) log := by
  refine idempotent_posted cachedEvent_writes (fun log hlog => ?_) hlog
  refine (getCard_seen cardId hlog).bind fun c log _ hseen => ?_
  obtain ⟨-, hlog⟩ := hseen
  refine .after_kept (W := OffBook) HasSeen.keep .fresh hlog fun id log hlog => ?_
  refine .after_kept (W := OffBook) HasSeen.keep .now hlog fun createdAt log hlog => ?_
  refine .after_kept (W := OffBook) HasSeen.keep
    (insertValidationResult_writes engine ⟨rfl, rfl⟩) hlog fun _ log hlog => ?_
  refine (validationRoute_posted engine c validator pipe hlog).bind fun route log _ hposted => ?_
  obtain ⟨ws, hws, hbooking⟩ := hposted
  exact after_note engine hbooking (by decide) fun _ log hbooking =>
    finish_posted _ ⟨ws, hws, hbooking⟩

theorem moveCard_posted (cardId : Uuid) (bucket : String) (actor reason key : Option String)
    (hlog : Booking [] log) :
    (moveCard engine cardId bucket actor reason key).Spec BookFits Always (fun _ => Posted) log := by
  refine idempotent_posted cachedCard_writes (fun log hlog => ?_) hlog
  refine (getCard_seen cardId hlog).bind fun c log _ hseen => ?_
  obtain ⟨-, hlog⟩ := hseen
  refine .after_kept (W := OffBook) HasSeen.keep (getPatchPanelForCard_writes c) hlog
    fun p log hlog => ?_
  refine .after_kept (W := OffBook) HasSeen.keep (.ofExcept _) hlog fun _ log hlog => ?_
  exact (moveCardRow_booked engine c _ _ _ true hlog).bind fun _ log _ hposted =>
    finish_posted _ hposted

theorem recordEvent_posted (cardId : Uuid) {type : String} (actor : Option String)
    (payload : Option JsonObj) (key : Option String) (htype : evidenceType type = true)
    (hlog : Booking [] log) :
    (recordEvent engine cardId type actor payload key).Spec BookFits Always (fun _ => Posted)
      log := by
  refine idempotent_posted cachedEvent_writes (fun log hlog => ?_) hlog
  refine .after_kept (W := OffBook) Booking.keep (getCard_writes cardId) hlog fun _ log hlog => ?_
  have hnot : type ∉ CardEvent.bookedTypes := by
    intro hmem
    have hother : ∀ t ∈ CardEvent.bookedTypes, evidenceType t = false := by decide
    rw [hother type hmem] at htype
    cases htype
  exact after_note engine hlog hnot fun _ log hlog => finish_posted _ hlog.posted

end Bodies

end PostgresCardRuntime

namespace Transaction

/-- The types with which this repository calls `record_event`. -/
def evidence : Transaction → Bool
  | keyed (.recordEvent _ type _ _) _ => evidenceType type
  | _ => true

theorem book_spec (engine : Engine) (w : World) {c : Transaction} (hc : c.evidence = true) :
    (c.program engine w).Spec BookFits Always (fun _ => Posted) [] := by
  have hreturn : ∀ {α : Type} {x : Tx α} {log : Log postgres},
      x.Spec BookFits Always (fun _ => Posted) log →
      (x >>= fun _ => pure ()).Spec BookFits Always (fun _ => Posted) log :=
    fun hx => hx.bind fun _ _ _ hposted => ⟨trivial, hposted⟩
  cases c with
  | registerPatchPanel p =>
    refine .after_kept (W := OffBook) Booking.keep (.ofExcept _) .nil fun _ log hlog => ?_
    refine .after_kept (W := OffBook) Booking.keep .now hlog fun now log hlog => ?_
    refine .after_kept (W := OffBook) Booking.keep (registerPatchPanel_writes engine p now fun x hx => ?_)
      hlog fun _ _ hlog => ⟨trivial, hlog.posted⟩
    cases x <;> first | exact ⟨rfl, rfl⟩ | cases hx
  | expireLeases =>
    refine .after_kept (W := OffBook) Booking.keep .now .nil fun now log hlog => ?_
    exact hreturn (PostgresCardRuntime.expireLeases_posted engine now hlog)
  | keyed call key =>
    cases call with
    | createCard panel payload metadata =>
      exact hreturn (PostgresCardRuntime.createCard_posted engine panel payload metadata key .nil)
    | claimCard pipe worker seconds =>
      exact hreturn (PostgresCardRuntime.claimCard_posted engine pipe worker seconds key .nil)
    | submitArtifact lease pipe refs =>
      exact hreturn (PostgresCardRuntime.submitArtifact_posted engine lease pipe refs key .nil)
    | renewLease lease seconds =>
      exact hreturn (PostgresCardRuntime.renewLease_posted engine lease seconds key .nil)
    | releaseLease lease actor =>
      exact hreturn (PostgresCardRuntime.releaseLease_posted engine lease actor key .nil)
    | validateCard card validator accepted reason pipe payload =>
      exact hreturn (PostgresCardRuntime.validateCard_posted engine card validator accepted reason
        pipe payload key .nil)
    | moveCard card bucket actor reason =>
      exact hreturn (PostgresCardRuntime.moveCard_posted engine card bucket actor reason key .nil)
    | recordEvent card type actor payload =>
      exact hreturn (PostgresCardRuntime.recordEvent_posted engine card actor payload key hc .nil)

end Transaction

/-! ## Commits -/

namespace RowWrite

theorem cardsKeyed_apply (x : RowWrite) {d : Tables} (h : d.CardsKeyed) : (x.apply d).CardsKeyed := by
  cases x with
  | card c => exact Dict.forall_values_set h rfl
  | cardBucket id bucket =>
    intro id' c hc
    simp only [apply, Dict.get?_modify] at hc
    split at hc
    · rename_i hid
      obtain ⟨c', hc', rfl⟩ := Option.map_eq_some_iff.mp hc
      exact (h id c' hc').trans hid.symm
    · exact h id' c hc
  | _ => exact h

theorem filterMap_event?_booked (xs : List RowWrite) :
    (xs.filterMap event?).filter (·.booked) = (xs.filter booked).filterMap event? := by
  induction xs with
  | nil => rfl
  | cons x xs ih =>
    cases x with
    | cardEvent e =>
      have hbooked : booked (cardEvent e) = e.booked := rfl
      have hevent : event? (cardEvent e) = some e := rfl
      rw [List.filterMap_cons_some hevent]
      cases he : e.booked with
      | true =>
        rw [List.filter_cons_of_pos he, List.filter_cons_of_pos (hbooked.trans he),
          List.filterMap_cons_some hevent, ih]
      | false =>
        rw [List.filter_cons_of_neg (ne_true_of_eq_false he),
          List.filter_cons_of_neg (ne_true_of_eq_false (hbooked.trans he)), ih]
    | _ => exact ih

end RowWrite

theorem book_growth : Growth postgres Tables.CardsKeyed Tables.PlacesStay where
  refl := places_growth.refl
  trans := places_growth.trans
  apply x d _ := places_growth.apply x d trivial
  mono := places_growth.mono
  keeps x _ h := x.cardsKeyed_apply h

section Commit
variable {log : Log postgres} {ws : List RowWrite} {d d' : Tables}

theorem view_has (log : Log postgres) (d : Tables) (r : NewKey) :
    Tables.has (log.view d) r = true ↔ (∃ x, .wrote x ∈ log ∧ x.newKey = some r) ∨ d.has r = true := by
  rw [Log.view_writes, RowWrite.has_foldr]
  exact or_congr_left (exists_congr fun _ => and_congr_left' Log.mem_writes_iff)

/-- What a log makes of the cards and of the keys of the leases, it makes by its bookings. -/
theorem view_bookings (log : Log postgres) (d : Tables) :
    (log.view d).cards = ((bookings log).foldr postgres.apply d).cards ∧
      (log.view d).leases.keys = ((bookings log).foldr postgres.apply d).leases.keys := by
  refine Prod.mk.inj (Log.view_writesOn (S := postgres) (p := RowWrite.booked)
    (fun d : Tables => (d.cards, d.leases.keys)) (fun x d hx => ?_) (fun x d d' h => ?_) log d)
  · cases x <;> first | rfl | exact Prod.ext rfl (Dict.keys_modify _ _ _) | cases hx
  · obtain ⟨hcards, hleases⟩ := Prod.mk.inj h
    cases x <;> simp only [RowWrite.apply, hcards, hleases, Dict.keys_set, Dict.keys_modify]

/-- The bookings of a transaction come last in the book. -/
theorem Booking.view_book (h : Booking ws log)
    (hfacts : ∀ r, bookFacts.Holds log r → bookFacts.fact d r) :
    Tables.book (log.view d) = d.book ++ (ws.filterMap RowWrite.event?).reverse := by
  have hvalues : (log.view d).cardEvents.values = d.cardEvents.values ++ (eventsIn log).reverse := by
    rw [Log.view_writes]
    refine RowWrite.values_foldr log.writes d h.ids fun e he => ?_
    exact hfacts (.event e.id) (h.fresh _ (mem_eventsIn_iff.mp he) _ rfl)
  rw [Tables.book, hvalues, List.filter_append, List.filter_reverse, eventsIn,
    RowWrite.filterMap_event?_booked]
  change d.book ++ ((bookings log).filterMap RowWrite.event?).reverse = _
  rw [h.writes]

/-- The card or lease that a transaction books was not there before. -/
theorem Booking.free (h : Booking ws log) (hfacts : ∀ r, bookFacts.Holds log r → bookFacts.fact d r)
    {x : RowWrite} {r : NewKey} (hx : x ∈ ws) (hkey : x.newKey = some r) : d.has r = false := by
  have hmem : x ∈ bookings log := h.writes ▸ hx
  exact hfacts r (h.fresh x (Log.mem_writes_iff.mp (List.mem_filter.mp hmem).1) r hkey)

namespace Tables

/-- Only the book counts. -/
theorem booked_iff : d.Booked ↔ d.CardsKeyed ∧
    (∀ id c, d.cards.get? id = some c →
      CardEvent.lastEntered (d.book.filter fun e => e.cardId = id) = some (.str c.currentBucket)) ∧
    d.book.countP (·.isCreation) = d.cards.keys.length ∧
    d.book.countP (·.isClaim) = d.leases.keys.length := by
  constructor
  · intro h
    refine ⟨h.keys, fun id c hc => ?_, ?_, ?_⟩
    · rw [← lastEntered_book]
      exact h.places id c hc
    · rw [← countP_book CardEvent.booked_of_isCreation, Dict.length_keys]
      exact h.created
    · rw [← countP_book CardEvent.booked_of_isClaim, Dict.length_keys]
      exact h.claimed
  · rintro ⟨hkeys, hplaces, hcreated, hclaimed⟩
    refine ⟨hkeys, fun id c hc => ?_, ?_, ?_⟩
    · rw [lastEntered_book]
      exact hplaces id c hc
    · rw [countP_book CardEvent.booked_of_isCreation, ← Dict.length_keys]
      exact hcreated
    · rw [countP_book CardEvent.booked_of_isClaim, ← Dict.length_keys]
      exact hclaimed

/-- One more event about a card that is now where the event has brought it. -/
theorem places_append {e : CardEvent} {c : Card}
    (hplaces : ∀ id c, d.cards.get? id = some c →
      CardEvent.lastEntered (d.book.filter fun e => e.cardId = id) = some (.str c.currentBucket))
    (hother : ∀ id, id ≠ e.cardId → d'.cards.get? id = d.cards.get? id)
    (hself : ∀ c, d'.cards.get? e.cardId = some c → e.entered = some (.str c.currentBucket))
    (hbook : d'.book = d.book ++ [e]) {id : Uuid} (hc : d'.cards.get? id = some c) :
    CardEvent.lastEntered (d'.book.filter fun e => e.cardId = id) = some (.str c.currentBucket) := by
  rw [hbook, List.filter_append]
  by_cases hid : e.cardId = id
  · rw [List.filter_cons_of_pos (by simpa using hid)]
    exact CardEvent.lastEntered_append _ (hself c (hid ▸ hc))
  · rw [List.filter_cons_of_neg (by simpa using hid), List.filter_nil, List.append_nil]
    rw [hother id fun heq => hid heq.symm] at hc
    exact hplaces id c hc

end Tables

/-- At its commit a transaction keeps the ledger, if the keys that it found free still are. -/
theorem Posted.booked (h : Posted log) (hd : d.Booked)
    (hfacts : ∀ r, bookFacts.Holds log r → bookFacts.fact d r) : Tables.Booked (log.view d) := by
  obtain ⟨ws, hws, hbooking⟩ := h
  obtain ⟨hcards, hleases⟩ := view_bookings log d
  have hbook := hbooking.view_book hfacts
  rw [hbooking.writes] at hcards hleases
  obtain ⟨hkeys, hplaces, hcreated, hclaimed⟩ := Tables.booked_iff.mp hd
  refine Tables.booked_iff.mpr ⟨book_growth.view_keeps log hkeys, ?_⟩
  cases hws with
  | nothing =>
    have hsame : Tables.book (log.view d) = d.book := hbook.trans (List.append_nil _)
    rw [hsame, hcards, hleases]
    exact ⟨hplaces, hcreated, hclaimed⟩
  | created c e hcard htype hbucket =>
    have hnew : d.cards.get? c.id = none := by
      have hfree := hbooking.free hfacts (x := .card c) (by simp) rfl
      exact Option.isSome_eq_false_iff.mp hfree |> Option.isNone_iff_eq_none.mp
    have hset : (log.view d).cards = d.cards.set c.id c := hcards
    have hposted : Tables.book (log.view d) = d.book ++ [e] := hbook
    refine ⟨fun id c' hc' => ?_, ?_, ?_⟩
    · refine Tables.places_append hplaces (fun id hid => ?_) (fun c' hc' => ?_) hposted hc'
      · rw [hset]
        exact Dict.get?_set_ne _ _ (hcard ▸ hid)
      · rw [hset, hcard, Dict.get?_set_self] at hc'
        cases hc'
        exact hbucket
    · rw [hposted, hset, Dict.keys_set_of_new hnew, List.countP_append, hcreated, List.length_append]
      simp [CardEvent.isCreation, htype]
    · have hsame : (log.view d).leases.keys = d.leases.keys := hleases
      rw [hposted, hsame, List.countP_append, hclaimed]
      simp [CardEvent.isClaim, htype]
  | moved id bucket e hcard htype hentered =>
    have hset : (log.view d).cards =
        d.cards.modify id fun c => { c with currentBucket := bucket } := hcards
    have hposted : Tables.book (log.view d) = d.book ++ [e] := hbook
    refine ⟨fun id' c' hc' => ?_, ?_, ?_⟩
    · refine Tables.places_append hplaces (fun id' hid' => ?_) (fun c' hc' => ?_) hposted hc'
      · rw [hset, Dict.get?_modify, if_neg (hcard ▸ hid')]
      · rw [hset, hcard, Dict.get?_modify, if_pos rfl] at hc'
        obtain ⟨c₀, -, rfl⟩ := Option.map_eq_some_iff.mp hc'
        exact hentered
    · rw [hposted, hset, Dict.keys_modify, List.countP_append, hcreated]
      rcases htype with htype | htype <;> simp [CardEvent.isCreation, htype]
    · have hsame : (log.view d).leases.keys = d.leases.keys := hleases
      rw [hposted, hsame, List.countP_append, hclaimed]
      rcases htype with htype | htype <;> simp [CardEvent.isClaim, htype]
  | claimed l e htype =>
    have hnew : l.id ∉ d.leases.keys := by
      have hfree := hbooking.free hfacts (x := .lease l) (by simp) rfl
      rw [← Dict.get?_eq_none_iff]
      exact Option.isSome_eq_false_iff.mp hfree |> Option.isNone_iff_eq_none.mp
    have hsame : (log.view d).cards = d.cards := hcards
    have hset : (log.view d).leases.keys = (d.leases.set l.id l).keys := hleases
    have hposted : Tables.book (log.view d) = d.book ++ [e] := hbook
    have hentered : e.entered = none := by simp [CardEvent.entered, htype]
    refine ⟨fun id c' hc' => ?_, ?_, ?_⟩
    · rw [hsame] at hc'
      rw [hposted, List.filter_append, ← hplaces id c' hc']
      by_cases hid : e.cardId = id
      · rw [List.filter_cons_of_pos (by simpa using hid)]
        exact CardEvent.lastEntered_append_none _ hentered
      · rw [List.filter_cons_of_neg (by simpa using hid), List.filter_nil, List.append_nil]
    · rw [hposted, hsame, List.countP_append, hcreated]
      simp [CardEvent.isCreation, htype]
    · rw [hposted, hset, Dict.keys_set, if_neg hnew, List.countP_append, hclaimed,
        List.length_append]
      simp [CardEvent.isClaim, htype]

/-- Without its lock nobody inserts a row under a key that another has found free. -/
theorem Posted.keeps (h : Posted log) {r : NewKey} (hlock : bookFacts.lock r ∉ log.locks)
    (hfree : d.has r = false) : Tables.has (log.view d) r = false := by
  obtain ⟨ws, -, hbooking⟩ := h
  rw [← Bool.not_eq_true, view_has]
  rintro (⟨x, hx, hkey⟩ | hold)
  · exact hlock (hbooking.fresh x hx r hkey).mem_locks
  · rw [hfree] at hold
    cases hold

end Commit

/-! ## Runs -/

section Runs
variable {engine : Engine} {w : World} {σ : PgSystem}

/-- What a run of the runtime's transactions keeps. -/
structure LedgerState (σ : PgSystem) : Prop where
  calls : ∀ s ∈ σ.sessions, s.call.evidence = true
  grown : σ.Grown Tables.CardsKeyed Tables.PlacesStay
  orderly : σ.Orderly BookFits (fun _ => Always) (fun _ => Posted)
  facts : bookFacts.State σ
  booked : σ.data.Booked

theorem LedgerState.start {d : Tables} (hd : d.Booked) : LedgerState (PgSystem.init d) where
  calls s hs := by cases hs
  grown := .start hd.keys rfl
  orderly := .start rfl
  facts := .start rfl
  booked := hd

theorem LedgerState.step {a : Action Transaction} (h : LedgerState σ)
    (hcall : ∀ call, a = .begin call → call.evidence = true) :
    LedgerState (σ.step engine w a) := by
  have hmove : Move w.supply (Transaction.program engine w) σ (σ.step engine w a) :=
    System.step_move w.supply (Transaction.program engine w) σ a
  have hcalls : ∀ s ∈ (σ.step engine w a).sessions, s.call.evidence = true :=
    System.step_calls h.calls hcall
  have hdone : ∀ {i : Nat} {s : PgSession}, Commits σ (σ.step engine w a) i s → Posted s.log := by
    intro i s hcommits
    obtain ⟨b, hrest⟩ := hcommits.rest
    exact h.orderly.result hcommits.session hrest
  refine ⟨hcalls, h.grown.moves book_growth hmove, ?_, ?_, ?_⟩
  · refine h.orderly.moves (fun i n s o rest hs hopen ho => ?_) (fun s hs => ?_) hmove
    · refine ⟨h.grown.follows book_growth hs hopen ho, fun d hd e he => ?_⟩
      rw [ho.data_eq hd, view_has]
      exact .inl ⟨_, mem_eventsIn_iff.mp he, rfl⟩
    · exact Transaction.book_spec engine w (hcalls s hs)
  · refine h.facts.moves h.orderly.apart ?_ ?_ hmove
    · intro i s r _ _ _ hfree
      change σ.data.has r = false
      change Tables.has (s.log.view σ.data) r = false at hfree
      rw [← Bool.not_eq_true] at hfree ⊢
      exact fun hold => hfree ((view_has s.log σ.data r).mpr (.inr hold))
    · intro i s r hcommits hlock hfree
      have hkept := (hdone hcommits).keeps hlock hfree
      rwa [← hcommits.data] at hkept
  · rcases hmove.data with hdata | ⟨i, s, hcommits⟩
    · exact hdata ▸ h.booked
    · rw [hcommits.data]
      exact (hdone hcommits).booked h.booked fun r hr =>
        h.facts i s r hcommits.session hcommits.opened hr

end Runs

end GhostMesh
