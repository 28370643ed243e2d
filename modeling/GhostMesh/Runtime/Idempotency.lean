import GhostMesh.Runtime.Calls
import GhostMesh.Runtime.PostgresSteps

/-!
# Idempotency keys

Eight operations share one key map. An entry is never overwritten or removed, so a
later call under the key is answered from it; whether it belongs to the operation is
only checked by the type of the result.
-/

set_option autoImplicit false

namespace GhostMesh

open InMemoryCardRuntime Op

/-- The operations that take an idempotency key. -/
inductive KeyedOperation where
  | createCard | claimCard | submitArtifact | renewLease | releaseLease | validateCard | moveCard
  | recordEvent
deriving DecidableEq

/-- What an operation returns. -/
inductive ResultType where
  | card | lease | artifacts | event
deriving DecidableEq

def KeyedOperation.result : KeyedOperation → ResultType
  | createCard | moveCard => .card
  | claimCard | renewLease | releaseLease => .lease
  | submitArtifact => .artifacts
  | validateCard | recordEvent => .event

/-- One call with all its arguments except the key. -/
inductive KeyedCall where
  | createCard (patchPanelId : String) (payload : JsonObj) (metadata : Option JsonObj)
  | claimCard (inputPipe workerId : String) (leaseSeconds : Int)
  | submitArtifact (leaseId : Uuid) (outputPipe : String) (refs : List ArtifactReference)
  | renewLease (leaseId : Uuid) (leaseSeconds : Int)
  | releaseLease (leaseId : Uuid) (actorId : Option String)
  | validateCard (cardId : Uuid) (validatorId : String) (accepted : Bool)
      (reason outputPipe : Option String) (payload : Option JsonObj)
  | moveCard (cardId : Uuid) (toBucket : String) (actorId reason : Option String)
  | recordEvent (cardId : Uuid) (eventType : String) (actorId : Option String)
      (payload : Option JsonObj)

namespace KeyedCall

def operation : KeyedCall → KeyedOperation
  | createCard _ _ _ => .createCard
  | claimCard _ _ _ => .claimCard
  | submitArtifact _ _ _ => .submitArtifact
  | renewLease _ _ => .renewLease
  | releaseLease _ _ => .releaseLease
  | validateCard _ _ _ _ _ _ => .validateCard
  | moveCard _ _ _ _ => .moveCard
  | recordEvent _ _ _ _ => .recordEvent

/-- The call on a runtime, with its result as a stored value. -/
def runOn {σ : Type} (R : CardRuntime σ) (key : Option String) : KeyedCall → Op σ Stored
  | createCard panel payload metadata => do
    let c ← R.createCard panel payload metadata key
    return .card c
  | claimCard pipe worker seconds => do
    let l ← R.claimCard pipe worker seconds key
    return .lease l
  | submitArtifact lease pipe refs => do
    let refs ← R.submitArtifact lease pipe refs key
    return .artifacts refs
  | renewLease lease seconds => do
    let l ← R.renewLease lease seconds key
    return .lease l
  | releaseLease lease actor => do
    let l ← R.releaseLease lease actor key
    return .lease l
  | validateCard card validator accepted reason pipe payload => do
    let e ← R.validateCard card validator accepted reason pipe payload key
    return .event e
  | moveCard card bucket actor reason => do
    let c ← R.moveCard card bucket actor reason key
    return .card c
  | recordEvent card type actor payload => do
    let e ← R.recordEvent card type actor payload key
    return .event e

/-- The call on the in-memory runtime. -/
abbrev run (key : Option String) (call : KeyedCall) : Rt Stored :=
  call.runOn InMemoryCardRuntime.runtime key

end KeyedCall

def Stored.result : Stored → ResultType
  | .card _ => .card
  | .lease _ => .lease
  | .artifacts _ => .artifacts
  | .event _ => .event

/-! ## The key map -/

section Keys
variable {s : InMemoryCardRuntime} {key key' : Option String} {v v' : Stored}

/-- Storing under a key that had no answer keeps the answers of all others. -/
theorem cached_putKey (hfresh : s.cached key' = none) (h : s.cached key = some v) :
    (s.putKey key' v').cached key = some v := by
  unfold putKey
  cases hkey' : truthyStr key' with
  | none => exact h
  | some k' =>
    cases hkey : truthyStr key with
    | none =>
      simp only [cached, hkey, Option.bind_none, Option.filter_none] at h
      cases h
    | some k =>
      have hne : k ≠ k' := by
        intro heq
        have hsame : s.cached key = s.cached key' := by
          simp only [cached, hkey, hkey', heq]
        rw [hsame, hfresh] at h
        cases h
      simp only [cached, hkey, Option.bind_some] at h ⊢
      rwa [Dict.get?_set_ne _ _ hne]

/-- Storing under a key answers the key. -/
theorem cached_putKey_self {k : String} (hkey : truthyStr key = some k) (hv : v.truthy = true) :
    (s.putKey key v).cached key = some v := by
  simp only [putKey, cached, hkey, Option.bind_some, Dict.get?_set_self]
  exact Option.filter_some_pos hv

/-- An answer after a store is an old one or the one stored. -/
theorem cached_putKey_cases {key key' : Option String} {v v' : Stored}
    (h : (s.putKey key' v').cached key = some v) : s.cached key = some v ∨ v = v' := by
  unfold putKey at h
  cases hkey' : truthyStr key' with
  | none =>
    rw [hkey'] at h
    exact .inl h
  | some k' =>
    rw [hkey'] at h
    unfold cached at h ⊢
    cases hkey : truthyStr key with
    | none =>
      rw [hkey] at h
      cases h
    | some k =>
      simp only [hkey, Option.bind_some, Dict.get?_set] at h ⊢
      split at h
      · right
        have hmem := Option.eq_some_of_filter_eq_some h
        exact (Option.some.inj hmem).symm
      · exact .inl h

theorem cached_putKey_some {k k' : String} (hk : k' ≠ "") (hv : v.truthy = true) :
    (s.putKey (some k') v).cached (some k) = if k = k' then some v else s.cached (some k) := by
  have htruthy : truthyStr (some k') = some k' := if_neg hk
  split
  · rename_i heq
    rw [heq]
    exact cached_putKey_self htruthy hv
  · rename_i hne
    unfold putKey
    rw [htruthy]
    unfold cached
    cases hkey : truthyStr (some k) with
    | none => rfl
    | some k₀ =>
      have hk₀ : k₀ = k := by
        simp only [truthyStr] at hkey
        split at hkey
        · cases hkey
        · exact (Option.some.inj hkey).symm
      simp only [Option.bind_some, hk₀, Dict.get?_set_ne _ _ hne]

theorem eq_of_truthyStr {k : String} (h : truthyStr key = some k) : key = some k := by
  unfold truthyStr at h
  split at h
  · split at h
    · cases h
    · exact h
  · cases h

@[simp] theorem cached_putCard (c : Card) : (s.putCard c).cached key = s.cached key := rfl
@[simp] theorem cached_putLease (l : Lease) : (s.putLease l).cached key = s.cached key := rfl
@[simp] theorem cached_putArtifacts (refs : List ArtifactReference) :
    (s.putArtifacts refs).cached key = s.cached key := rfl
@[simp] theorem cached_putEvent (e : CardEvent) : (s.putEvent e).cached key = s.cached key := rfl
@[simp] theorem cached_putPanel (p : PatchPanel) : (s.putPanel p).cached key = s.cached key := rfl
@[simp] theorem cached_routeCard (c : Card) (r : Option (String × String)) :
    (s.routeCard c r).cached key = s.cached key := by cases r <;> rfl

theorem cached_expires {t : Instant} {ls : List Lease} {s' : InMemoryCardRuntime}
    (h : Expires t ls s s') : s'.cached key = s.cached key :=
  h.keeps (fun s => s.cached key) fun _ _ _ => rfl

end Keys

/-- The step lemma: no effect takes an answer away or changes it. -/
theorem Effect.keeps_cached {w : World} {m m' : Machine InMemoryCardRuntime}
    {key : Option String} {v : Stored} (h : Effect w m m') (hv : m.store.cached key = some v) :
    m'.store.cached key = some v := by
  cases h with
  | same h =>
    rw [h.store]
    exact hv
  | registers p _ _ h =>
    rw [h]
    exact hv
  | creates h =>
    rw [h.store]
    exact cached_putKey h.uncached hv
  | claims h =>
    rw [h.store]
    exact cached_putKey h.uncached hv
  | submits h =>
    rw [h.store]
    exact cached_putKey h.uncached hv
  | renews h =>
    rw [h.store]
    exact cached_putKey h.uncached hv
  | releases h =>
    rw [h.store]
    exact cached_putKey h.uncached hv
  | expires h _ =>
    rw [cached_expires h]
    exact hv
  | validates h =>
    rw [h.store]
    apply cached_putKey
    · rw [cached_putEvent, cached_routeCard]
      exact h.uncached
    · rw [cached_putEvent, cached_routeCard]
      exact hv
  | moves h =>
    rw [h.store]
    exact cached_putKey h.uncached hv
  | records h =>
    rw [h.store]
    exact cached_putKey h.uncached hv

theorem effects_keep_cached {w : World} {m m' : Machine InMemoryCardRuntime}
    {key : Option String} {v : Stored} (h : Relation.ReflTransGen (Effect w) m m')
    (hv : m.store.cached key = some v) : m'.store.cached key = some v := by
  induction h with
  | refl => exact hv
  | tail _ heffect ih => exact heffect.keeps_cached ih

/-- The run lemma: an answer survives every sequence of calls. -/
theorem foldl_keeps_cached {w : World} {m : Machine InMemoryCardRuntime} {key : Option String}
    {v : Stored} (calls : List RuntimeCall) (hv : m.store.cached key = some v) :
    (calls.foldl (RuntimeCall.step w) m).store.cached key = some v := by
  induction calls generalizing m with
  | nil => exact hv
  | cons call calls ih =>
    have hstep : (call.step w m).store.cached key = some v :=
      (call.step_effect w m).keeps_cached hv
    exact ih hstep

/-! ## Calls under a recorded key -/

/-- The call found no entry under the key, returned, and left its result there. -/
structure Recorded (w : World) (m : Machine InMemoryCardRuntime) (a : KeyedCall) (k : String)
    (v : Stored) (m' : Machine InMemoryCardRuntime) : Prop where
  nonempty : k ≠ ""
  run : (a.run (some k)).run w m = (.ok v, m')
  fresh : m.store.idempotency.get? k = none
  stored : m'.store.idempotency.get? k = some v

section Recorded
variable {w : World} {m m' : Machine InMemoryCardRuntime} {k : String} {v : Stored}

theorem truthyStr_some (hk : k ≠ "") : truthyStr (some k) = some k := if_neg hk

namespace KeyedCall

/-- A result has the type of its operation. -/
theorem run_result {a : KeyedCall} {key : Option String} (h : (a.run key).run w m = (.ok v, m')) :
    v.result = a.operation.result := by
  cases a <;>
  · obtain ⟨x, m₁, -, hret⟩ := Exec.bind_ok h
    · cases hret
      rfl

/-- A submission never stores an empty list: it refuses to submit one. -/
theorem run_truthy {a : KeyedCall} (h : (a.run (some k)).run w m = (.ok v, m'))
    (hfresh : m.store.idempotency.get? k = none) (hstored : m'.store.idempotency.get? k = some v) :
    v.truthy = true := by
  cases a with
  | submitArtifact lease pipe refs =>
    obtain ⟨stored, m₁, hsubmit, hret⟩ := Exec.bind_ok h
    cases hret
    rcases submitArtifact_cases hsubmit with hsame | ⟨l, c, destination, t, e, hok, hsubmits⟩
    · rw [hsame.store, hfresh] at hstored
      cases hstored
    · obtain ⟨p, -, -, -, -, hbelong, -⟩ := hsubmits.checks
      have hne : refs ≠ [] := by
        intro hempty
        rw [hempty] at hbelong
        cases hbelong
      cases hok
      simp [Stored.truthy, hne]
  | _ =>
    obtain ⟨x, m₁, -, hret⟩ := Exec.bind_ok h
    · cases hret
      rfl

/-- Under a key with an entry an operation only compares the type of the entry. -/
theorem run_cached (b : KeyedCall) {key : Option String} (h : m.store.cached key = some v) :
    (b.run key).run w m = (if v.result = b.operation.result then .ok v
      else .error (.conflict "idempotency key was already used for a different operation"), m) := by
  cases b <;>
  · simp only [run, runOn, runtime, Exec.run_bind, InMemoryCardRuntime.createCard,
      InMemoryCardRuntime.claimCard, InMemoryCardRuntime.submitArtifact,
      InMemoryCardRuntime.renewLease, InMemoryCardRuntime.releaseLease,
      InMemoryCardRuntime.validateCard, InMemoryCardRuntime.moveCard,
      InMemoryCardRuntime.recordEvent, run_idempotent, h]
    cases v <;> rfl

end KeyedCall

theorem Recorded.cached {a : KeyedCall} (h : Recorded w m a k v m') :
    m'.store.cached (some k) = some v := by
  have hkey : truthyStr (some k) = some k := truthyStr_some h.nonempty
  have htruthy : v.truthy = true := KeyedCall.run_truthy h.run h.fresh h.stored
  simp only [InMemoryCardRuntime.cached, hkey, Option.bind_some, h.stored]
  exact Option.filter_some_pos htruthy

/-- After any further calls the key still answers with the recorded result. -/
theorem Recorded.later {a : KeyedCall} (h : Recorded w m a k v m') (calls : List RuntimeCall) :
    (calls.foldl (RuntimeCall.step w) m').store.cached (some k) = some v :=
  foldl_keeps_cached calls h.cached

/-- A call of the same operation under the key returns the recorded result and changes
nothing. -/
theorem replay_recorded {a : KeyedCall} (h : Recorded w m a k v m') (calls : List RuntimeCall)
    (b : KeyedCall) (hsame : b.operation = a.operation) :
    (b.run (some k)).run w (calls.foldl (RuntimeCall.step w) m') =
      (.ok v, calls.foldl (RuntimeCall.step w) m') := by
  have hresult : v.result = b.operation.result := by
    rw [hsame]
    exact KeyedCall.run_result h.run
  rw [b.run_cached (h.later calls), if_pos hresult]

end Recorded

/-- A card created under a key. -/
def keyedMachine : Machine InMemoryCardRuntime :=
  runCalls .simple [.registerPatchPanel (PatchPanelValidator.linePanel "orders" "1")]

def keyedCreate : KeyedCall := .createCard "orders" [("a", .int 1)] none

def keyedCard : Card := ⟨⟨0⟩, "orders:1", "inbox", [("a", .int 1)], [], 0⟩

theorem keyedCreate_recorded : Recorded .simple keyedMachine keyedCreate "k" (.card keyedCard)
    ((keyedCreate.run (some "k")).run .simple keyedMachine).2 where
  nonempty := by decide
  run := rfl
  fresh := rfl
  stored := rfl

theorem replay_recorded_keyedCreate :
    ((KeyedCall.createCard "billing" [] none).run (some "k")).run .simple
        ([RuntimeCall.createCard "orders" [] none (some "k2")].foldl (RuntimeCall.step .simple)
          ((keyedCreate.run (some "k")).run .simple keyedMachine).2) =
      (.ok (.card keyedCard),
        [RuntimeCall.createCard "orders" [] none (some "k2")].foldl (RuntimeCall.step .simple)
          ((keyedCreate.run (some "k")).run .simple keyedMachine).2) :=
  replay_recorded keyedCreate_recorded [.createCard "orders" [] none (some "k2")]
    (.createCard "billing" [] none) rfl

/-! ## Keys of another operation -/

/-- The call raises `ConflictError` and writes nothing. -/
def Refuses {σ α : Type} (w : World) (m : Machine σ) (x : Op σ α) : Prop :=
  ∃ message m', x.run w m = (.error (.conflict message), m') ∧ m'.store = m.store

section Other
variable {w : World}

theorem Recorded.refuses_iff {m m' : Machine InMemoryCardRuntime} {a : KeyedCall} {k : String}
    {v : Stored} (h : Recorded w m a k v m') (calls : List RuntimeCall) (b : KeyedCall) :
    Refuses w (calls.foldl (RuntimeCall.step w) m') (b.run (some k)) ↔
      b.operation.result ≠ a.operation.result := by
  have hresult : v.result = a.operation.result := KeyedCall.run_result h.run
  have hrun := b.run_cached (w := w) (h.later calls)
  constructor
  · rintro ⟨message, m₁, hraise, -⟩ heq
    rw [if_pos (hresult.trans heq.symm)] at hrun
    rw [hrun] at hraise
    cases hraise
  · intro hne
    rw [if_neg fun heq => hne (heq.symm.trans hresult)] at hrun
    exact ⟨_, _, hrun, rfl⟩

/-- Whatever it returns or raises, it is no `ConflictError`. -/
def NoConflict {σ α : Type} (w : World) (m : Machine σ) (x : Op σ α) : Prop :=
  ∀ message, (x.run w m).1 ≠ .error (.conflict message)

theorem NoConflict.not_refuses {σ α : Type} {m : Machine σ} {x : Op σ α}
    (h : NoConflict w m x) : ¬ Refuses w m x := by
  rintro ⟨message, m', hrun, -⟩
  exact h message (congrArg Prod.fst hrun)

theorem NoConflict.bind_pure {σ α β : Type} {m : Machine σ} {x : Op σ α} (f : α → β)
    (h : NoConflict w m x) : NoConflict w m (x >>= fun a => pure (f a)) := by
  intro message hconflict
  apply h message
  rw [Exec.run_bind] at hconflict
  rcases hx : x.run w m with ⟨r, m'⟩
  rw [hx] at hconflict
  cases r with
  | ok a => cases hconflict
  | error e =>
    cases hconflict
    rfl

end Other

namespace PostgresCardRuntime

section Replay
variable {w : World} {m : Machine Tables}

theorem artifactsOf_noConflict (d : Tables) (ids : List Uuid) (message : String) :
    artifactsOf d ids ≠ .error (.conflict message) := by
  induction ids with
  | nil =>
    intro h
    cases h
  | cons id ids ih =>
    intro h
    unfold artifactsOf at h
    cases hget : d.artifacts.get? id with
    | none =>
      rw [hget] at h
      cases h
    | some ref =>
      rw [hget] at h
      cases hrest : artifactsOf d ids with
      | ok refs =>
        rw [hrest] at h
        cases h
      | error e =>
        rw [hrest] at h
        cases h
        exact ih hrest

theorem cachedCard_noConflict (ref : ResponseRef) :
    NoConflict w m (Op.inside (cachedCard ref)) := by
  intro message
  cases ref with
  | card id =>
    simp only [cachedCard, run_getCard]
    cases m.store.cards.get? id <;> simp
  | _ =>
    intro h
    cases h

theorem cachedLease_noConflict (ref : ResponseRef) :
    NoConflict w m (Op.inside (cachedLease ref)) := by
  intro message
  cases ref with
  | lease id =>
    simp only [cachedLease, run_getLease]
    cases m.store.leases.get? id <;> simp
  | _ =>
    intro h
    cases h

theorem cachedEvent_noConflict (ref : ResponseRef) :
    NoConflict w m (Op.inside (cachedEvent ref)) := by
  intro message
  cases ref with
  | event id =>
    simp only [cachedEvent, run_getEvent]
    cases m.store.cardEvents.get? id <;> simp
  | _ =>
    intro h
    cases h

theorem cachedArtifacts_noConflict (ref : ResponseRef) :
    NoConflict w m (Op.inside (cachedArtifacts ref)) := by
  intro message
  cases ref with
  | artifacts ids =>
    simp only [cachedArtifacts, run_getArtifacts]
    exact artifactsOf_noConflict m.store ids message
  | _ =>
    intro h
    cases h

/-- An operation under a recorded key is answered by its replay. -/
theorem atomically_idempotent_noConflict {α : Type} {key : Option String} {ref : ResponseRef}
    {replay : ResponseRef → Tx α} (body : Tx α) (hkey : recorded m.store key = some ref)
    (hreplay : NoConflict w m (Op.inside (replay ref))) :
    NoConflict w m (Op.atomically (idempotent key replay body)) := by
  intro message
  have hrun : (Op.inside (idempotent key replay body)).run w m =
      (Op.inside (replay ref)).run w m := by
    rw [run_idempotent, hkey]
  have hno := hreplay message
  rw [Op.atomically_run, hrun]
  rcases hx : (Op.inside (replay ref)).run w m with ⟨r, m'⟩
  rw [hx] at hno
  cases r <;> exact hno

theorem noConflict_of_recorded (engine : Engine) {key : Option String} {ref : ResponseRef}
    (hkey : recorded m.store key = some ref) (b : KeyedCall) :
    NoConflict w m (b.runOn (runtime engine) key) := by
  cases b with
  | createCard panel payload metadata =>
    exact (atomically_idempotent_noConflict _ hkey (cachedCard_noConflict ref)).bind_pure _
  | claimCard pipe worker seconds =>
    exact (atomically_idempotent_noConflict _ hkey (cachedLease_noConflict ref)).bind_pure _
  | submitArtifact lease pipe refs =>
    refine NoConflict.bind_pure _ ?_
    intro message
    exact atomically_idempotent_noConflict _ hkey (cachedArtifacts_noConflict ref) message
  | renewLease lease seconds =>
    exact (atomically_idempotent_noConflict _ hkey (cachedLease_noConflict ref)).bind_pure _
  | releaseLease lease actor =>
    exact (atomically_idempotent_noConflict _ hkey (cachedLease_noConflict ref)).bind_pure _
  | validateCard card validator accepted reason pipe payload =>
    exact (atomically_idempotent_noConflict _ hkey (cachedEvent_noConflict ref)).bind_pure _
  | moveCard card bucket actor reason =>
    exact (atomically_idempotent_noConflict _ hkey (cachedCard_noConflict ref)).bind_pure _
  | recordEvent card type actor payload =>
    exact (atomically_idempotent_noConflict _ hkey (cachedEvent_noConflict ref)).bind_pure _

end Replay

end PostgresCardRuntime

/-- In memory a key refuses another operation exactly when the two return different
types. A Postgres runtime refuses none: it raises `ValueError` or answers. -/
theorem otherOperation_refuses_iff (w : World) (k : String) (b : KeyedCall) :
    (∀ (m m' : Machine InMemoryCardRuntime) (a : KeyedCall) (v : Stored),
      Recorded w m a k v m' → ∀ calls : List RuntimeCall, b.operation ≠ a.operation →
        (Refuses w (calls.foldl (RuntimeCall.step w) m') (b.run (some k)) ↔
          b.operation.result ≠ a.operation.result)) ∧
    (∀ (engine : Engine) (m : Machine Tables), k ≠ "" →
      m.store.idempotencyRecords.contains k = true →
        ¬ Refuses w m (b.runOn (PostgresCardRuntime.runtime engine) (some k))) := by
  refine ⟨fun m m' a v h calls _ => h.refuses_iff calls b, ?_⟩
  intro engine m hk hcontains
  obtain ⟨row, hrow⟩ := Option.isSome_iff_exists.mp hcontains
  have hkey : PostgresCardRuntime.recorded m.store (some k) = some row.responseRef := by
    simp only [PostgresCardRuntime.recorded, truthyStr_some hk, Option.bind_some, hrow,
      Option.map_some]
  exact (PostgresCardRuntime.noConflict_of_recorded engine hkey b).not_refuses

theorem otherOperation_refuses_iff_keyedCreate :
    Refuses .simple (([] : List RuntimeCall).foldl (RuntimeCall.step .simple)
        ((keyedCreate.run (some "k")).run .simple keyedMachine).2)
      ((KeyedCall.claimCard "work_in" "w1" 300).run (some "k")) ↔
    (KeyedCall.claimCard "work_in" "w1" 300).operation.result ≠ keyedCreate.operation.result :=
  (otherOperation_refuses_iff .simple "k" (.claimCard "work_in" "w1" 300)).1 _ _ _ _
    keyedCreate_recorded [] (by decide)

/-- A claim under a key. -/
def keyedClaim : KeyedCall := .claimCard "work_in" "w1" 300

/-- `release_lease` under the key of `claim_card` returns the claimed lease, which stays
unreleased. -/
theorem claimKey_answers_release :
    let m := ((keyedCreate.run none).run .simple keyedMachine).2
    let m' := ((keyedClaim.run (some "k")).run .simple m).2
    ∃ l : Lease, l.releasedAt = none ∧ Recorded .simple m keyedClaim "k" (.lease l) m' ∧
      ¬ Refuses .simple m' ((KeyedCall.releaseLease l.id none).run (some "k")) ∧
      ((KeyedCall.releaseLease l.id none).run (some "k")).run .simple m' = (.ok (.lease l), m') := by
  have hrecorded : Recorded .simple ((keyedCreate.run none).run .simple keyedMachine).2 keyedClaim
      "k" (.lease ⟨⟨2⟩, ⟨0⟩, "work", "w1", "work_in", 4, 300000003, none⟩)
      ((keyedClaim.run (some "k")).run .simple
        ((keyedCreate.run none).run .simple keyedMachine).2).2 :=
    { nonempty := by decide, run := rfl, fresh := rfl, stored := rfl }
  refine ⟨_, rfl, hrecorded, ?_, ?_⟩
  · intro hrefuses
    have hne := (hrecorded.refuses_iff [] (.releaseLease ⟨2⟩ none)).mp hrefuses
    exact hne rfl
  · exact KeyedCall.run_cached _ hrecorded.cached

end GhostMesh
