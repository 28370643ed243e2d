import GhostMesh.Runtime.Transactions

/-!
# One effect for each key

All transactions under one key may miss it and do their work. The row of the key is
inserted last and under its primary key, so that the first to commit makes the others
fail there, with all they wrote.
-/

set_option autoImplicit false

namespace GhostMesh

open ReadCommitted

/-! ## The rows of the key table -/

def recordsKey (k : String) (x : RowWrite) : Prop := ∃ row, x = .idempotencyRecord k row

theorem contains_apply {k : String} (x : RowWrite) (d : Tables) :
    (x.apply d).idempotencyRecords.contains k = true ↔
      recordsKey k x ∨ d.idempotencyRecords.contains k = true := by
  cases x with
  | idempotencyRecord k' row =>
    simp only [RowWrite.apply, Dict.contains_set, recordsKey, RowWrite.idempotencyRecord.injEq]
    constructor
    · rintro (rfl | h)
      · exact .inl ⟨row, rfl, rfl⟩
      · exact .inr h
    · rintro (⟨_, rfl, -⟩ | h)
      · exact .inl rfl
      · exact .inr h
  | _ => simp [RowWrite.apply, recordsKey]

/-- A log shows the keys of the rows below it and those that it has written. -/
theorem contains_view {k : String} (log : Log postgres) (d : Tables) :
    (log.view d).idempotencyRecords.contains k = true ↔
      (∃ x, .wrote x ∈ log ∧ recordsKey k x) ∨ d.idempotencyRecords.contains k = true := by
  induction log with
  | nil => simp [Log.view]
  | cons o log ih =>
    cases o with
    | wrote x =>
      change (x.apply (Log.view log d)).idempotencyRecords.contains k = true ↔ _
      rw [contains_apply, ih]
      simp only [List.mem_cons, Obs.wrote.injEq]
      constructor
      · rintro (hx | ⟨y, hy, hrec⟩ | hd)
        · exact .inl ⟨x, .inl rfl, hx⟩
        · exact .inl ⟨y, .inr hy, hrec⟩
        · exact .inr hd
      · rintro (⟨y, rfl | hy, hrec⟩ | hd)
        · exact .inl hrec
        · exact .inr (.inl ⟨y, hy, hrec⟩)
        · exact .inr (.inr hd)
    | _ => simpa [Log.view] using ih

/-! ## The logs of the transactions -/

/-- The row of a key is inserted under its lock, where the key was not taken. -/
def KeyLog (log : Log postgres) : Prop :=
  ∀ k x, .wrote x ∈ log → recordsKey k x →
    ∃ d, .locked (.idempotencyRecord k) d ∈ log ∧ d.idempotencyRecords.contains k = false

def NoWrites (log : Log postgres) : Prop := ∀ x, .wrote x ∉ log

/-- A transaction that wrote at all has written the row of its key. -/
def KeyDone (key : Option String) (log : Log postgres) : Prop :=
  NoWrites log ∨ ∀ k, key = some k → ∃ x, .wrote x ∈ log ∧ recordsKey k x

/-- A write outside the key table. -/
def OffKeys (x : RowWrite) : Prop := ∀ k, ¬ recordsKey k x

abbrev Anything : Log postgres → Obs postgres → Prop := fun _ _ => True

section Logs
variable {log : Log postgres}

theorem NoWrites.keyLog (h : NoWrites log) : KeyLog log :=
  fun _ x hx _ => (h x hx).elim

theorem NoWrites.keep (h : NoWrites log) (o : Obs postgres) (ho : o.Within fun _ => False) :
    NoWrites (o :: log) := by
  intro x hx
  rcases List.mem_cons.mp hx with heq | hx
  · rw [← heq] at ho
    exact ho
  · exact h x hx

theorem KeyLog.keep (h : KeyLog log) (o : Obs postgres) (ho : o.Within OffKeys) :
    KeyLog (o :: log) := by
  intro k x hx hrec
  rcases List.mem_cons.mp hx with heq | hx
  · rw [← heq] at ho
    exact (ho k hrec).elim
  · obtain ⟨d, hd, hfree⟩ := h k x hx hrec
    exact ⟨d, List.mem_cons_of_mem _ hd, hfree⟩

end Logs

namespace PostgresCardRuntime

section Bodies
variable {α β : Type} {log : Log postgres} {key : Option String}

/-- `_store_idempotency` at the end of an operation. -/
theorem storeIdempotency_spec {operation : String} {ref : ResponseRef} (hlog : KeyLog log) :
    (storeIdempotency key operation ref).Spec Anything KeyLog
      (fun _ => KeyDone (truthyStr key)) log := by
  unfold storeIdempotency
  cases truthyStr key with
  | none => exact ⟨hlog, .inr fun k hk => by cases hk⟩
  | some k =>
    have hnow : (Txn.now (S := postgres)).Spec Anything KeyLog (fun _ => KeyLog) log :=
      .of_writes (fun o _ ho h => h.keep o ho) .now hlog
    refine hnow.bind fun t log' hlog' _ => ?_
    refine .insert hlog' (fun d => hlog'.keep (.locked _ d) trivial) fun d _ hfree => ⟨?_, .inr ?_⟩
    · intro k' x hx hrec
      rcases List.mem_cons.mp hx with heq | hx
      · cases heq
        obtain ⟨row, hrow⟩ := hrec
        cases hrow
        exact ⟨d, by simp, hfree⟩
      · obtain ⟨d', hd', hfree'⟩ := hlog'.keep (.locked (.idempotencyRecord k) d) trivial k' x hx hrec
        exact ⟨d', List.mem_cons_of_mem _ hd', hfree'⟩
    · intro k' hk'
      cases hk'
      exact ⟨_, List.mem_cons_self, _, rfl⟩

/-- The rest of an operation behind a step that writes no key row. -/
theorem after_offKeys {x : Tx α} {f : α → Tx β} {Q : β → Log postgres → Prop}
    (hx : x.Writes OffKeys) (hlog : KeyLog log)
    (hf : ∀ a log', KeyLog log' → (f a).Spec Anything KeyLog Q log') :
    (x >>= f).Spec Anything KeyLog Q log :=
  .after (fun o _ ho h => h.keep o ho) hx hlog hf

/-- A step that writes nothing, in front of the rest. -/
theorem after_noWrites {x : Tx α} {f : α → Tx β} {Q : β → Log postgres → Prop}
    (hx : x.Writes fun _ => False) (hlog : NoWrites log)
    (hf : ∀ a log', NoWrites log' → (f a).Spec Anything KeyLog Q log') :
    (x >>= f).Spec Anything KeyLog Q log :=
  .after_keeping (fun o _ ho h => h.keep o ho) (fun _ h => h.keyLog) hx hlog hf

/-- The end of an operation. -/
theorem finish_spec {operation : String} {ref : ResponseRef} (a : α) (hlog : KeyLog log) :
    (storeIdempotency key operation ref >>= fun _ => pure a).Spec Anything KeyLog
      (fun _ => KeyDone (truthyStr key)) log :=
  (storeIdempotency_spec hlog).bind fun _ _ hlog' hdone => ⟨hlog', hdone⟩

/-- A replay writes nothing, a body is run from a log without writes. -/
theorem idempotent_spec {replay : ResponseRef → Tx α} {body : Tx α}
    (hreplay : ∀ ref, (replay ref).Writes fun _ => False) (hlog : NoWrites log)
    (hbody : ∀ log', NoWrites log' →
      body.Spec Anything KeyLog (fun _ => KeyDone (truthyStr key)) log') :
    (idempotent key replay body).Spec Anything KeyLog (fun _ => KeyDone (truthyStr key)) log := by
  refine after_noWrites (getIdempotency_writes key) hlog fun found log' hlog' => ?_
  cases found with
  | none => exact hbody log' hlog'
  | some ref =>
    have hspec : (replay ref).Spec Anything NoWrites (fun _ => NoWrites) log' :=
      .of_writes (fun o _ ho h => h.keep o ho) (hreplay ref) hlog'
    exact (hspec.weaken fun _ h => h.keyLog).mono fun _ _ _ hnone => .inl hnone

/-- Only the key table has key rows. -/
theorem offKeys_movement (x : RowWrite) (hx : MovementWrite x) : OffKeys x := by
  rintro k ⟨row, rfl⟩
  exact hx

variable (engine : Engine)

theorem createCard_spec (panel : String) (payload : JsonObj) (metadata : Option JsonObj)
    (hlog : NoWrites log) : (createCard engine panel payload metadata key).Spec Anything KeyLog
      (fun _ => KeyDone (truthyStr key)) log := by
  refine idempotent_spec cachedCard_writes hlog fun log hlog => ?_
  replace hlog := hlog.keyLog
  refine after_offKeys (getActivePatchPanel_writes engine panel) hlog fun p log hlog => ?_
  refine after_offKeys (.ofExcept _) hlog fun bucket log hlog => ?_
  refine after_offKeys .fresh hlog fun id log hlog => ?_
  refine after_offKeys .now hlog fun createdAt log hlog => ?_
  refine after_offKeys (insertCard_writes engine nofun) hlog fun _ log hlog => ?_
  refine after_offKeys .fresh hlog fun locationId log hlog => ?_
  refine after_offKeys (insertLocation_writes engine nofun) hlog fun _ log hlog => ?_
  refine after_offKeys (newEvent_writes _ _ _ _) hlog fun event log hlog => ?_
  refine after_offKeys (insertEvent_writes engine nofun) hlog fun _ log hlog => ?_
  exact finish_spec _ hlog

theorem claimCard_spec (pipe worker : String) (seconds : Int) (hlog : NoWrites log) :
    (claimCard engine pipe worker seconds key).Spec Anything KeyLog
      (fun _ => KeyDone (truthyStr key)) log := by
  refine idempotent_spec cachedLease_writes hlog fun log hlog => ?_
  replace hlog := hlog.keyLog
  refine after_offKeys singlePatchPanel_writes hlog fun p log hlog => ?_
  refine after_offKeys (.ofExcept _) hlog fun target log hlog => ?_
  refine after_offKeys .now hlog fun now log hlog => ?_
  refine after_offKeys (selectClaimable_writes engine _ _) hlog fun found log hlog => ?_
  cases found with
  | none => exact hlog
  | some card =>
    refine after_offKeys (newLease_writes _ _ _ _ _) hlog fun lease log hlog => ?_
    refine after_offKeys (insertLease_writes engine nofun) hlog fun _ log hlog => ?_
    refine after_offKeys (newEvent_writes _ _ _ _) hlog fun event log hlog => ?_
    refine after_offKeys (insertEvent_writes engine nofun) hlog fun _ log hlog => ?_
    exact finish_spec _ hlog

theorem submitArtifact_spec (w : World) (leaseId : Uuid) (pipe : String)
    (refs : List ArtifactReference) (hlog : NoWrites log) :
    (submitArtifact engine w leaseId pipe refs key).Spec Anything KeyLog
      (fun _ => KeyDone (truthyStr key)) log := by
  refine idempotent_spec cachedArtifacts_writes hlog fun log hlog => ?_
  replace hlog := hlog.keyLog
  refine after_offKeys (getLease_writes leaseId) hlog fun lease log hlog => ?_
  refine after_offKeys (ensureActiveLease_writes lease) hlog fun _ log hlog => ?_
  refine after_offKeys (getCard_writes lease.cardId) hlog fun card log hlog => ?_
  refine after_offKeys (getPatchPanelForCard_writes card) hlog fun p log hlog => ?_
  refine after_offKeys (.ofExcept _) hlog fun target log hlog => ?_
  refine after_offKeys (.ofExcept _) hlog fun _ log hlog => ?_
  refine after_offKeys (.ofExcept _) hlog fun _ log hlog => ?_
  refine after_offKeys (.ensure _ _) hlog fun _ log hlog => ?_
  refine after_offKeys (moveCardRow_writes engine card _ _ _ false offKeys_movement) hlog
    fun _ log hlog => ?_
  refine after_offKeys .now hlog fun releasedAt log hlog => ?_
  refine after_offKeys (updateLease_writes lease.id nofun) hlog fun _ log hlog => ?_
  refine after_offKeys (newEvent_writes _ _ _ _) hlog fun event log hlog => ?_
  refine after_offKeys (insertEvent_writes engine nofun) hlog fun _ log hlog => ?_
  refine after_offKeys (.forEach (fun ref => insertArtifact_writes engine nofun) _) hlog
    fun _ log hlog => ?_
  exact finish_spec _ hlog

theorem renewLease_spec (leaseId : Uuid) (seconds : Int) (hlog : NoWrites log) :
    (renewLease engine leaseId seconds key).Spec Anything KeyLog
      (fun _ => KeyDone (truthyStr key)) log := by
  refine idempotent_spec cachedLease_writes hlog fun log hlog => ?_
  replace hlog := hlog.keyLog
  refine after_offKeys (getLease_writes leaseId) hlog fun lease log hlog => ?_
  refine after_offKeys (ensureActiveLease_writes lease) hlog fun _ log hlog => ?_
  refine after_offKeys (expiryAfter_writes seconds) hlog fun expiresAt log hlog => ?_
  refine after_offKeys (updateLease_writes lease.id nofun) hlog fun _ log hlog => ?_
  refine after_offKeys (newEvent_writes _ _ _ _) hlog fun event log hlog => ?_
  refine after_offKeys (insertEvent_writes engine nofun) hlog fun _ log hlog => ?_
  exact finish_spec _ hlog

/-- The early return for a released lease stores no key, and has written nothing. -/
theorem releaseLease_spec (leaseId : Uuid) (actorId : Option String) (hlog : NoWrites log) :
    (releaseLease engine leaseId actorId key).Spec Anything KeyLog
      (fun _ => KeyDone (truthyStr key)) log := by
  refine idempotent_spec cachedLease_writes hlog fun log hlog => ?_
  refine after_noWrites (getLease_writes leaseId) hlog fun lease log hlog => ?_
  cases lease.releasedAt with
  | some t => exact ⟨hlog.keyLog, .inl hlog⟩
  | none =>
    replace hlog := hlog.keyLog
    refine after_offKeys .now hlog fun releasedAt log hlog => ?_
    refine after_offKeys (updateLease_writes lease.id nofun) hlog fun _ log hlog => ?_
    refine after_offKeys (newEvent_writes _ _ _ _) hlog fun event log hlog => ?_
    refine after_offKeys (insertEvent_writes engine nofun) hlog fun _ log hlog => ?_
    exact finish_spec _ hlog

theorem validateCard_spec (cardId : Uuid) (validatorId : String) (accepted : Bool)
    (reason outputPipe : Option String) (payload : Option JsonObj) (hlog : NoWrites log) :
    (validateCard engine cardId validatorId accepted reason outputPipe payload key).Spec Anything
      KeyLog (fun _ => KeyDone (truthyStr key)) log := by
  refine idempotent_spec cachedEvent_writes hlog fun log hlog => ?_
  replace hlog := hlog.keyLog
  refine after_offKeys (getCard_writes cardId) hlog fun card log hlog => ?_
  refine after_offKeys .fresh hlog fun id log hlog => ?_
  refine after_offKeys .now hlog fun createdAt log hlog => ?_
  refine after_offKeys (insertValidationResult_writes engine nofun) hlog fun _ log hlog => ?_
  refine after_offKeys (validationRoute_writes engine card _ _ offKeys_movement) hlog
    fun route log hlog => ?_
  refine after_offKeys (newEvent_writes _ _ _ _) hlog fun event log hlog => ?_
  refine after_offKeys (insertEvent_writes engine nofun) hlog fun _ log hlog => ?_
  exact finish_spec _ hlog

theorem moveCard_spec (cardId : Uuid) (toBucket : String) (actorId reason : Option String)
    (hlog : NoWrites log) : (moveCard engine cardId toBucket actorId reason key).Spec Anything
      KeyLog (fun _ => KeyDone (truthyStr key)) log := by
  refine idempotent_spec cachedCard_writes hlog fun log hlog => ?_
  replace hlog := hlog.keyLog
  refine after_offKeys (getCard_writes cardId) hlog fun card log hlog => ?_
  refine after_offKeys (getPatchPanelForCard_writes card) hlog fun p log hlog => ?_
  refine after_offKeys (.ofExcept _) hlog fun _ log hlog => ?_
  refine after_offKeys (moveCardRow_writes engine card _ _ _ true offKeys_movement) hlog
    fun moved log hlog => ?_
  exact finish_spec _ hlog

theorem recordEvent_spec (cardId : Uuid) (type : String) (actorId : Option String)
    (payload : Option JsonObj) (hlog : NoWrites log) :
    (recordEvent engine cardId type actorId payload key).Spec Anything KeyLog
      (fun _ => KeyDone (truthyStr key)) log := by
  refine idempotent_spec cachedEvent_writes hlog fun log hlog => ?_
  replace hlog := hlog.keyLog
  refine after_offKeys (getCard_writes cardId) hlog fun card log hlog => ?_
  refine after_offKeys (newEvent_writes _ _ _ _) hlog fun event log hlog => ?_
  refine after_offKeys (insertEvent_writes engine nofun) hlog fun _ log hlog => ?_
  exact finish_spec _ hlog

theorem expireEach_offKeys (now : Instant) (ls : List Lease) :
    (expireEach engine now ls).Writes OffKeys := by
  induction ls with
  | nil => exact .ret _
  | cons lease rest ih =>
    refine .bind (updateLease_writes lease.id nofun) fun _ => ?_
    refine .bind (newEvent_writes _ _ _ _) fun event => ?_
    refine .bind (insertEvent_writes engine nofun) fun _ => ?_
    exact .bind ih fun _ => .ret _

theorem registerPatchPanel_offKeys (p : PatchPanel) (now : Instant) :
    (registerPatchPanel engine p now).Writes OffKeys := by
  refine registerPatchPanel_writes engine p now fun x hx => ?_
  rintro k ⟨row, rfl⟩
  exact hx

end Bodies

end PostgresCardRuntime

section Program
variable (engine : Engine) (w : World)

theorem KeyedCall.program_spec (call : KeyedCall) (key : Option String) {log : Log postgres}
    (hlog : NoWrites log) : (call.program engine w key).Spec Anything KeyLog
      (fun _ => KeyDone (truthyStr key)) log := by
  have hreturn : ∀ {α : Type} {x : Tx α},
      x.Spec Anything KeyLog (fun _ => KeyDone (truthyStr key)) log →
      (x >>= fun _ => pure ()).Spec Anything KeyLog (fun _ => KeyDone (truthyStr key)) log :=
    fun hx => hx.bind fun _ _ hlog' hdone => ⟨hlog', hdone⟩
  cases call with
  | createCard panel payload metadata =>
    exact hreturn (PostgresCardRuntime.createCard_spec engine panel payload metadata hlog)
  | claimCard pipe worker seconds =>
    exact hreturn (PostgresCardRuntime.claimCard_spec engine pipe worker seconds hlog)
  | submitArtifact lease pipe refs =>
    exact hreturn (PostgresCardRuntime.submitArtifact_spec engine w lease pipe refs hlog)
  | renewLease lease seconds =>
    exact hreturn (PostgresCardRuntime.renewLease_spec engine lease seconds hlog)
  | releaseLease lease actor =>
    exact hreturn (PostgresCardRuntime.releaseLease_spec engine lease actor hlog)
  | validateCard card validator accepted reason pipe payload =>
    exact hreturn (PostgresCardRuntime.validateCard_spec engine card validator accepted reason pipe
      payload hlog)
  | moveCard card bucket actor reason =>
    exact hreturn (PostgresCardRuntime.moveCard_spec engine card bucket actor reason hlog)
  | recordEvent card type actor payload =>
    exact hreturn (PostgresCardRuntime.recordEvent_spec engine card type actor payload hlog)

theorem Transaction.program_spec (c : Transaction) :
    (c.program engine w).Spec Anything (fun log => KeyLog log) (fun _ => KeyDone c.key) [] := by
  have hnil : NoWrites [] := fun x hx => List.not_mem_nil hx
  have hkeyless : ∀ {x : Tx Unit}, x.Writes OffKeys →
      x.Spec Anything KeyLog (fun _ => KeyDone none) [] := by
    intro x hx
    have hspec : x.Spec Anything KeyLog (fun _ => KeyLog) [] :=
      .of_writes (fun o _ ho h => h.keep o ho) hx hnil.keyLog
    exact hspec.mono fun _ _ _ _ => .inr fun k hk => by cases hk
  cases c with
  | keyed call key => exact call.program_spec engine w key hnil
  | expireLeases =>
    apply hkeyless
    refine .bind .now fun now => .bind (.bind (.query _) fun d => ?_) fun _ => .ret _
    exact PostgresCardRuntime.expireEach_offKeys engine now _
  | registerPatchPanel p =>
    apply hkeyless
    refine .bind (.ofExcept _) fun _ => .bind .now fun now => .bind ?_ fun _ => .ret _
    exact PostgresCardRuntime.registerPatchPanel_offKeys engine p now

end Program

/-! ## Runs -/

/-- A key without a row is there for one transaction to take effect under. -/
def keyTokens : Tokens postgres Transaction String where
  lock := RowLock.idempotencyRecord
  free d k := ¬ d.idempotencyRecords.contains k = true
  takes c log k := c.key = some k ∧ ∃ x, .wrote x ∈ log

theorem keyTokens_sound : keyTokens.Sound (fun _ => KeyLog) fun c => KeyDone c.key where
  stays _ log d _ _ hfree htaken := hfree ((contains_view log d).mpr (.inr htaken))
  keeps _ log d k hlog hlock hfree htaken := by
    rcases (contains_view log d).mp htaken with ⟨x, hx, hrec⟩ | htaken
    · obtain ⟨d', hd', -⟩ := hlog k x hx hrec
      exact hlock (Log.mem_locks_iff.mpr ⟨d', hd'⟩)
    · exact hfree htaken
  taken _ log d k _ hdone htakes hfree := by
    obtain ⟨hkey, x₀, hx₀⟩ := htakes
    rcases hdone with hnone | hdone
    · exact hnone x₀ hx₀
    · exact hfree ((contains_view log d).mpr (.inl (hdone k hkey)))

/-- What a run keeps about the keys. -/
structure KeyState (σ : PgSystem) : Prop where
  orderly : σ.Orderly Anything (fun _ => KeyLog) fun c => KeyDone c.key
  tokens : keyTokens.State σ

theorem KeyState.start (d : Tables) : KeyState (PgSystem.init d) := ⟨.start rfl, .start rfl⟩

theorem KeyState.step {engine : Engine} {w : World} {σ : PgSystem} (h : KeyState σ)
    (a : Action Transaction) : KeyState (σ.step engine w a) := by
  have hmove := System.step_move w.supply (Transaction.program engine w) σ a
  refine ⟨h.orderly.moves (fun _ _ _ _ _ _ _ _ => trivial)
    (fun s _ => Transaction.program_spec engine w s.call) hmove, ?_⟩
  refine h.tokens.moves keyTokens_sound h.orderly (fun i s k hcommits htakes => ?_) hmove
  obtain ⟨hkey, x₀, hx₀⟩ := htakes
  obtain ⟨a, hrest⟩ := hcommits.rest
  rcases h.orderly.result hcommits.session hrest with hnone | hdone
  · exact (hnone x₀ hx₀).elim
  · obtain ⟨x, hx, hrec⟩ := hdone k hkey
    obtain ⟨d, hd, hfree⟩ := h.orderly.log hcommits.session k x hx hrec
    exact Tokens.holds_of_mem hd (ne_true_of_eq_false hfree)

/-- The system after a sequence of steps of its transactions on these rows. -/
def PgSystem.run (engine : Engine) (w : World) (d : Tables) (actions : List (Action Transaction)) :
    PgSystem := actions.foldl (PgSystem.step engine w) (PgSystem.init d)

theorem PgSystem.run_keyState (engine : Engine) (w : World) (d : Tables)
    (actions : List (Action Transaction)) : KeyState (PgSystem.run engine w d actions) := by
  have hreach : Reaches (PgSystem.step engine w) (fun _ _ => True) (PgSystem.init d)
      (PgSystem.run engine w d actions) := .of_foldl _ _ actions
  exact hreach.invariant (.start d) fun σ a hσ _ => hσ.step a

/-- Of all transactions that carry one key at most one commits a write, in every
interleaving of their statements with each other and with any other transactions. -/
theorem key_takes_effect_once (engine : Engine) (w : World) (d : Tables)
    (actions : List (Action Transaction)) {k : String} {i j : Nat} {s s' : PgSession}
    (hi : (PgSystem.run engine w d actions).sessions[i]? = some s)
    (hj : (PgSystem.run engine w d actions).sessions[j]? = some s')
    (hkey : s.call.key = some k) (hkey' : s'.call.key = some k) (heffect : s.TookEffect)
    (heffect' : s'.TookEffect) : i = j :=
  (PgSystem.run_keyState engine w d actions).tokens.once i j s s' k hi hj heffect.1 heffect'.1
    ⟨hkey, heffect.2⟩ ⟨hkey', heffect'.2⟩

/-- Two cards are created under one key; both transactions have missed the key before
either goes on. -/
def racingCreates : List (Action Transaction) :=
  [.begin (.registerPatchPanel (PatchPanelValidator.linePanel "orders" "1"))] ++
    List.replicate 12 (.advance 0) ++
    [.begin (.keyed (.createCard "orders" [] none) (some "k")),
      .begin (.keyed (.createCard "orders" [] none) (some "k")), .advance 1, .advance 2] ++
    List.replicate 20 (.advance 1) ++ List.replicate 20 (.advance 2)

theorem key_takes_effect_once_race :
    ∃ s s' : PgSession,
      (PgSystem.run .simple .simple .init racingCreates).sessions[1]? = some s ∧
      (PgSystem.run .simple .simple .init racingCreates).sessions[2]? = some s' ∧
      s.call.key = some "k" ∧ s'.call.key = some "k" ∧ s.TookEffect ∧ ¬ s'.TookEffect := by
  obtain ⟨s, hs⟩ := Option.isSome_iff_exists.mp (show
    ((PgSystem.run .simple .simple .init racingCreates).sessions[1]?).isSome = true by decide +kernel)
  obtain ⟨s', hs'⟩ := Option.isSome_iff_exists.mp (show
    ((PgSystem.run .simple .simple .init racingCreates).sessions[2]?).isSome = true by decide +kernel)
  have hkey : ((PgSystem.run .simple .simple .init racingCreates).sessions[1]?).bind
      (·.call.key) = some "k" := by decide +kernel
  have hkey' : ((PgSystem.run .simple .simple .init racingCreates).sessions[2]?).bind
      (·.call.key) = some "k" := by decide +kernel
  have hstatus : ((PgSystem.run .simple .simple .init racingCreates).sessions[1]?).map
      (·.status) = some .committed := by decide +kernel
  have hwrites : ((PgSystem.run .simple .simple .init racingCreates).sessions[1]?).map
      (·.log.writes.isEmpty) = some false := by decide +kernel
  rw [hs] at hkey hstatus hwrites
  rw [hs'] at hkey'
  have heffect : s.TookEffect := by
    obtain ⟨x, hx⟩ := List.exists_mem_of_ne_nil _ (List.isEmpty_eq_false_iff.mp
      (Option.some.inj hwrites))
    exact ⟨Option.some.inj hstatus, x, Log.mem_writes_iff.mp hx⟩
  refine ⟨s, s', hs, hs', hkey, hkey', heffect, fun heffect' => ?_⟩
  have heq : 1 = 2 :=
    key_takes_effect_once .simple .simple .init racingCreates hs hs' hkey hkey' heffect heffect'
  cases heq

end GhostMesh
