import GhostMesh.Artifacts.Contracts
import GhostMesh.Runtime.ClaimScan
import GhostMesh.Runtime.KeyOnce

/-!
# Submissions under an acceptance contract

The contract of the destination bucket decides a submission that got as far as it: its
rules are met or the submission is refused, as long as each rule that the code comes to
is read as it is written.
-/

set_option autoImplicit false

namespace GhostMesh

def contractOf (p : PatchPanel) (bucketId : String) : Option AcceptanceContract := do
  let bucket ← p.buckets.find? (fun b => b.id = bucketId)
  let contractId ← bucket.acceptanceContract
  p.acceptanceContracts.find? (fun c => c.id = contractId)

theorem ensureArtifactsAccepted_of_contract {w : World} {p : PatchPanel} {bucketId : String}
    {refs : List ArtifactReference} {contract : AcceptanceContract}
    (h : contractOf p bucketId = some contract) :
    ensureArtifactsAccepted w p bucketId refs = applyRules w refs contract.rules := by
  simp only [contractOf, Option.bind_eq_bind, Option.bind_eq_some_iff] at h
  obtain ⟨bucket, hbucket, contractId, hid, hcontract⟩ := h
  simp only [ensureArtifactsAccepted, hbucket, hid, hcontract, validateArtifactReferences]

/-- Without a contract a bundle is accepted, or refused for a bucket that is not declared. -/
theorem ensureArtifactsAccepted_of_none {w : World} {p : PatchPanel} {bucketId : String}
    {refs : List ArtifactReference} {e : PyErr} (h : contractOf p bucketId = none)
    (herror : ensureArtifactsAccepted w p bucketId refs = .error e) :
    ∃ message, e = .invalidOperation message := by
  unfold ensureArtifactsAccepted at herror
  split at herror
  · cases herror
    exact ⟨_, rfl⟩
  split at herror
  · cases herror
  split at herror
  · cases herror
    exact ⟨_, rfl⟩
  · simp_all [contractOf]

theorem ensureRefsOfCard_raises {cardId : Uuid} {refs : List ArtifactReference} {e : PyErr}
    (h : ensureRefsOfCard cardId refs = .error e) : ∃ message, e = .invalidOperation message := by
  induction refs with
  | nil => cases h
  | cons ref rest ih =>
    unfold ensureRefsOfCard at h
    split at h
    · cases h
      exact ⟨_, rfl⟩
    · exact ih h

theorem ensureArtifactRefsBelongToCard_raises {cardId : Uuid} {refs : List ArtifactReference}
    {e : PyErr} (h : ensureArtifactRefsBelongToCard cardId refs = .error e) :
    ∃ message, e = .invalidOperation message := by
  unfold ensureArtifactRefsBelongToCard at h
  split at h
  · cases h
    exact ⟨_, rfl⟩
  · exact ensureRefsOfCard_raises h

namespace InMemoryCardRuntime

variable {w : World} {m m' : Machine InMemoryCardRuntime} {leaseId : Uuid} {outputPipe : String}
  {refs : List ArtifactReference} {key : Option String}

/-! ## What a submission raises -/

theorem getLease_raises (id : Uuid) : Exec.Raises RuntimeError w (getLease id) := by
  refine Exec.Raises.bind (Exec.Raises.of_ok fun m => ⟨_, m, rfl⟩) fun s => ?_
  split
  · exact Exec.Raises.pure _
  · exact Exec.Raises.raise trivial

theorem getCard_raises (id : Uuid) : Exec.Raises RuntimeError w (getCard id) := by
  refine Exec.Raises.bind (Exec.Raises.of_ok fun m => ⟨_, m, rfl⟩) fun s => ?_
  split
  · exact Exec.Raises.pure _
  · exact Exec.Raises.raise trivial

theorem getPatchPanel_raises (id : String) : Exec.Raises RuntimeError w (getPatchPanel id) := by
  refine Exec.Raises.bind (Exec.Raises.of_ok fun m => ⟨_, m, rfl⟩) fun s => ?_
  split
  · exact Exec.Raises.pure _
  · exact Exec.Raises.raise trivial

theorem ensureActiveLease_raises (l : Lease) :
    Exec.Raises RuntimeError w (ensureActiveLease l : Rt Unit) := by
  refine Exec.Raises.bind (Exec.Raises.ensure trivial) fun _ => ?_
  refine Exec.Raises.bind (Exec.Raises.of_ok fun m => ⟨_, _, rfl⟩) fun t => ?_
  exact Exec.Raises.ensure trivial

/-- A key that was used for something else is refused. -/
theorem idempotent_error {α : Type} {f : Stored → Option α} {body : Rt α} {e : PyErr}
    (h : (idempotent key f body).run w m = (.error e, m')) :
    RuntimeError e ∨ (m.store.cached key = none ∧ body.run w m = (.error e, m')) := by
  rw [run_idempotent] at h
  cases hkey : m.store.cached key with
  | none =>
    rw [hkey] at h
    exact .inr ⟨rfl, h⟩
  | some v =>
    rw [hkey] at h
    cases hf : f v with
    | none =>
      simp only [hf] at h
      cases h
      exact .inl trivial
    | some a =>
      simp only [hf] at h
      cases h

variable (w m leaseId outputPipe refs) in
/-- The checks in front of the contract pass. -/
structure Routed (l : Lease) (c : Card) (p : PatchPanel) (destination nodeId : String) : Prop where
  lease : m.store.leases.get? leaseId = some l
  active : l.activeAt (w.clock m.ticks) = true
  card : m.store.cards.get? l.cardId = some c
  panel : m.store.patchPanels.get? (beforeLastColon c.workflowVersion) = some p
  route : resolvePipeBucket p outputPipe .output = .ok (destination, nodeId)
  belong : ensureArtifactRefsBelongToCard c.id refs = .ok ()

/-- A submission raises an error of the runtime, or what the check of its contract raises. -/
theorem submitArtifact_error {e : PyErr}
    (h : (submitArtifact leaseId outputPipe refs key).run w m = (.error e, m')) :
    RuntimeError e ∨ (m.store.cached key = none ∧ ∃ l c p destination nodeId,
      Routed w m leaseId outputPipe refs l c p destination nodeId ∧
        ensureArtifactsAccepted w p destination refs = .error e) := by
  rcases idempotent_error h with he | ⟨hkey, h⟩
  · exact .inl he
  rcases Exec.bind_cases h with ⟨_, h1, he⟩ | ⟨l, _, h1, hbody1⟩
  · cases he
    exact .inl (getLease_raises _ _ _ _ h1)
  obtain ⟨hm1, hl⟩ := getLease_ok h1
  rw [hm1] at hbody1
  rcases Exec.bind_cases hbody1 with ⟨_, h2, he⟩ | ⟨_, m2, h2, hbody2⟩
  · cases he
    exact .inl (ensureActiveLease_raises _ _ _ _ h2)
  obtain ⟨hsame, hactive⟩ := ensureActiveLease_cases h2
  rcases Exec.bind_cases hbody2 with ⟨_, h3, he⟩ | ⟨c, _, h3, hbody3⟩
  · cases he
    exact .inl (getCard_raises _ _ _ _ h3)
  obtain ⟨hm3, hc⟩ := getCard_ok h3
  rw [hm3] at hbody3
  rcases Exec.bind_cases hbody3 with ⟨_, h4, he⟩ | ⟨p, _, h4, hbody4⟩
  · cases he
    exact .inl (getPatchPanel_raises _ _ _ _ h4)
  obtain ⟨hm4, hp⟩ := getPatchPanel_ok h4
  rw [hm4] at hbody4
  rw [hsame.store] at hc hp
  rcases Exec.bind_cases hbody4 with ⟨_, h5, he⟩ | ⟨⟨destination, nodeId⟩, _, h5, hbody5⟩
  · cases he
    exact .inl (resolvePipeBucket_raises (congrArg Prod.fst h5))
  obtain ⟨hm5, hroute⟩ := ofExcept_ok h5
  rw [hm5] at hbody5
  rcases Exec.bind_cases hbody5 with ⟨_, h6, he⟩ | ⟨_, _, h6, hbody6⟩
  · cases he
    obtain ⟨message, rfl⟩ := ensureArtifactRefsBelongToCard_raises (congrArg Prod.fst h6)
    exact .inl trivial
  obtain ⟨hm6, hbelong⟩ := ofExcept_ok h6
  rw [hm6, Exec.run_bind, Op.run_world] at hbody6
  rcases Exec.bind_cases hbody6 with ⟨_, h7, he⟩ | ⟨_, _, h7, hbody7⟩
  · cases he
    exact .inr ⟨hkey, l, c, p, destination, nodeId,
      ⟨hl, (hactive rfl).2, hc, hp, hroute, hbelong⟩, congrArg Prod.fst h7⟩
  rcases Exec.bind_cases hbody7 with ⟨_, h8, he⟩ | ⟨_, _, h8, hbody8⟩
  · cases he
    rw [Op.run_ensure] at h8
    split at h8 <;> cases h8
    exact .inl trivial
  · cases hbody8

/-! ## Submissions that are decided by their contract -/

variable (w m leaseId outputPipe refs key) in
/-- The submission is no replay, and comes to the contract of its destination bucket. -/
def ReadsContract (contract : AcceptanceContract) : Prop :=
  m.store.cached key = none ∧ ∃ l c p destination nodeId,
    Routed w m leaseId outputPipe refs l c p destination nodeId ∧
      contractOf p destination = some contract

variable (w m leaseId outputPipe refs key) in
/-- A bundle is accepted only if it meets the contract, and refused with an error of the
runtime; and each rule that is read is decided as it is written. -/
structure Enforces : Prop where
  accepts : ∀ stored m', (submitArtifact leaseId outputPipe refs key).run w m = (.ok stored, m') →
    ∀ contract, ReadsContract w m leaseId outputPipe refs key contract →
      ∀ rule ∈ contract.rules, RuleMet w refs rule
  refuses : ∀ e m', (submitArtifact leaseId outputPipe refs key).run w m = (.error e, m') →
    RuntimeError e
  reads : ∀ contract, ReadsContract w m leaseId outputPipe refs key contract →
    ∀ rule, Reached w refs contract.rules rule → Decided w refs rule

theorem Routed.unique {l l' : Lease} {c c' : Card} {p p' : PatchPanel}
    {destination destination' nodeId nodeId' : String}
    (h : Routed w m leaseId outputPipe refs l c p destination nodeId)
    (h' : Routed w m leaseId outputPipe refs l' c' p' destination' nodeId') :
    p' = p ∧ destination' = destination := by
  obtain rfl : l' = l := Option.some.inj (h'.lease.symm.trans h.lease)
  obtain rfl : c' = c := Option.some.inj (h'.card.symm.trans h.card)
  obtain rfl : p' = p := Option.some.inj (h'.panel.symm.trans h.panel)
  have hroute := h'.route.symm.trans h.route
  cases hroute
  exact ⟨rfl, rfl⟩

theorem submitArtifact_enforces_iff (w : World) (m : Machine InMemoryCardRuntime) (leaseId : Uuid)
    (outputPipe : String) (refs : List ArtifactReference) (key : Option String) :
    Enforces w m leaseId outputPipe refs key ↔
      ∀ contract, ReadsContract w m leaseId outputPipe refs key contract →
        ∀ rule, Reached w refs contract.rules rule → RuleFits w refs rule := by
  constructor
  · intro h contract hreads rule hreached
    exact decided_iff_fits.mp (h.reads contract hreads rule hreached)
  · intro hfits
    have hdecided : ∀ contract, ReadsContract w m leaseId outputPipe refs key contract →
        ∀ rule, Reached w refs contract.rules rule → Decided w refs rule :=
      fun contract hreads rule hreached =>
        decided_iff_fits.mpr (hfits contract hreads rule hreached)
    refine ⟨?_, ?_, hdecided⟩
    · intro stored m' hrun contract hreads
      obtain ⟨hkey, l, c, p, destination, nodeId, hrouted, hcontract⟩ := hreads
      obtain ⟨l', c', p', destination', hok, hactive⟩ := submitArtifact_ok hkey hrun
      obtain ⟨rfl, rfl⟩ := hrouted.unique
        ⟨hok.lease, hactive, hok.card, hok.panel, hok.route, hok.belong⟩
      have haccepted := hok.accepted
      rw [ensureArtifactsAccepted_of_contract hcontract] at haccepted
      exact (applyRules_decided (hdecided contract
        ⟨hkey, l, c, _, _, nodeId, hrouted, hcontract⟩)).1.mp haccepted
    · intro e m' hrun
      rcases submitArtifact_error hrun with he | ⟨hkey, l, c, p, destination, nodeId, hrouted, he⟩
      · exact he
      · cases hcontract : contractOf p destination with
        | none =>
          obtain ⟨message, rfl⟩ := ensureArtifactsAccepted_of_none hcontract he
          trivial
        | some contract =>
          rw [ensureArtifactsAccepted_of_contract hcontract] at he
          obtain ⟨message, rfl⟩ := (applyRules_decided (hdecided contract
            ⟨hkey, l, c, p, destination, nodeId, hrouted, hcontract⟩)).2 e he
          trivial

/-- The line with one rule for what leaves its work. -/
def ruledPanel (rule : JsonObj) : PatchPanel :=
  { PatchPanelValidator.linePanel "orders" "1" with
    buckets := [⟨"inbox", none, [], [], none, false⟩,
      ⟨"outbox", none, [], [], some "finished", false⟩]
    uniqueBuckets := by decide
    acceptanceContracts := [⟨"finished", "", none, [rule]⟩]
    uniqueContracts := List.nodup_singleton "finished" }

def ruledMachine (rule : JsonObj) : Machine InMemoryCardRuntime :=
  runCalls .simple [.registerPatchPanel (ruledPanel rule), .createCard "orders" [] none none,
    .claimCard "work_in" "w1" 300 none]

/-- A reference to an artifact of the first card, without a role. -/
def plainDraft : ArtifactReference :=
  ⟨⟨9⟩, ⟨0⟩, none, "drafts/9", "sha256:00", "text/plain", 5, [], 0⟩

def uncounted : JsonObj := [("type", .str "required_artifacts"), ("min_count", .null)]

def noneRequired : JsonObj :=
  [("type", .str "required_artifacts"), ("roles", .list [.str "None"])]

/-- A null count fails the call, and a reference without a role passes for one of the role
`None`. -/
theorem contracts_misread :
    (((submitArtifact ⟨2⟩ "work_out" [plainDraft] none).run .simple (ruledMachine uncounted)).1 =
        .error (.type "int() argument must be a string, a bytes-like object or a real number") ∧
      ¬ Enforces .simple (ruledMachine uncounted) ⟨2⟩ "work_out" [plainDraft] none) ∧
    (((submitArtifact ⟨2⟩ "work_out" [plainDraft] none).run .simple
        (ruledMachine noneRequired)).1.isOk = true ∧
      ¬ Enforces .simple (ruledMachine noneRequired) ⟨2⟩ "work_out" [plainDraft] none) := by
  have hraised : ((submitArtifact ⟨2⟩ "work_out" [plainDraft] none).run .simple
      (ruledMachine uncounted)).1 =
        .error (.type "int() argument must be a string, a bytes-like object or a real number") :=
    rfl
  have haccepted : ((submitArtifact ⟨2⟩ "work_out" [plainDraft] none).run .simple
      (ruledMachine noneRequired)).1.isOk = true := rfl
  refine ⟨⟨hraised, fun h => h.refuses _ _ (Prod.ext hraised rfl)⟩, haccepted, fun h => ?_⟩
  have hreads : ReadsContract .simple (ruledMachine noneRequired) ⟨2⟩ "work_out" [plainDraft] none
      ⟨"finished", "", none, [noneRequired]⟩ :=
    ⟨rfl, _, _, _, _, _, ⟨rfl, rfl, rfl, rfl, rfl, rfl⟩, rfl⟩
  have hmet := h.accepts _ _ (Prod.ext rfl rfl) _ hreads noneRequired (List.mem_singleton_self _)
  obtain ⟨names, hnames, hgiven⟩ := RequiredMet.roles hmet
  cases hnames
  exact absurd (hgiven "None" (List.mem_singleton_self _)) List.not_mem_nil

end InMemoryCardRuntime

/-! ## Submissions to Postgres -/

namespace PostgresCardRuntime

open ReadCommitted

/-- The key of the call was found used. -/
def KeySeen (key : Option String) (log : Log postgres) : Prop :=
  ∃ k d, truthyStr key = some k ∧ .saw (.idempotencyRecord k) d ∈ log ∧
    d.idempotencyRecords.contains k = true

/-- The bundle has passed the contract of a panel version that was read. -/
def PassedContract (w : World) (refs : List ArtifactReference) (log : Log postgres) : Prop :=
  ∃ id version d row destination, .saw (.patchPanel id version) d ∈ log ∧
    d.patchPanels.get? (id, version) = some row ∧
    ensureArtifactsAccepted w row.definition destination refs = .ok ()

theorem KeySeen.keep {key : Option String} (o : Obs postgres) (log : Log postgres)
    (h : KeySeen key log) : KeySeen key (o :: log) := by
  obtain ⟨k, d, hk, hsaw, hused⟩ := h
  exact ⟨k, d, hk, List.mem_cons_of_mem o hsaw, hused⟩

theorem PassedContract.keep {w : World} {refs : List ArtifactReference} (o : Obs postgres)
    (log : Log postgres) (h : PassedContract w refs log) :
    PassedContract w refs (o :: log) := by
  obtain ⟨id, version, d, row, destination, hsaw, hrow, haccepted⟩ := h
  exact ⟨id, version, d, row, destination, List.mem_cons_of_mem o hsaw, hrow, haccepted⟩

section Specs
variable {log : Log postgres} {key : Option String}

/-- A part of a transaction about whose log nothing is needed. -/
theorem after_anything {α β : Type} {x : Tx α} {f : α → Tx β} {Q : β → Log postgres → Prop}
    (hf : ∀ a log, (f a).Spec Anything Always Q log) : (x >>= f).Spec Anything Always Q log :=
  (Txn.Spec.of_keeps (fun _ _ h => h) x trivial).bind fun a log _ _ => hf a log

theorem getIdempotency_read : (getIdempotency key).Spec Anything Always
    (fun found log' => found ≠ none → KeySeen key log') log := by
  unfold getIdempotency
  cases hkey : truthyStr key with
  | none => exact ⟨trivial, fun hfound => absurd rfl hfound⟩
  | some k =>
    refine (Txn.Spec.query (Q := fun (d : Tables) log' =>
      log' = .saw (.idempotencyRecord k) d :: log) trivial fun d _ => ⟨trivial, rfl⟩).bind ?_
    rintro d _ - rfl
    refine ⟨trivial, fun hfound => ⟨k, d, hkey, List.mem_cons_self, ?_⟩⟩
    obtain ⟨ref, href⟩ := Option.ne_none_iff_exists'.mp hfound
    obtain ⟨row, hrow, -⟩ := Option.map_eq_some_iff.mp href
    exact Dict.contains_of_get? hrow

theorem idempotent_replayed {α : Type} {replay : ResponseRef → Tx α} {body : Tx α}
    {Q : Log postgres → Prop} (hbody : ∀ log, body.Spec Anything Always (fun _ => Q) log) :
    (idempotent key replay body).Spec Anything Always
      (fun _ log' => KeySeen key log' ∨ Q log') log := by
  unfold idempotent
  refine getIdempotency_read.bind fun found log _ hread => ?_
  cases found with
  | none => exact (hbody log).mono fun _ _ _ hdone => .inr hdone
  | some ref =>
    have hkept : (replay ref).Spec Anything (KeySeen key) (fun _ => KeySeen key) log :=
      .of_keeps KeySeen.keep _ (hread (Option.some_ne_none ref))
    exact (hkept.weaken fun _ _ => trivial).mono fun _ _ _ hused => .inl hused

/-- The panel of a card is one that was read. -/
theorem getPatchPanelForCard_read (card : Card) :
    (getPatchPanelForCard card).Spec Anything Always (fun p log' => ∃ id version d row,
      .saw (.patchPanel id version) d ∈ log' ∧ d.patchPanels.get? (id, version) = some row ∧
      row.definition = p) log := by
  unfold getPatchPanelForCard
  cases splitFirstColon card.workflowVersion with
  | none => trivial
  | some found =>
    obtain ⟨id, version⟩ := found
    refine (Txn.Spec.query (Q := fun (d : Tables) log' =>
      log' = .saw (.patchPanel id version) d :: log) trivial fun d _ => ⟨trivial, rfl⟩).bind ?_
    rintro d _ - rfl
    cases hrow : d.patchPanels.get? (id, version) with
    | none => trivial
    | some row => exact ⟨trivial, id, version, d, row, List.mem_cons_self, hrow, rfl⟩

/-- However the others interfere, a submission that returns is a replay or has passed the
contract. -/
theorem submitArtifact_accepted (engine : Engine) (w : World) (leaseId : Uuid) (pipe : String)
    (refs : List ArtifactReference) :
    (submitArtifact engine w leaseId pipe refs key).Spec Anything Always
      (fun _ log' => KeySeen key log' ∨ PassedContract w refs log') log := by
  refine idempotent_replayed fun log => ?_
  refine after_anything fun lease log => ?_
  refine after_anything fun _ log => ?_
  refine after_anything fun card log => ?_
  refine (getPatchPanelForCard_read card).bind fun p log _ hread => ?_
  obtain ⟨id, version, d, row, hsaw, hrow, rfl⟩ := hread
  -- The two checks in between observe nothing.
  cases resolvePipeBucket row.definition pipe .output with
  | error e => trivial
  | ok found =>
    cases ensureArtifactRefsBelongToCard card.id refs with
    | error e => trivial
    | ok _ =>
      refine (Txn.Spec.ofExcept (Q := fun _ => PassedContract w refs) trivial fun _ haccepted =>
        ⟨id, version, d, row, found.1, hsaw, hrow, haccepted⟩).bind fun _ log _ hlog => ?_
      exact (Txn.Spec.of_keeps PassedContract.keep _ hlog).weaken fun _ _ => trivial

end Specs

end PostgresCardRuntime

section Runs
open ReadCommitted PostgresCardRuntime

/-- What holds of a submission at its commit. -/
def Transaction.Checked (w : World) : Transaction → Log postgres → Prop
  | keyed (.submitArtifact _ _ refs) key, log => KeySeen key log ∨ PassedContract w refs log
  | _, _ => True

theorem Transaction.checked_spec (engine : Engine) (w : World) (c : Transaction) :
    (c.program engine w).Spec Anything Always (fun _ => c.Checked w) [] := by
  have hother : ∀ x : Tx Unit, x.Spec Anything Always (fun _ _ => True) [] :=
    fun x => .of_keeps (fun _ _ h => h) x trivial
  cases c with
  | keyed call key =>
    cases call with
    | submitArtifact lease pipe refs =>
      exact (submitArtifact_accepted engine w lease pipe refs).bind fun _ _ hlog hchecked =>
        ⟨hlog, hchecked⟩
    | _ => exact hother _
  | _ => exact hother _

/-- Every submission that commits is a replay or has passed the contract, in every
interleaving with any other transactions. -/
theorem PgSystem.submissions_checked (engine : Engine) (w : World) (d : Tables)
    (actions : List (Action Transaction)) {i : Nat} {s : PgSession}
    (hs : (PgSystem.run engine w d actions).sessions[i]? = some s)
    (hcommitted : s.status = .committed) : s.call.Checked w s.log := by
  have hreach : Reaches (PgSystem.step engine w) (fun _ _ => True) (PgSystem.init d)
      (PgSystem.run engine w d actions) := .of_foldl _ _ actions
  have horderly : (PgSystem.run engine w d actions).Orderly Anything (fun _ => Always)
      fun c => c.Checked w := by
    refine hreach.invariant (.start rfl) fun σ a hσ _ => ?_
    exact hσ.moves (fun _ _ _ _ _ _ _ _ => trivial) (fun s _ => s.call.checked_spec engine w)
      (System.step_move w.supply (Transaction.program engine w) σ a)
  exact horderly.committed hs hcommitted

end Runs

end GhostMesh
