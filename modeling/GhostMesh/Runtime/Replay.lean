import GhostMesh.Runtime.CallEffects
import GhostMesh.Runtime.LeaseLife

/-!
# The ledger replays to the location

Replaying the history of a card, event by event, ends in the bucket that the card
is in, and every move starts from the bucket that the events before it lead to.
-/

set_option autoImplicit false

namespace GhostMesh

open InMemoryCardRuntime Op

/-! ## Replay -/

namespace CardEvent

/-- The bucket that an event puts its card in. -/
def bucketNamed (e : CardEvent) : Option Json :=
  if e.eventType = "card_created" then JsonObj.get? e.payload "bucket"
  else if e.eventType = "artifact_submitted" then JsonObj.get? e.payload "destination_bucket"
  else if e.eventType = "card_validated" then JsonObj.get? e.payload "destination_bucket"
  else if e.eventType = "card_moved" then JsonObj.get? e.payload "to_bucket"
  else none

/-- One turn of the replay: an event that names no bucket leaves the card where it is. -/
def replay (before : Option Json) (e : CardEvent) : Option Json := e.bucketNamed.or before

/-- A move starts from where the replay is. -/
def StartsFrom (before : Option Json) (e : CardEvent) : Prop :=
  e.eventType = "card_moved" → JsonObj.get? e.payload "from_bucket" = before

/-- The types of the events that place a card. -/
def placingTypes : List String :=
  ["card_created", "artifact_submitted", "card_validated", "card_moved"]

theorem bucketNamed_none {e : CardEvent} (h : e.eventType ∉ placingTypes) :
    e.bucketNamed = none := by
  simp only [placingTypes, List.mem_cons, List.not_mem_nil, or_false, not_or] at h
  simp [bucketNamed, h]

theorem startsFrom_of_ne {e : CardEvent} {before : Option Json} (h : e.eventType ≠ "card_moved") :
    StartsFrom before e := fun he => absurd he h

theorem not_placing_of_evidence {type : String} (h : evidenceType type = true) :
    type ∉ placingTypes := by
  intro hmem
  have hother : ∀ t ∈ placingTypes, evidenceType t = false := by decide
  rw [hother type hmem] at h
  cases h

end CardEvent

/-- The history replays to the bucket, and each of its moves starts from where the
replay was before it. -/
structure Replays (history : List CardEvent) (bucket : String) : Prop where
  location : history.foldl CardEvent.replay none = some (.str bucket)
  moves : Permitted CardEvent.replay CardEvent.StartsFrom none history

namespace Replays

variable {history : List CardEvent} {bucket : String} {e : CardEvent}

theorem single (he : e.bucketNamed = some (.str bucket)) (hmoved : e.eventType ≠ "card_moved") :
    Replays [e] bucket := by
  refine ⟨?_, CardEvent.startsFrom_of_ne hmoved, trivial⟩
  simp only [List.foldl_cons, List.foldl_nil, CardEvent.replay, he, Option.some_or]

theorem append {bucket' : String} (h : Replays history bucket)
    (he : e.replay (some (.str bucket)) = some (.str bucket'))
    (hfrom : CardEvent.StartsFrom (some (.str bucket)) e) : Replays (history ++ [e]) bucket' := by
  constructor
  · rw [List.foldl_append, h.location]
    exact he
  · apply Permitted.append_iff.mpr
    rw [h.location]
    exact ⟨h.moves, hfrom, trivial⟩

theorem append_note (h : Replays history bucket) (he : e.eventType ∉ CardEvent.placingTypes) :
    Replays (history ++ [e]) bucket := by
  apply h.append
  · rw [CardEvent.replay, CardEvent.bucketNamed_none he, Option.none_or]
  · intro hmoved
    rw [hmoved] at he
    exact absurd (by decide) he

/-- The bucket a move starts from, read off the events before it. -/
theorem from_bucket (h : Replays history bucket) {before after : List CardEvent}
    (hsplit : history = before ++ e :: after) (hmoved : e.eventType = "card_moved") :
    JsonObj.get? e.payload "from_bucket" = before.foldl CardEvent.replay none := by
  have hmoves := h.moves
  rw [hsplit] at hmoves
  exact (Permitted.append_iff.mp hmoves).2.1 hmoved

end Replays

/-! ## Stores whose histories replay -/

/-- Every stored card is where its history leads. -/
def Replayed (s : InMemoryCardRuntime) : Prop :=
  ∀ id c, s.cards.get? id = some c → Replays (s.history id) c.currentBucket

namespace Replayed

variable {s s' : InMemoryCardRuntime} {c c' : Card} {e : CardEvent}

theorem of_frame (hs : Replayed s) (hcards : s'.cards = s.cards)
    (hhistory : ∀ x, s'.history x = s.history x) : Replayed s' := by
  intro id c hget
  rw [hhistory]
  rw [hcards] at hget
  exact hs id c hget

theorem noted (hs : Replayed s) (h : Noted s s' e) (he : e.eventType ∉ CardEvent.placingTypes) :
    Replayed s' := by
  intro id c hget
  rw [h.cards] at hget
  rw [h.history]
  split
  · exact (hs id c hget).append_note he
  · exact hs id c hget

/-- An event that places a card comes with the card record that says the same. -/
theorem logged (hs : Replayed s) (h : Logged s s' (some c') e) (hid : e.cardId = c'.id)
    (hplaced : Replays (s.history c'.id ++ [e]) c'.currentBucket) : Replayed s' := by
  intro id x hget
  rw [h.cards, Option.elim_some, Dict.get?_set] at hget
  rw [h.history, hid]
  split at hget
  · rename_i heq
    cases hget
    rw [if_pos heq, heq]
    exact hplaced
  · rename_i hne
    rw [if_neg hne]
    exact hs id x hget

theorem expires {t : Instant} {ls : List Lease} (hexp : Expires t ls s s') (hs : Replayed s) :
    Replayed s' := by
  refine hexp.invariant (fun s l e htype hs => ?_) hs
  apply hs.noted (released_noted s l t e)
  rw [htype]
  decide

end Replayed

/-! ## Calls -/

/-- The fields of a validation event that the runtime writes itself. -/
def routingKeys : List String := ["accepted", "reason", "output_pipe", "destination_bucket"]

/-- A validation brings none of the runtime's own fields, and a recorded event has a
type with which the services of the program call `record_event`. -/
def RuntimeCall.Plain : RuntimeCall → Prop
  | validateCard _ _ _ _ _ payload _ =>
    ∀ key ∈ routingKeys, JsonObj.get? (payload.getD []) key = none
  | recordEvent _ type _ _ _ => evidenceType type = true
  | _ => True

section Step
variable {w : World} {m m' : Machine InMemoryCardRuntime}

/-- Without a destination from the caller, a validation names the bucket of its route. -/
theorem routedPayload_destination {accepted : Bool} {reason : Option String}
    {payload : Option JsonObj} (hpayload : JsonObj.get? (payload.getD []) "destination_bucket" = none)
    (route : Option (String × String)) :
    JsonObj.get? (routedPayload (validationPayload accepted reason payload) route)
      "destination_bucket" = route.map fun r => .str r.2 := by
  cases route with
  | none => exact JsonObj.get?_update_absent hpayload
  | some r => exact JsonObj.get?_set_self _ _ _

theorem validates_replayed {card : Uuid} {validator : String} {accepted : Bool}
    {reason pipe : Option String} {payload : Option JsonObj} {key : Option String} {c : Card}
    {route : Option (String × String)} {e : CardEvent} (hkeyed : WellKeyed m.store)
    (hm : Replayed m.store)
    (h : Validates w m m' card validator accepted reason pipe payload key c route e)
    (hpayload : JsonObj.get? (payload.getD []) "destination_bucket" = none) :
    Replayed m'.store := by
  obtain ⟨hcard, htype, -, hbody⟩ := h.event
  have hstored : m.store.cards.get? c.id = some c := by
    rw [hkeyed.cards h.card]
    exact h.card
  have hbucket : e.bucketNamed = route.map fun r => .str r.2 := by
    simp [CardEvent.bucketNamed, htype, hbody, routedPayload_destination hpayload]
  have hfrom : CardEvent.StartsFrom (some (.str c.currentBucket)) e := by
    apply CardEvent.startsFrom_of_ne
    rw [htype]
    decide
  have hlogged := h.logged
  cases route with
  | none =>
    intro id x hget
    rw [hlogged.cards] at hget
    rw [hlogged.history]
    split
    · rename_i hid
      have hx : x = c := by
        rw [hid, hcard] at hget
        exact Option.some.inj (hget.symm.trans hstored)
      have hold : Replays (m.store.history id) x.currentBucket := hm id x hget
      refine hold.append ?_ (hx ▸ hfrom)
      rw [CardEvent.replay, hbucket]
      rfl
    · exact hm id x hget
  | some r =>
    refine hm.logged hlogged hcard ?_
    have hold : Replays (m.store.history c.id) c.currentBucket := hm c.id c hstored
    refine hold.append ?_ hfrom
    rw [CardEvent.replay, hbucket]
    rfl

/-- The step lemma: a plain call keeps every history in step with its card. -/
theorem RuntimeCall.step_replayed {call : RuntimeCall} (hcall : call.Plain)
    (hkeyed : WellKeyed m.store) (hissued : Issued w m) (hm : Replayed m.store) :
    Replayed (call.step w m).store := by
  have hstored : ∀ {id : Uuid} {c : Card}, m.store.cards.get? id = some c →
      Replays (m.store.history c.id) c.currentBucket := by
    intro id c hget
    rw [hkeyed.cards hget]
    exact hm id c hget
  have hnote : ∀ {e : CardEvent} {type : String}, e.eventType = type →
      type ∉ CardEvent.placingTypes → Noted m.store (call.step w m).store e →
      Replayed (call.step w m).store := by
    intro e type htype hplain h
    exact hm.noted h (htype ▸ hplain)
  have hcase := call.step_cases w m
  generalize call.result w m = r at hcase
  cases hcase with
  | same h => exact hm.of_frame (by rw [h.store]) fun x => by rw [h.store]
  | registers _ _ h => exact hm.of_frame (by rw [h]; rfl) fun x => by rw [h]; rfl
  | @creates _ _ _ _ c e h =>
    obtain ⟨p, -, -, -, hbody⟩ := h.panel
    refine hm.logged h.logged h.event.1 ?_
    rw [h.fresh.1, hissued.history_nil (Nat.le_refl _), List.nil_append]
    apply Replays.single
    · simp [CardEvent.bucketNamed, h.event.2.1, hbody, JsonObj.get?, Dict.lookupIn]
    · rw [h.event.2.1]
      decide
  | claims h => exact hnote h.event.2.1 (by decide) h.noted
  | @submits _ _ _ _ l c d t e h =>
    obtain ⟨p, hok⟩ := h.checks
    obtain ⟨hcard, htype, -, hbody⟩ := h.event
    refine hm.logged h.logged hcard ?_
    refine (hstored hok.card).append ?_ ?_
    · simp [CardEvent.replay, CardEvent.bucketNamed, htype, hbody, JsonObj.get?, Dict.lookupIn]
    · apply CardEvent.startsFrom_of_ne
      rw [htype]
      decide
  | renews h => exact hnote h.event.2.1 (by decide) h.noted
  | releases h => exact hnote h.event.2.1 (by decide) h.noted
  | expires h _ => exact Replayed.expires h hm
  | validates h =>
    exact validates_replayed hkeyed hm h (hcall "destination_bucket" (by decide))
  | @moves _ _ _ _ _ c e h =>
    obtain ⟨hcard, htype, -, hbody⟩ := h.event
    refine hm.logged h.logged hcard ?_
    refine (hstored h.card).append ?_ ?_
    · simp [CardEvent.replay, CardEvent.bucketNamed, htype, hbody, JsonObj.get?, Dict.lookupIn]
    · intro _
      simp [hbody, JsonObj.get?, Dict.lookupIn]
  | records h => exact hnote h.event.2.1 (CardEvent.not_placing_of_evidence hcall) h.noted

end Step

/-! ## Runs -/

/-- The run lemma: what the start has and every plain call keeps holds after plain calls. -/
theorem replayed_run (w : World) (calls : List RuntimeCall) (hcalls : ∀ call ∈ calls, call.Plain) :
    Replayed (runCalls w calls).store := by
  have hrun : Reaches (RuntimeCall.step w) (fun _ call => call.Plain) InMemoryCardRuntime.start
      (runCalls w calls) :=
    (Permitted.of_forall_mem (fun _ call hcall => hcalls call hcall) _).reaches
  have hinv : WellKeyed (runCalls w calls).store ∧ Issued w (runCalls w calls) ∧
      Replayed (runCalls w calls).store := by
    refine hrun.invariant (I := fun m => WellKeyed m.store ∧ Issued w m ∧ Replayed m.store) ?_ ?_
    · refine ⟨WellKeyed.init, Issued.start w, ?_⟩
      intro id c hget
      simp [InMemoryCardRuntime.start, InMemoryCardRuntime.init] at hget
    · intro m call hinv hcall
      obtain ⟨hkeyed, hissued, hm⟩ := hinv
      have heffect := call.step_effect w m
      exact ⟨hkeyed.effect heffect, Issued.effect hkeyed hissued heffect,
        RuntimeCall.step_replayed hcall hkeyed hissued hm⟩
  exact hinv.2.2

/-- Every reached card is in the bucket to which its history replays, and every move in
that history starts from the bucket to which the events before it replay. -/
theorem history_replays_to_bucket (w : World) (calls : List RuntimeCall)
    (hcalls : ∀ call ∈ calls, call.Plain) (id : Uuid) (c : Card)
    (hcard : (runCalls w calls).store.cards.get? id = some c) :
    ((runCalls w calls).store.history id).foldl CardEvent.replay none =
        some (.str c.currentBucket) ∧
      ∀ before e after, (runCalls w calls).store.history id = before ++ e :: after →
        e.eventType = "card_moved" →
        JsonObj.get? e.payload "from_bucket" = before.foldl CardEvent.replay none := by
  have hreplays := replayed_run w calls hcalls id c hcard
  refine ⟨hreplays.location, ?_⟩
  intro before e after hsplit hmoved
  exact hreplays.from_bucket hsplit hmoved

/-- A card that is validated back and then moved on. -/
def roundTripCalls : List RuntimeCall :=
  [.registerPatchPanel (PatchPanelValidator.linePanel "orders" "1"),
    .createCard "orders" [] none none,
    .validateCard ⟨0⟩ "work" true (some "ok") (some "work_out") (some [("score", .int 1)]) none,
    .recordEvent ⟨0⟩ "source_executed" (some "intake") none none,
    .moveCard ⟨0⟩ "inbox" none none none]

theorem history_replays_to_bucket_roundTrip :
    ∃ c, (runCalls .simple roundTripCalls).store.cards.get? ⟨0⟩ = some c ∧
      c.currentBucket = "inbox" ∧
      ((runCalls .simple roundTripCalls).store.history ⟨0⟩).foldl CardEvent.replay none =
        some (.str c.currentBucket) ∧
      ∀ before e after, (runCalls .simple roundTripCalls).store.history ⟨0⟩ =
        before ++ e :: after → e.eventType = "card_moved" →
        JsonObj.get? e.payload "from_bucket" = before.foldl CardEvent.replay none := by
  have hplain : ∀ call ∈ roundTripCalls, call.Plain := by
    simp [roundTripCalls, RuntimeCall.Plain, routingKeys, JsonObj.get?, Dict.lookupIn]
    decide
  have hcard : (runCalls .simple roundTripCalls).store.cards.get? ⟨0⟩ =
      some ⟨⟨0⟩, "orders:1", "inbox", [], [], 0⟩ := by rfl
  exact ⟨_, hcard, rfl, history_replays_to_bucket .simple roundTripCalls hplain ⟨0⟩ _ hcard⟩

end GhostMesh
