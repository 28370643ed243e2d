import GhostMesh.Runtime.DeclaredBuckets
import GhostMesh.Runtime.OnePlace

/-!
# Declared buckets in the tables

Concurrent transactions read cards and panels before they write any, and each of them
writes one card, one bucket or one panel at most. What it has read of the version of a
card and of the stored panels still holds at its commit, so that the bucket it writes is
one of the card's panel.
-/

set_option autoImplicit false

namespace GhostMesh

open ReadCommitted PostgresCardRuntime
open PatchPanelValidator (accepts)

/-! ## Cards and panels in the tables -/

namespace Tables

/-- The card has this version string. -/
def HasVersion (d : Tables) (id : Uuid) (version : String) : Prop :=
  ∃ c, d.cards.get? id = some c ∧ c.workflowVersion = version

def hasPanel (d : Tables) (p : PatchPanel) : Prop :=
  d.patchPanels.contains (p.id, p.version) = true

/-- Panels that were registered, under their own keys, and cards in their buckets. -/
structure Settled (registered : PatchPanel → Prop) (d : Tables) : Prop where
  panels : ∀ key row, d.patchPanels.get? key = some row →
    registered row.definition ∧ key = (row.definition.id, row.definition.version)
  cards : ∀ id c, d.cards.get? id = some c → c.id = id ∧ ∃ p, registered p ∧ d.hasPanel p ∧
    c.workflowVersion = p.workflowVersion ∧ p.Declares c.currentBucket

/-- Cards keep their versions, and panels stay. -/
structure Develops (d d' : Tables) : Prop where
  versions : ∀ id version, d.HasVersion id version → d'.HasVersion id version
  panels : ∀ p, d.hasPanel p → d'.hasPanel p

theorem Develops.of_eq {d d' : Tables} (hcards : d'.cards = d.cards)
    (hpanels : d'.patchPanels = d.patchPanels) : d.Develops d' where
  versions id version h := by rwa [HasVersion, hcards]
  panels p h := by rwa [hasPanel, hpanels]

theorem Develops.trans {d d' d'' : Tables} (h : d.Develops d') (h' : d'.Develops d'') :
    d.Develops d'' where
  versions id version hid := h'.versions id version (h.versions id version hid)
  panels p hp := h'.panels p (h.panels p hp)

section Changes
variable {registered : PatchPanel → Prop} {d d' : Tables} (h : d.Settled registered)
include h

theorem Settled.of_eq (hcards : d'.cards = d.cards) (hpanels : d'.patchPanels = d.patchPanels) :
    d'.Settled registered := by
  refine ⟨hpanels ▸ h.panels, ?_⟩
  intro id c hc
  rw [hcards] at hc
  obtain ⟨hid, p, hp, hpanel, hrest⟩ := h.cards id c hc
  exact ⟨hid, p, hp, (Develops.of_eq hcards hpanels).panels p hpanel, hrest⟩

/-- A panel is stored. -/
theorem Settled.registers {row : Stamped PatchPanel} (hcards : d'.cards = d.cards)
    (hpanels : d'.patchPanels =
      d.patchPanels.set (row.definition.id, row.definition.version) row)
    (hrow : registered row.definition) : d'.Settled registered ∧ d.Develops d' := by
  have hstay : ∀ p, d.hasPanel p → d'.hasPanel p := by
    intro p hp
    rw [hasPanel, hpanels, Dict.contains_set]
    exact .inr hp
  refine ⟨⟨?_, ?_⟩, ?_, hstay⟩
  · rw [hpanels]
    exact Dict.forall_values_set h.panels ⟨hrow, rfl⟩
  · intro id c hc
    rw [hcards] at hc
    obtain ⟨hid, p, hp, hpanel, hrest⟩ := h.cards id c hc
    exact ⟨hid, p, hp, hstay p hpanel, hrest⟩
  · intro id version hid
    rwa [HasVersion, hcards]

/-- A new card enters a bucket of a stored panel. -/
theorem Settled.creates {c : Card} {p : PatchPanel} (hcards : d'.cards = d.cards.set c.id c)
    (hpanels : d'.patchPanels = d.patchPanels) (hnew : ¬ d.cards.contains c.id = true)
    (hp : registered p) (hpanel : d.hasPanel p) (hversion : c.workflowVersion = p.workflowVersion)
    (hdeclares : p.Declares c.currentBucket) : d'.Settled registered ∧ d.Develops d' := by
  have hstay : ∀ p, d.hasPanel p → d'.hasPanel p := by
    intro p hp
    rwa [hasPanel, hpanels]
  refine ⟨⟨hpanels ▸ h.panels, ?_⟩, ?_, hstay⟩
  · rw [hcards]
    apply Dict.forall_values_set
    · intro id x hx
      obtain ⟨hid, q, hq, hstored, hrest⟩ := h.cards id x hx
      exact ⟨hid, q, hq, hstay q hstored, hrest⟩
    · exact ⟨rfl, p, hp, hstay p hpanel, hversion, hdeclares⟩
  · intro id version hid
    obtain ⟨x, hx, hxversion⟩ := hid
    refine ⟨x, ?_, hxversion⟩
    rw [hcards, Dict.get?_set_ne]
    · exact hx
    · intro heq
      rw [heq] at hx
      exact hnew (Dict.contains_of_get? hx)

/-- A card enters a bucket of its panel. -/
theorem Settled.moves {id : Uuid} {bucket : String} {p : PatchPanel}
    (hcards : d'.cards = d.cards.modify id fun c => { c with currentBucket := bucket })
    (hpanels : d'.patchPanels = d.patchPanels) (hp : registered p)
    (hversion : d.HasVersion id p.workflowVersion) (hpanel : d.hasPanel p)
    (hdeclares : p.Declares bucket) : d'.Settled registered ∧ d.Develops d' := by
  have hstay : ∀ p, d.hasPanel p → d'.hasPanel p := by
    intro p hp
    rwa [hasPanel, hpanels]
  obtain ⟨c₀, hc₀, hc₀version⟩ := hversion
  refine ⟨⟨hpanels ▸ h.panels, ?_⟩, ?_, hstay⟩
  · intro id' c hc
    rw [hcards, Dict.get?_modify] at hc
    split at hc
    · rename_i hid
      rw [hc₀] at hc
      cases hc
      obtain ⟨hkey, -⟩ := h.cards id c₀ hc₀
      exact ⟨hkey.trans hid.symm, p, hp, hstay p hpanel, hc₀version, hdeclares⟩
    · obtain ⟨hkey, q, hq, hstored, hrest⟩ := h.cards id' c hc
      exact ⟨hkey, q, hq, hstay q hstored, hrest⟩
  · intro id' version hid'
    obtain ⟨x, hx, hxversion⟩ := hid'
    rw [HasVersion, hcards, Dict.get?_modify]
    split
    · rename_i hid
      rw [hid] at hx
      exact ⟨{ x with currentBucket := bucket }, by rw [hx]; rfl, hxversion⟩
    · exact ⟨x, hx, hxversion⟩

end Changes

end Tables

/-! ## The staged writes of a log -/

/-- A write to the tables of cards and panels. -/
def RowWrite.staged : RowWrite → Bool
  | card _ | cardBucket _ _ | patchPanel _ => true
  | _ => false

def stagedWrites (log : Log postgres) : List RowWrite := log.writesOn RowWrite.staged

/-- The transaction has not touched cards and panels. -/
def Unstaged (log : Log postgres) : Prop := stagedWrites log = []

def OffStage (x : RowWrite) : Prop := x.staged = false

theorem stagedWrites_wrote (x : RowWrite) (log : Log postgres) :
    stagedWrites (.wrote x :: log) =
      if x.staged then x :: stagedWrites log else stagedWrites log :=
  Log.writesOn_wrote (S := postgres) RowWrite.staged x log

theorem stagedWrites_keep {o : Obs postgres} (ho : o.Within OffStage) (log : Log postgres) :
    stagedWrites (o :: log) = stagedWrites log := Log.writesOn_keep (S := postgres) ho

theorem view_staged (log : Log postgres) (d : Tables) :
    (log.view d).cards = ((stagedWrites log).foldr postgres.apply d).cards ∧
      (log.view d).patchPanels = ((stagedWrites log).foldr postgres.apply d).patchPanels := by
  refine Prod.mk.inj (Log.view_writesOn (S := postgres) (p := RowWrite.staged)
    (fun d : Tables => (d.cards, d.patchPanels)) (fun x d hx => ?_) (fun x d d' h => ?_) log d)
  · cases x with
    | card c => cases hx
    | cardBucket id bucket => cases hx
    | patchPanel row => cases hx
    | _ => rfl
  · obtain ⟨hcards, hpanels⟩ := Prod.mk.inj h
    cases x <;> simp only [RowWrite.apply, hcards, hpanels]

theorem Unstaged.view {log : Log postgres} (h : Unstaged log) (d : Tables) :
    (log.view d).cards = d.cards ∧ (log.view d).patchPanels = d.patchPanels := by
  have hview := view_staged log d
  rw [show stagedWrites log = [] from h] at hview
  exact hview

/-- Under its lock, the key of a card has no row. -/
def newCardFacts : LockFacts postgres Uuid where
  lock := RowLock.card
  fact d id := ¬ d.cards.contains id = true
  clean _ _ := True

/-- A statement has read the version of the card as committed. -/
def SawVersion (id : Uuid) (version : String) (log : Log postgres) : Prop :=
  ∃ d, log.SawFrom Unstaged d ∧ d.HasVersion id version

def SawPanel (p : PatchPanel) (log : Log postgres) : Prop :=
  ∃ d, log.SawFrom Unstaged d ∧ d.hasPanel p

/-- The version of the card as the transaction has read it, or has written it itself. -/
def KnowsVersion (id : Uuid) (version : String) (log : Log postgres) : Prop :=
  SawVersion id version log ∨ ∃ c : Card, stagedWrites log = [.card c] ∧ c.id = id ∧
    c.workflowVersion = version

section Declared
variable (registered : PatchPanel → Prop) (fields : CardEvent → List (Option Json))

/-- The fields of an event hold buckets of the panel of its card. -/
def EventDeclared (e : CardEvent) (log : Log postgres) : Prop :=
  ∀ field ∈ fields e, ∃ p bucket, registered p ∧ KnowsVersion e.cardId p.workflowVersion log ∧
    field = some (.str bucket) ∧ p.Declares bucket

def EventsDeclared (log : Log postgres) : Prop :=
  ∀ e, .wrote (.cardEvent e) ∈ log → EventDeclared registered fields e log

/-- What a transaction has done to cards and panels at its end. -/
inductive StageDone (log : Log postgres) : Prop where
  | untouched (h : Unstaged log)
  | registered (row : Stamped PatchPanel) (h : stagedWrites log = [.patchPanel row])
      (hrow : registered row.definition)
  | created (c : Card) (p : PatchPanel) (h : stagedWrites log = [.card c])
      (hnew : newCardFacts.Holds log c.id) (hp : registered p) (hpanel : SawPanel p log)
      (hversion : c.workflowVersion = p.workflowVersion) (hdeclares : p.Declares c.currentBucket)
  | moved (id : Uuid) (bucket : String) (p : PatchPanel)
      (h : stagedWrites log = [.cardBucket id bucket]) (hp : registered p)
      (hversion : SawVersion id p.workflowVersion log) (hpanel : SawPanel p log)
      (hdeclares : p.Declares bucket)

structure DeclaredDone (log : Log postgres) : Prop where
  stage : StageDone registered log
  events : EventsDeclared registered fields log

/-- A transaction that has only read cards and panels. -/
structure Reading (log : Log postgres) : Prop where
  untouched : Unstaged log
  events : EventsDeclared registered fields log

/-- A card as it was read, with its panel. -/
structure HasRead (c : Card) (p : PatchPanel) (log : Log postgres) : Prop where
  reading : Reading registered fields log
  registered : registered p
  saw : SawVersion c.id p.workflowVersion log
  panel : SawPanel p log
  version : c.workflowVersion = p.workflowVersion
  declares : p.Declares c.currentBucket

/-- The end of a transaction that knows the version of a card. -/
structure DoneWith (id : Uuid) (p : PatchPanel) (log : Log postgres) : Prop where
  done : DeclaredDone registered fields log
  registered : registered p
  knows : KnowsVersion id p.workflowVersion log

/-- A write to other tables, or an event that names no bucket. -/
def Plain (x : RowWrite) : Prop := x.staged = false ∧ ∀ e, x = .cardEvent e → fields e = []

end Declared

section Logs
variable {registered : PatchPanel → Prop} {fields : CardEvent → List (Option Json)}
  {log : Log postgres} {id : Uuid} {version : String} {p : PatchPanel} {c : Card}

theorem within_offStage {o : Obs postgres} (ho : o.Within (Plain fields)) : o.Within OffStage := by
  cases o with
  | wrote x => exact ho.1
  | _ => trivial

theorem Unstaged.keep : Log.Kept OffStage Unstaged :=
  fun _ log ho h => (stagedWrites_keep ho log).trans h

theorem SawVersion.keep (h : SawVersion id version log) (o : Obs postgres) :
    SawVersion id version (o :: log) := by
  obtain ⟨d, hd, hversion⟩ := h
  exact ⟨d, hd.keep o, hversion⟩

theorem SawPanel.keep (h : SawPanel p log) (o : Obs postgres) : SawPanel p (o :: log) := by
  obtain ⟨d, hd, hpanel⟩ := h
  exact ⟨d, hd.keep o, hpanel⟩

theorem KnowsVersion.keep (h : KnowsVersion id version log) {o : Obs postgres}
    (ho : o.Within OffStage) : KnowsVersion id version (o :: log) := by
  rcases h with h | ⟨c, hstaged, hc⟩
  · exact .inl (h.keep o)
  · exact .inr ⟨c, (stagedWrites_keep ho log).trans hstaged, hc⟩

/-- The events that are there stay declared; a new one has to be. -/
theorem EventsDeclared.cons (h : EventsDeclared registered fields log) {o : Obs postgres}
    (ho : o.Within OffStage)
    (hnew : ∀ e, o = .wrote (.cardEvent e) → EventDeclared registered fields e (o :: log)) :
    EventsDeclared registered fields (o :: log) := by
  intro e he
  rcases List.mem_cons.mp he with heq | he
  · exact hnew e heq.symm
  · intro field hfield
    obtain ⟨p, bucket, hp, hknows, hrest⟩ := h e he field hfield
    exact ⟨p, bucket, hp, hknows.keep ho, hrest⟩

theorem EventsDeclared.keep :
    Log.Kept (Plain fields) (EventsDeclared registered fields) := by
  intro o log ho h
  apply h.cons (within_offStage ho)
  intro e heq field hfield
  subst heq
  rw [ho.2 e rfl] at hfield
  cases hfield

/-- A staged write brings no event. -/
theorem EventsDeclared.staged (h : EventsDeclared registered fields log) {x : RowWrite}
    (hlog : Unstaged log) (hx : x.staged = true) :
    EventsDeclared registered fields (.wrote x :: log) := by
  intro e he
  rcases List.mem_cons.mp he with heq | he
  · cases heq
    cases hx
  · intro field hfield
    obtain ⟨p, bucket, hp, hknows, hrest⟩ := h e he field hfield
    refine ⟨p, bucket, hp, ?_, hrest⟩
    rcases hknows with hsaw | ⟨c, hstaged, -⟩
    · exact .inl (hsaw.keep _)
    · rw [show stagedWrites log = [] from hlog] at hstaged
      cases hstaged

theorem Reading.keep : Log.Kept (Plain fields) (Reading registered fields) := fun o log ho h =>
  ⟨Unstaged.keep o log (within_offStage ho) h.untouched, EventsDeclared.keep o log ho h.events⟩

theorem HasRead.keep : Log.Kept (Plain fields) (HasRead registered fields c p) := fun o log ho h =>
  ⟨Reading.keep o log ho h.reading, h.registered, h.saw.keep o, h.panel.keep o, h.version, h.declares⟩

theorem StageDone.keep {o : Obs postgres} (ho : o.Within OffStage) (h : StageDone registered log) :
    StageDone registered (o :: log) := by
  have hsame := stagedWrites_keep ho log
  cases h with
  | untouched h => exact .untouched (hsame.trans h)
  | registered row h hrow => exact .registered row (hsame.trans h) hrow
  | created c p h hnew hp hpanel hversion hdeclares =>
    exact .created c p (hsame.trans h) (hnew.keep o) hp (hpanel.keep o) hversion hdeclares
  | moved id bucket p h hp hversion hpanel hdeclares =>
    exact .moved id bucket p (hsame.trans h) hp (hversion.keep o) (hpanel.keep o) hdeclares

theorem DeclaredDone.keep : Log.Kept (Plain fields) (DeclaredDone registered fields) :=
  fun o log ho h => ⟨h.stage.keep (within_offStage ho), EventsDeclared.keep o log ho h.events⟩

theorem DoneWith.keep : Log.Kept (Plain fields) (DoneWith registered fields id p) :=
  fun o log ho h => ⟨DeclaredDone.keep o log ho h.done, h.registered,
    h.knows.keep (within_offStage ho)⟩

/-- An event of that card, whose fields hold buckets of the panel. -/
theorem DoneWith.event {moved : Bool} {e : CardEvent}
    (h : DoneWith registered (CardEvent.bucketFields moved) id p log) (hid : e.cardId = id)
    (hdeclared : e.DeclaredIn moved p) :
    DoneWith registered (CardEvent.bucketFields moved) id p (.wrote (.cardEvent e) :: log) := by
  have hknows : KnowsVersion id p.workflowVersion (.wrote (.cardEvent e) :: log) :=
    h.knows.keep (o := .wrote (.cardEvent e)) rfl
  refine ⟨⟨h.done.stage.keep (o := .wrote (.cardEvent e)) rfl, ?_⟩, h.registered, hknows⟩
  refine h.done.events.cons (o := .wrote (.cardEvent e)) rfl ?_
  intro e' heq field hfield
  cases heq
  obtain ⟨bucket, hbucket, hdeclares⟩ := hdeclared field hfield
  exact ⟨p, bucket, h.registered, hid ▸ hknows, hbucket, hdeclares⟩

theorem Reading.done (h : Reading registered fields log) : DeclaredDone registered fields log :=
  ⟨.untouched h.untouched, h.events⟩

theorem Reading.nil : Reading registered fields [] := ⟨rfl, nofun⟩

end Logs

/-- What a statement sees before the transaction has touched cards and panels. -/
abbrev DeclaredFits (registered : PatchPanel → Prop) : Log postgres → Obs postgres → Prop :=
  fun log o => ∀ d, o.data = some d → Unstaged log → d.Settled registered

namespace PostgresCardRuntime

section Bodies
variable {registered : PatchPanel → Prop} {moved : Bool} {log : Log postgres}
  {p : PatchPanel} {c : Card} {w : World} {α β : Type}
variable (engine : Engine)

/-- An event is drawn up and inserted. -/
theorem after_event {I D : Log postgres → Prop} {cardId : Uuid} {type : String}
    {actor : Option String} {payload : JsonObj} {f : CardEvent → Tx β} {R : β → Log postgres → Prop}
    (hkeep : Log.Kept (Plain (CardEvent.bucketFields moved)) I) (hlog : I log)
    (hwrite : ∀ e log', e.cardId = cardId → e.eventType = type → e.payload = payload → I log' →
      D (.wrote (.cardEvent e) :: log'))
    (hf : ∀ e log', D log' → (f e).Spec (DeclaredFits registered) Always R log') :
    (newEvent cardId type actor payload >>= fun e => insertEvent engine e >>= fun _ => f e).Spec
      (DeclaredFits registered) Always R log := by
  refine (newEvent_spec (P := Always) cardId type actor payload trivial (fun _ => trivial)
    fun _ _ => trivial).bind ?_
  rintro e log' - ⟨u, t, rfl, rfl⟩
  have hnext : I (.clock t :: .ident u :: log) := hkeep _ _ trivial (hkeep _ _ trivial hlog)
  refine Txn.Spec.bind (Q := fun _ => D) ?_ fun _ log' _ hdone => hf _ log' hdone
  refine .insert trivial (fun _ => trivial) fun d _ _ => ⟨trivial, ?_⟩
  exact hwrite _ _ rfl rfl rfl (hkeep _ _ trivial hnext)

/-- An event that names no bucket. -/
theorem after_plainEvent {I : Log postgres → Prop} {cardId : Uuid} {type : String}
    {actor : Option String} {payload : JsonObj} {f : CardEvent → Tx β} {R : β → Log postgres → Prop}
    (hkeep : Log.Kept (Plain (CardEvent.bucketFields moved)) I)
    (htype : type ∉ CardEvent.bucketTypes) (hlog : I log)
    (hf : ∀ e log', I log' → (f e).Spec (DeclaredFits registered) Always R log') :
    (newEvent cardId type actor payload >>= fun e => insertEvent engine e >>= fun _ => f e).Spec
      (DeclaredFits registered) Always R log := by
  refine after_event engine hkeep hlog ?_ hf
  intro e log' _ htype' _ hlog'
  refine hkeep _ _ ⟨rfl, ?_⟩ hlog'
  intro e' heq
  cases heq
  exact CardEvent.bucketFields_other (htype' ▸ htype)

theorem sawVersion_now {o : Obs postgres} {d : Tables} (hlog : Unstaged log)
    (hd : o.data = some d) {id : Uuid} (hc : d.cards.get? id = some c) (hid : c.id = id) :
    SawVersion c.id c.workflowVersion (o :: log) :=
  ⟨d, .now hd hlog, c, hid ▸ hc, rfl⟩

theorem getCard_declared (id : Uuid) (hlog : Reading registered (CardEvent.bucketFields moved) log) :
    (getCard id).Spec (DeclaredFits registered) Always (fun c log' => ∃ p,
      HasRead registered (CardEvent.bucketFields moved) c p log') log := by
  unfold getCard
  refine (Txn.Spec.query (Q := fun (d : Tables) log' => log' = .saw (.card id) d :: log ∧
    d.Settled registered) trivial fun d hd => ⟨trivial, rfl, hd d rfl hlog.untouched⟩).bind ?_
  rintro d log' - ⟨rfl, hsettled⟩
  cases hget : d.cards.get? id with
  | none => trivial
  | some c =>
    obtain ⟨hid, p, hp, hpanel, hversion, hdeclares⟩ := hsettled.cards id c hget
    refine ⟨trivial, p, Reading.keep _ _ trivial hlog, hp, ?_, ?_, hversion, hdeclares⟩
    · rw [← hversion]
      exact sawVersion_now hlog.untouched rfl hget hid
    · exact ⟨d, .now rfl hlog.untouched, hpanel⟩

/-- The panel found for a card is its own. -/
theorem getPatchPanelForCard_declared (hone : OneDefinition registered)
    (hlog : HasRead registered (CardEvent.bucketFields moved) c p log) :
    (getPatchPanelForCard c).Spec (DeclaredFits registered) Always (fun q log' => q = p ∧
      HasRead registered (CardEvent.bucketFields moved) c p log') log := by
  have hsplit : splitFirstColon c.workflowVersion = some (p.id, p.version) := by
    rw [hlog.version]
    exact (splitFirstColon_iff p).mpr (hone.idPlain p hlog.registered)
  unfold getPatchPanelForCard
  rw [hsplit]
  refine (Txn.Spec.query (Q := fun (d : Tables) log' => log' = .saw (.patchPanel p.id p.version) d ::
    log ∧ d.Settled registered) trivial fun d hd =>
      ⟨trivial, rfl, hd d rfl hlog.reading.untouched⟩).bind ?_
  rintro d log' - ⟨rfl, hsettled⟩
  cases hget : d.patchPanels.get? (p.id, p.version) with
  | none => trivial
  | some row =>
    obtain ⟨hrow, hkey⟩ := hsettled.panels _ row hget
    have hsame : row.definition = p :=
      hone.unique _ _ hrow hlog.registered (Prod.mk.inj hkey).1.symm
    exact ⟨trivial, hsame, HasRead.keep _ _ trivial hlog⟩

theorem getActivePatchPanel_declared (id : String)
    (hlog : Reading registered (CardEvent.bucketFields moved) log) :
    (getActivePatchPanel engine id).Spec (DeclaredFits registered) Always (fun p log' =>
      Reading registered (CardEvent.bucketFields moved) log' ∧ registered p ∧ SawPanel p log')
      log := by
  unfold getActivePatchPanel
  refine (Txn.Spec.query (Q := fun (d : Tables) log' => log' = .saw (.activePatchPanel id) d ::
    log ∧ d.Settled registered) trivial fun d hd => ⟨trivial, rfl, hd d rfl hlog.untouched⟩).bind ?_
  rintro d log' - ⟨rfl, hsettled⟩
  cases hrows : engine.rows d (activeDefinitions d id) with
  | nil => trivial
  | cons p rest =>
    have hmem : p ∈ activeDefinitions d id := by
      rw [← Engine.mem_rows engine d, hrows]
      exact List.mem_cons_self
    obtain ⟨row, hrow, rfl⟩ := List.mem_map.mp hmem
    obtain ⟨key, hkey⟩ := (Dict.mem_values_iff _ _).mp (List.mem_filter.mp hrow).1
    obtain ⟨hregistered, heq⟩ := hsettled.panels key row hkey
    rw [heq] at hkey
    exact ⟨trivial, Reading.keep _ _ trivial hlog, hregistered, d, .now rfl hlog.untouched,
      Dict.contains_of_get? hkey⟩

/-! Moves. -/

/-- The UPDATE of a card's bucket, whether it finds its row or not. -/
theorem updateCardBucket_declared {bucket : String} (hdeclares : p.Declares bucket)
    (hlog : HasRead registered (CardEvent.bucketFields moved) c p log) :
    (updateCardBucket c.id bucket).Spec (DeclaredFits registered) Always
      (fun _ => DoneWith registered (CardEvent.bucketFields moved) c.id p) log := by
  have hread : ∀ {log : Log postgres}, HasRead registered (CardEvent.bucketFields moved) c p log →
      DoneWith registered (CardEvent.bucketFields moved) c.id p log :=
    fun h => ⟨h.reading.done, h.registered, .inl h.saw⟩
  unfold updateCardBucket Txn.update
  refine .after_kept HasRead.keep (.query _) hlog fun d log hlog => ?_
  beta_reduce
  split
  · refine Txn.Spec.bind (Q := fun _ => DoneWith registered (CardEvent.bucketFields moved) c.id p)
      ?_ fun _ log _ hdone => ⟨trivial, hdone⟩
    refine .after_kept HasRead.keep (.lockRow _) hlog fun latest log hlog => ?_
    split
    · refine .put trivial trivial ⟨⟨.moved c.id bucket p ?_ hlog.registered (hlog.saw.keep _)
        (hlog.panel.keep _) hdeclares, ?_⟩, hlog.registered, .inl (hlog.saw.keep _)⟩
      · rw [stagedWrites_wrote, show stagedWrites log = [] from hlog.reading.untouched]
        rfl
      · exact hlog.reading.events.staged hlog.reading.untouched rfl
    · exact ⟨trivial, hread hlog⟩
  · exact ⟨trivial, hread hlog⟩

theorem moveCardRow_declared {bucket : String} {actor reason : Option String} {emitEvent : Bool}
    (hdeclares : p.Declares bucket)
    (hlog : HasRead registered (CardEvent.bucketFields moved) c p log) :
    (moveCardRow engine c bucket actor reason emitEvent).Spec (DeclaredFits registered) Always
      (fun _ => DoneWith registered (CardEvent.bucketFields moved) c.id p) log := by
  have hfrom : p.Declares c.currentBucket := hlog.declares
  refine .after_kept HasRead.keep .now hlog fun now log hlog => ?_
  refine .after_kept HasRead.keep (exitLocations_writes engine c.id now fun _ => ⟨rfl, nofun⟩) hlog
    fun _ log hlog => ?_
  refine .after_kept HasRead.keep .fresh hlog fun id log hlog => ?_
  refine .after_kept HasRead.keep (insertLocation_writes engine ⟨rfl, nofun⟩) hlog
    fun _ log hlog => ?_
  refine (updateCardBucket_declared hdeclares hlog).bind fun _ log _ hdone => ?_
  split
  · refine after_event engine (D := DoneWith registered (CardEvent.bucketFields moved) c.id p)
      DoneWith.keep hdone ?_ fun _ log hdone => ⟨trivial, hdone⟩
    intro e log' hid htype hbody hdone
    refine hdone.event hid (CardEvent.declaredIn_moved htype ?_ ?_ hfrom hdeclares)
    · simp [hbody, JsonObj.get?, Dict.lookupIn]
    · simp [hbody, JsonObj.get?, Dict.lookupIn]
  · exact ⟨trivial, hdone⟩

/-! The operations. -/

section Operations
variable {key : Option String}

/-- What an operation does behind its key. -/
theorem idempotent_declared {replay : ResponseRef → Tx α} {body : Tx α}
    (hreplay : ∀ ref, (replay ref).Writes (Plain (CardEvent.bucketFields moved)))
    (hbody : ∀ log, Reading registered (CardEvent.bucketFields moved) log →
      body.Spec (DeclaredFits registered) Always
        (fun _ => DeclaredDone registered (CardEvent.bucketFields moved)) log)
    (hlog : Reading registered (CardEvent.bucketFields moved) log) :
    (idempotent key replay body).Spec (DeclaredFits registered) Always
      (fun _ => DeclaredDone registered (CardEvent.bucketFields moved)) log :=
  idempotent_kept Reading.keep DeclaredDone.keep hreplay (fun _ => Reading.done) hbody hlog

/-- The answer is stored, and the transaction returns. -/
theorem finish_declared {operation : String} {ref : ResponseRef} (a : α)
    (hlog : DeclaredDone registered (CardEvent.bucketFields moved) log) :
    (storeIdempotency key operation ref >>= fun _ => pure a).Spec (DeclaredFits registered) Always
      (fun _ => DeclaredDone registered (CardEvent.bucketFields moved)) log := by
  refine .after_kept DeclaredDone.keep
    (storeIdempotency_writes key _ _ fun _ _ => ⟨rfl, nofun⟩) hlog fun _ log hlog => ?_
  exact ⟨trivial, hlog⟩

theorem createCard_declared (haccepts : ∀ q, registered q → accepts w q = true) (panel : String)
    (payload : JsonObj) (metadata : Option JsonObj)
    (hlog : Reading registered (CardEvent.bucketFields moved) log) :
    (createCard engine panel payload metadata key).Spec (DeclaredFits registered) Always
      (fun _ => DeclaredDone registered (CardEvent.bucketFields moved)) log := by
  refine idempotent_declared cachedCard_writes (fun log hlog => ?_) hlog
  refine (getActivePatchPanel_declared engine panel hlog).bind ?_
  intro p log _ hread
  obtain ⟨hlog, hp, hpanel⟩ := hread
  refine Txn.Spec.bind (Txn.Spec.ofExcept (Q := fun bucket log' =>
    resolveInitialBucket p = .ok bucket ∧ log' = log) trivial fun bucket hbucket =>
      ⟨hbucket, rfl⟩) ?_
  intro bucket log' _ hresolved
  obtain ⟨hbucket, rfl⟩ := hresolved
  have hdeclares : p.Declares bucket := resolveInitialBucket_declares (haccepts p hp) hbucket
  let I : Log postgres → Prop := fun log =>
    Reading registered (CardEvent.bucketFields moved) log ∧ SawPanel p log
  have hkeep : Log.Kept (Plain (CardEvent.bucketFields moved)) I :=
    fun o log ho h => ⟨Reading.keep o log ho h.1, h.2.keep o⟩
  refine .after_kept hkeep .fresh ⟨hlog, hpanel⟩ fun id log hlog => ?_
  refine .after_kept hkeep .now hlog fun createdAt log hlog => ?_
  -- The card is inserted under a key that was free.
  refine Txn.Spec.bind (Q := fun _ =>
    DoneWith registered (CardEvent.bucketFields moved) id p) ?_ ?_
  · refine .insert trivial (fun _ => trivial) fun d _ hfree => ⟨trivial, ?_⟩
    have hlocked := hkeep (.locked (.card id) d) log trivial hlog
    have hnew : newCardFacts.Holds (.locked (.card id) d :: log) id :=
      LockFacts.Holds.now (F := newCardFacts) trivial (ne_true_of_eq_false hfree)
    have hstaged : stagedWrites (.wrote (.card ⟨id, p.workflowVersion, bucket, payload,
        metadata.getD [], createdAt⟩) :: .locked (RowLock.card id) d :: log) =
          [.card ⟨id, p.workflowVersion, bucket, payload, metadata.getD [], createdAt⟩] := by
      rw [stagedWrites_wrote, show stagedWrites (.locked (RowLock.card id) d :: log) = [] from
        hlocked.1.untouched]
      rfl
    refine ⟨⟨.created _ p hstaged (hnew.keep _) hp (hlocked.2.keep _) rfl hdeclares, ?_⟩, hp,
      .inr ⟨_, hstaged, rfl, rfl⟩⟩
    exact hlocked.1.events.staged hlocked.1.untouched rfl
  · intro _ log _ hdone
    refine .after_kept DoneWith.keep .fresh hdone fun locationId log hdone => ?_
    refine .after_kept DoneWith.keep (insertLocation_writes engine ⟨rfl, nofun⟩) hdone
      fun _ log hdone => ?_
    refine after_event engine (D := DoneWith registered (CardEvent.bucketFields moved) id p)
      DoneWith.keep hdone ?_ fun _ log hdone => finish_declared _ hdone.done
    intro e log' hid htype hbody hdone
    refine hdone.event hid (CardEvent.declaredIn_created htype ?_ hdeclares)
    simp [hbody, JsonObj.get?, Dict.lookupIn]

theorem claimCard_declared (pipe worker : String) (seconds : Int)
    (hlog : Reading registered (CardEvent.bucketFields moved) log) :
    (claimCard engine pipe worker seconds key).Spec (DeclaredFits registered) Always
      (fun _ => DeclaredDone registered (CardEvent.bucketFields moved)) log := by
  refine idempotent_declared cachedLease_writes (fun log hlog => ?_) hlog
  refine .after_kept Reading.keep singlePatchPanel_writes hlog fun p log hlog => ?_
  refine .after_kept Reading.keep (.ofExcept _) hlog fun target log hlog => ?_
  refine .after_kept Reading.keep .now hlog fun now log hlog => ?_
  refine .after_kept Reading.keep (selectClaimable_writes engine _ now) hlog
    fun found log hlog => ?_
  cases found with
  | none => trivial
  | some card =>
    refine .after_kept Reading.keep (newLease_writes card _ _ _ _) hlog fun lease log hlog => ?_
    refine .after_kept Reading.keep (insertLease_writes engine ⟨rfl, nofun⟩) hlog
      fun _ log hlog => ?_
    exact after_plainEvent engine Reading.keep (by decide) hlog fun _ log hlog =>
      finish_declared _ hlog.done

theorem renewLease_declared (leaseId : Uuid) (seconds : Int)
    (hlog : Reading registered (CardEvent.bucketFields moved) log) :
    (renewLease engine leaseId seconds key).Spec (DeclaredFits registered) Always
      (fun _ => DeclaredDone registered (CardEvent.bucketFields moved)) log := by
  refine idempotent_declared cachedLease_writes (fun log hlog => ?_) hlog
  refine .after_kept Reading.keep (getLease_writes leaseId) hlog fun lease log hlog => ?_
  refine .after_kept Reading.keep (ensureActiveLease_writes lease) hlog fun _ log hlog => ?_
  refine .after_kept Reading.keep (expiryAfter_writes seconds) hlog fun expiresAt log hlog => ?_
  refine .after_kept Reading.keep (updateLease_writes lease.id ⟨rfl, nofun⟩) hlog
    fun _ log hlog => ?_
  exact after_plainEvent engine Reading.keep (by decide) hlog fun _ log hlog =>
    finish_declared _ hlog.done

theorem releaseLease_declared (leaseId : Uuid) (actor : Option String)
    (hlog : Reading registered (CardEvent.bucketFields moved) log) :
    (releaseLease engine leaseId actor key).Spec (DeclaredFits registered) Always
      (fun _ => DeclaredDone registered (CardEvent.bucketFields moved)) log := by
  refine idempotent_declared cachedLease_writes (fun log hlog => ?_) hlog
  refine .after_kept Reading.keep (getLease_writes leaseId) hlog fun lease log hlog => ?_
  split
  · exact ⟨trivial, hlog.done⟩
  · refine .after_kept Reading.keep .now hlog fun releasedAt log hlog => ?_
    refine .after_kept Reading.keep (updateLease_writes lease.id ⟨rfl, nofun⟩) hlog
      fun _ log hlog => ?_
    exact after_plainEvent engine Reading.keep (by decide) hlog fun _ log hlog =>
      finish_declared _ hlog.done

theorem expireEach_declared (now : Instant) (ls : List Lease)
    (hlog : Reading registered (CardEvent.bucketFields moved) log) :
    (expireEach engine now ls).Spec (DeclaredFits registered) Always
      (fun _ => Reading registered (CardEvent.bucketFields moved)) log := by
  induction ls generalizing log with
  | nil => exact ⟨trivial, hlog⟩
  | cons lease rest ih =>
    refine .after_kept Reading.keep (updateLease_writes lease.id ⟨rfl, nofun⟩) hlog
      fun _ log hlog => ?_
    refine after_plainEvent engine Reading.keep (by decide) hlog fun _ log hlog => ?_
    exact (ih hlog).bind fun _ _ _ hlog => ⟨trivial, hlog⟩

theorem expireLeases_declared (now : Instant)
    (hlog : Reading registered (CardEvent.bucketFields moved) log) :
    (expireLeases engine now).Spec (DeclaredFits registered) Always
      (fun _ => DeclaredDone registered (CardEvent.bucketFields moved)) log := by
  refine .after_kept Reading.keep (.query _) hlog fun d log hlog => ?_
  exact (expireEach_declared engine now _ hlog).mono fun _ _ _ h => h.done

theorem submitArtifact_declared (hone : OneDefinition registered)
    (haccepts : ∀ q, registered q → accepts w q = true) (leaseId : Uuid) (pipe : String)
    (refs : List ArtifactReference)
    (hlog : Reading registered (CardEvent.bucketFields moved) log) :
    (submitArtifact engine w leaseId pipe refs key).Spec (DeclaredFits registered) Always
      (fun _ => DeclaredDone registered (CardEvent.bucketFields moved)) log := by
  refine idempotent_declared cachedArtifacts_writes (fun log hlog => ?_) hlog
  refine .after_kept Reading.keep (getLease_writes leaseId) hlog fun lease log hlog => ?_
  refine .after_kept Reading.keep (ensureActiveLease_writes lease) hlog fun _ log hlog => ?_
  refine (getCard_declared lease.cardId hlog).bind fun card log _ hread => ?_
  obtain ⟨p, hlog⟩ := hread
  refine (getPatchPanelForCard_declared hone hlog).bind ?_
  intro q log _ hfound
  obtain ⟨rfl, hlog⟩ := hfound
  refine Txn.Spec.bind (Txn.Spec.ofExcept (Q := fun target log' =>
    resolvePipeBucket q pipe .output = .ok target ∧ log' = log) trivial fun target htarget =>
      ⟨htarget, rfl⟩) ?_
  intro target log' _ hresolved
  obtain ⟨hresolved, rfl⟩ := hresolved
  have hdeclares : q.Declares target.1 :=
    resolvePipeBucket_declares (haccepts q hlog.registered) hresolved
  refine .after_kept HasRead.keep (.ofExcept _) hlog fun _ log hlog => ?_
  refine .after_kept HasRead.keep (.ofExcept _) hlog fun _ log hlog => ?_
  refine .after_kept HasRead.keep (.ensure _ _) hlog fun _ log hlog => ?_
  refine (moveCardRow_declared engine hdeclares hlog).bind fun _ log _ hdone => ?_
  refine .after_kept DoneWith.keep .now hdone fun releasedAt log hdone => ?_
  refine .after_kept DoneWith.keep (updateLease_writes lease.id ⟨rfl, by simp⟩) hdone
    fun _ log hdone => ?_
  refine after_event engine (D := DoneWith registered (CardEvent.bucketFields moved) card.id q)
    DoneWith.keep hdone ?_ fun event log hdone => ?_
  · intro e log' hid htype hbody hdone
    refine hdone.event hid (CardEvent.declaredIn_submitted htype ?_ hdeclares)
    simp [hbody, JsonObj.get?, Dict.lookupIn]
  · refine .after_kept DoneWith.keep (.forEach (fun ref => insertArtifact_writes engine
      ⟨rfl, by simp⟩) _) hdone fun _ log hdone => ?_
    exact finish_declared _ hdone.done

/-- A verdict with an output pipe moves the card along it, and its event says where to. -/
theorem validationRoute_declared (hone : OneDefinition registered)
    (haccepts : ∀ q, registered q → accepts w q = true) (validatorId : String)
    (outputPipe : Option String)
    (hlog : HasRead registered (CardEvent.bucketFields moved) c p log) :
    (validationRoute engine c validatorId outputPipe).Spec (DeclaredFits registered) Always
      (fun route log' => DoneWith registered (CardEvent.bucketFields moved) c.id p log' ∧
        route.isSome = (truthyStr outputPipe).isSome ∧ ∀ r, route = some r → p.Declares r.2)
      log := by
  unfold validationRoute
  cases truthyStr outputPipe with
  | none => exact ⟨trivial, ⟨hlog.reading.done, hlog.registered, .inl hlog.saw⟩, rfl, nofun⟩
  | some pipe =>
    refine (getPatchPanelForCard_declared hone hlog).bind ?_
    intro q log _ hfound
    obtain ⟨rfl, hlog⟩ := hfound
    refine Txn.Spec.bind (Txn.Spec.ofExcept (Q := fun target log' =>
      resolvePipeBucket q pipe .output = .ok target ∧ log' = log) trivial fun target htarget =>
        ⟨htarget, rfl⟩) ?_
    intro target log' _ hresolved
    obtain ⟨hresolved, rfl⟩ := hresolved
    have hdeclares : q.Declares target.1 :=
      resolvePipeBucket_declares (haccepts q hlog.registered) hresolved
    refine (moveCardRow_declared engine hdeclares hlog).bind fun _ log _ hdone => ?_
    refine ⟨trivial, hdone, rfl, ?_⟩
    intro r hr
    cases hr
    exact hdeclares

theorem validateCard_declared (hone : OneDefinition registered)
    (haccepts : ∀ q, registered q → accepts w q = true) (cardId : Uuid) (validatorId : String)
    (accepted : Bool) (reason outputPipe : Option String) (payload : Option JsonObj)
    (hmoved : moved = (truthyStr outputPipe).isSome)
    (hlog : Reading registered (CardEvent.bucketFields moved) log) :
    (validateCard engine cardId validatorId accepted reason outputPipe payload key).Spec
      (DeclaredFits registered) Always
      (fun _ => DeclaredDone registered (CardEvent.bucketFields moved)) log := by
  refine idempotent_declared cachedEvent_writes (fun log hlog => ?_) hlog
  refine (getCard_declared cardId hlog).bind fun card log _ hread => ?_
  obtain ⟨p, hlog⟩ := hread
  refine .after_kept HasRead.keep .fresh hlog fun id log hlog => ?_
  refine .after_kept HasRead.keep .now hlog fun createdAt log hlog => ?_
  refine .after_kept HasRead.keep (insertValidationResult_writes engine ⟨rfl, nofun⟩) hlog
    fun _ log hlog => ?_
  refine (validationRoute_declared engine hone haccepts validatorId outputPipe hlog).bind ?_
  intro route log _ hroute
  obtain ⟨hdone, hsome, hdeclares⟩ := hroute
  refine after_event engine (D := DoneWith registered (CardEvent.bucketFields moved) card.id p)
    DoneWith.keep hdone ?_ fun event log hdone => finish_declared _ hdone.done
  intro e log' hid htype hbody hdone
  refine hdone.event hid (CardEvent.declaredIn_validated htype ?_)
  intro hmoves
  rw [hmoved, ← hsome] at hmoves
  obtain ⟨r, hr⟩ := Option.isSome_iff_exists.mp hmoves
  refine ⟨r.2, ?_, hdeclares r hr⟩
  rw [hbody, hr]
  exact JsonObj.get?_set_self _ _ _

theorem moveCard_declared (hone : OneDefinition registered) (cardId : Uuid) (toBucket : String)
    (actor reason : Option String)
    (hlog : Reading registered (CardEvent.bucketFields moved) log) :
    (moveCard engine cardId toBucket actor reason key).Spec (DeclaredFits registered) Always
      (fun _ => DeclaredDone registered (CardEvent.bucketFields moved)) log := by
  refine idempotent_declared cachedCard_writes (fun log hlog => ?_) hlog
  refine (getCard_declared cardId hlog).bind fun card log _ hread => ?_
  obtain ⟨p, hlog⟩ := hread
  refine (getPatchPanelForCard_declared hone hlog).bind ?_
  intro q log _ hfound
  obtain ⟨rfl, hlog⟩ := hfound
  refine Txn.Spec.bind (Txn.Spec.ofExcept (Q := fun _ log' =>
    ensureBucketExists q toBucket = .ok () ∧ log' = log) trivial fun _ hexists =>
      ⟨hexists, rfl⟩) ?_
  intro _ log' _ hexists
  obtain ⟨hexists, rfl⟩ := hexists
  refine (moveCardRow_declared engine (ensureBucketExists_declares hexists) hlog).bind ?_
  exact fun _ log _ hdone => finish_declared _ hdone.done

/-- A recorded event is not the runtime's own, and may name anything. -/
theorem recordEvent_declared (cardId : Uuid) (type : String) (actor : Option String)
    (payload : Option JsonObj) (hlog : Reading registered (fun _ => []) log) :
    (recordEvent engine cardId type actor payload key).Spec (DeclaredFits registered) Always
      (fun _ => DeclaredDone registered fun _ => []) log := by
  refine idempotent_kept Reading.keep DeclaredDone.keep cachedEvent_writes
    (fun _ => Reading.done) (fun log hlog => ?_) hlog
  refine .after_kept Reading.keep (getCard_writes cardId) hlog fun _ log hlog => ?_
  refine .after_kept Reading.keep (newEvent_writes _ _ _ _) hlog fun event log hlog => ?_
  refine .after_kept Reading.keep (insertEvent_writes engine ⟨rfl, fun _ _ => rfl⟩) hlog
    fun _ log hlog => ?_
  refine .after_kept Reading.keep (storeIdempotency_writes key _ _ fun _ _ => ⟨rfl, nofun⟩) hlog
    fun _ log hlog => ?_
  exact ⟨trivial, hlog.done⟩

theorem registerPatchPanel_declared (now : Instant) (hp : registered p)
    (hlog : Reading registered (CardEvent.bucketFields moved) log) :
    (registerPatchPanel engine p now).Spec (DeclaredFits registered) Always
      (fun _ => DeclaredDone registered (CardEvent.bucketFields moved)) log := by
  -- Both branches go on with the rows of the version.
  have hversion : (do
      let d ← Txn.query (S := postgres) (.workflowVersion p.workflowVersion)
      if d.workflowVersions.contains p.workflowVersion then Txn.ret () else do
        insertWorkflowVersion engine p.workflowVersion ⟨p.id, p.version, true, now⟩
        registerBuckets engine p.workflowVersion now p.buckets
      return p : Tx PatchPanel).Writes (Plain (CardEvent.bucketFields moved)) := by
    refine .bind (.query _) fun d => ?_
    split
    · exact .bind (.ret _) fun _ => .ret _
    · refine .bind (.insert _ _ _ ⟨rfl, by simp⟩) fun _ => ?_
      exact .bind (.forEach (fun bucket => .insert _ _ _ ⟨rfl, by simp⟩) _) fun _ => .ret _
  have hrest : ∀ {log : Log postgres}, DeclaredDone registered (CardEvent.bucketFields moved) log →
      (_ : Tx PatchPanel).Spec (DeclaredFits registered) Always
        (fun _ => DeclaredDone registered (CardEvent.bucketFields moved)) log := fun hdone =>
    (Txn.Spec.of_writes DeclaredDone.keep hversion hdone).weaken fun _ _ => trivial
  refine .after_kept Reading.keep (.query _) hlog fun d log hlog => ?_
  split
  · exact hrest hlog.done
  · refine Txn.Spec.bind (Q := fun _ => DeclaredDone registered (CardEvent.bucketFields moved)) ?_
      fun _ _ _ hdone => hrest hdone
    refine .insert trivial (fun _ => trivial) fun d' _ _ => ⟨trivial, ?_⟩
    have hlocked := Reading.keep (.locked (.patchPanel p.id p.version) d') log trivial hlog
    refine ⟨.registered ⟨p, now⟩ ?_ hp, hlocked.events.staged hlocked.untouched rfl⟩
    rw [stagedWrites_wrote]
    change _ :: stagedWrites (.locked (.patchPanel p.id p.version) d' :: log) = _
    rw [show stagedWrites (.locked (RowLock.patchPanel p.id p.version) d' :: log) = [] from
      hlocked.untouched]

end Operations

end Bodies

end PostgresCardRuntime

/-! ## Transactions -/

namespace Transaction

/-- The transaction asks for a move of the card that it validates. -/
def movesCard : Transaction → Bool
  | keyed (.validateCard _ _ _ _ pipe _) _ => (truthyStr pipe).isSome
  | _ => false

/-- The event of the transaction is not the runtime's own. -/
def recordsEvent : Transaction → Bool
  | keyed (.recordEvent _ _ _ _) _ => true
  | _ => false

/-- The fields of its events for which the runtime answers. -/
def fields (c : Transaction) (e : CardEvent) : List (Option Json) :=
  if c.recordsEvent then [] else e.bucketFields c.movesCard

/-- The definitions that a run registers. -/
def Registered (w : World) (actions : List (Action Transaction)) (p : PatchPanel) : Prop :=
  .begin (.registerPatchPanel p) ∈ actions ∧ accepts w p = true

theorem declared_spec {registered : PatchPanel → Prop} {w : World} (engine : Engine)
    (hone : OneDefinition registered) (haccepts : ∀ q, registered q → accepts w q = true)
    {c : Transaction}
    (hc : ∀ p, c = .registerPatchPanel p → accepts w p = true → registered p) :
    (c.program engine w).Spec (DeclaredFits registered) Always
      (fun _ => DeclaredDone registered c.fields) [] := by
  have hreturn : ∀ {α : Type} {x : Tx α} {log : Log postgres} {Q : Log postgres → Prop},
      x.Spec (DeclaredFits registered) Always (fun _ => Q) log →
      (x >>= fun _ => pure ()).Spec (DeclaredFits registered) Always (fun _ => Q) log :=
    fun hx => hx.bind fun _ _ _ hq => ⟨trivial, hq⟩
  have hkeep : Log.Kept (Plain (CardEvent.bucketFields false))
      (Reading registered (CardEvent.bucketFields false)) := Reading.keep
  cases c with
  | registerPatchPanel p =>
    refine Txn.Spec.bind (Txn.Spec.ofExcept (Q := fun report log' =>
      PatchPanelValidator.validate w p = .ok report ∧ log' = []) trivial fun report hreport =>
        ⟨hreport, rfl⟩) ?_
    intro report log _ hvalid
    obtain ⟨hvalid, rfl⟩ := hvalid
    have hp : registered p := hc p rfl (PatchPanelValidator.accepts_iff.mpr ⟨report, hvalid⟩)
    refine .after_kept hkeep .now .nil fun now log hlog => ?_
    exact hreturn (PostgresCardRuntime.registerPatchPanel_declared engine now hp hlog)
  | expireLeases =>
    refine .after_kept hkeep .now .nil fun now log hlog => ?_
    exact hreturn (PostgresCardRuntime.expireLeases_declared engine now hlog)
  | keyed call key =>
    cases call with
    | createCard panel payload metadata =>
      exact hreturn (PostgresCardRuntime.createCard_declared engine haccepts panel payload metadata
        .nil)
    | claimCard pipe worker seconds =>
      exact hreturn (PostgresCardRuntime.claimCard_declared engine pipe worker seconds .nil)
    | submitArtifact lease pipe refs =>
      exact hreturn (PostgresCardRuntime.submitArtifact_declared engine hone haccepts lease pipe
        refs .nil)
    | renewLease lease seconds =>
      exact hreturn (PostgresCardRuntime.renewLease_declared engine lease seconds .nil)
    | releaseLease lease actor =>
      exact hreturn (PostgresCardRuntime.releaseLease_declared engine lease actor .nil)
    | validateCard card validator accepted reason pipe payload =>
      exact hreturn (PostgresCardRuntime.validateCard_declared engine hone haccepts card validator
        accepted reason pipe payload rfl .nil)
    | moveCard card bucket actor reason =>
      exact hreturn (PostgresCardRuntime.moveCard_declared engine hone card bucket actor reason .nil)
    | recordEvent card type actor payload =>
      exact hreturn (PostgresCardRuntime.recordEvent_declared engine card type actor payload .nil)

end Transaction

/-! ## Runs -/

section Commit
variable {registered : PatchPanel → Prop} {log : Log postgres} {d : Tables}

/-- At a commit the cards are settled again, if what the transaction relies on holds. -/
theorem StageDone.settled (h : StageDone registered log) (hd : d.Settled registered)
    (hnew : ∀ id, newCardFacts.Holds log id → ¬ d.cards.contains id = true)
    (hversion : ∀ id version, SawVersion id version log → d.HasVersion id version)
    (hpanel : ∀ p, SawPanel p log → d.hasPanel p) :
    Tables.Settled registered (log.view d) ∧ d.Develops (log.view d) := by
  obtain ⟨hcards, hpanels⟩ := view_staged log d
  cases h with
  | untouched h =>
    rw [show stagedWrites log = [] from h] at hcards hpanels
    exact ⟨hd.of_eq hcards hpanels, .of_eq hcards hpanels⟩
  | registered row h hrow =>
    rw [h] at hcards hpanels
    exact hd.registers hcards hpanels hrow
  | created c p h hfree hp hsaw hsame hdeclares =>
    rw [h] at hcards hpanels
    exact hd.creates hcards hpanels (hnew c.id hfree) hp (hpanel p hsaw) hsame hdeclares
  | moved id bucket p h hp hsaw hstored hdeclares =>
    rw [h] at hcards hpanels
    exact hd.moves hcards hpanels hp (hversion id _ hsaw) (hpanel p hstored) hdeclares

/-- The version that the transaction knows is the one after its commit. -/
theorem KnowsVersion.view {id : Uuid} {version : String} (h : KnowsVersion id version log)
    (hversion : ∀ id version, SawVersion id version log → d.HasVersion id version)
    (hstay : d.Develops (log.view d)) : Tables.HasVersion (log.view d) id version := by
  rcases h with hsaw | ⟨c, hstaged, hid, hc⟩
  · exact hstay.versions id version (hversion id version hsaw)
  · have hcards := (view_staged log d).1
    rw [hstaged] at hcards
    refine ⟨c, ?_, hc⟩
    rw [hcards, ← hid]
    exact Dict.get?_set_self d.cards c.id c

/-- A key without a row keeps having none while another transaction has no lock on it. -/
theorem StageDone.keeps (h : StageDone registered log) {id : Uuid}
    (hlock : RowLock.card id ∉ log.locks) (hfree : ¬ d.cards.contains id = true) :
    ¬ Dict.contains (Tables.cards (log.view d)) id = true := by
  have hcards := (view_staged log d).1
  cases h with
  | untouched h =>
    rw [show stagedWrites log = [] from h] at hcards
    rwa [hcards]
  | registered row h hrow =>
    rw [h] at hcards
    rwa [hcards]
  | created c p h hnew =>
    have hne : id ≠ c.id := by
      intro heq
      rw [heq] at hlock
      exact hlock hnew.mem_locks
    rw [hcards, h]
    change ¬ (d.cards.set c.id c).contains id = true
    rw [Dict.contains_set]
    exact not_or.mpr ⟨hne, hfree⟩
  | moved id' bucket p h =>
    rw [hcards, h]
    change ¬ (d.cards.modify id' _).contains id = true
    rwa [Dict.contains_modify]

end Commit

section Runs
variable {registered : PatchPanel → Prop} {engine : Engine} {w : World} {σ σ' : PgSystem}

/-- What a run under one definition for each id keeps. -/
structure SettledState (registered : PatchPanel → Prop) (w : World) (σ : PgSystem) : Prop where
  calls : ∀ s ∈ σ.sessions, ∀ p, s.call = .registerPatchPanel p → accepts w p = true → registered p
  orderly : σ.Orderly (DeclaredFits registered) (fun _ => Always)
    (fun c => DeclaredDone registered c.fields)
  facts : newCardFacts.State σ
  versions : ∀ d, σ.Version Unstaged d → Tables.Develops d σ.data
  settled : σ.data.Settled registered
  events : ∀ (i : Nat) (s : PgSession), σ.sessions[i]? = some s → s.status = .committed →
    ∀ e, .wrote (.cardEvent e) ∈ s.log → ∀ field ∈ s.call.fields e, ∃ p bucket, registered p ∧
      σ.data.HasVersion e.cardId p.workflowVersion ∧ field = some (.str bucket) ∧ p.Declares bucket

theorem SettledState.start : SettledState registered w (PgSystem.init .init) where
  calls s hs := by cases hs
  orderly := .start rfl
  facts := .start rfl
  versions d hd := by
    rw [hd.start rfl]
    exact .of_eq rfl rfl
  settled := ⟨nofun, nofun⟩
  events i s hs := by cases hs

/-- What a session has read from committed rows still holds of them. -/
theorem SettledState.saw (h : SettledState registered w σ) {i : Nat} {s : PgSession}
    (hs : σ.sessions[i]? = some s) (hopen : s.status = .opened) :
    (∀ id version, SawVersion id version s.log → σ.data.HasVersion id version) ∧
      ∀ p, SawPanel p s.log → σ.data.hasPanel p := by
  constructor
  · intro id version hsaw
    obtain ⟨d, hd, hversion⟩ := hsaw
    exact (h.versions d (.inr ⟨i, s, hs, hopen, hd⟩)).versions id version hversion
  · intro p hsaw
    obtain ⟨d, hd, hpanel⟩ := hsaw
    exact (h.versions d (.inr ⟨i, s, hs, hopen, hd⟩)).panels p hpanel

/-- The commit of a session. -/
theorem SettledState.commits (h : SettledState registered w σ) {i : Nat} {s : PgSession}
    (hcommits : Commits σ σ' i s) : DeclaredDone registered s.call.fields s.log ∧
      σ'.data.Settled registered ∧ σ.data.Develops σ'.data := by
  obtain ⟨a, hrest⟩ := hcommits.rest
  have hdone := h.orderly.result hcommits.session hrest
  obtain ⟨hversion, hpanel⟩ := h.saw hcommits.session hcommits.opened
  rw [hcommits.data]
  refine ⟨hdone, hdone.stage.settled h.settled ?_ hversion hpanel⟩
  intro id hholds
  exact h.facts i s id hcommits.session hcommits.opened hholds

theorem SettledState.step {a : Action Transaction} (hone : OneDefinition registered)
    (haccepts : ∀ q, registered q → accepts w q = true) (h : SettledState registered w σ)
    (hcall : ∀ p, a = .begin (.registerPatchPanel p) → accepts w p = true → registered p) :
    SettledState registered w (σ.step engine w a) := by
  have hmove : Move w.supply (Transaction.program engine w) σ (σ.step engine w a) :=
    System.step_move w.supply (Transaction.program engine w) σ a
  have hcalls : ∀ s ∈ (σ.step engine w a).sessions, ∀ p, s.call = .registerPatchPanel p →
      accepts w p = true → registered p := by
    refine System.step_calls (K := fun c : Transaction => ∀ p, c = .registerPatchPanel p →
        accepts w p = true → registered p) h.calls ?_
    intro call heq p hp
    exact hcall p (by rw [heq, hp])
  have hdata : (σ.step engine w a).data.Settled registered ∧
      σ.data.Develops (σ.step engine w a).data := by
    rcases hmove.data with heq | ⟨i, s, hcommits⟩
    · rw [heq]
      exact ⟨h.settled, .of_eq rfl rfl⟩
    · exact (h.commits hcommits).2
  refine ⟨hcalls, ?_, ?_, ?_, hdata.1, ?_⟩
  · refine h.orderly.moves (fun i n s o rest hs hopen ho d hd huntouched => ?_) (fun s hs => ?_) hmove
    · rw [ho.data_eq hd]
      obtain ⟨hcards, hpanels⟩ := huntouched.view σ.data
      exact h.settled.of_eq hcards hpanels
    · exact Transaction.declared_spec engine hone haccepts (hcalls s hs)
  · refine h.facts.moves h.orderly.apart ?_ ?_ hmove
    · intro i s id _ _ _ hfree hcontains
      exact hfree ((places_growth.view s.log (d := σ.data) trivial).cards id hcontains)
    · intro i s id hcommits hlock hfree
      have hkept := (h.commits hcommits).1.stage.keeps hlock hfree
      rwa [← hcommits.data] at hkept
  · intro d hd
    rcases hd.before hmove with hold | ⟨rfl, -⟩ | ⟨heq, s, hclean, rfl⟩
    · exact (h.versions d hold).trans hdata.2
    · exact .of_eq rfl rfl
    · obtain ⟨hcards, hpanels⟩ := Unstaged.view hclean σ.data
      rw [heq]
      exact .of_eq hcards.symm hpanels.symm
  · intro j s' hs' hstatus e he field hfield
    rcases hmove.committed hs' hstatus with hold | ⟨s, hcommits, rfl⟩
    · obtain ⟨p, bucket, hp, hversion, hrest⟩ := h.events j s' hold hstatus e he field hfield
      exact ⟨p, bucket, hp, hdata.2.versions _ _ hversion, hrest⟩
    · obtain ⟨hdone, -, hstay⟩ := h.commits hcommits
      obtain ⟨p, bucket, hp, hknows, hrest⟩ := hdone.events e he field hfield
      obtain ⟨hversion, -⟩ := h.saw hcommits.session hcommits.opened
      refine ⟨p, bucket, hp, ?_, hrest⟩
      rw [hcommits.data] at hstay ⊢
      exact hknows.view hversion hstay

/-- The version string names one of the registered panels. -/
theorem OneDefinition.eq_of_version (hone : OneDefinition registered) {p q : PatchPanel}
    (hp : registered p) (hq : registered q) (h : q.workflowVersion = p.workflowVersion) : q = p := by
  have hlists := congrArg String.toList h
  rw [workflowVersion_toList, workflowVersion_toList] at hlists
  obtain ⟨hids, -⟩ := colon_injective (hone.idPlain p hp) (hone.versionPlain p hp) hlists
  exact hone.unique q p hq hp (String.toList_inj.mp hids)

/-- A card of a registered panel is routed under it. -/
theorem routed_of_version (hone : OneDefinition registered) {m : Machine Tables}
    (hm : m.store.Settled registered) {p : PatchPanel} {c : Card} (hp : registered p)
    (hpanel : m.store.hasPanel p) (hversion : c.workflowVersion = p.workflowVersion) :
    PostgresCardRuntime.routed w m c = .ok p := by
  have hsplit : splitFirstColon c.workflowVersion = some (p.id, p.version) := by
    rw [hversion]
    exact (splitFirstColon_iff p).mpr (hone.idPlain p hp)
  obtain ⟨row, hrow⟩ := Option.isSome_iff_exists.mp hpanel
  obtain ⟨hregistered, hkey⟩ := hm.panels _ row hrow
  rw [PostgresCardRuntime.routed_eq, hsplit]
  simp only [hrow]
  rw [hone.unique _ _ hregistered hp (Prod.mk.inj hkey).1.symm]

end Runs

/-- The rows as one client would find them. -/
def PgSystem.machine (σ : PgSystem) : Machine Tables := ⟨σ.data, σ.ticks, σ.idents⟩

theorem rows_in_declared_buckets (w : World) (engine : Engine) (actions : List (Action Transaction))
    (hone : OneDefinition (Transaction.Registered w actions)) :
    CardsDeclared (PgSystem.run engine w .init actions).data.cards
      (PostgresCardRuntime.routed w (PgSystem.run engine w .init actions).machine) ∧
    ∀ (i : Nat) (s : PgSession) (e : CardEvent),
      (PgSystem.run engine w .init actions).sessions[i]? = some s → s.status = .committed →
      s.call.recordsEvent = false → .wrote (.cardEvent e) ∈ s.log →
      e.NamesDeclared s.call.movesCard (PgSystem.run engine w .init actions).data.cards
        (PostgresCardRuntime.routed w (PgSystem.run engine w .init actions).machine) := by
  have haccepts : ∀ q, Transaction.Registered w actions q → accepts w q = true := fun q hq => hq.2
  have hrun : Reaches (PgSystem.step engine w) (fun _ a => a ∈ actions) (PgSystem.init .init)
      (PgSystem.run engine w .init actions) :=
    (Permitted.of_forall_mem (fun _ a ha => ha) _).reaches
  have hstate : SettledState (Transaction.Registered w actions) w
      (PgSystem.run engine w .init actions) := by
    refine hrun.invariant .start fun σ a hσ ha => hσ.step hone haccepts ?_
    intro p heq hok
    exact ⟨heq ▸ ha, hok⟩
  constructor
  · intro id c hc
    obtain ⟨-, p, hp, hpanel, hversion, hdeclares⟩ := hstate.settled.cards id c hc
    exact ⟨p, routed_of_version hone hstate.settled hp hpanel hversion, hdeclares⟩
  · intro i s e hs hstatus hown he field hfield
    have hfields : field ∈ s.call.fields e := by
      rw [Transaction.fields, hown]
      exact hfield
    obtain ⟨p, bucket, hp, ⟨c, hc, hversion⟩, hbucket, hdeclares⟩ :=
      hstate.events i s hs hstatus e he field hfields
    obtain ⟨-, q, hq, hpanel, hqversion, -⟩ := hstate.settled.cards _ c hc
    have hsame : q = p := hone.eq_of_version hp hq (hqversion.symm.trans hversion)
    rw [hsame] at hpanel
    exact ⟨c, p, bucket, hc, routed_of_version hone hstate.settled hp hpanel hversion, hbucket,
      hdeclares⟩

/-! ## Both runtimes -/

/-- Where no panel id has two definitions and no id or version has a colon, every card of
either runtime is in a declared bucket of its panel, and so are the buckets named by the
events that the runtime has written. In the tables this holds in every interleaving. -/
theorem cards_in_declared_buckets (w : World) (engine : Engine) :
    (∀ calls, OneDefinition (RuntimeCall.Registered w calls) →
      CardsDeclared (runCalls w calls).store.cards
        (InMemoryCardRuntime.routed w (runCalls w calls)) ∧
      ∀ before call after e, calls = before ++ call :: after → call.recordsEvent = false →
        e ∈ call.appended w (runCalls w before) e.cardId →
        e.NamesDeclared call.movesCard (runCalls w calls).store.cards
          (InMemoryCardRuntime.routed w (runCalls w calls))) ∧
    (∀ actions, OneDefinition (Transaction.Registered w actions) →
      CardsDeclared (PgSystem.run engine w .init actions).data.cards
        (PostgresCardRuntime.routed w (PgSystem.run engine w .init actions).machine) ∧
      ∀ (i : Nat) (s : PgSession) (e : CardEvent),
        (PgSystem.run engine w .init actions).sessions[i]? = some s → s.status = .committed →
        s.call.recordsEvent = false → .wrote (.cardEvent e) ∈ s.log →
        e.NamesDeclared s.call.movesCard (PgSystem.run engine w .init actions).data.cards
          (PostgresCardRuntime.routed w (PgSystem.run engine w .init actions).machine)) :=
  ⟨fun calls => memory_in_declared_buckets w calls, fun actions =>
    rows_in_declared_buckets w engine actions⟩

/-- Two panels with a card that a verdict moves, in memory and in the tables. -/
def reviewedCalls : List RuntimeCall :=
  [.registerPatchPanel (PatchPanelValidator.reviewPanel "orders" "1"),
    .registerPatchPanel (PatchPanelValidator.linePanel "line" "2"),
    .createCard "orders" [] none none,
    .validateCard ⟨0⟩ "check" true none (some "check_ok") none none]

def reviewedActions : List (Action Transaction) :=
  [.begin (.registerPatchPanel (PatchPanelValidator.reviewPanel "orders" "1"))] ++
    List.replicate 20 (.advance 0) ++
    [.begin (.keyed (.createCard "orders" [] none) none)] ++ List.replicate 20 (.advance 1) ++
    [.begin (.keyed (.moveCard ⟨0⟩ "done" none none) none)] ++ List.replicate 20 (.advance 2)

theorem reviewedPanels_one {registered : PatchPanel → Prop}
    (h : ∀ p, registered p → p = PatchPanelValidator.reviewPanel "orders" "1" ∨
      p = PatchPanelValidator.linePanel "line" "2") : OneDefinition registered where
  unique p q hp hq hid := by
    rcases h p hp with rfl | rfl <;> rcases h q hq with rfl | rfl
    · rfl
    · exact absurd hid (by decide)
    · exact absurd hid (by decide)
    · rfl
  idPlain p hp := by rcases h p hp with rfl | rfl <;> decide
  versionPlain p hp := by rcases h p hp with rfl | rfl <;> decide

theorem cards_in_declared_buckets_reviewed :
    CardsDeclared (runCalls .simple reviewedCalls).store.cards
      (InMemoryCardRuntime.routed .simple (runCalls .simple reviewedCalls)) ∧
    (∃ c, (runCalls .simple reviewedCalls).store.cards.get? ⟨0⟩ = some c ∧
      c.currentBucket = "done") ∧
    CardsDeclared (PgSystem.run .simple .simple .init reviewedActions).data.cards
      (PostgresCardRuntime.routed .simple (PgSystem.run .simple .simple .init
        reviewedActions).machine) ∧
    ((PgSystem.run .simple .simple .init reviewedActions).data.cards.get? ⟨0⟩).map
      (·.currentBucket) = some "done" := by
  have hmain := cards_in_declared_buckets .simple .simple
  refine ⟨(hmain.1 reviewedCalls (reviewedPanels_one ?_)).1, ?_,
    (hmain.2 reviewedActions (reviewedPanels_one ?_)).1, by decide +kernel⟩
  · intro p hp
    simpa [reviewedCalls] using hp.1
  · have hcard : ((runCalls .simple reviewedCalls).store.cards.get? ⟨0⟩).map (·.currentBucket) =
        some "done" := by decide +kernel
    exact Option.map_eq_some_iff.mp hcard
  · intro p hp
    left
    simpa [reviewedActions] using hp.1

end GhostMesh
