import GhostMesh.Genesis.Again
import GhostMesh.Mcp.Served

/-!
# The intents of a process

Intents as they are served: whatever requests and tool calls come, in any order, each intent
is only moved on, and whoever asks for its card again gets the same one.
-/

set_option autoImplicit false

namespace GhostMesh

open InMemoryCardRuntime Op

/-! ## What the steps of an application do to intents -/

/-- Everything under a key stays there. -/
def KeepsAnswers (a a' : Machine App) : Prop :=
  ∀ k v, answer k a = some v → answer k a' = some v

section Steps
variable {grants : Prop} {w : World} {a a' : Machine App}

/-- The step lemma. -/
theorem AppStep.intents (hclock : Monotone w.clock) (ha : IntentsKept w a)
    (h : AppStep grants w a a') : IntentsKept w a' ∧ Develops a a' ∧ KeepsAnswers a a' := by
  have hcall : ∀ call : PlatformCall, IntentsKept w (call.step w a) ∧
      Develops a (call.step w a) ∧ KeepsAnswers a (call.step w a) := fun call =>
    ⟨ha.step hclock call, ha.develops hclock call, fun k => answer_writtenOnce w k a call⟩
  have haside : Aside a a' → IntentsKept w a' ∧ Develops a a' ∧ KeepsAnswers a a' := by
    intro h
    refine ⟨ha.aside h, h.develops, fun k v hv => ?_⟩
    unfold answer
    rw [h.runtime]
    exact hv
  cases h with
  | runtime c evidence h =>
    rw [h]
    exact hcall (.runtime c)
  | registry c h =>
    rw [h]
    exact hcall (.registry c)
  | genesis c h =>
    rw [h]
    exact hcall (.genesis c)
  | authority c plain granted h =>
    obtain ⟨hstore, hticks, hdraws⟩ := c.step_via (w := w) (a := a)
    rw [← h] at hstore hticks hdraws
    refine haside ⟨?_, ?_, ?_, hticks, hdraws⟩
    · rw [hstore]
      rfl
    · rw [hstore]
      rfl
    · rw [hstore]
      rfl
  | shadow f h =>
    refine haside ?_
    rw [h]
    exact ⟨rfl, rfl, rfl, Nat.le_refl _, Nat.le_refl _⟩
  | idle h =>
    exact haside ⟨congrArg App.runtime h.store, congrArg App.registry h.store,
      congrArg App.genesis h.store, h.ticks, h.draws⟩

/-- The run lemma, by induction over the steps. -/
theorem IntentsKept.hosted (hclock : Monotone w.clock) (ha : IntentsKept w a)
    (h : Hosted grants w a a') : IntentsKept w a' ∧ Develops a a' ∧ KeepsAnswers a a' := by
  refine h.invariant (I := fun b => IntentsKept w b ∧ Develops a b ∧ KeepsAnswers a b) ?_
    ⟨ha, .refl a, fun _ _ => id⟩
  rintro b b' ⟨hb, hdevelops, hanswers⟩ hstep
  obtain ⟨hb', hdevelops', hanswers'⟩ := hstep.intents hclock hb
  exact ⟨hb', hdevelops.trans hdevelops', fun k v hv => hanswers' k v (hanswers k v hv)⟩

end Steps

namespace Mcp

/-- The intents of a process: filed once for each key, consistent, and referring to what is
stored. Whatever is asked afterwards, each of them is only moved on, and answers every request
under its key. -/
theorem intents_account (w : World) (hclock : Monotone w.clock) (enabled : Bool) (s : App)
    (ticks draws : Nat) (before after : List Door) :
    IntentsAccounted (serve w enabled (s.newPlatform ticks draws) before).store ∧
    ∀ id i, (serve w enabled (s.newPlatform ticks draws) before).store.genesis.intents.get? id =
        some i → ∃ i',
      (serve w enabled (s.newPlatform ticks draws)
        (before ++ after)).store.genesis.intents.get? id = some i' ∧ i.Follows i' ∧
      ∀ request : ReceiveIntent, request.deduplicationKey = i.deduplicationKey →
        (App.genesisService.receiveIntent request).run w
            (serve w enabled (s.newPlatform ticks draws) (before ++ after)) =
          (.ok i', serve w enabled (s.newPlatform ticks draws) (before ++ after)) := by
  have hbefore := ((IntentsKept.start (w := w) s ticks draws).hosted hclock
    (serve_hosted w enabled before _)).1
  obtain ⟨hafter, hdevelops, -⟩ := hbefore.hosted hclock (serve_hosted w enabled after _)
  have happend : serve w enabled (s.newPlatform ticks draws) (before ++ after) =
      serve w enabled (serve w enabled (s.newPlatform ticks draws) before) after :=
    List.foldl_append
  rw [happend]
  refine ⟨hbefore.accounted, fun id i hi => ?_⟩
  obtain ⟨i', hi', hlater⟩ := hdevelops.intents id i hi
  refine ⟨i', hi', hlater, fun request hkey => receive_known hafter.accounted hi' ?_⟩
  rw [hkey, hlater.request]

/-- A workflow is registered and asked for. -/
def intentDoors : List Door :=
  [.request ⟨none, none⟩ (.registerPatchPanelRegistryEntry
      ⟨PatchPanelValidator.linePanel "orders" "1", orderLineMetadata, []⟩),
    .request ⟨none, none⟩ (.receiveGenesisIntent searchOnlyRequest)]

theorem intents_account_order :
    (serve .simple false (App.init.newPlatform 0 0) intentDoors).store.genesis.intents.contains
      ⟨1⟩ ∧
    IntentsAccounted (serve .simple false (App.init.newPlatform 0 0) intentDoors).store :=
  ⟨rfl, (intents_account .simple (fun _ _ h => Int.ofNat_le.mpr h) false App.init 0 0 intentDoors
    [.request ⟨none, none⟩ (.launchGenesisIntent ⟨1⟩ (some ⟨0⟩))]).1⟩

/-- A launch or a proposal that has returned a card returns it whenever it is asked for again,
whatever has been asked in between, and then leaves the runtime alone. -/
theorem card_again (w : World) (hclock : Monotone w.clock) (enabled : Bool) (s : App)
    (ticks draws : Nat) (before between : List Door) (call : GenesisCall) {card : Card}
    (h : call.Returns w (serve w enabled (s.newPlatform ticks draws) before) card) :
    call.Returns w (serve w enabled
        (call.step w (serve w enabled (s.newPlatform ticks draws) before)) between) card ∧
    (call.step w (serve w enabled (call.step w (serve w enabled (s.newPlatform ticks draws)
        before)) between)).store.runtime =
      (serve w enabled (call.step w (serve w enabled (s.newPlatform ticks draws)
        before)) between).store.runtime := by
  have hbefore := ((IntentsKept.start (w := w) s ticks draws).hosted hclock
    (serve_hosted w enabled before _)).1
  obtain ⟨k, hasks, hanswer⟩ := h.answered
  have hstep : AppStep True w (serve w enabled (s.newPlatform ticks draws) before) (call.step w
    (serve w enabled (s.newPlatform ticks draws) before)) := .genesis call rfl
  have hcalled := hstep.intents hclock hbefore
  obtain ⟨hafter, hdevelops, hkept⟩ :=
    hcalled.1.hosted hclock (serve_hosted w enabled between _)
  exact (hasks.later hbefore hafter (hcalled.2.1.trans hdevelops)).returns (hkept k _ hanswer)

/-- Launched, archived and launched again. -/
theorem card_again_archived : ∃ card,
    (GenesisCall.launch ⟨1⟩ (some ⟨0⟩)).Returns .simple
      (serve .simple false (App.init.newPlatform 0 0) intentDoors) card ∧
    (GenesisCall.launch ⟨1⟩ (some ⟨0⟩)).Returns .simple
      (serve .simple false ((GenesisCall.launch ⟨1⟩ (some ⟨0⟩)).step .simple
        (serve .simple false (App.init.newPlatform 0 0) intentDoors))
        [.request ⟨none, none⟩ (.archivePatchPanelRegistryEntry ⟨0⟩)]) card := by
  have hfirst : (GenesisCall.launch ⟨1⟩ (some ⟨0⟩)).Returns .simple
      (serve .simple false (App.init.newPlatform 0 0) intentDoors) _ := rfl
  exact ⟨_, hfirst, (card_again .simple (fun _ _ h => Int.ofNat_le.mpr h) false App.init 0 0
    intentDoors [.request ⟨none, none⟩ (.archivePatchPanelRegistryEntry ⟨0⟩)]
    (.launch ⟨1⟩ (some ⟨0⟩)) hfirst).1⟩

end Mcp

end GhostMesh
