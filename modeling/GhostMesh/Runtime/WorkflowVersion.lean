import GhostMesh.Runtime.MemorySteps
import GhostMesh.Runtime.Postgres
import GhostMesh.Runtime.Shadow

/-!
# Workflow version strings

One encoder and three decoders of `id:version`. All of them agree on a panel exactly
when neither its id nor its version has a colon.
-/

set_option autoImplicit false

namespace GhostMesh

open PatchPanelValidator (accepts)
open InMemoryCardRuntime (beforeLastColon)
open PostgresCardRuntime (splitFirstColon)

/-! ## Texts with a colon -/

section Colon
variable {a b : List Char}

theorem takeWhile_colon (h : ':' ∉ a) : (a ++ ':' :: b).takeWhile (· ≠ ':') = a := by
  have hall : ∀ c ∈ a, decide (c ≠ ':') = true := by
    intro c hc
    have hne : c ≠ ':' := fun heq => h (heq ▸ hc)
    simpa using hne
  rw [List.takeWhile_append_of_pos hall]
  simp

theorem dropWhile_colon (h : ':' ∉ a) : (a ++ ':' :: b).dropWhile (· ≠ ':') = ':' :: b := by
  have hall : ∀ c ∈ a, decide (c ≠ ':') = true := by
    intro c hc
    have hne : c ≠ ':' := fun heq => h (heq ▸ hc)
    simpa using hne
  rw [List.dropWhile_append_of_pos hall]
  simp

theorem takeWhile_colon_iff : (a ++ ':' :: b).takeWhile (· ≠ ':') = a ↔ ':' ∉ a := by
  constructor
  · intro h hmem
    have hall := List.all_takeWhile (p := fun c => decide (c ≠ ':')) (l := a ++ ':' :: b)
    rw [h, List.all_eq_true] at hall
    have hne := hall ':' hmem
    simp at hne
  · exact takeWhile_colon

/-- The text before the last colon of `a:b`. -/
theorem beforeLast_iff :
    (((a ++ ':' :: b).reverse.dropWhile (· ≠ ':')).drop 1).reverse = a ↔ ':' ∉ b := by
  have hreverse : (a ++ ':' :: b).reverse = b.reverse ++ ':' :: a.reverse := by simp
  rw [hreverse]
  constructor
  · intro h hmem
    -- The suffix found is at most as long as what follows the first colon of the rest.
    obtain ⟨b₁, b₂, hb, hb₁⟩ := List.eq_append_cons_of_mem (List.mem_reverse.mpr hmem)
    rw [hb, List.append_assoc, List.cons_append, dropWhile_colon hb₁] at h
    have hlength := congrArg List.length h
    simp only [List.drop_succ_cons, List.drop_zero, List.length_reverse, List.length_append,
      List.length_cons] at hlength
    omega
  · intro h
    have hb : ':' ∉ b.reverse := fun hmem => h (List.mem_reverse.mp hmem)
    rw [dropWhile_colon hb]
    simp

/-- A text with one colon comes from one pair. -/
theorem colon_injective {a' b' : List Char} (ha : ':' ∉ a) (hb : ':' ∉ b)
    (h : a' ++ ':' :: b' = a ++ ':' :: b) : a' = a ∧ b' = b := by
  have ha' : ':' ∉ a' := by
    intro hmem
    have hcount := congrArg (List.count ':') h
    have hpos : 0 < List.count ':' a' := List.count_pos_iff.mpr hmem
    have hzero : List.count ':' a = 0 := List.count_eq_zero.mpr ha
    have hzero' : List.count ':' b = 0 := List.count_eq_zero.mpr hb
    simp only [List.count_append, List.count_cons_self] at hcount
    omega
  have hleft : a' = a := by
    have htake := congrArg (List.takeWhile (· ≠ ':')) h
    rwa [takeWhile_colon ha', takeWhile_colon ha] at htake
  refine ⟨hleft, ?_⟩
  rw [hleft] at h
  exact (List.cons.inj (List.append_cancel_left h)).2

end Colon

/-! ## The decoders -/

section Decoders
variable (p : PatchPanel)

theorem workflowVersion_toList :
    p.workflowVersion.toList = p.id.toList ++ ':' :: p.version.toList := by
  simp [PatchPanel.workflowVersion, String.toList_append]

theorem ofList_eq_iff {cs : List Char} {text : String} :
    String.ofList cs = text ↔ cs = text.toList := by
  constructor
  · intro h
    rw [← h, String.toList_ofList]
  · intro h
    rw [h, String.ofList_toList]

theorem beforeFirstColon_iff :
    beforeFirstColon p.workflowVersion = p.id ↔ ':' ∉ p.id.toList := by
  rw [beforeFirstColon, ofList_eq_iff, workflowVersion_toList]
  exact takeWhile_colon_iff

theorem colon_mem_workflowVersion : ':' ∈ p.workflowVersion.toList := by
  rw [workflowVersion_toList]
  exact List.mem_append_right _ List.mem_cons_self

theorem beforeLastColon_iff :
    beforeLastColon p.workflowVersion = p.id ↔ ':' ∉ p.version.toList := by
  rw [beforeLastColon, if_pos (colon_mem_workflowVersion p), ofList_eq_iff,
    workflowVersion_toList]
  exact beforeLast_iff

theorem splitFirstColon_iff :
    splitFirstColon p.workflowVersion = some (p.id, p.version) ↔ ':' ∉ p.id.toList := by
  rw [splitFirstColon, if_pos (colon_mem_workflowVersion p), Option.some.injEq, Prod.mk.injEq,
    ofList_eq_iff, ofList_eq_iff, workflowVersion_toList]
  constructor
  · intro h
    exact takeWhile_colon_iff.mp h.1
  · intro h
    refine ⟨takeWhile_colon h, ?_⟩
    rw [dropWhile_colon h, List.drop_succ_cons, List.drop_zero]

end Decoders

/-! ## Faithful names -/

/-- The version string of the panel is its own, and every decoder gives the panel back:
the in-memory runtime resolves a card of it to the panel's id, the Postgres runtime to
its id and version, and a shadow card is created under its id. -/
structure NamesPanel (w : World) (p : PatchPanel) : Prop where
  distinct : ∀ q, accepts w q = true → (q.id, q.version) ≠ (p.id, p.version) →
    q.workflowVersion ≠ p.workflowVersion
  memory : ∀ c : Card, c.workflowVersion = p.workflowVersion →
    ∀ (m : Machine InMemoryCardRuntime) q, m.store.patchPanels.get? p.id = some q →
      (InMemoryCardRuntime.getPatchPanelForCard c).run w m = (.ok q, m)
  postgres : ∀ c : Card, c.workflowVersion = p.workflowVersion →
    ∀ (m : Machine Tables) row, m.store.patchPanels.get? (p.id, p.version) = some row →
      (Op.atomically (PostgresCardRuntime.getPatchPanelForCard c)).run w m =
        (.ok row.definition, m)
  shadow : ∀ c : Card, c.workflowVersion = p.workflowVersion →
    beforeFirstColon c.workflowVersion = p.id

section Names
variable {w : World} {p : PatchPanel}

/-- The in-memory runtime resolves the card on the store that holds `p` alone. -/
theorem NamesPanel.version_colonFree (h : NamesPanel w p) : ':' ∉ p.version.toList := by
  let c : Card := ⟨⟨0⟩, p.workflowVersion, "", [], [], 0⟩
  let m : Machine InMemoryCardRuntime := ⟨InMemoryCardRuntime.init.putPanel p, 0, 0⟩
  have hget : m.store.patchPanels.get? p.id = some p := Dict.get?_set_self _ _ _
  have hrun := h.memory c rfl m p hget
  rw [InMemoryCardRuntime.getPatchPanelForCard, InMemoryCardRuntime.run_getPatchPanel] at hrun
  apply (beforeLastColon_iff p).mp
  by_contra hother
  have hnone : m.store.patchPanels.get? (beforeLastColon p.workflowVersion) = none :=
    Dict.get?_set_ne _ _ hother
  rw [hnone] at hrun
  cases hrun

theorem NamesPanel.id_colonFree (h : NamesPanel w p) : ':' ∉ p.id.toList :=
  (beforeFirstColon_iff p).mp (h.shadow ⟨⟨0⟩, p.workflowVersion, "", [], [], 0⟩ rfl)

theorem NamesPanel.of_colonFree (hid : ':' ∉ p.id.toList) (hversion : ':' ∉ p.version.toList) :
    NamesPanel w p where
  distinct := by
    intro q _ hne heq
    apply hne
    have hlists := congrArg String.toList heq
    rw [workflowVersion_toList, workflowVersion_toList] at hlists
    obtain ⟨hids, hversions⟩ := colon_injective hid hversion hlists
    rw [String.toList_inj.mp hids, String.toList_inj.mp hversions]
  memory := by
    intro c hc m q hget
    rw [InMemoryCardRuntime.getPatchPanelForCard, InMemoryCardRuntime.run_getPatchPanel, hc,
      (beforeLastColon_iff p).mpr hversion, hget]
  postgres := by
    intro c hc m row hget
    have hsplit : splitFirstColon c.workflowVersion = some (p.id, p.version) := by
      rw [hc]
      exact (splitFirstColon_iff p).mpr hid
    have hquery : (ReadCommitted.Txn.query (S := GhostMesh.postgres)
        (.patchPanel p.id p.version)).aloneOn w.supply m.store m.ticks m.draws =
          (.ok m.store, m.store, m.ticks, m.draws) := rfl
    have halone : (PostgresCardRuntime.getPatchPanelForCard c).aloneOn w.supply m.store m.ticks
        m.draws = (.ok row.definition, m.store, m.ticks, m.draws) := by
      simp only [PostgresCardRuntime.getPatchPanelForCard, hsplit]
      refine (ReadCommitted.Txn.aloneOn_bind _ _ _ _ _ _).trans ?_
      rw [hquery]
      simp only [hget]
      rfl
    simp only [Op.atomically, ReadCommitted.Txn.alone, halone]
  shadow := by
    intro c hc
    rw [hc]
    exact (beforeFirstColon_iff p).mpr hid

end Names

/-- The version string is a faithful name of the panels without colons and of no others. -/
theorem namesPanel_iff (w : World) (p : PatchPanel) :
    NamesPanel w p ↔ ':' ∉ p.id.toList ∧ ':' ∉ p.version.toList :=
  ⟨fun h => ⟨h.id_colonFree, h.version_colonFree⟩, fun h => .of_colonFree h.1 h.2⟩

/-- The panel `team:orders`, which both runtimes accept. -/
theorem namesPanel_not_colon :
    ¬ ∀ (w : World) (p : PatchPanel), accepts w p = true → NamesPanel w p := by
  intro h
  have haccepts : accepts .simple (PatchPanelValidator.linePanel "team:orders" "1") = true := by
    decide +kernel
  have hfree := (h .simple _ haccepts).id_colonFree
  exact hfree (by decide)

end GhostMesh
