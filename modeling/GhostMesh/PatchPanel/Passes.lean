import GhostMesh.PatchPanel.Validator

/-!
# What acceptance means

A Patch Panel is accepted when every pass appends nothing. The passes themselves can
only be stopped by an accept exit that has no hash.
-/

set_option autoImplicit false

namespace GhostMesh

namespace PatchPanelValidator

/-- The errors of the passes before and after the one on accept exits. -/
def passErrors (p : PatchPanel) (accepts : List String) : List String :=
  let graph := buildGraph p
  validateContractReferences p ++ validateEdges p ++ validateValidatorEdges p ++
    accepts ++ validatePipeBindings p ++ validateBoundaries p graph ++
    validateReachability p graph ++ validateDeadEnds p graph

/-- No pass appends an error. -/
structure Passes (w : World) (p : PatchPanel) : Prop where
  contracts : validateContractReferences p = []
  edges : validateEdges p = []
  validatorEdges : validateValidatorEdges p = []
  acceptExits : validateRoutingValidatorAcceptExits w p.nodes = .ok []
  pipeBindings : validatePipeBindings p = []
  boundaries : validateBoundaries p (buildGraph p) = []
  reachability : validateReachability p (buildGraph p) = []
  deadEnds : validateDeadEnds p (buildGraph p) = []

/-! ## The pass on accept exits -/

/-- The accept exits of every routing validator can be looked up in a set. -/
def HashableExits (ns : List NodeDefinition) : Prop :=
  ∀ n ∈ ns, n.type = .validator → isRoutingValidator n = true → ∀ exits,
    JsonObj.get? n.config "accept_exits" = some (.list exits) → ∀ exit ∈ exits, exit.hashable = true

/-- The only exception that the pass raises. -/
def unhashable : PyErr := .type "unhashable type"

section AcceptExits
variable {w : World} {n : NodeDefinition}

theorem acceptExitErrors_cases (exits : List Json) :
    ((∀ exit ∈ exits, exit.hashable = true) ∧ ∃ errors, acceptExitErrors w n exits = .ok errors) ∨
      ((¬ ∀ exit ∈ exits, exit.hashable = true) ∧
        acceptExitErrors w n exits = .error unhashable) := by
  induction exits with
  | nil => exact .inl ⟨by simp, [], rfl⟩
  | cons exit rest ih =>
    rw [List.forall_mem_cons, acceptExitErrors]
    cases hexit : exit.hashable with
    | false => exact .inr ⟨by simp, rfl⟩
    | true =>
      rw [Bool.not_true, if_neg Bool.false_ne_true]
      rcases ih with ⟨hall, errors, hrest⟩ | ⟨hsome, hrest⟩
      · rw [hrest]
        refine .inl ⟨⟨rfl, hall⟩, ?_⟩
        by_cases hdeclared : (n.outputPipes.any fun pipe => exit.isStr pipe) = true
        · exact ⟨errors, if_pos hdeclared⟩
        · exact ⟨_, if_neg hdeclared⟩
      · rw [hrest]
        exact .inr ⟨fun h => hsome h.2, rfl⟩

theorem routingValidatorErrors_cases :
    (HashableExits [n] ∧ ∃ errors, routingValidatorErrors w n = .ok errors) ∨
      (¬ HashableExits [n] ∧ routingValidatorErrors w n = .error unhashable) := by
  unfold routingValidatorErrors HashableExits
  simp only [List.mem_singleton, forall_eq]
  split
  · rename_i hother
    refine .inl ⟨?_, [], rfl⟩
    intro hvalidator hrouting
    rcases hother with htype | hnot
    · exact absurd hvalidator htype
    · rw [hrouting] at hnot
      cases hnot
  · rename_i hrouting
    obtain ⟨htype, hrouting⟩ := not_or.mp hrouting
    have htype : n.type = .validator := not_not.mp htype
    have hrouting : isRoutingValidator n = true := Bool.not_eq_false _ ▸ hrouting
    split
    · rename_i exits hexits
      rcases acceptExitErrors_cases (w := w) (n := n) exits with ⟨hall, hok⟩ | ⟨hsome, herror⟩
      · refine .inl ⟨?_, hok⟩
        intro _ _ exits' h
        cases hexits.symm.trans h
        exact hall
      · exact .inr ⟨fun h => hsome (h htype hrouting exits hexits), herror⟩
    · rename_i hnone
      exact .inl ⟨fun _ _ exits h => absurd h (hnone exits), _, rfl⟩

/-- The pass goes through exactly if all accept exits can be looked up. -/
theorem acceptExits_cases (ns : List NodeDefinition) :
    (HashableExits ns ∧ ∃ errors, validateRoutingValidatorAcceptExits w ns = .ok errors) ∨
      (¬ HashableExits ns ∧ validateRoutingValidatorAcceptExits w ns = .error unhashable) := by
  induction ns with
  | nil => exact .inl ⟨by simp [HashableExits], [], rfl⟩
  | cons n rest ih =>
    have hsplit : HashableExits (n :: rest) ↔ HashableExits [n] ∧ HashableExits rest := by
      simp only [HashableExits, List.forall_mem_cons, List.not_mem_nil, false_implies,
        implies_true, and_true]
    rw [hsplit, validateRoutingValidatorAcceptExits]
    rcases routingValidatorErrors_cases (w := w) (n := n) with ⟨hall, errors, hn⟩ | ⟨hsome, hn⟩
    · rw [hn]
      rcases ih with ⟨hrest, more, hmore⟩ | ⟨hsome, hmore⟩
      · rw [hmore]
        exact .inl ⟨⟨hall, hrest⟩, _, rfl⟩
      · rw [hmore]
        exact .inr ⟨fun h => hsome h.2, rfl⟩
    · rw [hn]
      exact .inr ⟨fun h => hsome h.1, rfl⟩

end AcceptExits

/-! ## Outcomes -/

section Cases
variable {w : World} {p : PatchPanel}

/-- A validation stops in the pass on accept exits or ends with the errors of all. -/
theorem validate_cases : (∃ e, validateRoutingValidatorAcceptExits w p.nodes = .error e ∧
      validate w p = .error e) ∨
    ∃ errors, validateRoutingValidatorAcceptExits w p.nodes = .ok errors ∧
      ((passErrors p errors = [] ∧ ∃ report, validate w p = .ok report) ∨
        (passErrors p errors ≠ [] ∧ validate w p = .error (.validation (passErrors p errors)))) := by
  unfold validate
  cases haccepts : validateRoutingValidatorAcceptExits w p.nodes with
  | error e => exact .inl ⟨e, rfl, rfl⟩
  | ok errors =>
    refine .inr ⟨errors, rfl, ?_⟩
    by_cases hnone : passErrors p errors = []
    · exact .inl ⟨hnone, _, if_neg (not_not.mpr hnone)⟩
    · exact .inr ⟨hnone, if_pos hnone⟩

/-- Validation gives a verdict exactly if all accept exits can be looked up. -/
theorem validate_total : (HashableExits p.nodes ∧
      ((∃ report, validate w p = .ok report) ∨ ∃ errors, validate w p = .error (.validation errors))) ∨
    (¬ HashableExits p.nodes ∧ validate w p = .error unhashable) := by
  rcases acceptExits_cases (w := w) p.nodes with ⟨hall, errors, hok⟩ | ⟨hsome, herror⟩
  · refine .inl ⟨hall, ?_⟩
    rcases validate_cases (w := w) (p := p) with ⟨e, he, -⟩ | ⟨_, -, ⟨-, hvalid⟩ | ⟨-, hinvalid⟩⟩
    · rw [hok] at he
      cases he
    · exact .inl hvalid
    · exact .inr ⟨_, hinvalid⟩
  · refine .inr ⟨hsome, ?_⟩
    rcases validate_cases (w := w) (p := p) with ⟨e, he, hraise⟩ | ⟨_, he, -⟩
    · rw [herror] at he
      cases he
      exact hraise
    · rw [herror] at he
      cases he

theorem passErrors_eq_nil {errors : List String} (h : passErrors p errors = [])
    (haccepts : validateRoutingValidatorAcceptExits w p.nodes = .ok errors) : Passes w p := by
  simp only [passErrors, List.append_eq_nil_iff] at h
  obtain ⟨⟨⟨⟨⟨⟨⟨hcontracts, hedges⟩, hvalidator⟩, hexits⟩, hbindings⟩, hboundaries⟩, hreach⟩,
    hdead⟩ := h
  exact ⟨hcontracts, hedges, hvalidator, hexits ▸ haccepts, hbindings, hboundaries, hreach, hdead⟩

theorem accepts_passes (h : accepts w p = true) : Passes w p := by
  obtain ⟨report, hvalid⟩ := accepts_iff.mp h
  rcases validate_cases (w := w) (p := p) with ⟨e, -, herror⟩ | ⟨errors, haccepts, hcases⟩
  · rw [herror] at hvalid
    cases hvalid
  · rcases hcases with ⟨hnone, -⟩ | ⟨-, herror⟩
    · exact passErrors_eq_nil hnone haccepts
    · rw [herror] at hvalid
      cases hvalid

end Cases

end PatchPanelValidator

end GhostMesh
