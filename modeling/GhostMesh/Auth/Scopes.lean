import Mathlib.Algebra.Order.BigOperators.Group.List
import Mathlib.Algebra.Order.Group.Nat
import GhostMesh.Domain.Authority

/-!
# Scope matching

`scope_matches`, and what it means for one scope to match wherever another does.
-/

set_option autoImplicit false

namespace GhostMesh

/-- `id is not None and id == context.get(key)`. -/
def contextNames (context : JsonObj) (key : String) (id : Option String) : Bool :=
  match id, JsonObj.get? context key with
  | some i, some value => value.isStr i
  | _, _ => false

def scopeMatches (grantScope targetScope : Scope) (context : JsonObj) : Bool :=
  if grantScope.type.isGlobal then true
  else if grantScope.type = targetScope.type ∧ grantScope.id = targetScope.id then true
  else match grantScope.type with
    | .workflow => contextNames context "workflow_id" grantScope.id
    | .patchPanel => contextNames context "patch_panel_id" grantScope.id
    | _ => false

theorem Scope.ext {s t : Scope} (htype : s.type = t.type) (hid : s.id = t.id) : s = t := by
  cases s
  cases t
  simp_all

theorem scopeMatches_of_global {s : Scope} (h : s.type.isGlobal = true) (t : Scope)
    (context : JsonObj) : scopeMatches s t context = true := by
  simp [scopeMatches, h]

theorem scopeMatches_self (s : Scope) (context : JsonObj) : scopeMatches s s context = true := by
  simp [scopeMatches]

theorem contextNames_of_absent {context : JsonObj} {key : String}
    (h : JsonObj.get? context key = none) (id : Option String) :
    contextNames context key id = false := by
  cases id <;> simp [contextNames, h]

/-- In a context that names neither a workflow nor a panel a scope matches only itself,
unless it is global. -/
theorem scopeMatches_of_absent {s t : Scope} {context : JsonObj}
    (hworkflow : JsonObj.get? context "workflow_id" = none)
    (hpanel : JsonObj.get? context "patch_panel_id" = none) :
    scopeMatches s t context = true ↔ s.type.isGlobal = true ∨ s = t := by
  constructor
  · intro h
    unfold scopeMatches at h
    split at h
    · exact .inl ‹_›
    · split at h
      · rename_i heq
        exact .inr (Scope.ext heq.1 heq.2)
      · split at h <;> simp [contextNames_of_absent, hworkflow, hpanel] at h
  · rintro (h | rfl)
    · exact scopeMatches_of_global h t context
    · exact scopeMatches_self _ context

theorem scopeMatches_nil {s t : Scope} :
    scopeMatches s t [] = true ↔ s.type.isGlobal = true ∨ s = t := scopeMatches_of_absent rfl rfl

theorem exists_fresh_id (ids : List String) : ∃ id : String, id ≠ "" ∧ id ∉ ids := by
  let n := (ids.map String.length).sum + 1
  have hlen : (String.ofList (List.replicate n 'x')).length = n := by simp
  refine ⟨String.ofList (List.replicate n 'x'), ?_, ?_⟩
  · intro h
    rw [h] at hlen
    simp [n] at hlen
  · intro h
    have hle : (String.ofList (List.replicate n 'x')).length ≤ (ids.map String.length).sum :=
      List.le_sum_of_mem (List.mem_map_of_mem h)
    omega

/-- A target that only global scopes among the given ones match. -/
theorem exists_unmatched_target (scopes : List Scope) :
    ∃ t : Scope, ∀ s ∈ scopes, scopeMatches s t [] = true → s.type.isGlobal = true := by
  obtain ⟨id, hne, hfresh⟩ := exists_fresh_id (scopes.filterMap Scope.id)
  refine ⟨⟨.card, some id, by simp [validScopeId, ScopeType.isGlobal, hne]⟩, ?_⟩
  intro s hs hmatch
  rcases scopeMatches_nil.mp hmatch with h | rfl
  · exact h
  · have hmem : id ∈ scopes.filterMap Scope.id := List.mem_filterMap.mpr ⟨_, hs, rfl⟩
    exact absurd hmem hfresh

/-- Some of the scopes `ss` matches whatever `g` matches, in every context, exactly
when one of them is global or `g` itself. -/
theorem matched_wherever_iff (g : Scope) (ss : List Scope) :
    (∀ t context, scopeMatches g t context = true → ∃ s ∈ ss, scopeMatches s t context = true) ↔
      ∃ s ∈ ss, s.type.isGlobal = true ∨ s = g := by
  constructor
  · intro h
    by_cases hg : g.type.isGlobal = true
    · obtain ⟨t, ht⟩ := exists_unmatched_target ss
      obtain ⟨s, hs, hmatch⟩ := h t [] (scopeMatches_of_global hg t [])
      exact ⟨s, hs, .inl (ht s hs hmatch)⟩
    · obtain ⟨s, hs, hmatch⟩ := h g [] (scopeMatches_self g [])
      exact ⟨s, hs, scopeMatches_nil.mp hmatch⟩
  · rintro ⟨s, hs, hglobal | rfl⟩ t context hmatch
    · exact ⟨s, hs, scopeMatches_of_global hglobal t context⟩
    · exact ⟨s, hs, hmatch⟩

end GhostMesh
