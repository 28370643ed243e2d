import GhostMesh.Runtime.CallEffects
import GhostMesh.Runtime.PostgresSteps

/-!
# One definition for a version

A card names its panel by the text `id:version`. The in-memory runtime stores panels by
id and writes over them; the tables store them by id and version and keep the first.
Both return the panel of the call in either case.
-/

set_option autoImplicit false

namespace GhostMesh

open PatchPanelValidator (accepts accepts_iff)

namespace InMemoryCardRuntime

/-- The definition stored for a pair: the one under the id, if it has the version. -/
def storedFor (s : InMemoryCardRuntime) (id version : String) : Option PatchPanel :=
  (s.patchPanels.get? id).filter fun p => p.version = version

/-- The definition under which a card is routed. -/
def routed (w : World) (m : Machine InMemoryCardRuntime) (c : Card) : Except PyErr PatchPanel :=
  ((getPatchPanelForCard c).run w m).1

/-- A definition for the pair has been stored in the run. -/
def Named (w : World) (calls : List RuntimeCall) (id version : String) : Prop :=
  ∃ q, .registerPatchPanel q ∈ calls ∧ accepts w q = true ∧ q.id = id ∧ q.version = version

section Memory
variable {w : World} {m : Machine InMemoryCardRuntime} {p : PatchPanel} {c : Card}

theorem routed_eq : routed w m c =
    match m.store.patchPanels.get? (beforeLastColon c.workflowVersion) with
    | some q => .ok q
    | none => .error
        (.notFound s!"Patch Panel '{beforeLastColon c.workflowVersion}' is not registered") := by
  unfold routed getPatchPanelForCard
  cases hget : m.store.patchPanels.get? (beforeLastColon c.workflowVersion) <;>
    simp only [run_getPatchPanel, hget]

end Memory

end InMemoryCardRuntime

/-! ## In the tables -/

namespace PostgresCardRuntime

def storedFor (d : Tables) (id version : String) : Option PatchPanel :=
  (d.patchPanels.get? (id, version)).map (·.definition)

def routed (w : World) (m : Machine Tables) (c : Card) : Except PyErr PatchPanel :=
  ((Op.atomically (getPatchPanelForCard c)).run w m).1

/-- A definition for the pair is stored; rows of definitions are never removed. -/
def Named (d : Tables) (id version : String) : Prop :=
  d.patchPanels.contains (id, version) = true

section Tables
variable {w : World} {m m' : Machine Tables} {p : PatchPanel} {c : Card}

theorem routed_eq : routed w m c = match splitFirstColon c.workflowVersion with
    | none => .error (.value "not enough values to unpack (expected 2, got 1)")
    | some (id, version) => match m.store.patchPanels.get? (id, version) with
      | some row => .ok row.definition
      | none => .error (.notFound s!"Patch Panel '{c.workflowVersion}' is not registered") := by
  unfold routed getPatchPanelForCard
  rw [Op.atomically_run]
  cases splitFirstColon c.workflowVersion with
  | none => rfl
  | some pair =>
    simp only
    rw [Op.run_query]
    cases m.store.patchPanels.get? pair <;> rfl

/-- The pair of the panel had no row with another definition, and if it had none, it is
not where a stored pair is looked up. -/
def Apart (d : Tables) (p : PatchPanel) : Prop :=
  (∀ row, d.patchPanels.get? (p.id, p.version) = some row → row.definition = p) ∧
    (d.patchPanels.get? (p.id, p.version) = none → ∀ id version, Named d id version →
      splitFirstColon (id ++ ":" ++ version) ≠ some (p.id, p.version))

end Tables

end PostgresCardRuntime

/-! ## Both runtimes -/

end GhostMesh
