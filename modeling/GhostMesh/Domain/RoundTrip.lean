import GhostMesh.Domain.Schema
import Mathlib.Data.List.Induction

/-!
# Records survive as JSON

What `model_dump` writes of a record `model_validate` reads back as the same record. A
decoder and an encoder that fit stay a fit under optional fields, lists and dictionaries.
-/

set_option autoImplicit false

namespace GhostMesh

namespace Decode

variable {α : Type} {f : Json → Option α} {g : α → Json}

/-- The decoder reads back whatever the encoder writes. -/
def Reads (f : Json → Option α) (g : α → Json) : Prop := ∀ a, f (g a) = some a

theorem reads_str : Reads str .str := fun _ => rfl

theorem reads_obj : Reads obj .obj := fun _ => rfl

theorem reads_bool : Reads bool .bool := fun _ => rfl

theorem reads_optStr : Reads (opt str) Json.ofOptionStr := by
  rintro (_ | s) <;> rfl

theorem Reads.all (h : Reads f g) (as : List α) : all f (as.map g) = some as := by
  induction as with
  | nil => rfl
  | cons a as ih => simp only [List.map_cons, Decode.all, h a, ih, Option.bind_eq_bind,
      Option.bind_some, Option.pure_def]

theorem Reads.list (h : Reads f g) : Reads (list f) fun as => .list (as.map g) :=
  fun as => h.all as

theorem reads_strings : Reads (list str) Json.ofStrings := reads_str.list

theorem reads_objs : Reads (list obj) fun os => .list (os.map .obj) := reads_obj.list

/-- The values of an enumeration tell its members apart. -/
theorem reads_enum {members : List α} {value : α → String} (hvalues : (members.map value).Nodup)
    (hall : ∀ a, a ∈ members) : Reads (enum members value) fun a => .str (value a) := by
  intro a
  change members.find? (fun b => value b = value a) = some a
  cases hfound : members.find? (fun b => value b = value a) with
  | none => exact absurd (List.find?_eq_none.mp hfound a (hall a)) (by simp)
  | some b =>
    have hvalue : value b = value a := by simpa using List.find?_some hfound
    rw [List.inj_on_of_nodup_map hvalues (List.mem_of_find?_eq_some hfound) (hall a) hvalue]

/-- The entries come back in their order. -/
theorem Reads.entries (h : Reads f g) (es : List (String × α)) (hnodup : (es.map Prod.fst).Nodup) :
    entries f (es.map fun e => (e.1, g e.2)).reverse = some ⟨es, hnodup⟩ := by
  induction es using List.reverseRecOn with
  | nil => rfl
  | append_singleton es e ih =>
    have hkeys : ((es.map Prod.fst) ++ [e.1]).Nodup := by simpa using hnodup
    obtain ⟨hbefore, -, hnew⟩ := List.nodup_append.mp hkeys
    have hfree : Dict.lookupIn e.1 es = none := by
      refine (Dict.get?_eq_none_iff ⟨es, hbefore⟩ e.1).mpr fun hmem => ?_
      exact hnew e.1 hmem e.1 List.mem_cons_self rfl
    rw [List.map_append, List.reverse_append, List.map_singleton, List.reverse_singleton,
      List.singleton_append, Decode.entries, h e.2, ih hbefore]
    simp only [Option.bind_eq_bind, Option.bind_some, Option.pure_def, Dict.set,
      Dict.insertIn_of_new hfree]

theorem Reads.dict (h : Reads f g) :
    Reads (dict f) fun d => .obj (d.entries.map fun e => (e.1, g e.2)) :=
  fun d => h.entries d.entries d.nodup

/-! Fields. -/

variable {o : JsonObj} {key : String}

theorem Reads.field (h : Reads f g) {a : α} (hget : o.get? key = some (g a)) :
    field o key f = some a := by
  rw [Decode.field, hget, Option.bind_some, h]

theorem Reads.fieldD (h : Reads f g) {default a : α} (hget : o.get? key = some (g a)) :
    fieldD o key default f = some a := by
  rw [Decode.fieldD, hget]
  exact h a

end Decode

open Decode

/-! ## Patch Panels -/

theorem NodeType.reads : Reads (enum NodeType.all NodeType.value) fun t => .str t.value := by
  exact reads_enum (by decide) fun t => by cases t <;> decide

theorem Direction.reads_opt : Reads (opt (enum [.input, .output] Direction.value))
    fun d => Json.ofOptionStr (d.map Direction.value) := by
  rintro (_ | _ | _) <;> rfl

theorem AcceptanceContract.reads : Reads AcceptanceContract.ofJson AcceptanceContract.toJson := by
  intro c
  simp only [AcceptanceContract.toJson, AcceptanceContract.ofJson, Option.bind_eq_bind]
  rw [reads_str.field (a := c.id) rfl, reads_str.field (a := c.description) rfl,
    reads_optStr.fieldD (a := c.schemaRef) rfl, reads_objs.fieldD (a := c.rules) rfl]
  rfl

theorem BucketDefinition.reads : Reads BucketDefinition.ofJson BucketDefinition.toJson := by
  intro b
  simp only [BucketDefinition.toJson, BucketDefinition.ofJson, Option.bind_eq_bind]
  rw [reads_str.field (a := b.id) rfl, reads_optStr.fieldD (a := b.description) rfl,
    reads_strings.fieldD (a := b.inputRequirements) rfl,
    reads_strings.fieldD (a := b.outputRequirements) rfl,
    reads_optStr.fieldD (a := b.acceptanceContract) rfl,
    reads_bool.fieldD (a := b.shadowEligible) rfl]
  rfl

theorem NodeDefinition.reads : Reads NodeDefinition.ofJson NodeDefinition.toJson := by
  intro n
  simp only [NodeDefinition.toJson, NodeDefinition.ofJson, Option.bind_eq_bind]
  rw [reads_str.field (a := n.id) rfl, NodeType.reads.field (a := n.type) rfl,
    reads_optStr.fieldD (a := n.validatorKind) rfl, reads_optStr.fieldD (a := n.description) rfl,
    reads_strings.fieldD (a := n.inputPipes) rfl, reads_strings.fieldD (a := n.outputPipes) rfl,
    reads_optStr.fieldD (a := n.acceptanceContract) rfl, reads_obj.fieldD (a := n.config) rfl]
  rfl

/-- An edge is written under the names of its fields, which are no aliases. -/
theorem EdgeDefinition.reads : Reads EdgeDefinition.ofJson EdgeDefinition.toJson := by
  rintro ⟨fromNode, toNode, on, condition⟩
  simp only [EdgeDefinition.toJson, EdgeDefinition.ofJson, Option.bind_eq_bind]
  rw [reads_str.field (a := fromNode) rfl, reads_str.field (a := toNode) rfl,
    reads_str.field (a := on) rfl]
  cases condition <;> rfl

theorem PipeBinding.reads : Reads PipeBinding.ofJson PipeBinding.toJson := by
  intro b
  simp only [PipeBinding.toJson, PipeBinding.ofJson, Option.bind_eq_bind]
  rw [reads_str.field (a := b.bucket) rfl, reads_optStr.fieldD (a := b.node) rfl,
    Direction.reads_opt.fieldD (a := b.direction) rfl]
  rfl

/-- Local ids are unique, so that the last check of the model passes. -/
theorem PatchPanel.reads : Reads PatchPanel.ofJson PatchPanel.toJson := by
  intro p
  simp only [PatchPanel.toJson, PatchPanel.ofJson, Option.bind_eq_bind]
  rw [reads_str.field (a := p.id) rfl, reads_str.field (a := p.version) rfl,
    reads_optStr.fieldD (a := p.description) rfl,
    BucketDefinition.reads.list.field (a := p.buckets) rfl,
    NodeDefinition.reads.list.field (a := p.nodes) rfl,
    EdgeDefinition.reads.list.field (a := p.edges) rfl,
    PipeBinding.reads.dict.fieldD (a := p.pipeBindings) rfl,
    AcceptanceContract.reads.list.fieldD (a := p.acceptanceContracts) rfl,
    reads_obj.fieldD (a := p.metadata) rfl]
  exact dif_pos ⟨p.uniqueBuckets, p.uniqueNodes, p.uniqueContracts⟩

/-! ## Registry metadata -/

theorem PermissionName.reads_list : Reads (list (enum PermissionName.all PermissionName.value))
    fun ps => Json.ofStrings (ps.map PermissionName.value) := by
  have hone : Reads (enum PermissionName.all PermissionName.value) fun p => .str p.value :=
    reads_enum (by decide) fun p => by cases p <;> decide
  intro ps
  change list _ (.list ((ps.map PermissionName.value).map .str)) = some ps
  rw [List.map_map]
  exact hone.list ps

theorem PatchPanelRegistryStatus.reads :
    Reads (enum PatchPanelRegistryStatus.all PatchPanelRegistryStatus.value)
      fun s => .str s.value := by
  exact reads_enum (by decide) fun s => by cases s <;> decide

theorem PatchPanelRegistryMetadata.reads :
    Reads PatchPanelRegistryMetadata.ofJson PatchPanelRegistryMetadata.toJson := by
  intro d
  simp only [PatchPanelRegistryMetadata.toJson, PatchPanelRegistryMetadata.ofJson,
    Option.bind_eq_bind]
  rw [reads_str.field (a := d.name) rfl, reads_optStr.fieldD (a := d.description) rfl,
    reads_strings.fieldD (a := d.tags) rfl, reads_strings.fieldD (a := d.inputTypes) rfl,
    reads_strings.fieldD (a := d.outputTypes) rfl, reads_strings.fieldD (a := d.requiredTools) rfl,
    PermissionName.reads_list.fieldD (a := d.requiredPermissions) rfl,
    reads_optStr.fieldD (a := d.riskLevel) rfl, reads_optStr.fieldD (a := d.estimatedCost) rfl,
    reads_optStr.fieldD (a := d.estimatedLatency) rfl,
    reads_optStr.fieldD (a := d.ownerParticipantId) rfl,
    PatchPanelRegistryStatus.reads.fieldD (a := d.status) rfl]
  rfl

end GhostMesh
