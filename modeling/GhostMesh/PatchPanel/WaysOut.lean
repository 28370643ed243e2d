import GhostMesh.Lib.Escape
import GhostMesh.PatchPanel.Passes

/-!
# Ways into and out of an accepted graph

The edges of a Patch Panel as a step relation between node ids. Acceptance makes every
node reachable from a source. A way out is only checked by counting outgoing edges, so
it exists where every cycle has one.
-/

set_option autoImplicit false

namespace GhostMesh

open Relation (ReflTransGen)

namespace PatchPanel

/-- The panel has an edge between the two nodes. -/
def Edge (p : PatchPanel) (a b : String) : Prop := ∃ e ∈ p.edges, e.fromNode = a ∧ e.toNode = b

/-- The second node can be reached from the first by edges. -/
abbrev Leads (p : PatchPanel) (a b : String) : Prop := ReflTransGen p.Edge a b

theorem leads_finite (p : PatchPanel) (a : String) : {b | p.Leads a b}.Finite := by
  refine ((p.edges.map (·.toNode)).finite_toSet.insert a).subset ?_
  intro b hab
  rcases Relation.ReflTransGen.cases_tail hab with rfl | ⟨c, -, e, he, -, rfl⟩
  · exact Set.mem_insert b _
  · exact Set.mem_insert_of_mem a (List.mem_map_of_mem he)

/-- Some source leads to the node. -/
def Entered (p : PatchPanel) (n : NodeDefinition) : Prop :=
  ∃ s ∈ PatchPanelValidator.nodesOf p .source, p.Leads s.id n.id

/-- The node leads to some sink. -/
def Drains (p : PatchPanel) (n : NodeDefinition) : Prop :=
  ∃ s ∈ PatchPanelValidator.nodesOf p .sink, p.Leads n.id s.id

end PatchPanel

namespace PatchPanelValidator

section Graph
variable {p : PatchPanel} {a b : String}

theorem foldl_addNode_edges (ns : List NodeDefinition) (g : DiGraph String) :
    (ns.foldl (fun g n => g.addNode n.id) g).edges = g.edges := by
  induction ns generalizing g with
  | nil => rfl
  | cons n ns ih => rw [List.foldl_cons, ih, DiGraph.addNode_edges]

theorem edge_foldl_addEdge (es : List EdgeDefinition) (g : DiGraph String) :
    (es.foldl (fun g e => g.addEdge e.fromNode e.toNode) g).Edge a b ↔
      g.Edge a b ∨ ∃ e ∈ es, e.fromNode = a ∧ e.toNode = b := by
  induction es generalizing g with
  | nil => simp
  | cons e es ih =>
    rw [List.foldl_cons, ih, DiGraph.edge_addEdge, List.exists_mem_cons_iff, or_assoc,
      eq_comm (a := a), eq_comm (a := b)]

/-- The graph of the validator has the edges of the panel. -/
theorem edge_buildGraph : (buildGraph p).Edge a b ↔ p.Edge a b := by
  unfold buildGraph
  rw [edge_foldl_addEdge]
  have hnone : ¬ (p.nodes.foldl (fun g n => g.addNode n.id) DiGraph.empty).Edge a b := by
    unfold DiGraph.Edge
    rw [foldl_addNode_edges]
    exact List.not_mem_nil
  exact or_iff_right hnone

theorem buildGraph_edge : (buildGraph p).Edge = p.Edge :=
  funext fun _ => funext fun _ => propext edge_buildGraph

end Graph

/-! ## What the passes check -/

section Accepted
variable {w : World} {p : PatchPanel} {n : NodeDefinition}

theorem mem_nodesOf {type : NodeType} : n ∈ nodesOf p type ↔ n ∈ p.nodes ∧ n.type = type := by
  unfold nodesOf
  rw [List.mem_filter, decide_eq_true_eq]

/-- The ends of an edge are nodes. -/
theorem Passes.edge_mem (h : Passes w p) {a b : String} (hab : p.Edge a b) :
    ∃ n ∈ p.nodes, n.id = b := by
  obtain ⟨e, he, -, rfl⟩ := hab
  have hnone := h.edges
  unfold validateEdges at hnone
  rw [List.flatMap_eq_nil_iff] at hnone
  have hend := (List.append_eq_nil_iff.mp (hnone e he)).2
  by_contra hnot
  rw [if_neg] at hend
  · cases hend
  · intro hmem
    obtain ⟨n, hn, hid⟩ := List.mem_map.mp hmem
    exact hnot ⟨n, hn, hid⟩

theorem Passes.leads_mem (h : Passes w p) {b : String} (hn : n ∈ p.nodes)
    (hpath : p.Leads n.id b) : ∃ m ∈ p.nodes, m.id = b := by
  rcases Relation.ReflTransGen.cases_tail hpath with rfl | ⟨c, -, hedge⟩
  · exact ⟨n, hn, rfl⟩
  · exact h.edge_mem hedge

theorem Passes.entered (h : Passes w p) (hn : n ∈ p.nodes) : p.Entered n := by
  have hreach := h.reachability
  have hbounds := h.boundaries
  unfold validateReachability at hreach
  unfold validateBoundaries at hbounds
  have hsources : (nodesOf p .source).map (·.id) ≠ [] := by
    intro hnone
    rw [List.map_eq_nil_iff.mp hnone] at hbounds
    simp at hbounds
  rw [if_neg hsources, List.flatMap_eq_nil_iff] at hreach
  have hmem : n.id ∈ (nodesOf p .source).map (·.id) ++
      ((nodesOf p .source).map (·.id)).flatMap (buildGraph p).descendants := by
    by_contra hnot
    have hone := hreach n hn
    rw [if_neg hnot] at hone
    cases hone
  rcases List.mem_append.mp hmem with hmem | hmem
  · obtain ⟨s, hs, hid⟩ := List.mem_map.mp hmem
    exact ⟨s, hs, hid ▸ .refl⟩
  · obtain ⟨id, hid, hdescends⟩ := List.mem_flatMap.mp hmem
    obtain ⟨s, hs, rfl⟩ := List.mem_map.mp hid
    have hpath := DiGraph.mem_descendants hdescends
    rw [buildGraph_edge] at hpath
    exact ⟨s, hs, hpath⟩

/-- A sink is where the edges end, and nothing else is. -/
theorem Passes.final_iff (h : Passes w p) (hn : n ∈ p.nodes) :
    Final p.Edge n.id ↔ n.type = .sink := by
  have hdegree : (buildGraph p).outDegree n.id = 0 ↔ Final p.Edge n.id := by
    rw [DiGraph.outDegree_eq_zero, buildGraph_edge]
    exact Iff.rfl
  rw [← hdegree]
  constructor
  · intro hzero
    have hdead := h.deadEnds
    unfold validateDeadEnds at hdead
    rw [List.flatMap_eq_nil_iff] at hdead
    by_contra hother
    have hsink : n.id ∉ (nodesOf p .sink).map (·.id) := by
      intro hmem
      obtain ⟨m, hm, hid⟩ := List.mem_map.mp hmem
      obtain ⟨hm, htype⟩ := mem_nodesOf.mp hm
      rw [List.inj_on_of_nodup_map p.uniqueNodes hm hn hid] at htype
      exact hother htype
    have hone := hdead n hn
    rw [if_pos ⟨hsink, hzero⟩] at hone
    cases hone
  · intro hsink
    have hbounds := h.boundaries
    unfold validateBoundaries at hbounds
    have hlast := List.flatMap_eq_nil_iff.mp (List.append_eq_nil_iff.mp hbounds).2 n
      (mem_nodesOf.mpr ⟨hn, hsink⟩)
    by_contra hpos
    rw [if_pos (Nat.pos_of_ne_zero hpos)] at hlast
    cases hlast

theorem Passes.drains_iff (h : Passes w p) (hn : n ∈ p.nodes) :
    p.Drains n ↔ ∃ b, p.Leads n.id b ∧ Final p.Edge b := by
  constructor
  · rintro ⟨s, hs, hpath⟩
    obtain ⟨hs, hsink⟩ := mem_nodesOf.mp hs
    exact ⟨s.id, hpath, (h.final_iff hs).mpr hsink⟩
  · rintro ⟨b, hpath, hfinal⟩
    obtain ⟨s, hs, rfl⟩ := h.leads_mem hn hpath
    exact ⟨s, mem_nodesOf.mpr ⟨hs, (h.final_iff hs).mp hfinal⟩, hpath⟩

end Accepted

end PatchPanelValidator

open PatchPanelValidator (accepts nodesOf)

/-- Every node is entered from a source, and a card that stands at a node can always be
brought to a sink exactly if every cycle that it can be led into can be left. -/
theorem ways_in_and_out {w : World} {p : PatchPanel} (h : accepts w p = true)
    {n : NodeDefinition} (hn : n ∈ p.nodes) :
    p.Entered n ∧
      ((∀ m ∈ p.nodes, p.Leads n.id m.id → p.Drains m) ↔
        ∀ m ∈ p.nodes, p.Leads n.id m.id → OnCycle p.Edge m.id →
          ∃ k ∈ p.nodes, p.Leads m.id k.id ∧ ¬ OnCycle p.Edge k.id) := by
  have hpasses := PatchPanelValidator.accepts_passes h
  refine ⟨hpasses.entered hn, ?_⟩
  have hdrain : (∀ m ∈ p.nodes, p.Leads n.id m.id → p.Drains m) ↔
      ∀ b, p.Leads n.id b → ∃ c, p.Leads b c ∧ Final p.Edge c := by
    constructor
    · intro hall b hpath
      obtain ⟨m, hm, rfl⟩ := hpasses.leads_mem hn hpath
      exact (hpasses.drains_iff hm).mp (hall m hm hpath)
    · intro hall m hm hpath
      exact (hpasses.drains_iff hm).mpr (hall m.id hpath)
  rw [hdrain, OnCycle.all_reach_final_iff (p.leads_finite n.id)]
  constructor
  · intro hall m hm hpath hcycle
    obtain ⟨c, hmc, hoff⟩ := hall m.id hpath hcycle
    obtain ⟨k, hk, rfl⟩ := hpasses.leads_mem hm hmc
    exact ⟨k, hk, hmc, hoff⟩
  · intro hall b hpath hcycle
    obtain ⟨m, hm, rfl⟩ := hpasses.leads_mem hn hpath
    obtain ⟨k, -, hmk, hoff⟩ := hall m hm hpath hcycle
    exact ⟨k.id, hmk, hoff⟩

/-- Two workers that hand their cards to each other, beside a line to the sink. -/
def trapPanel : PatchPanel where
  id := "trap"
  version := "1"
  description := none
  buckets := []
  nodes := [⟨"intake", .source, none, none, [], [], none, []⟩,
    ⟨"draft", .worker, none, none, [], [], none, []⟩,
    ⟨"revise", .worker, none, none, [], [], none, []⟩,
    ⟨"done", .sink, none, none, [], [], none, []⟩]
  edges := [⟨"intake", "done", "default", none⟩, ⟨"intake", "draft", "default", none⟩,
    ⟨"draft", "revise", "default", none⟩, ⟨"revise", "draft", "default", none⟩]
  pipeBindings := Dict.empty
  acceptanceContracts := []
  metadata := []
  uniqueBuckets := List.nodup_nil
  uniqueNodes := by decide
  uniqueContracts := List.nodup_nil

theorem trapPanel_accepted : accepts .simple trapPanel = true := by decide +kernel

theorem trapPanel_draft : ⟨"draft", .worker, none, none, [], [], none, []⟩ ∈ trapPanel.nodes :=
  .tail _ (.head _)

theorem ways_in_and_out_trapPanel : trapPanel.Entered ⟨"draft", .worker, none, none, [], [], none, []⟩ ∧
    ((∀ m ∈ trapPanel.nodes, trapPanel.Leads "draft" m.id → trapPanel.Drains m) ↔
      ∀ m ∈ trapPanel.nodes, trapPanel.Leads "draft" m.id → OnCycle trapPanel.Edge m.id →
        ∃ k ∈ trapPanel.nodes, trapPanel.Leads m.id k.id ∧ ¬ OnCycle trapPanel.Edge k.id) :=
  ways_in_and_out trapPanel_accepted trapPanel_draft

/-- The two workers are all that a card at one of them can come to. -/
theorem trapPanel_traps {b : String} (h : trapPanel.Leads "draft" b) :
    b = "draft" ∨ b = "revise" := by
  induction h with
  | refl => exact .inl rfl
  | tail _ hedge ih =>
    obtain ⟨e, he, hfrom, rfl⟩ := hedge
    have hall : ∀ e ∈ trapPanel.edges, e.fromNode = "draft" ∨ e.fromNode = "revise" →
        e.toNode = "draft" ∨ e.toNode = "revise" := by decide
    exact hall e he (hfrom ▸ ih)

theorem accepted_trap : ¬ ∀ (w : World) (p : PatchPanel), accepts w p = true →
    ∀ n ∈ p.nodes, p.Entered n ∧ p.Drains n := by
  intro h
  obtain ⟨-, s, hs, hpath⟩ := h .simple trapPanel trapPanel_accepted _ trapPanel_draft
  have hall : ∀ s ∈ nodesOf trapPanel .sink, s.id ≠ "draft" ∧ s.id ≠ "revise" := by decide
  rcases trapPanel_traps hpath with heq | heq
  · exact (hall s hs).1 heq
  · exact (hall s hs).2 heq

end GhostMesh
