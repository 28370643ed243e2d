import GhostMesh.PatchPanel.WaysOut
import GhostMesh.Runtime.PipeRouting

/-!
# What the validator decides

A well-formed Patch Panel is described by what it declares and by the paths of its graph.
`PatchPanelValidator.validate` computes dictionaries, degrees and closures instead; each
of its passes is silent exactly if the panel meets one part of the description.
-/

set_option autoImplicit false

namespace GhostMesh

open PatchPanelValidator

namespace PatchPanel

/-! ## The description -/

/-- A contract that is named is declared. -/
def KnowsContract (p : PatchPanel) (contract : Option String) : Prop :=
  ∀ c, truthyStr contract = some c → ∃ d ∈ p.acceptanceContracts, d.id = c

/-- The node and the direction with which the pipe is declared last. -/
def Owns (p : PatchPanel) (pipe : String) (owner : String × Direction) : Prop :=
  ∃ before after, declarations p = before ++ (pipe, owner) :: after ∧ ∀ e ∈ after, e.1 ≠ pipe

/-- The binding contradicts nothing that the nodes and buckets say. -/
structure Admits (p : PatchPanel) (pipe : String) (b : PipeBinding) : Prop where
  owner : ∃ id d, p.Owns pipe (id, d) ∧ (∀ node, truthyStr b.node = some node → node = id) ∧
    ∀ d', b.direction = some d' → d' = d
  bucket : ∃ c ∈ p.buckets, c.id = b.bucket

/-- The accept exits of a routing validator are listed, and all are its output pipes. -/
def ListsAcceptExits (n : NodeDefinition) : Prop :=
  n.type = .validator → isRoutingValidator n = true →
    ∃ exits, JsonObj.get? n.config "accept_exits" = some (.list exits) ∧
      ∀ exit ∈ exits, ∃ pipe ∈ n.outputPipes, exit = .str pipe

structure WellFormed (p : PatchPanel) : Prop where
  bucketContracts : ∀ b ∈ p.buckets, p.KnowsContract b.acceptanceContract
  nodeContracts : ∀ n ∈ p.nodes, p.KnowsContract n.acceptanceContract
  edgeFrom : ∀ e ∈ p.edges, ∃ n ∈ p.nodes, n.id = e.fromNode
  edgeTo : ∀ e ∈ p.edges, ∃ n ∈ p.nodes, n.id = e.toNode
  exits : ∀ e ∈ p.edges, ∀ n ∈ p.nodes, n.id = e.fromNode → n.type = .validator →
    e.on ∈ n.outputPipes
  acceptExits : ∀ n ∈ p.nodes, ListsAcceptExits n
  bindings : ∀ pipe b, p.pipeBindings.get? pipe = some b → p.Admits pipe b
  pipes : ∀ n ∈ p.nodes, ∀ d, ∀ pipe ∈ n.pipes d, p.pipeBindings.contains pipe = true
  source : ∃ n ∈ p.nodes, n.type = .source
  sink : ∃ n ∈ p.nodes, n.type = .sink
  starts : ∀ n ∈ p.nodes, n.type = .source → ∀ a, ¬ p.Edge a n.id
  ends : ∀ n ∈ p.nodes, Final p.Edge n.id ↔ n.type = .sink
  entered : ∀ n ∈ p.nodes, p.Entered n

end PatchPanel

namespace PatchPanelValidator

theorem unless_eq_nil {P : Prop} [Decidable P] {error : String} :
    (if P then [] else [error]) = [] ↔ P := by
  split <;> simp_all

theorem when_eq_nil {P : Prop} [Decidable P] {error : String} :
    (if P then [error] else []) = [] ↔ ¬ P := by
  split <;> simp_all

/-! ## The passes over declarations -/

section Declarations
variable {w : World} {p : PatchPanel} {n : NodeDefinition}

theorem unknownContract_eq_nil {kind id : String} {contract : Option String} :
    unknownContract p kind id contract = [] ↔ p.KnowsContract contract := by
  unfold unknownContract PatchPanel.KnowsContract
  cases contract with
  | none => simp [truthyStr]
  | some c =>
    by_cases hempty : c = ""
    · simp [truthyStr, hempty]
    · simp [truthyStr, hempty]

theorem validateContractReferences_eq_nil : validateContractReferences p = [] ↔
    (∀ b ∈ p.buckets, p.KnowsContract b.acceptanceContract) ∧
      ∀ n ∈ p.nodes, p.KnowsContract n.acceptanceContract := by
  unfold validateContractReferences
  simp only [List.append_eq_nil_iff, List.flatMap_eq_nil_iff, unknownContract_eq_nil]

theorem validateEdges_eq_nil : validateEdges p = [] ↔
    (∀ e ∈ p.edges, ∃ n ∈ p.nodes, n.id = e.fromNode) ∧
      ∀ e ∈ p.edges, ∃ n ∈ p.nodes, n.id = e.toNode := by
  unfold validateEdges
  simp only [List.flatMap_eq_nil_iff, List.append_eq_nil_iff, ite_eq_left_iff, List.mem_map,
    reduceCtorEq, imp_false, not_not]
  exact forall₂_and

/-- Node ids are unique, so that the validator of an edge is found if there is one. -/
theorem find?_validator {e : EdgeDefinition} :
    p.nodes.find? (fun n => n.id = e.fromNode ∧ n.type = .validator) = some n ↔
      n ∈ p.nodes ∧ n.id = e.fromNode ∧ n.type = .validator := by
  constructor
  · intro h
    exact ⟨List.mem_of_find?_eq_some h, by simpa using List.find?_some h⟩
  · rintro ⟨hn, hid, htype⟩
    cases hfound : p.nodes.find? (fun n => n.id = e.fromNode ∧ n.type = .validator) with
    | none =>
      have hnot := List.find?_eq_none.mp hfound n hn
      simp [hid, htype] at hnot
    | some m =>
      have hm : m.id = e.fromNode ∧ m.type = .validator := by simpa using List.find?_some hfound
      have hsame := List.inj_on_of_nodup_map p.uniqueNodes (List.mem_of_find?_eq_some hfound) hn
        (hm.1.trans hid.symm)
      rw [hsame]

theorem validateValidatorEdges_eq_nil : validateValidatorEdges p = [] ↔
    ∀ e ∈ p.edges, ∀ n ∈ p.nodes, n.id = e.fromNode → n.type = .validator →
      e.on ∈ n.outputPipes := by
  unfold validateValidatorEdges
  rw [List.flatMap_eq_nil_iff]
  refine forall₂_congr fun e _ => ?_
  cases hfound : p.nodes.find? (fun n => n.id = e.fromNode ∧ n.type = .validator) with
  | none =>
    refine iff_of_true rfl fun n hn hid htype => ?_
    have hnot := List.find?_eq_none.mp hfound n hn
    simp [hid, htype] at hnot
  | some m =>
    obtain ⟨hm, hid, htype⟩ := find?_validator.mp hfound
    constructor
    · intro h n hn hid' htype'
      have hsame : n = m := List.inj_on_of_nodup_map p.uniqueNodes hn hm (hid'.trans hid.symm)
      rw [hsame]
      by_contra hnot
      simp [hnot] at h
    · intro h
      exact if_pos (h m hm hid htype)

/-! Accept exits. -/

theorem isStr_iff {exit : Json} {s : String} : exit.isStr s = true ↔ exit = .str s := by
  cases exit <;> simp [Json.isStr]

theorem acceptExitErrors_eq_nil (exits : List Json) : acceptExitErrors w n exits = .ok [] ↔
    ∀ exit ∈ exits, ∃ pipe ∈ n.outputPipes, exit = .str pipe := by
  induction exits with
  | nil => simp [acceptExitErrors]
  | cons exit rest ih =>
    rw [List.forall_mem_cons, ← ih, acceptExitErrors]
    by_cases hdeclared : ∃ pipe ∈ n.outputPipes, exit = .str pipe
    · have hhash : exit.hashable = true := by
        obtain ⟨pipe, -, rfl⟩ := hdeclared
        rfl
      have hany : (n.outputPipes.any fun pipe => exit.isStr pipe) = true := by
        obtain ⟨pipe, hpipe, hexit⟩ := hdeclared
        exact List.any_eq_true.mpr ⟨pipe, hpipe, isStr_iff.mpr hexit⟩
      rw [and_iff_right hdeclared, hhash, Bool.not_true, if_neg Bool.false_ne_true]
      cases hrest : acceptExitErrors w n rest with
      | error e => exact Iff.rfl
      | ok errors => exact (if_pos hany).congr_left
    · have hany : ¬ (n.outputPipes.any fun pipe => exit.isStr pipe) = true := by
        intro h
        obtain ⟨pipe, hpipe, hexit⟩ := List.any_eq_true.mp h
        exact hdeclared ⟨pipe, hpipe, isStr_iff.mp hexit⟩
      refine iff_of_false (fun h => ?_) fun h => hdeclared h.1
      simp only [if_neg hany] at h
      split at h
      · cases h
      · cases hrest : acceptExitErrors w n rest with
        | error e =>
          rw [hrest] at h
          cases h
        | ok errors =>
          rw [hrest] at h
          cases h

theorem routingValidatorErrors_eq_nil :
    routingValidatorErrors w n = .ok [] ↔ PatchPanel.ListsAcceptExits n := by
  unfold routingValidatorErrors PatchPanel.ListsAcceptExits
  split
  · rename_i hother
    refine iff_of_true rfl fun htype hrouting => ?_
    rcases hother with h | h
    · exact absurd htype h
    · rw [hrouting] at h
      cases h
  · rename_i hrouting
    obtain ⟨htype, hkind⟩ := not_or.mp hrouting
    have htype : n.type = .validator := not_not.mp htype
    have hkind : isRoutingValidator n = true := Bool.not_eq_false _ ▸ hkind
    simp only [htype, hkind, forall_true_left]
    split
    · rename_i exits hexits
      rw [acceptExitErrors_eq_nil]
      constructor
      · exact fun h => ⟨exits, hexits, h⟩
      · rintro ⟨exits', hexits', h⟩
        rw [hexits] at hexits'
        cases hexits'
        exact h
    · rename_i hnone
      refine iff_of_false (fun h => by cases h) ?_
      rintro ⟨exits, hexits, -⟩
      exact hnone exits hexits

theorem acceptExits_eq_nil (ns : List NodeDefinition) :
    validateRoutingValidatorAcceptExits w ns = .ok [] ↔
      ∀ n ∈ ns, PatchPanel.ListsAcceptExits n := by
  induction ns with
  | nil => simp [validateRoutingValidatorAcceptExits]
  | cons n rest ih =>
    rw [List.forall_mem_cons, ← ih, ← routingValidatorErrors_eq_nil (w := w),
      validateRoutingValidatorAcceptExits]
    cases routingValidatorErrors w n with
    | error e => exact iff_of_false (fun h => by cases h) fun h => by cases h.1
    | ok errors =>
      cases validateRoutingValidatorAcceptExits w rest with
      | error e => exact iff_of_false (fun h => by cases h) fun h => by cases h.2
      | ok more =>
        change Except.ok (errors ++ more) = Except.ok [] ↔ _
        simp only [Except.ok.injEq, List.append_eq_nil_iff]

/-! Pipes and their bindings. -/

/-- What overwriting one by one leaves under a key. -/
theorem get?_foldl_set_iff {κ α : Type} [DecidableEq κ] (es : List (κ × α)) (k : κ) (a : α) :
    (es.foldl (fun d e => d.set e.1 e.2) (Dict.empty : Dict κ α)).get? k = some a ↔
      ∃ before after, es = before ++ (k, a) :: after ∧ ∀ e ∈ after, e.1 ≠ k := by
  induction es using List.reverseRecOn with
  | nil => simp
  | append_singleton es e ih =>
    obtain ⟨k', a'⟩ := e
    rw [List.foldl_append, List.foldl_cons, List.foldl_nil, Dict.get?_set]
    split
    · rename_i hk
      subst hk
      constructor
      · intro h
        cases h
        exact ⟨es, [], rfl, by simp⟩
      · rintro ⟨before, after, heq, hlast⟩
        rcases List.eq_nil_or_concat after with rfl | ⟨after', e, rfl⟩
        · obtain ⟨-, h⟩ := List.append_inj' heq rfl
          cases h
          rfl
        · rw [List.concat_eq_append, ← List.cons_append, ← List.append_assoc] at heq
          obtain ⟨-, h⟩ := List.append_inj' heq rfl
          cases h
          exact absurd rfl (hlast (k, a') (by simp))
    · rename_i hk
      rw [ih]
      constructor
      · rintro ⟨before, after, rfl, hlast⟩
        refine ⟨before, after ++ [(k', a')], by simp, ?_⟩
        intro e he
        rcases List.mem_append.mp he with he | he
        · exact hlast e he
        · rw [List.mem_singleton.mp he]
          exact Ne.symm hk
      · rintro ⟨before, after, heq, hlast⟩
        rcases List.eq_nil_or_concat after with rfl | ⟨after', e, rfl⟩
        · obtain ⟨-, h⟩ := List.append_inj' heq rfl
          cases h
          exact absurd rfl hk
        · rw [List.concat_eq_append, ← List.cons_append, ← List.append_assoc] at heq
          obtain ⟨h, -⟩ := List.append_inj' heq rfl
          refine ⟨before, after', h, fun e' he' => hlast e' ?_⟩
          rw [List.concat_eq_append]
          exact List.mem_append_left _ he'

/-- The dictionary of the validator holds the last declaration of each pipe. -/
theorem declaredPipes_get_iff {pipe : String} {owner : String × Direction} :
    (declaredPipes p).get? pipe = some owner ↔ p.Owns pipe owner := by
  rw [declaredPipes_eq]
  exact get?_foldl_set_iff _ _ _

theorem bindingErrors_eq_nil_iff {pipe : String} {b : PipeBinding} :
    bindingErrors p pipe b = [] ↔ p.Admits pipe b := by
  unfold bindingErrors
  cases hdeclared : (declaredPipes p).get? pipe with
  | none =>
    refine iff_of_false (by simp) fun h => ?_
    obtain ⟨id, d, howns, -⟩ := h.owner
    rw [declaredPipes_get_iff.mpr howns] at hdeclared
    cases hdeclared
  | some owner =>
    obtain ⟨id, d⟩ := owner
    have howns : p.Owns pipe (id, d) := declaredPipes_get_iff.mp hdeclared
    obtain ⟨m, hm, hid, -⟩ := declaredPipes_get hdeclared
    simp only [List.append_eq_nil_iff]
    constructor
    · rintro ⟨⟨hnode, hdirection⟩, hbucket⟩
      refine ⟨⟨id, d, howns, fun node hnode' => ?_, fun d' hd' => ?_⟩, ?_⟩
      · cases hb : b.node with
        | none =>
          rw [hb] at hnode'
          cases hnode'
        | some node' =>
          rw [hb] at hnode hnode'
          simp only [truthyStr] at hnode'
          split at hnode'
          · cases hnode'
          · rename_i hne
            cases hnode'
            simp only [if_neg hne, List.append_eq_nil_iff] at hnode
            by_contra hother
            rw [if_neg hother] at hnode
            cases hnode.2
      · rw [hd'] at hdirection
        by_contra hother
        simp [hother] at hdirection
      · by_contra hnot
        have hmem : b.bucket ∉ p.buckets.map (·.id) := by simpa using hnot
        rw [if_neg hmem] at hbucket
        cases hbucket
    · rintro ⟨⟨id', d', howns', hnode, hdirection⟩, hbucket⟩
      have hsame : (id', d') = (id, d) := by
        have hget := declaredPipes_get_iff.mpr howns'
        rw [hdeclared] at hget
        exact (Option.some.inj hget).symm
      cases hsame
      refine ⟨⟨?_, ?_⟩, if_pos (by simpa using hbucket)⟩
      · cases hb : b.node with
        | none => rfl
        | some node =>
          by_cases hempty : node = ""
          · simp [hempty]
          · have heq : node = id := hnode node (by rw [hb]; exact if_neg hempty)
            have hknown : id ∈ p.nodes.map (·.id) := List.mem_map.mpr ⟨m, hm, hid⟩
            simp only [heq, if_pos hknown, if_true]
            split <;> rfl
      · cases hb : b.direction with
        | none => rfl
        | some d'' => simp [hdirection d'' hb]

theorem mem_declaredPipes_keys {pipe : String} : pipe ∈ (declaredPipes p).keys ↔
    ∃ n ∈ p.nodes, ∃ d, pipe ∈ n.pipes d := by
  constructor
  · intro hkey
    cases hget : (declaredPipes p).get? pipe with
    | none => exact absurd hkey ((Dict.get?_eq_none_iff _ _).mp hget)
    | some owner =>
      obtain ⟨id, d⟩ := owner
      obtain ⟨n, hn, -, hpipe⟩ := declaredPipes_get hget
      exact ⟨n, hn, d, hpipe⟩
  · rintro ⟨n, hn, d, hpipe⟩
    by_contra hkey
    have hsome := declaredPipes_isSome hn hpipe
    rw [(Dict.get?_eq_none_iff _ _).mpr hkey] at hsome
    cases hsome

theorem validatePipeBindings_eq_nil : validatePipeBindings p = [] ↔
    (∀ pipe b, p.pipeBindings.get? pipe = some b → p.Admits pipe b) ∧
      ∀ n ∈ p.nodes, ∀ d, ∀ pipe ∈ n.pipes d, p.pipeBindings.contains pipe = true := by
  unfold validatePipeBindings
  rw [List.append_eq_nil_iff, List.flatMap_eq_nil_iff, List.flatMap_eq_nil_iff]
  refine and_congr ?_ ?_
  · constructor
    · intro h pipe b hget
      exact bindingErrors_eq_nil_iff.mp (h (pipe, b) ((Dict.get?_eq_some_iff _ _ _).mp hget))
    · rintro h ⟨pipe, b⟩ hmem
      exact bindingErrors_eq_nil_iff.mpr (h pipe b ((Dict.get?_eq_some_iff _ _ _).mpr hmem))
  · constructor
    · intro h n hn d pipe hpipe
      by_contra hunbound
      have herror := h pipe (mem_declaredPipes_keys.mpr ⟨n, hn, d, hpipe⟩)
      rw [if_neg hunbound] at herror
      cases herror
    · intro h pipe hkey
      obtain ⟨n, hn, d, hpipe⟩ := mem_declaredPipes_keys.mp hkey
      exact if_pos (h n hn d pipe hpipe)

end Declarations

/-! ## The passes over the graph -/

section Graph
variable {p : PatchPanel}

theorem nodesOf_eq_nil {type : NodeType} : nodesOf p type = [] ↔ ¬ ∃ n ∈ p.nodes, n.type = type := by
  rw [nodesOf, List.filter_eq_nil_iff]
  simp

theorem validateBoundaries_eq_nil : validateBoundaries p (buildGraph p) = [] ↔
    (∃ n ∈ p.nodes, n.type = .source) ∧ (∃ n ∈ p.nodes, n.type = .sink) ∧
      (∀ n ∈ p.nodes, n.type = .source → ∀ a, ¬ p.Edge a n.id) ∧
      ∀ n ∈ p.nodes, n.type = .sink → Final p.Edge n.id := by
  unfold validateBoundaries
  simp only [List.append_eq_nil_iff, List.flatMap_eq_nil_iff, ite_eq_right_iff, reduceCtorEq,
    imp_false, nodesOf_eq_nil, not_not, mem_nodesOf, and_imp, not_lt, Nat.le_zero,
    DiGraph.inDegree_eq_zero, DiGraph.outDegree_eq_zero, buildGraph_edge, and_assoc, Final]

/-- The sources and their descendants are what sources lead to. -/
theorem mem_reachable {id : String} :
    id ∈ (nodesOf p .source).map (·.id) ++
        ((nodesOf p .source).map (·.id)).flatMap (buildGraph p).descendants ↔
      ∃ s ∈ nodesOf p .source, p.Leads s.id id := by
  simp only [List.mem_append, List.mem_flatMap, DiGraph.mem_descendants_iff, buildGraph_edge,
    List.mem_map]
  constructor
  · rintro (⟨s, hs, rfl⟩ | ⟨_, ⟨s, hs, rfl⟩, -, hpath⟩)
    · exact ⟨s, hs, .refl⟩
    · exact ⟨s, hs, hpath⟩
  · rintro ⟨s, hs, hpath⟩
    by_cases hid : id = s.id
    · exact .inl ⟨s, hs, hid.symm⟩
    · exact .inr ⟨s.id, ⟨s, hs, rfl⟩, hid, hpath⟩

theorem validateReachability_eq_nil (hsource : ∃ n ∈ p.nodes, n.type = .source) :
    validateReachability p (buildGraph p) = [] ↔ ∀ n ∈ p.nodes, p.Entered n := by
  unfold validateReachability
  have hsources : (nodesOf p .source).map (·.id) ≠ [] := by
    intro hnone
    exact nodesOf_eq_nil.mp (List.map_eq_nil_iff.mp hnone) hsource
  rw [if_neg hsources, List.flatMap_eq_nil_iff]
  exact forall₂_congr fun n _ => unless_eq_nil.trans mem_reachable

theorem validateDeadEnds_eq_nil : validateDeadEnds p (buildGraph p) = [] ↔
    ∀ n ∈ p.nodes, Final p.Edge n.id → n.type = .sink := by
  unfold validateDeadEnds
  rw [List.flatMap_eq_nil_iff]
  refine forall₂_congr fun n hn => ?_
  have hsink : n.id ∈ (nodesOf p .sink).map (·.id) ↔ n.type = .sink := by
    constructor
    · intro hmem
      obtain ⟨m, hm, hid⟩ := List.mem_map.mp hmem
      obtain ⟨hm, htype⟩ := mem_nodesOf.mp hm
      rwa [List.inj_on_of_nodup_map p.uniqueNodes hm hn hid] at htype
    · intro htype
      exact List.mem_map.mpr ⟨n, mem_nodesOf.mpr ⟨hn, htype⟩, rfl⟩
  rw [when_eq_nil, hsink, DiGraph.outDegree_eq_zero, buildGraph_edge, not_and', not_not]
  exact Iff.rfl

/-! The size of the graph. -/

theorem foldl_addNode_vertices (ns : List NodeDefinition) (g : DiGraph String)
    (hnodup : (g.vertices ++ ns.map (·.id)).Nodup) :
    (ns.foldl (fun g n => g.addNode n.id) g).vertices = g.vertices ++ ns.map (·.id) := by
  induction ns generalizing g with
  | nil => simp
  | cons n ns ih =>
    have hnew : n.id ∉ g.vertices := by
      intro hmem
      exact (List.nodup_append.mp hnodup).2.2 _ hmem _ List.mem_cons_self rfl
    have hnext := DiGraph.addNode_vertices_of_new hnew
    rw [List.foldl_cons, ih, hnext, List.append_assoc]
    · rfl
    · rwa [hnext, List.append_assoc]

theorem foldl_addEdge_vertices (es : List EdgeDefinition) (g : DiGraph String)
    (hends : ∀ e ∈ es, e.fromNode ∈ g.vertices ∧ e.toNode ∈ g.vertices) :
    (es.foldl (fun g e => g.addEdge e.fromNode e.toNode) g).vertices = g.vertices := by
  induction es generalizing g with
  | nil => rfl
  | cons e es ih =>
    obtain ⟨hfrom, hto⟩ := hends e List.mem_cons_self
    have hnext := DiGraph.addEdge_vertices hfrom hto
    rw [List.foldl_cons, ih, hnext]
    intro e' he'
    rw [hnext]
    exact hends e' (List.mem_cons_of_mem e he')

theorem foldl_addEdge_nodup (es : List EdgeDefinition) {g : DiGraph String}
    (h : g.edges.Nodup) :
    (es.foldl (fun g e => g.addEdge e.fromNode e.toNode) g).edges.Nodup := by
  induction es generalizing g with
  | nil => exact h
  | cons e es ih => exact ih (DiGraph.addEdge_nodup h)

theorem buildGraph_vertices (hfrom : ∀ e ∈ p.edges, ∃ n ∈ p.nodes, n.id = e.fromNode)
    (hto : ∀ e ∈ p.edges, ∃ n ∈ p.nodes, n.id = e.toNode) :
    (buildGraph p).vertices = p.nodes.map (·.id) := by
  have hnodes : (p.nodes.foldl (fun g n => g.addNode n.id) DiGraph.empty).vertices =
      p.nodes.map (·.id) := foldl_addNode_vertices p.nodes DiGraph.empty p.uniqueNodes
  unfold buildGraph
  rw [foldl_addEdge_vertices, hnodes]
  intro e he
  rw [hnodes]
  exact ⟨List.mem_map.mpr (hfrom e he), List.mem_map.mpr (hto e he)⟩

/-- Parallel edges count once. -/
theorem buildGraph_edges_length : (buildGraph p).edges.length =
    (p.edges.map fun e => (e.fromNode, e.toNode)).dedup.length := by
  have hnodup : (buildGraph p).edges.Nodup := by
    refine foldl_addEdge_nodup p.edges ?_
    rw [foldl_addNode_edges]
    exact List.nodup_nil
  apply List.Perm.length_eq
  rw [List.perm_ext_iff_of_nodup hnodup (List.nodup_dedup _)]
  rintro ⟨a, b⟩
  rw [List.mem_dedup, List.mem_map]
  exact edge_buildGraph.trans (exists_congr fun e => and_congr_right fun _ => Prod.mk.injEq .. ▸ Iff.rfl)

end Graph

/-! ## The verdict -/

section Verdict
variable {w : World} {p : PatchPanel}

theorem passes_iff : Passes w p ↔ p.WellFormed := by
  constructor
  · intro h
    obtain ⟨hbuckets, hnodes⟩ := validateContractReferences_eq_nil.mp h.contracts
    obtain ⟨hfrom, hto⟩ := validateEdges_eq_nil.mp h.edges
    obtain ⟨hbindings, hpipes⟩ := validatePipeBindings_eq_nil.mp h.pipeBindings
    obtain ⟨hsource, hsink, hstarts, hends⟩ := validateBoundaries_eq_nil.mp h.boundaries
    exact {
      bucketContracts := hbuckets
      nodeContracts := hnodes
      edgeFrom := hfrom
      edgeTo := hto
      exits := validateValidatorEdges_eq_nil.mp h.validatorEdges
      acceptExits := (acceptExits_eq_nil p.nodes).mp h.acceptExits
      bindings := hbindings
      pipes := hpipes
      source := hsource
      sink := hsink
      starts := hstarts
      ends := fun n hn => ⟨validateDeadEnds_eq_nil.mp h.deadEnds n hn, hends n hn⟩
      entered := (validateReachability_eq_nil hsource).mp h.reachability }
  · intro h
    exact {
      contracts := validateContractReferences_eq_nil.mpr ⟨h.bucketContracts, h.nodeContracts⟩
      edges := validateEdges_eq_nil.mpr ⟨h.edgeFrom, h.edgeTo⟩
      validatorEdges := validateValidatorEdges_eq_nil.mpr h.exits
      acceptExits := (acceptExits_eq_nil p.nodes).mpr h.acceptExits
      pipeBindings := validatePipeBindings_eq_nil.mpr ⟨h.bindings, h.pipes⟩
      boundaries := validateBoundaries_eq_nil.mpr
        ⟨h.source, h.sink, h.starts, fun n hn => (h.ends n hn).mpr⟩
      reachability := (validateReachability_eq_nil h.source).mpr h.entered
      deadEnds := validateDeadEnds_eq_nil.mpr fun n hn => (h.ends n hn).mp }

theorem passErrors_of_passes (h : Passes w p) : passErrors p [] = [] := by
  simp only [passErrors, h.contracts, h.edges, h.validatorEdges, h.pipeBindings, h.boundaries,
    h.reachability, h.deadEnds, List.append_nil]

theorem accepts_iff_wellFormed : (∃ report, validate w p = .ok report) ↔ p.WellFormed := by
  rw [← accepts_iff, ← passes_iff (w := w)]
  refine ⟨accepts_passes, fun h => accepts_iff.mpr ?_⟩
  rcases validate_cases (w := w) (p := p) with ⟨e, he, -⟩ | ⟨errors, hok, hcases⟩
  · rw [h.acceptExits] at he
    cases he
  · rw [h.acceptExits] at hok
    cases hok
    rcases hcases with ⟨-, hvalid⟩ | ⟨hsome, -⟩
    · exact hvalid
    · exact absurd (passErrors_of_passes h) hsome

theorem validate_report {report : GraphValidationReport} (h : validate w p = .ok report) :
    report.nodeCount = (buildGraph p).vertices.length ∧
      report.edgeCount = (buildGraph p).edges.length := by
  unfold validate at h
  cases haccepts : validateRoutingValidatorAcceptExits w p.nodes with
  | error e =>
    rw [haccepts] at h
    cases h
  | ok accepts =>
    simp only [haccepts, bind, Except.bind] at h
    split at h
    · cases h
    · cases h
      exact ⟨rfl, rfl⟩

end Verdict

/-- Validation returns exactly for the well-formed Patch Panels, with the numbers of their
nodes and different edges. For the others it raises a list of errors, or a `TypeError` if
an accept exit has no hash. -/
theorem validate_decides (w : World) (p : PatchPanel) :
    ((∃ report, validate w p = .ok report) ↔ p.WellFormed) ∧
    (∀ report, validate w p = .ok report → report.nodeCount = p.nodes.length ∧
      report.edgeCount = (p.edges.map fun e => (e.fromNode, e.toNode)).dedup.length) ∧
    ((∃ errors, errors ≠ [] ∧ validate w p = .error (.validation errors)) ↔
      HashableExits p.nodes ∧ ¬ p.WellFormed) ∧
    (validate w p = .error unhashable ↔ ¬ HashableExits p.nodes) := by
  refine ⟨accepts_iff_wellFormed, fun report hvalid => ?_, ?_⟩
  · have hp := accepts_iff_wellFormed.mp ⟨report, hvalid⟩
    obtain ⟨hnodes, hedges⟩ := validate_report hvalid
    rw [hnodes, hedges, buildGraph_vertices hp.edgeFrom hp.edgeTo, List.length_map]
    exact ⟨rfl, buildGraph_edges_length⟩
  · rw [← accepts_iff_wellFormed (w := w)]
    rcases acceptExits_cases (w := w) p.nodes with ⟨hall, errors, hok⟩ | ⟨hsome, herror⟩
    · rcases validate_cases (w := w) (p := p) with ⟨e, he, -⟩ | ⟨errors', -, hcases⟩
      · rw [hok] at he
        cases he
      · rcases hcases with ⟨-, report, hvalid⟩ | ⟨hnot, hinvalid⟩
        · simp [hvalid, hall]
        · simp [hinvalid, hall, hnot, unhashable]
    · rcases validate_cases (w := w) (p := p) with ⟨e, he, hraise⟩ | ⟨_, he, -⟩
      · rw [herror] at he
        cases he
        simp [hraise, hsome, unhashable]
      · rw [herror] at he
        cases he

end PatchPanelValidator

end GhostMesh
