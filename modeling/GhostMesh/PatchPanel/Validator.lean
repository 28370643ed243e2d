import GhostMesh.Domain.Models
import GhostMesh.Lib.DiGraph
import GhostMesh.Python.Text

/-!
# Patch Panel validation

`PatchPanelValidator.validate` pass by pass. Every pass returns the errors it
appends; only the accept-exit pass can raise by itself, on a config entry without
a hash.
-/

set_option autoImplicit false

namespace GhostMesh

structure GraphValidationReport where
  nodeCount : Nat
  edgeCount : Nat
  cycles : List (List String)

namespace PatchPanelValidator

def buildGraph (p : PatchPanel) : DiGraph String :=
  let withNodes := p.nodes.foldl (fun g n => g.addNode n.id) DiGraph.empty
  p.edges.foldl (fun g e => g.addEdge e.fromNode e.toNode) withNodes

def unknownContract (p : PatchPanel) (kind id : String) (contract : Option String) : List String :=
  match contract with
  | none => []
  | some c =>
    if c = "" ∨ c ∈ p.acceptanceContracts.map (·.id) then []
    else [s!"{kind} '{id}' references unknown acceptance contract '{c}'"]

def validateContractReferences (p : PatchPanel) : List String :=
  p.buckets.flatMap (fun b => unknownContract p "bucket" b.id b.acceptanceContract) ++
    p.nodes.flatMap (fun n => unknownContract p "node" n.id n.acceptanceContract)

def validateEdges (p : PatchPanel) : List String :=
  let nodeIds := p.nodes.map (·.id)
  p.edges.flatMap fun e =>
    (if e.fromNode ∈ nodeIds then [] else [s!"edge from '{e.fromNode}' references an unknown node"]) ++
      (if e.toNode ∈ nodeIds then [] else [s!"edge to '{e.toNode}' references an unknown node"])

def validateValidatorEdges (p : PatchPanel) : List String :=
  p.edges.flatMap fun e =>
    match p.nodes.find? (fun n => n.id = e.fromNode ∧ n.type = .validator) with
    | none => []
    | some n =>
      if e.on ∈ n.outputPipes then []
      else [s!"validator edge from '{e.fromNode}' uses exit '{e.on}' " ++
        "that is not declared in output_pipes"]

def isRoutingValidator (n : NodeDefinition) : Bool :=
  n.validatorKind = some "routing" || decide (1 < n.outputPipes.length)

/-- The errors of one routing validator's `accept_exits`, in order. -/
def acceptExitErrors (w : World) (n : NodeDefinition) : List Json → Except PyErr (List String)
  | [] => .ok []
  | exit :: rest =>
    if !exit.hashable then .error (.type "unhashable type")
    else match acceptExitErrors w n rest with
      | .error e => .error e
      | .ok errors =>
        if n.outputPipes.any (fun pipe => exit.isStr pipe) then .ok errors
        else .ok ((s!"routing validator '{n.id}' accept_exits entry '{exit.pyStr w}' " ++
          "is not declared in output_pipes") :: errors)

def routingValidatorErrors (w : World) (n : NodeDefinition) : Except PyErr (List String) :=
  if n.type ≠ .validator ∨ isRoutingValidator n = false then .ok []
  else match JsonObj.get? n.config "accept_exits" with
    | some (.list exits) => acceptExitErrors w n exits
    | _ => .ok [s!"routing validator '{n.id}' must declare config.accept_exits as a list"]

def validateRoutingValidatorAcceptExits (w : World) :
    List NodeDefinition → Except PyErr (List String)
  | [] => .ok []
  | n :: rest => do
    let errors ← routingValidatorErrors w n
    let more ← validateRoutingValidatorAcceptExits w rest
    return errors ++ more

/-- `declared_pipes`: the last declaration of a pipe wins. -/
def declaredPipes (p : PatchPanel) : Dict String (String × Direction) :=
  p.nodes.foldl (fun d n =>
    let inputs := n.inputPipes.foldl (fun d pipe => d.set pipe (n.id, Direction.input)) d
    n.outputPipes.foldl (fun d pipe => d.set pipe (n.id, Direction.output)) inputs) Dict.empty

def bindingErrors (p : PatchPanel) (pipe : String) (binding : PipeBinding) : List String :=
  match (declaredPipes p).get? pipe with
  | none => [s!"pipe binding '{pipe}' is not declared by any node"]
  | some (nodeId, direction) =>
    (match binding.node with
      | none => []
      | some node =>
        if node = "" then []
        else (if node ∈ p.nodes.map (·.id) then []
            else [s!"pipe binding '{pipe}' references unknown node '{node}'"]) ++
          (if node = nodeId then []
            else [s!"pipe binding '{pipe}' is assigned to node '{node}' but is declared " ++
              s!"by node '{nodeId}'"])) ++
    (match binding.direction with
      | none => []
      | some d =>
        if d = direction then []
        else [s!"pipe binding '{pipe}' declares direction '{d.value}' but the node " ++
          s!"declares it as '{direction.value}'"]) ++
    (if binding.bucket ∈ p.buckets.map (·.id) then []
      else [s!"pipe binding '{pipe}' references unknown bucket '{binding.bucket}'"])

def validatePipeBindings (p : PatchPanel) : List String :=
  p.pipeBindings.entries.flatMap (fun e => bindingErrors p e.1 e.2) ++
    (declaredPipes p).keys.flatMap (fun pipe =>
      if p.pipeBindings.contains pipe then []
      else [s!"declared pipe '{pipe}' is missing a pipe binding"])

def nodesOf (p : PatchPanel) (type : NodeType) : List NodeDefinition :=
  p.nodes.filter (·.type = type)

def validateBoundaries (p : PatchPanel) (graph : DiGraph String) : List String :=
  (if nodesOf p .source = [] then ["Patch Panel must declare at least one source node"] else []) ++
    (if nodesOf p .sink = [] then ["Patch Panel must declare at least one sink node"] else []) ++
    (nodesOf p .source).flatMap (fun n =>
      if 0 < graph.inDegree n.id then [s!"source node '{n.id}' must not have incoming edges"]
      else []) ++
    (nodesOf p .sink).flatMap (fun n =>
      if 0 < graph.outDegree n.id then [s!"sink node '{n.id}' must not have outgoing edges"]
      else [])

def validateReachability (p : PatchPanel) (graph : DiGraph String) : List String :=
  let sourceIds := (nodesOf p .source).map (·.id)
  if sourceIds = [] then []
  else
    let reachable := sourceIds ++ sourceIds.flatMap graph.descendants
    p.nodes.flatMap fun n =>
      if n.id ∈ reachable then [] else [s!"node '{n.id}' is not reachable from any source node"]

def validateDeadEnds (p : PatchPanel) (graph : DiGraph String) : List String :=
  p.nodes.flatMap fun n =>
    if n.id ∉ (nodesOf p .sink).map (·.id) ∧ graph.outDegree n.id = 0 then
      [s!"node '{n.id}' is a dead end and is not a sink"]
    else []

def validate (w : World) (p : PatchPanel) : Except PyErr GraphValidationReport := do
  let accepts ← validateRoutingValidatorAcceptExits w p.nodes
  let graph := buildGraph p
  let errors := validateContractReferences p ++ validateEdges p ++ validateValidatorEdges p ++
    accepts ++ validatePipeBindings p ++ validateBoundaries p graph ++
    validateReachability p graph ++ validateDeadEnds p graph
  if errors ≠ [] then .error (.validation errors)
  else .ok ⟨graph.vertices.length, graph.edges.length,
    w.simpleCycles graph.vertices graph.edges⟩

theorem lineBuckets_nodup :
    ([⟨"inbox", none, [], [], none, false⟩, ⟨"outbox", none, [], [], none, false⟩].map
      BucketDefinition.id).Nodup := by decide

/-- The smallest workflow: one source, one worker, one sink. -/
def linePanel (id version : String) : PatchPanel where
  id := id
  version := version
  description := none
  buckets := [⟨"inbox", none, [], [], none, false⟩, ⟨"outbox", none, [], [], none, false⟩]
  nodes := [⟨"intake", .source, none, none, [], ["intake_out"], none, []⟩,
    ⟨"work", .worker, none, none, ["work_in"], ["work_out"], none, []⟩,
    ⟨"done", .sink, none, none, ["done_in"], [], none, []⟩]
  edges := [⟨"intake", "work", "default", none⟩, ⟨"work", "done", "default", none⟩]
  pipeBindings := ⟨[("intake_out", ⟨"inbox", some "intake", some .output⟩),
    ("work_in", ⟨"inbox", some "work", some .input⟩),
    ("work_out", ⟨"outbox", some "work", some .output⟩),
    ("done_in", ⟨"outbox", some "done", some .input⟩)], by decide⟩
  acceptanceContracts := []
  metadata := []
  uniqueBuckets := lineBuckets_nodup
  uniqueNodes := by decide
  uniqueContracts := List.nodup_nil

/-- A line whose work a validator routes to one of two sinks. -/
def reviewPanel (id version : String) : PatchPanel where
  id := id
  version := version
  description := none
  buckets := [⟨"inbox", none, [], [], none, false⟩, ⟨"review", none, [], [], none, false⟩,
    ⟨"done", none, [], [], none, false⟩, ⟨"rejects", none, [], [], none, false⟩]
  nodes := [⟨"intake", .source, none, none, [], ["intake_out"], none, []⟩,
    ⟨"work", .worker, none, none, ["work_in"], ["work_out"], none, []⟩,
    ⟨"check", .validator, some "routing", none, ["check_in"], ["check_ok", "check_bad"], none,
      [("accept_exits", Json.ofStrings ["check_ok"])]⟩,
    ⟨"ship", .sink, none, none, ["ship_in"], [], none, []⟩,
    ⟨"bin", .sink, none, none, ["bin_in"], [], none, []⟩]
  edges := [⟨"intake", "work", "default", none⟩, ⟨"work", "check", "default", none⟩,
    ⟨"check", "ship", "check_ok", none⟩, ⟨"check", "bin", "check_bad", none⟩]
  pipeBindings := ⟨[("intake_out", ⟨"inbox", some "intake", some .output⟩),
    ("work_in", ⟨"inbox", some "work", some .input⟩),
    ("work_out", ⟨"review", some "work", some .output⟩),
    ("check_in", ⟨"review", some "check", some .input⟩),
    ("check_ok", ⟨"done", some "check", some .output⟩),
    ("check_bad", ⟨"rejects", some "check", some .output⟩),
    ("ship_in", ⟨"done", some "ship", some .input⟩),
    ("bin_in", ⟨"rejects", some "bin", some .input⟩)], by decide⟩
  acceptanceContracts := []
  metadata := []
  uniqueBuckets := by decide
  uniqueNodes := by decide
  uniqueContracts := List.nodup_nil

/-- Whether registration accepts the panel. -/
def accepts (w : World) (p : PatchPanel) : Bool :=
  match validate w p with
  | .ok _ => true
  | .error _ => false

theorem accepts_iff {w : World} {p : PatchPanel} :
    accepts w p = true ↔ ∃ report, validate w p = .ok report := by
  unfold accepts
  cases validate w p <;> simp

example : accepts .simple (linePanel "orders" "1") = true := by decide +kernel

example : accepts .simple (reviewPanel "orders" "1") = true := by decide +kernel

end PatchPanelValidator

end GhostMesh
