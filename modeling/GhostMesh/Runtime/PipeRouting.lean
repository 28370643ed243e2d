import GhostMesh.PatchPanel.Passes
import GhostMesh.Runtime.Service

/-!
# Pipe routing on validated panels

The validator computes the owner of a pipe from the last declaration, the runtime
from the binding or the first declaration. On a panel that the validator accepts the
two agree for every node exactly when no pipe is declared ambiguously.
-/

set_option autoImplicit false

namespace GhostMesh

namespace PatchPanelValidator

/-! ## What acceptance says about a pipe -/

/-- Every declaration of the panel, in the order in which the validator meets them. -/
def declarations (p : PatchPanel) : List (String × String × Direction) :=
  p.nodes.flatMap fun n =>
    n.inputPipes.map (fun pipe => (pipe, n.id, Direction.input)) ++
      n.outputPipes.map (fun pipe => (pipe, n.id, Direction.output))

theorem declaredPipes_eq (p : PatchPanel) :
    declaredPipes p = (declarations p).foldl (fun d e => d.set e.1 e.2) Dict.empty := by
  simp only [declaredPipes, declarations, List.foldl_flatMap, List.foldl_append, List.foldl_map]

theorem mem_declarations {p : PatchPanel} {pipe id : String} {d : Direction} :
    (pipe, id, d) ∈ declarations p ↔ ∃ n ∈ p.nodes, n.id = id ∧ pipe ∈ n.pipes d := by
  unfold declarations
  rw [List.mem_flatMap]
  constructor
  · rintro ⟨n, hn, hmem⟩
    refine ⟨n, hn, ?_⟩
    rcases List.mem_append.mp hmem with hmem | hmem
    all_goals
      obtain ⟨pipe', hpipe, heq⟩ := List.mem_map.mp hmem
      cases heq
      exact ⟨rfl, hpipe⟩
  · rintro ⟨n, hn, rfl, hpipe⟩
    refine ⟨n, hn, ?_⟩
    cases d with
    | input => exact List.mem_append_left _ (List.mem_map.mpr ⟨pipe, hpipe, rfl⟩)
    | output => exact List.mem_append_right _ (List.mem_map.mpr ⟨pipe, hpipe, rfl⟩)

/-- The entry of the validator's dictionary is one of the declarations. -/
theorem declaredPipes_get {p : PatchPanel} {pipe id : String} {d : Direction}
    (h : (declaredPipes p).get? pipe = some (id, d)) :
    ∃ n ∈ p.nodes, n.id = id ∧ pipe ∈ n.pipes d := by
  rw [declaredPipes_eq] at h
  rcases Dict.get?_foldl_set h with hmem | hempty
  · exact mem_declarations.mp hmem
  · cases hempty

theorem declaredPipes_isSome {p : PatchPanel} {n : NodeDefinition} {pipe : String}
    {d : Direction} (hn : n ∈ p.nodes) (hpipe : pipe ∈ n.pipes d) :
    ((declaredPipes p).get? pipe).isSome = true := by
  rw [declaredPipes_eq]
  apply Dict.isSome_foldl_set
  exact .inl ⟨(n.id, d), mem_declarations.mpr ⟨n, hn, rfl, hpipe⟩⟩

/-- What the binding passes leave of a binding: its node and direction, where given,
are those of the last declaration, and its bucket is declared. -/
structure Bound (p : PatchPanel) (pipe : String) (b : PipeBinding) (n : NodeDefinition)
    (d : Direction) : Prop where
  binding : p.pipeBindings.get? pipe = some b
  node : n ∈ p.nodes
  declares : pipe ∈ n.pipes d
  owner : ∀ id, truthyStr b.node = some id → id = n.id
  direction : ∀ d', b.direction = some d' → d' = d
  bucket : b.bucket ∈ p.buckets.map (·.id)

theorem bindingErrors_eq_nil {p : PatchPanel} {pipe : String} {binding : PipeBinding}
    (hget : p.pipeBindings.get? pipe = some binding) (h : bindingErrors p pipe binding = []) :
    ∃ n d, Bound p pipe binding n d := by
  unfold bindingErrors at h
  cases hdeclared : (declaredPipes p).get? pipe with
  | none =>
    rw [hdeclared] at h
    cases h
  | some entry =>
    obtain ⟨id, d⟩ := entry
    rw [hdeclared] at h
    simp only [List.append_eq_nil_iff] at h
    obtain ⟨⟨hnode, hdirection⟩, hbucket⟩ := h
    obtain ⟨n, hn, hid, hpipe⟩ := declaredPipes_get hdeclared
    refine ⟨n, d, hget, hn, hpipe, ?_, ?_, ?_⟩
    · intro node hsome
      rw [hid]
      cases hbound : binding.node with
      | none =>
        rw [hbound] at hsome
        cases hsome
      | some node' =>
        rw [hbound] at hsome hnode
        simp only [truthyStr] at hsome
        split at hsome
        · cases hsome
        · rename_i hne
          cases hsome
          simp only [if_neg hne, List.append_eq_nil_iff] at hnode
          by_contra hother
          rw [if_neg hother] at hnode
          cases hnode.2
    · intro d' hsome
      rw [hsome] at hdirection
      by_contra hother
      simp only [if_neg hother] at hdirection
      cases hdirection
    · by_contra hother
      rw [if_neg hother] at hbucket
      cases hbucket

/-- Every binding of an accepted panel is one of a declared pipe. -/
theorem accepts_binding {w : World} {p : PatchPanel} {pipe : String} {binding : PipeBinding}
    (h : accepts w p = true) (hget : p.pipeBindings.get? pipe = some binding) :
    ∃ owner d, Bound p pipe binding owner d := by
  have herrors := (accepts_passes h).pipeBindings
  unfold validatePipeBindings at herrors
  rw [List.append_eq_nil_iff, List.flatMap_eq_nil_iff] at herrors
  have hentry : (pipe, binding) ∈ p.pipeBindings.entries :=
    (Dict.get?_eq_some_iff _ _ _).mp hget
  exact bindingErrors_eq_nil hget (herrors.1 _ hentry)

/-- Every declared pipe of an accepted panel has such a binding. -/
theorem accepts_bound {w : World} {p : PatchPanel} {n : NodeDefinition} {pipe : String}
    {d : Direction} (h : accepts w p = true) (hn : n ∈ p.nodes) (hpipe : pipe ∈ n.pipes d) :
    ∃ binding owner d', Bound p pipe binding owner d' := by
  have herrors := (accepts_passes h).pipeBindings
  unfold validatePipeBindings at herrors
  rw [List.append_eq_nil_iff, List.flatMap_eq_nil_iff, List.flatMap_eq_nil_iff] at herrors
  have hkey : pipe ∈ (declaredPipes p).keys := by
    by_contra hkey
    have hsome := declaredPipes_isSome hn hpipe
    rw [(Dict.get?_eq_none_iff _ _).mpr hkey] at hsome
    cases hsome
  have hbound := herrors.2 pipe hkey
  cases hget : p.pipeBindings.get? pipe with
  | none =>
    simp only [Dict.contains, hget, Option.isSome_none, Bool.false_eq_true, if_false] at hbound
    cases hbound
  | some binding => exact ⟨binding, accepts_binding h hget⟩

end PatchPanelValidator

open PatchPanelValidator (accepts Bound)

/-! ## Routing -/

/-- Every node reaches a declared bucket through each of its pipes, under its own id. -/
def RoutesItsPipes (p : PatchPanel) : Prop :=
  ∀ n ∈ p.nodes, ∀ d pipe, pipe ∈ n.pipes d →
    ∃ bucket ∈ p.buckets.map (·.id), resolvePipeBucket p pipe d = .ok (bucket, n.id)

/-- For each direction a pipe has one owner; a pipe with both directions has a binding
without a direction, and one owner where the binding names a node. -/
def PipesUnambiguous (p : PatchPanel) : Prop :=
  ∀ n ∈ p.nodes, ∀ n' ∈ p.nodes, ∀ d d' pipe binding, pipe ∈ n.pipes d → pipe ∈ n'.pipes d' →
    p.pipeBindings.get? pipe = some binding →
    (d = d' → n.id = n'.id) ∧
      (d ≠ d' → binding.direction = none ∧ (truthyStr binding.node ≠ none → n.id = n'.id))

/-- A pipe that is bound resolves if its direction agrees and some node is found. -/
theorem resolvePipeBucket_of {p : PatchPanel} {pipe id : String} {d : Direction}
    {binding : PipeBinding} (hget : p.pipeBindings.get? pipe = some binding)
    (hdirection : ∀ d', binding.direction = some d' → d' = d)
    (hnode : match truthyStr binding.node with
      | some node => node = id
      | none => findNodeForPipe p pipe d = .ok id) :
    resolvePipeBucket p pipe d = .ok (binding.bucket, id) := by
  have hensured : ensureDirection pipe binding.direction d = .ok () := by
    cases hdir : binding.direction with
    | none => rfl
    | some d' => exact if_pos (hdirection d' hdir)
  simp only [resolvePipeBucket, hget, hensured, bind, Except.bind]
  cases htruthy : truthyStr binding.node with
  | some node =>
    rw [htruthy] at hnode
    rw [hnode]
  | none =>
    rw [htruthy] at hnode
    simp only [hnode]

/-- The converse: what a resolved pipe says about its binding. -/
theorem resolvePipeBucket_cases {p : PatchPanel} {pipe bucket id : String} {d : Direction}
    {binding : PipeBinding} (hget : p.pipeBindings.get? pipe = some binding)
    (h : resolvePipeBucket p pipe d = .ok (bucket, id)) :
    bucket = binding.bucket ∧ (∀ d', binding.direction = some d' → d' = d) ∧
      ∀ node, truthyStr binding.node = some node → node = id := by
  simp only [resolvePipeBucket, hget, bind, Except.bind] at h
  cases hensured : ensureDirection pipe binding.direction d with
  | error e =>
    rw [hensured] at h
    cases h
  | ok u =>
    rw [hensured] at h
    have hdirection : ∀ d', binding.direction = some d' → d' = d := by
      intro d' hd'
      rw [hd'] at hensured
      by_contra hother
      simp only [ensureDirection, if_neg hother] at hensured
      cases hensured
    cases htruthy : truthyStr binding.node with
    | some node =>
      rw [htruthy] at h
      cases h
      refine ⟨rfl, hdirection, ?_⟩
      intro node' hnode'
      cases hnode'
      rfl
    | none =>
      rw [htruthy] at h
      cases hfind : findNodeForPipe p pipe d with
      | error e =>
        simp only [hfind] at h
        cases h
      | ok node =>
        simp only [hfind] at h
        cases h
        exact ⟨rfl, hdirection, by simp⟩

/-- The first node that declares the pipe is the only one. -/
theorem findNodeForPipe_of {p : PatchPanel} {n : NodeDefinition} {pipe : String} {d : Direction}
    (hn : n ∈ p.nodes) (hpipe : pipe ∈ n.pipes d)
    (hsole : ∀ n' ∈ p.nodes, pipe ∈ n'.pipes d → n'.id = n.id) :
    findNodeForPipe p pipe d = .ok n.id := by
  unfold findNodeForPipe
  cases hfind : p.nodes.find? (fun n => pipe ∈ n.pipes d) with
  | none =>
    have hno := List.find?_eq_none.mp hfind n hn
    simp [hpipe] at hno
  | some n' =>
    have hmem : n' ∈ p.nodes := List.mem_of_find?_eq_some hfind
    have hpipe' : pipe ∈ n'.pipes d := by simpa using List.find?_some hfind
    simp only [hsole n' hmem hpipe']

theorem RoutesItsPipes.unambiguous {p : PatchPanel} (h : RoutesItsPipes p) :
    PipesUnambiguous p := by
  intro n hn n' hn' d d' pipe binding hpipe hpipe' hget
  obtain ⟨bucket, -, hres⟩ := h n hn d pipe hpipe
  obtain ⟨bucket', -, hres'⟩ := h n' hn' d' pipe hpipe'
  obtain ⟨-, hdir, hnode⟩ := resolvePipeBucket_cases hget hres
  obtain ⟨-, hdir', hnode'⟩ := resolvePipeBucket_cases hget hres'
  constructor
  · intro hd
    rw [hd, hres'] at hres
    exact (congrArg Prod.snd (Except.ok.inj hres)).symm
  · intro hd
    constructor
    · cases hdirection : binding.direction with
      | none => rfl
      | some x =>
        have hx : x = d := hdir x hdirection
        have hx' : x = d' := hdir' x hdirection
        exact absurd (hx.symm.trans hx') hd
    · intro htruthy
      obtain ⟨node, hsome⟩ := Option.ne_none_iff_exists'.mp htruthy
      exact (hnode node hsome).symm.trans (hnode' node hsome)

theorem PipesUnambiguous.routes {w : World} {p : PatchPanel} (haccepts : accepts w p = true)
    (h : PipesUnambiguous p) : RoutesItsPipes p := by
  intro n hn d pipe hpipe
  obtain ⟨binding, owner, d₀, hbound⟩ := PatchPanelValidator.accepts_bound haccepts hn hpipe
  obtain ⟨hsame, hboth⟩ := h n hn owner hbound.node d d₀ pipe binding hpipe hbound.declares
    hbound.binding
  refine ⟨binding.bucket, hbound.bucket, resolvePipeBucket_of hbound.binding ?_ ?_⟩
  · intro d' hd'
    by_cases hd : d = d₀
    · rw [hd]
      exact hbound.direction d' hd'
    · rw [(hboth hd).1] at hd'
      cases hd'
  · cases htruthy : truthyStr binding.node with
    | some node =>
      have hnode : node = owner.id := hbound.owner node htruthy
      by_cases hd : d = d₀
      · exact hnode.trans (hsame hd).symm
      · have hid := (hboth hd).2 (by rw [htruthy]; simp)
        exact hnode.trans hid.symm
    | none =>
      apply findNodeForPipe_of hn hpipe
      intro n' hn' hpipe'
      exact ((h n' hn' n hn d d pipe binding hpipe' hpipe hbound.binding).1 rfl)

/-- On accepted panels routing is sound exactly where declarations are unambiguous. -/
theorem routesItsPipes_iff (w : World) (p : PatchPanel) (h : accepts w p = true) :
    RoutesItsPipes p ↔ PipesUnambiguous p :=
  ⟨RoutesItsPipes.unambiguous, PipesUnambiguous.routes h⟩

theorem routesItsPipes_iff_linePanel :
    RoutesItsPipes (PatchPanelValidator.linePanel "orders" "1") ↔
      PipesUnambiguous (PatchPanelValidator.linePanel "orders" "1") :=
  routesItsPipes_iff .simple _ (by decide +kernel)

/-- Two workers that read from the same pipe. -/
def sharedPipePanel : PatchPanel where
  id := "shared"
  version := "1"
  description := none
  buckets := [⟨"inbox", none, [], [], none, false⟩, ⟨"outbox", none, [], [], none, false⟩]
  nodes := [⟨"intake", .source, none, none, [], ["intake_out"], none, []⟩,
    ⟨"first", .worker, none, none, ["work_in"], ["first_out"], none, []⟩,
    ⟨"second", .worker, none, none, ["work_in"], ["second_out"], none, []⟩,
    ⟨"done", .sink, none, none, ["done_in"], [], none, []⟩]
  edges := [⟨"intake", "first", "default", none⟩, ⟨"intake", "second", "default", none⟩,
    ⟨"first", "done", "default", none⟩, ⟨"second", "done", "default", none⟩]
  pipeBindings := ⟨[("intake_out", ⟨"inbox", some "intake", some .output⟩),
    ("work_in", ⟨"inbox", some "second", some .input⟩),
    ("first_out", ⟨"outbox", some "first", some .output⟩),
    ("second_out", ⟨"outbox", some "second", some .output⟩),
    ("done_in", ⟨"outbox", some "done", some .input⟩)], by decide⟩
  acceptanceContracts := []
  metadata := []
  uniqueBuckets := PatchPanelValidator.lineBuckets_nodup
  uniqueNodes := by decide
  uniqueContracts := List.nodup_nil

theorem sharedPipePanel_misroutes :
    ¬ ∀ (w : World) (p : PatchPanel), accepts w p = true → RoutesItsPipes p := by
  intro h
  have haccepts : accepts .simple sharedPipePanel = true := by decide +kernel
  have hfirst : ⟨"first", .worker, none, none, ["work_in"], ["first_out"], none, []⟩ ∈
      sharedPipePanel.nodes := by
    simp [sharedPipePanel]
  obtain ⟨bucket, -, hres⟩ := h .simple sharedPipePanel haccepts _ hfirst .input "work_in"
    List.mem_cons_self
  have hsecond : resolvePipeBucket sharedPipePanel "work_in" .input = .ok ("inbox", "second") := rfl
  rw [hsecond] at hres
  have hnames : "second" = "first" := congrArg Prod.snd (Except.ok.inj hres)
  exact absurd hnames (by decide)

end GhostMesh
