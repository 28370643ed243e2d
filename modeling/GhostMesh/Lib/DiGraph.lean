import Mathlib.Data.List.Dedup
import Mathlib.Logic.Relation

/-!
# Finite directed graphs

Vertices in insertion order, parallel edges collapsed. `descendants` is the set of
vertices reached by at least one edge, the start vertex itself left out. What the
closure and the degrees compute is stated with `Edge` and its paths.
-/

set_option autoImplicit false

universe u

structure DiGraph (V : Type u) where
  vertices : List V
  edges : List (V × V)

namespace DiGraph

variable {V : Type u} [DecidableEq V]

def empty : DiGraph V := ⟨[], []⟩

def addNode (g : DiGraph V) (v : V) : DiGraph V :=
  if v ∈ g.vertices then g else { g with vertices := g.vertices ++ [v] }

def addEdge (g : DiGraph V) (a b : V) : DiGraph V :=
  let g' := (g.addNode a).addNode b
  if (a, b) ∈ g'.edges then g' else { g' with edges := g'.edges ++ [(a, b)] }

def inDegree (g : DiGraph V) (v : V) : Nat := (g.edges.filter (fun e => e.2 = v)).length

def outDegree (g : DiGraph V) (v : V) : Nat := (g.edges.filter (fun e => e.1 = v)).length

/-- One round: every target of an edge that leaves `xs`. -/
def expand (g : DiGraph V) (xs : List V) : List V :=
  xs ++ ((g.edges.filter (fun e => e.1 ∈ xs ∧ e.2 ∉ xs)).map Prod.snd).dedup

/-- Each productive round adds the target of an edge, so as many rounds as there
are edges reach everything. -/
def closure (g : DiGraph V) : Nat → List V → List V
  | 0, xs => xs
  | rounds + 1, xs => closure g rounds (g.expand xs)

def descendants (g : DiGraph V) (v : V) : List V :=
  (g.closure g.edges.length [v]).filter (· ≠ v)

def Edge (g : DiGraph V) (a b : V) : Prop := (a, b) ∈ g.edges

section Lemmas
variable {g : DiGraph V} {v a b : V} {xs : List V}

@[simp] theorem addNode_edges (g : DiGraph V) (v : V) : (g.addNode v).edges = g.edges := by
  unfold addNode
  split <;> rfl

theorem edge_addEdge {c d : V} :
    (g.addEdge a b).Edge c d ↔ g.Edge c d ∨ (c = a ∧ d = b) := by
  unfold Edge addEdge
  simp only [addNode_edges]
  split
  · rename_i hmem
    constructor
    · exact fun h => .inl (by simpa using h)
    · rintro (h | ⟨rfl, rfl⟩)
      · simpa using h
      · simpa using hmem
  · rw [List.mem_append, List.mem_singleton, Prod.mk.injEq]

theorem outDegree_eq_zero : g.outDegree v = 0 ↔ ∀ b, ¬ g.Edge v b := by
  unfold outDegree Edge
  rw [List.length_eq_zero_iff, List.filter_eq_nil_iff]
  constructor
  · intro h b hb
    exact h (v, b) hb (by simp)
  · rintro h ⟨a, b⟩ hab heq
    have ha : a = v := by simpa using heq
    exact h b (ha ▸ hab)

/-- A round adds nothing but targets of edges that leave the list. -/
theorem mem_expand (h : v ∈ g.expand xs) : v ∈ xs ∨ ∃ x ∈ xs, g.Edge x v := by
  rcases List.mem_append.mp h with h | h
  · exact .inl h
  · obtain ⟨⟨a, b⟩, hab, rfl⟩ := List.mem_map.mp (List.mem_dedup.mp h)
    obtain ⟨hedge, hleaves⟩ := List.mem_filter.mp hab
    simp only [decide_eq_true_eq] at hleaves
    exact .inr ⟨a, hleaves.1, hedge⟩

theorem mem_closure {rounds : Nat} (h : v ∈ g.closure rounds xs) :
    ∃ x ∈ xs, Relation.ReflTransGen g.Edge x v := by
  induction rounds generalizing xs with
  | zero => exact ⟨v, h, .refl⟩
  | succ rounds ih =>
    obtain ⟨y, hy, hpath⟩ := ih h
    rcases mem_expand hy with hy | ⟨x, hx, hedge⟩
    · exact ⟨y, hy, hpath⟩
    · exact ⟨x, hx, .head hedge hpath⟩

theorem mem_descendants (h : b ∈ g.descendants a) : Relation.ReflTransGen g.Edge a b := by
  obtain ⟨x, hx, hpath⟩ := mem_closure (List.mem_of_mem_filter h)
  rwa [List.mem_singleton.mp hx] at hpath

/-! The rounds are enough. -/

/-- No edge leads out of the list. -/
def Closed (g : DiGraph V) (xs : List V) : Prop := ∀ a b, g.Edge a b → a ∈ xs → b ∈ xs

/-- The edges whose targets are still to come. -/
def pending (g : DiGraph V) (xs : List V) : List (V × V) := g.edges.filter (·.2 ∉ xs)

theorem mem_expand_of_mem (h : v ∈ xs) : v ∈ g.expand xs := List.mem_append_left _ h

theorem mem_expand_of_edge (hab : g.Edge a b) (ha : a ∈ xs) : b ∈ g.expand xs := by
  by_cases hb : b ∈ xs
  · exact mem_expand_of_mem hb
  · refine List.mem_append_right _ (List.mem_dedup.mpr (List.mem_map.mpr ⟨(a, b), ?_, rfl⟩))
    exact List.mem_filter.mpr ⟨hab, by simp [ha, hb]⟩

theorem expand_of_closed (h : g.Closed xs) : g.expand xs = xs := by
  have hnone : g.edges.filter (fun e => e.1 ∈ xs ∧ e.2 ∉ xs) = [] := by
    rw [List.filter_eq_nil_iff]
    rintro ⟨a, b⟩ hab hleaves
    simp only [decide_eq_true_eq] at hleaves
    exact hleaves.2 (h a b hab hleaves.1)
  rw [expand, hnone, List.map_nil, List.dedup_nil, List.append_nil]

theorem closure_of_closed (h : g.Closed xs) (rounds : Nat) : g.closure rounds xs = xs := by
  induction rounds with
  | zero => rfl
  | succ rounds ih => rw [closure, expand_of_closed h, ih]

/-- A round that adds something leaves fewer edges pending. -/
theorem pending_expand_lt (hab : g.Edge a b) (ha : a ∈ xs) (hb : b ∉ xs) :
    (g.pending (g.expand xs)).length < (g.pending xs).length := by
  have hsame : g.pending (g.expand xs) = (g.pending xs).filter (·.2 ∉ g.expand xs) := by
    rw [pending, pending, List.filter_filter]
    apply List.filter_congr
    intro e _
    have hlater : e.2 ∉ g.expand xs → e.2 ∉ xs := fun h hmem => h (mem_expand_of_mem hmem)
    simpa using hlater
  rw [hsame]
  refine List.length_filter_lt_length_iff_exists.mpr ⟨(a, b), ?_, ?_⟩
  · exact List.mem_filter.mpr ⟨hab, by simpa using hb⟩
  · simpa using mem_expand_of_edge hab ha

theorem closed_closure {rounds : Nat} (h : (g.pending xs).length ≤ rounds) :
    g.Closed (g.closure rounds xs) := by
  induction rounds generalizing xs with
  | zero =>
    intro a b hab _
    by_contra hb
    have hout : b ∉ xs := hb
    have hmem : (a, b) ∈ g.pending xs := List.mem_filter.mpr ⟨hab, by simpa using hout⟩
    rw [List.eq_nil_of_length_eq_zero (Nat.le_zero.mp h)] at hmem
    cases hmem
  | succ rounds ih =>
    by_cases hclosed : g.Closed xs
    · rwa [closure_of_closed hclosed]
    · simp only [Closed, not_forall] at hclosed
      obtain ⟨a, b, hab, ha, hb⟩ := hclosed
      exact ih (Nat.le_of_lt_succ (Nat.lt_of_lt_of_le (pending_expand_lt hab ha hb) h))

theorem mem_closure_of_mem {rounds : Nat} (h : v ∈ xs) : v ∈ g.closure rounds xs := by
  induction rounds generalizing xs with
  | zero => exact h
  | succ rounds ih => exact ih (mem_expand_of_mem h)

/-- With a round for every pending edge the closure has all that can be reached. -/
theorem mem_closure_iff {rounds : Nat} (h : (g.pending xs).length ≤ rounds) :
    v ∈ g.closure rounds xs ↔ ∃ x ∈ xs, Relation.ReflTransGen g.Edge x v := by
  refine ⟨mem_closure, ?_⟩
  rintro ⟨x, hx, hpath⟩
  induction hpath with
  | refl => exact mem_closure_of_mem hx
  | tail _ hedge ih => exact closed_closure h _ _ hedge ih

theorem mem_descendants_iff :
    b ∈ g.descendants a ↔ b ≠ a ∧ Relation.ReflTransGen g.Edge a b := by
  have hrounds : (g.pending [a]).length ≤ g.edges.length := List.length_filter_le _ _
  rw [descendants, List.mem_filter, mem_closure_iff hrounds, decide_eq_true_eq, and_comm]
  simp

/-! Vertices. -/

theorem addNode_of_mem (h : v ∈ g.vertices) : g.addNode v = g := if_pos h

theorem addNode_vertices_of_new (h : v ∉ g.vertices) : (g.addNode v).vertices = g.vertices ++ [v] := by
  rw [addNode, if_neg h]

theorem addEdge_vertices (ha : a ∈ g.vertices) (hb : b ∈ g.vertices) :
    (g.addEdge a b).vertices = g.vertices := by
  unfold addEdge
  rw [addNode_of_mem ha, addNode_of_mem hb]
  simp only
  split <;> rfl

theorem addEdge_nodup (h : g.edges.Nodup) : (g.addEdge a b).edges.Nodup := by
  unfold addEdge
  simp only [addNode_edges]
  split
  · simpa using h
  · rename_i hnew
    have hnew' : (a, b) ∉ g.edges := by simpa using hnew
    refine List.nodup_append.mpr ⟨by simpa using h, List.nodup_singleton _, ?_⟩
    rintro e he e' he' rfl
    rw [List.mem_singleton.mp he'] at he
    exact hnew' (by simpa using he)

theorem inDegree_eq_zero : g.inDegree v = 0 ↔ ∀ a, ¬ g.Edge a v := by
  unfold inDegree Edge
  rw [List.length_eq_zero_iff, List.filter_eq_nil_iff]
  constructor
  · intro h a ha
    exact h (a, v) ha (by simp)
  · rintro h ⟨a, b⟩ hab heq
    have hb : b = v := by simpa using heq
    exact h a (hb ▸ hab)

end Lemmas

end DiGraph
