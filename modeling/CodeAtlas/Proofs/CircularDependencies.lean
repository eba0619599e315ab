import CodeAtlas.Dependency.Graph
import CodeAtlas.Proofs.Cycles

/-!
# Circular dependencies

A file depends on another when it has an edge to it that is not external.  The adjacency of a
dependency graph is this relation, so that the circular dependencies are its elementary cycles.

Main results:

- Theorem {lit}`Graph.arc_adjacency_iff`: the arcs of the adjacency are the dependencies.
- Theorem {lit}`Graph.cycles_eq`: a limit cuts the list of circular dependencies off.
- Theorem {lit}`Graph.rotations_perm`: the order of nodes and edges does not matter.
- Theorem {lit}`Graph.circular_dependencies_exact`: without a limit, the circular dependencies are
  the elementary cycles, each in one rotation.
-/

namespace CodeAtlas
namespace Dependency

open CodeAtlas.Digraph

/-! ## Distinct lists -/

/-- Without repeats, a list holds each of its elements once. -/
theorem nodup_eraseDups {α : Type} [BEq α] [LawfulBEq α] (xs : List α) : xs.eraseDups.Nodup := by
  induction hlen : xs.length using Nat.strong_induction_on generalizing xs with
  | _ n ih =>
      cases xs with
      | nil => simp
      | cons x xs =>
          rw [List.eraseDups_cons, List.nodup_cons]
          refine ⟨?_, ih _ ?_ _ rfl⟩
          · intro hmem
            rw [List.mem_eraseDups] at hmem
            simpa using (List.mem_filter.1 hmem).2
          · have hle := List.length_filter_le (fun y => !y == x) xs
            rw [← hlen, List.length_cons]
            omega

namespace Graph

/-! ## The relation of a graph -/

/-- A file depends on another by an edge that is not external. -/
def DependsOn (graph : Graph) (file target : String) : Prop :=
  ∃ edge ∈ graph.edges, edge.source = file ∧ edge.target = target ∧ edge.external = false

/-- The targets of a file are the files it depends on. -/
theorem mem_targets_iff (graph : Graph) (file target : String) :
    target ∈ graph.targets file ↔ graph.DependsOn file target := by
  unfold targets DependsOn
  rw [List.mem_eraseDups, List.mem_map]
  constructor
  · rintro ⟨edge, hedge, rfl⟩
    obtain ⟨hmem, htest⟩ := List.mem_filter.1 hedge
    simp only [Bool.and_eq_true, beq_iff_eq, Bool.not_eq_true'] at htest
    exact ⟨edge, hmem, htest.1, rfl, htest.2⟩
  · rintro ⟨edge, hmem, hsource, htarget, hinternal⟩
    exact ⟨edge, List.mem_filter.2 ⟨hmem, by simp [hsource, hinternal]⟩, htarget⟩

/-- A file that depends on another is a node. -/
theorem DependsOn.source_mem {graph : Graph} {file target : String}
    (h : graph.DependsOn file target) : file ∈ graph.nodes := by
  obtain ⟨edge, hmem, rfl, -, -⟩ := h
  exact graph.source_mem edge hmem

/-- A table of nodes finds the value of each node. -/
theorem lookup_map_node (nodes : List String) (value : String → List String) (file : String) :
    (nodes.map fun node => (node, value node)).lookup file =
      if file ∈ nodes then some (value file) else none := by
  induction nodes with
  | nil => simp
  | cons node nodes ih =>
      rw [List.map_cons, List.lookup_cons, ih]
      by_cases h : file = node
      · simp [h]
      · have hne : (file == node) = false := by simpa using h
        simp [hne, h]

/-- The adjacency lists the targets of every file. -/
theorem successors_adjacency (graph : Graph) (file : String) :
    graph.adjacency.successors file = graph.targets file := by
  rw [Adjacency.successors, adjacency, lookup_map_node]
  by_cases h : file ∈ graph.nodes
  · simp [List.mem_eraseDups, h]
  · have hnone : graph.targets file = [] := by
      rw [List.eq_nil_iff_forall_not_mem]
      intro target htarget
      exact h ((mem_targets_iff graph file target).1 htarget).source_mem
    simp [List.mem_eraseDups, h, hnone]

/-- The arcs of the adjacency are the dependencies. -/
theorem arc_adjacency_iff (graph : Graph) (file target : String) :
    graph.adjacency.Arc file target ↔ graph.DependsOn file target := by
  rw [Adjacency.Arc, successors_adjacency, mem_targets_iff]

/-- The arcs of the adjacency start at nodes. -/
theorem arc_source_mem (graph : Graph) (file target : String)
    (h : graph.adjacency.Arc file target) : file ∈ graph.nodes :=
  ((graph.arc_adjacency_iff file target).1 h).source_mem

theorem nodup_successors_adjacency (graph : Graph) (file : String) :
    (graph.adjacency.successors file).Nodup := by
  rw [successors_adjacency]
  exact nodup_eraseDups _

/-- What `build` accepts, it keeps. -/
theorem build_eq_ok {nodes : List String} {edges : List Edge} {maxCycles : Int} {graph : Graph}
    (h : build nodes edges maxCycles = .ok graph) :
    graph.nodes = nodes ∧ graph.edges = edges ∧ graph.maxCycles = maxCycles := by
  unfold build at h
  split at h
  · cases h
    exact ⟨rfl, rfl, rfl⟩
  · cases h

/-! ## Cycles -/

/-- The arcs of the adjacency are the dependencies, as relations. -/
theorem arc_adjacency (graph : Graph) : graph.adjacency.Arc = graph.DependsOn := by
  funext file target
  exact propext (graph.arc_adjacency_iff file target)

/-- A file that is no node depends on nothing, so that it is in no component with a node. -/
theorem lists_components (graph : Graph) : graph.adjacency.ListsComponents graph.nodes :=
  .of_arcs graph.arc_source_mem

/-- The circular dependencies without a limit. -/
def allCycles (graph : Graph) : List (List String) := allWays graph.nodes graph.adjacency

/-- The search for cycles does not fail: it lists all circular dependencies, or as many as the limit
allows. -/
theorem cycles_search (graph : Graph) {limit : Nat} (h : graph.maxCycles = limit) :
    Digraph.cycles graph.nodes graph.adjacency graph.maxCycles =
      .ok (if limit = 0 then ⟨graph.allCycles, false⟩
        else ⟨graph.allCycles.take limit, limit ≤ graph.allCycles.length⟩) := by
  rw [h]
  rcases Nat.eq_zero_or_pos limit with rfl | hpos
  · rw [if_pos rfl]
    exact cycles_unlimited graph.lists_components
  · rw [if_neg (Nat.ne_of_gt hpos)]
    exact cycles_limited graph.lists_components hpos

/-- A limit cuts the list of circular dependencies off. -/
theorem cycles_eq (graph : Graph) {limit : Nat} (h : graph.maxCycles = limit) :
    graph.cycles = if limit = 0 then graph.allCycles else graph.allCycles.take limit := by
  rw [cycles, cycleReport, cycles_search graph h]
  by_cases hlimit : limit = 0
  · simp [hlimit]
  · simp [hlimit]

/-- Graphs with the same edges in any order, over distinct nodes in any order, have the same
circular dependencies up to rotation and order. -/
theorem rotations_perm {graph other : Graph} (hnodes : graph.nodes.Nodup)
    (hnodes' : other.nodes.Nodup) (hedges : graph.edges.Perm other.edges) :
    (graph.allCycles.map Cycle.ofList).Perm (other.allCycles.map Cycle.ofList) := by
  have hsame : graph.DependsOn = other.DependsOn := by
    funext file target
    simp only [DependsOn, hedges.mem_iff]
  refine allWays_perm hnodes hnodes' graph.nodup_successors_adjacency
    other.nodup_successors_adjacency graph.arc_source_mem other.arc_source_mem ?_
  rw [arc_adjacency, arc_adjacency, hsame]

/-- Without a limit, the circular dependencies of a graph with distinct nodes are the elementary
cycles of its dependencies.  Each begins at its earliest node, and each elementary cycle is listed
in exactly one rotation, once. -/
theorem circular_dependencies_exact {nodes : List String} {edges : List Edge} {graph : Graph}
    (hbuild : build nodes edges 0 = .ok graph) (hnodup : nodes.Nodup) :
    Digraph.cycles graph.nodes graph.adjacency graph.maxCycles = .ok ⟨graph.cycles, false⟩ ∧
    (∀ cycle ∈ graph.cycles, ElementaryCycle graph.DependsOn cycle ∧
      ∃ start, cycle.head? = some start ∧
        ∀ file ∈ cycle, file ∈ nodes ∧ nodes.idxOf start ≤ nodes.idxOf file) ∧
    (∀ cycle, ElementaryCycle graph.DependsOn cycle →
      graph.cycles.countP (fun found => decide (found ~r cycle)) = 1) := by
  obtain ⟨rfl, rfl, hlimit⟩ := build_eq_ok hbuild
  have hcycles : graph.cycles = graph.allCycles := graph.cycles_eq hlimit
  rw [hcycles, ← arc_adjacency]
  refine ⟨graph.cycles_search hlimit, ?_, ?_⟩
  · intro cycle hcycle
    exact (mem_allWays hnodup cycle).1 hcycle
  · intro cycle hcycle
    exact countP_allWays hnodup graph.nodup_successors_adjacency graph.arc_source_mem hcycle

/-- Two files import each other, one of them twice; besides there are a file that imports itself, a
missing file and an external module. -/
def tangle : List Edge :=
  [⟨"a", "b", .importing, "./b", false⟩, ⟨"a", "b", .reExport, "./b", false⟩,
    ⟨"b", "a", .importing, "./a", false⟩, ⟨"b", "b", .importing, "./b", false⟩,
    ⟨"b", "gone", .importing, "./gone", false⟩, ⟨"a", "lib", .importing, "lib", true⟩]

/-- The cycle of the two files of {name}`tangle` is listed once, whichever of them comes first. -/
theorem circular_dependencies_exact_tangle :
    ∃ graph, build ["a", "b"] tangle 0 = .ok graph ∧ ["a", "b"].Nodup ∧
      ElementaryCycle graph.DependsOn ["b", "a"] ∧
      graph.cycles.countP (fun found => decide (found ~r ["b", "a"])) = 1 := by
  obtain ⟨graph, hbuild⟩ : ∃ graph, build ["a", "b"] tangle 0 = .ok graph :=
    ⟨_, dif_pos (by decide)⟩
  obtain ⟨-, hedges, -⟩ := build_eq_ok hbuild
  have hab : graph.DependsOn "a" "b" :=
    ⟨⟨"a", "b", .importing, "./b", false⟩, by rw [hedges]; decide, rfl, rfl, rfl⟩
  have hba : graph.DependsOn "b" "a" :=
    ⟨⟨"b", "a", .importing, "./a", false⟩, by rw [hedges]; decide, rfl, rfl, rfl⟩
  have hcycle : ElementaryCycle graph.DependsOn ["b", "a"] := by
    refine ⟨by decide, by decide, ?_⟩
    rw [Cycle.chain_coe_cons]
    exact .cons_cons hba (.cons_cons hab (.singleton _))
  have hnodup : ["a", "b"].Nodup := by decide
  exact ⟨graph, hbuild, hnodup, hcycle,
    (circular_dependencies_exact hbuild hnodup).2.2 _ hcycle⟩

end Graph
end Dependency
end CodeAtlas
