import Std.Data.HashMap

/-!
# Directed graphs by adjacency

A graph lists the successors of its vertices.  A vertex without an entry has none; successors may
repeat and need no entry of their own.
-/

namespace CodeAtlas
namespace Digraph

/-- The successors of the vertices of a graph.  Of two entries for a vertex the first counts. -/
structure Adjacency (α : Type) where
  entries : List (α × List α)

variable {α : Type} [DecidableEq α]

namespace Adjacency

/-- The successors of a vertex, in order. -/
def successors (graph : Adjacency α) (v : α) : List α :=
  (graph.entries.lookup v).getD []

/-- The entries of a graph, prepared for many look-ups. -/
def table [Hashable α] (graph : Adjacency α) : Std.HashMap α (List α) :=
  graph.entries.foldr (fun entry table => table.insert entry.1 entry.2) ∅

/-- The table finds the successors of every vertex. -/
theorem table_getD [Hashable α] (graph : Adjacency α) (v : α) :
    graph.table.getD v [] = graph.successors v := by
  unfold table successors
  induction graph.entries with
  | nil => simp
  | cons entry entries ih =>
      obtain ⟨w, next⟩ := entry
      rw [List.foldr_cons, Std.HashMap.getD_insert, List.lookup_cons]
      by_cases h : v = w
      · simp [h]
      · have h' : ¬ w = v := fun e => h e.symm
        have hv : (v == w) = false := by simpa using h
        simpa [h', hv] using ih

/-- The number of arcs that the entries list. -/
def arcCount (graph : Adjacency α) : Nat :=
  graph.entries.foldr (fun entry count => entry.2.length + count) 0

/-- The largest number of successors that an entry lists. -/
def maxDegree (graph : Adjacency α) : Nat :=
  (graph.entries.map (·.2.length)).foldr max 0

end Adjacency

/-- A vertex of a depth-first search with the successors that are still to be looked at. -/
structure Frame (α : Type) where
  vertex : α
  rest : List α
  deriving DecidableEq

end Digraph
end CodeAtlas
