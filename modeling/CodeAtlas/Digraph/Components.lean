import CodeAtlas.Digraph.Basic

/-!
# Strongly connected components

Components are found by one depth-first search.  Each vertex gets the number of its discovery and
the least number that its subtree is known to reach among the vertices still open; a vertex that
reaches no earlier one closes a component, which is all that has been opened since.

The search is a machine: a configuration holds the frames of the search and the open vertices,
and one step looks at one successor or closes one frame.

Main definitions:

- {lit}`Search.step`: one step of the search.
- {lit}`Search.run`: steps until no frame is left.
- {lit}`components`: the components of what a list of vertices reaches, each before the ones that
  reach it.
-/

namespace CodeAtlas
namespace Digraph

variable {α : Type} [DecidableEq α]

/-! ## Configurations -/

/-- A configuration of the search. -/
structure Search (α : Type) where
  /-- The discovery numbers given so far. -/
  index : α → Option Nat
  /-- The least discovery number that a vertex is known to reach. -/
  low : α → Nat
  /-- The next discovery number. -/
  count : Nat
  /-- The vertices discovered and not yet in a component, latest first. -/
  stack : List α
  /-- The frames of the search, innermost first. -/
  work : List (Frame α)
  /-- The components closed so far, in order. -/
  closed : List (List α)

namespace Search

/-- Nothing discovered. -/
def empty : Search α :=
  { index := fun _ => none, low := fun _ => 0, count := 0, stack := [], work := [], closed := [] }

/-- Discovers a vertex and opens its frame. -/
def discover (graph : Adjacency α) (v : α) (search : Search α) : Search α :=
  { search with
    index := fun w => if w = v then some search.count else search.index w
    low := fun w => if w = v then search.count else search.low w
    count := search.count + 1
    stack := v :: search.stack
    work := ⟨v, graph.successors v⟩ :: search.work }

/-- Notes that a vertex reaches a discovery number. -/
def lower (v : α) (number : Nat) (search : Search α) : Search α :=
  { search with
    low := fun w => if w = v then min (search.low v) number else search.low w }

/-- Splits a stack after a vertex: what is popped up to it, and what stays. -/
def popThrough (v : α) : List α → List α × List α
  | [] => ([], [])
  | w :: rest =>
    if w = v then ([w], rest)
    else (w :: (popThrough v rest).1, (popThrough v rest).2)

/-- Closes the component of a vertex that reaches no earlier one. -/
def close (v : α) (search : Search α) : Search α :=
  if search.index v = some (search.low v) then
    let (component, stack) := popThrough v search.stack
    { search with stack, closed := search.closed ++ [component] }
  else search

/-- Hands what a finished vertex reaches to the vertex below it. -/
def handDown (v : α) (search : Search α) : Search α :=
  match search.work with
  | [] => search
  | frame :: _ => search.lower frame.vertex (search.low v)

/-- Looks at one successor, or finishes a vertex that has none left. -/
def step (graph : Adjacency α) (search : Search α) : Search α :=
  match search.work with
  | [] => search
  | ⟨v, []⟩ :: below => (({ search with work := below }).close v).handDown v
  | ⟨v, w :: rest⟩ :: below =>
    let search := { search with work := ⟨v, rest⟩ :: below }
    match search.index w with
    | none => search.discover graph w
    | some number => if w ∈ search.stack then search.lower v number else search

/-- Takes steps until no frame is left, but no more than the given number. -/
def run (graph : Adjacency α) : Nat → Search α → Search α
  | 0, search => search
  | fuel + 1, search =>
    if search.work.isEmpty then search else run graph fuel (search.step graph)

/-- A number of steps that suffices from one start: each arc is looked at once, and each vertex
but the start is discovered along an arc. -/
def stepBound (graph : Adjacency α) : Nat := 2 * graph.arcCount + 2

/-- Searches from a vertex, unless it is already known. -/
def visit (graph : Adjacency α) (search : Search α) (root : α) : Search α :=
  match search.index root with
  | some _ => search
  | none => (search.discover graph root).run graph (stepBound graph)

end Search

/-! ## Components -/

/-- The strongly connected components of what the vertices reach, in the order they close. -/
def components (vertices : List α) (graph : Adjacency α) : List (List α) :=
  (vertices.foldl (Search.visit graph) Search.empty).closed

end Digraph
end CodeAtlas
